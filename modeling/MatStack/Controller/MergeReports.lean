import MatStack.Controller.Json
import MatStack.Lib.Grouped

/-!
# Reports put together

The answer to a read comes in chunks, and the value of a list may come in parts: the beginning of
the list in a report of its own, and each further item in a report that appends it. `collectReports`
goes on until a chunk is the last one; `mergeReports` puts the reports of each attribute together,
whatever stands between them and wherever a chunk ends (`mergeReports_reassembles`).
-/

namespace MatStack

open Grouped

/-- A report of an attribute, as it was read. -/
structure AttributeReport where
  endpoint : Option UInt16
  cluster : Option UInt32
  attr : Option UInt32
  /-- The path names an item of a list. -/
  listAppend : Bool
  data : Option Json
  status : Option UInt8

/-- A message of reports. -/
structure ReportDataMessage where
  reports : List AttributeReport
  subscriptionId : Option UInt32
  moreChunks : Bool
  suppressResponse : Bool

/-! ## Chunks -/

/-- What comes back for a request, as far as it was read. -/
inductive ReadAnswer where
  | reportData (rd : Except ImError ReportDataMessage)
  | statusResponse (status : Except ImError UInt8)
  | other (opcode : UInt8)

/-- Why a read fails. -/
inductive ReadError where
  | im (e : ImError)
  | statusResponse (status : UInt8)
  | unexpectedOpcode (opcode : UInt8)

def maxReportChunks : Nat := 64

/-- Collects the chunks of an answer; `none` while the next one has not come. -/
def collectReports (msgs : List ReportDataMessage) :
    List ReadAnswer → Option (Except ReadError (List ReportDataMessage))
  | [] => none
  | .reportData (.error e) :: _ => some (.error (.im e))
  | .reportData (.ok rd) :: answers =>
    if maxReportChunks < (msgs ++ [rd]).length then
      some (.error (.im (.malformed "too many report chunks")))
    else if rd.moreChunks then collectReports (msgs ++ [rd]) answers
    else some (.ok (msgs ++ [rd]))
  | .statusResponse (.error e) :: _ => some (.error (.im e))
  | .statusResponse (.ok status) :: _ => some (.error (.statusResponse status))
  | .other opcode :: _ => some (.error (.unexpectedOpcode opcode))

/-! ## Merging -/

/-- A report's value is put in: it is appended, or takes the place of what there is. -/
def putData (slot : Option Json) (listAppend : Bool) (data : Json) : Json :=
  if listAppend then
    match slot with
    | none => .array [data]
    | some (.array items) => .array (items ++ [data])
    -- an item that comes first
    | some _ => .array [data]
  else data

/-- The attribute of a report that carries a value, and what is put in. -/
def AttributeReport.carried (rep : AttributeReport) : Option (UInt32 × Bool × Json) := do
  let attr ← rep.attr
  let data ← rep.data
  return (attr, rep.listAppend, data)

/-- A report is put in under its attribute; one without a value is passed over. -/
def mergeReport (t : Table UInt32 Json) (rep : AttributeReport) : Table UInt32 Json :=
  match rep.carried with
  | none => t
  | some entry => t.put (fun slot e => putData slot e.1 e.2) entry

/-- The values that the reports of some messages come to, each attribute where it came first. -/
def mergeReports (msgs : List ReportDataMessage) : List (UInt32 × Json) :=
  let t := msgs.foldl (fun t m => m.reports.foldl mergeReport t) empty
  Table.drain t.order t.map

/-! ## What is merged -/

/-- What the reports carry, in the order in which they came. -/
def carriedBy (msgs : List ReportDataMessage) : List (UInt32 × Bool × Json) :=
  (msgs.flatMap (·.reports)).filterMap (·.carried)

/-- A message without the reports of an attribute. -/
def ReportDataMessage.without (attr : UInt32) (m : ReportDataMessage) : ReportDataMessage :=
  { m with reports := m.reports.filter fun rep => rep.attr ≠ some attr }

section
variable {msgs : List ReportDataMessage} {attr : UInt32} {v : Json} {items pre : List Json}

theorem foldl_mergeReport (reports : List AttributeReport) (t : Table UInt32 Json) :
    reports.foldl mergeReport t = (reports.filterMap (·.carried)).foldl
      (Table.put fun slot e => putData slot e.1 e.2) t := by
  induction reports generalizing t with
  | nil => rfl
  | cons rep reports ih =>
    rw [List.foldl_cons, ih, mergeReport]
    cases h : rep.carried with
    | none => rw [List.filterMap_cons_none h]
    | some entry => rw [List.filterMap_cons_some h]; rfl

/-- The reports are put in one after the other, and it makes no difference where a chunk ends. -/
theorem mergeReports_eq (msgs : List ReportDataMessage) :
    mergeReports msgs = gather (fun slot e => putData slot e.1 e.2) (carriedBy msgs) := by
  rw [mergeReports, ← List.foldl_flatMap, foldl_mergeReport]
  exact drain_foldl _ _

/-- Items that are appended stand behind what there is, in their order. -/
theorem foldl_putData (items pre : List Json) :
    (items.map (true, ·)).foldl (fun v (e : Bool × Json) => putData (some v) e.1 e.2) (.array pre) =
      .array (pre ++ items) := by
  induction items generalizing pre with
  | nil => rw [List.append_nil]; rfl
  | cons item items ih =>
    rw [List.append_cons]
    exact ih (pre ++ [item])

theorem carriedBy_without (msgs : List ReportDataMessage) (attr : UInt32) :
    carriedBy (msgs.map (·.without attr)) = (carriedBy msgs).filter (·.1 ≠ attr) := by
  have hone : ∀ reports : List AttributeReport,
      (reports.filter fun rep => rep.attr ≠ some attr).filterMap (·.carried) =
        (reports.filterMap (·.carried)).filter (·.1 ≠ attr) := by
    intro reports
    rw [List.filterMap_filter, List.filter_filterMap]
    refine List.filterMap_congr fun rep _ => ?_
    obtain ⟨endpoint, cluster, attr', listAppend, data, status⟩ := rep
    cases attr' with
    | none => rfl
    | some a =>
      cases data <;> by_cases h : a = attr <;> simp [AttributeReport.carried, h, Option.filter]
  rw [carriedBy, carriedBy, ← hone, List.flatMap_map, List.filter_flatMap]
  rfl

/-- **Reports put together.** The attributes stand in the order in which they came first, each once.
Where the reports of an attribute begin with the beginning of a list and go on with items that are
appended, the attribute has the list with all the items in their order. An attribute with one report
has what was reported. Without the reports of an attribute the others are what they were, and it
makes no difference how the reports are divided among the messages. -/
theorem mergeReports_reassembles (msgs : List ReportDataMessage) :
    (mergeReports msgs).map (·.1) = ((carriedBy msgs).map (·.1)).eraseDups ∧
    (∀ attr pre items, entriesOf attr (carriedBy msgs) =
      (false, .array pre) :: items.map (true, ·) →
      ∀ v, (attr, v) ∈ mergeReports msgs ↔ v = .array (pre ++ items)) ∧
    (∀ attr data, entriesOf attr (carriedBy msgs) = [(false, data)] →
      ∀ v, (attr, v) ∈ mergeReports msgs ↔ v = data) ∧
    (∀ attr, (mergeReports msgs).filter (·.1 ≠ attr) = mergeReports (msgs.map (·.without attr))) ∧
    ∀ msgs', msgs.flatMap (·.reports) = msgs'.flatMap (·.reports) →
      mergeReports msgs = mergeReports msgs' := by
  refine ⟨?_, fun attr pre items h v => ?_, fun attr data h v => ?_, fun attr => ?_,
    fun msgs' h => ?_⟩
  · rw [mergeReports_eq, keys_gather]
  · rw [mergeReports_eq, mem_gather, h, gathered_cons]
    show some ((items.map (true, ·)).foldl _ (Json.array pre)) = some v ↔ _
    rw [foldl_putData, Option.some_inj, eq_comm]
  · rw [mergeReports_eq, mem_gather, h, gathered_cons]
    exact Option.some_inj.trans eq_comm
  · rw [mergeReports_eq, mergeReports_eq, carriedBy_without, gather_without]
  · rw [mergeReports_eq, mergeReports_eq, carriedBy, h]
    rfl

end

/-- A list in three parts over two messages, with another attribute and a status in between. -/
def sampleReports : List ReportDataMessage :=
  [⟨[⟨some 1, some 0x1D, some 1, false, some (.array [.int 6]), none⟩,
      ⟨some 1, some 0x1D, some 0, false, some (.bool true), none⟩,
      ⟨some 1, some 0x1D, some 1, true, some (.int 29), none⟩], none, true, false⟩,
    ⟨[⟨some 1, some 0x1D, some 9, false, none, some 0x86⟩,
      ⟨some 1, some 0x1D, some 1, true, some (.int 40), none⟩], none, false, true⟩]

theorem mergeReports_reassembles_sample :
    (mergeReports sampleReports).map (·.1) = [1, 0] ∧
      (1, .array [.int 6, .int 29, .int 40]) ∈ mergeReports sampleReports ∧
      (0, .bool true) ∈ mergeReports sampleReports := by
  obtain ⟨hkeys, hlist, hone, -⟩ := mergeReports_reassembles sampleReports
  exact ⟨hkeys.trans (by decide), (hlist 1 [.int 6] [.int 29, .int 40] rfl _).2 rfl,
    (hone 0 (.bool true) rfl _).2 rfl⟩

end MatStack
