import MatStack.Lib.Machine
import Mathlib.Data.List.Nodup

/-!
# The endpoint ledger

A bridged device keeps the endpoint number it was first given. The ledger holds the numbers in
memory, `endpoints.json` holds them across restarts; entries are never removed, so the number of a
device that left the configuration is not given to another. A reload reads the file only, so a
number survives one when it was saved; the increments are those of a release build, modulo 2 ^ 16.
-/

namespace MatStack

/-- The number after those of the root and the aggregator. -/
def firstBridgedEndpoint : UInt16 := 2

/-- The numbers by device id, one for each id. -/
structure EndpointMap where
  rows : List (String × UInt16)
  nodup : (rows.map Prod.fst).Nodup

namespace EndpointMap

def empty : EndpointMap := ⟨[], List.nodup_nil⟩

def get? (m : EndpointMap) (id : String) : Option UInt16 :=
  (m.rows.find? (·.1 == id)).map Prod.snd

theorem nodup_insert (m : EndpointMap) (id : String) (n : UInt16) :
    ((m.rows.filter (·.1 != id) ++ [(id, n)]).map Prod.fst).Nodup := by
  rw [List.map_append, List.nodup_append]
  refine ⟨m.nodup.sublist (List.filter_sublist.map _), List.nodup_singleton _, ?_⟩
  intro i hi j hj
  obtain ⟨row, hrow, rfl⟩ := List.mem_map.1 hi
  rw [List.map_singleton, List.mem_singleton] at hj
  subst hj
  simpa using (List.mem_filter.1 hrow).2

def insert (m : EndpointMap) (id : String) (n : UInt16) : EndpointMap :=
  ⟨m.rows.filter (·.1 != id) ++ [(id, n)], m.nodup_insert id n⟩

def values (m : EndpointMap) : List UInt16 := m.rows.map Prod.snd

variable {m : EndpointMap} {id : String} {n : UInt16} {row : String × UInt16}

theorem mem_of_get? (h : m.get? id = some n) : (id, n) ∈ m.rows := by
  obtain ⟨row, hrow, rfl⟩ := Option.map_eq_some_iff.1 h
  have hid : row.1 = id := by simpa using List.find?_some hrow
  rw [← hid]
  exact List.mem_of_find?_eq_some hrow

theorem get?_eq_none : m.get? id = none ↔ ∀ row ∈ m.rows, row.1 ≠ id := by
  simp [get?]

/-- Under an id that is not there yet, insertion keeps every row. -/
theorem mem_insert (h : m.get? id = none) :
    row ∈ (m.insert id n).rows ↔ row ∈ m.rows ∨ row = (id, n) := by
  have hne := get?_eq_none.1 h
  simp only [insert, List.mem_append, List.mem_filter, List.mem_singleton, bne_iff_ne]
  exact or_congr_left (and_iff_left_of_imp (hne row))

theorem mem_values (h : row ∈ m.rows) : row.2 ∈ m.values := List.mem_map_of_mem h

end EndpointMap

/-- The contents of `endpoints.json`. -/
structure LedgerFile where
  next : UInt16
  map : EndpointMap

/-- What reading `endpoints.json` and parsing it comes to. -/
inductive StoredLedger where
  | notFound
  | unreadable
  | corrupt
  | file (f : LedgerFile)

/-- The ledger in memory. -/
structure EndpointLedger where
  next : UInt16
  map : EndpointMap

namespace EndpointLedger

def fresh : EndpointLedger := ⟨firstBridgedEndpoint, .empty⟩

/-- The next number of a file, put above every number of its map. -/
def repairedNext (f : LedgerFile) : UInt16 :=
  match (f.map.values.map (·.toNat)).max? with
  | some max => if f.next.toNat ≤ max then UInt16.ofNat (max + 1) else f.next
  | none => f.next

/-- The ledger of a file, its next number put above those of the root and the aggregator. -/
def ofFile (f : LedgerFile) : EndpointLedger :=
  ⟨if repairedNext f < firstBridgedEndpoint then firstBridgedEndpoint else repairedNext f, f.map⟩

/-- `none` is an error of the read other than a missing file. -/
def load : StoredLedger → Option EndpointLedger
  | .notFound => some fresh
  | .unreadable => none
  | .corrupt => some fresh
  | .file f => some (ofFile f)

/-- The number of a device id, and the ledger with it. -/
def assign (l : EndpointLedger) (id : String) : UInt16 × EndpointLedger :=
  match l.map.get? id with
  | some endpoint => (endpoint, l)
  | none => (l.next, ⟨l.next + 1, l.map.insert id l.next⟩)

/-- The file a save writes. -/
def save (l : EndpointLedger) : LedgerFile := ⟨l.next, l.map⟩

/-- `assign` adds one to the greatest number of sixteen bits. -/
def Overflows (l : EndpointLedger) (id : String) : Prop :=
  l.map.get? id = none ∧ l.next = 0xFFFF

instance (l : EndpointLedger) (id : String) : Decidable (l.Overflows id) :=
  inferInstanceAs (Decidable (_ ∧ _))

end EndpointLedger

/-! ## Numberings -/

/-- The next number is one of a bridged endpoint and lies above every number of the map; the numbers
are those of bridged endpoints and distinct. -/
structure EndpointMap.Numbered (m : EndpointMap) (next : UInt16) : Prop where
  first : 2 ≤ next.toNat
  bounds : ∀ row ∈ m.rows, 2 ≤ row.2.toNat ∧ row.2.toNat < next.toNat
  distinct : ∀ row ∈ m.rows, ∀ row' ∈ m.rows, row.2 = row'.2 → row.1 = row'.1

namespace EndpointMap.Numbered

variable {m : EndpointMap} {next : UInt16} {id : String}

theorem empty : EndpointMap.empty.Numbered firstBridgedEndpoint where
  first := Nat.le_refl _
  bounds := List.forall_mem_nil _
  distinct := List.forall_mem_nil _

/-- The next number goes to an id that has none, short of the last number. -/
theorem insert (h : m.Numbered next) (hid : m.get? id = none) (hnext : next ≠ 0xFFFF) :
    (m.insert id next).Numbered (next + 1) := by
  have hlt : next.toNat < 65535 := by
    have h₁ := next.toNat_lt
    have h₂ : next.toNat ≠ 65535 := fun h' => hnext (UInt16.toNat_inj.1 h')
    omega
  have hsucc : (next + 1).toNat = next.toNat + 1 := by
    rw [UInt16.toNat_add, UInt16.toNat_one]
    omega
  have hfirst := h.first
  refine ⟨by omega, ?_, ?_⟩
  · intro row hrow
    rw [EndpointMap.mem_insert hid] at hrow
    obtain hrow | rfl := hrow
    · have := h.bounds row hrow
      omega
    · rw [hsucc]
      exact ⟨hfirst, Nat.lt_succ_self _⟩
  · intro row hrow row' hrow' heq
    rw [EndpointMap.mem_insert hid] at hrow hrow'
    obtain hrow | rfl := hrow <;> obtain hrow' | rfl := hrow'
    · exact h.distinct row hrow row' hrow' heq
    · have := (h.bounds row hrow).2
      rw [heq] at this
      exact absurd this (Nat.lt_irrefl _)
    · have := (h.bounds row' hrow').2
      rw [← heq] at this
      exact absurd this (Nat.lt_irrefl _)
    · rfl

/-- Ids of a map are equal exactly when their numbers are. -/
theorem fst_eq_iff (h : m.Numbered next) {row row' : String × UInt16} (hrow : row ∈ m.rows)
    (hrow' : row' ∈ m.rows) : row.1 = row'.1 ↔ row.2 = row'.2 := by
  constructor
  · intro heq
    have := List.inj_on_of_nodup_map m.nodup hrow hrow' heq
    rw [this]
  · exact h.distinct row hrow row' hrow'

end EndpointMap.Numbered

/-! ## Loads -/

namespace EndpointLedger

theorem ofFile_map (f : LedgerFile) : (ofFile f).map = f.map := rfl

/-- Short of the last number, the repaired number lies above every number of the map. -/
theorem lt_repairedNext {f : LedgerFile} (h : 0xFFFF ∉ f.map.values) {n : UInt16}
    (hn : n ∈ f.map.values) : n.toNat < (repairedNext f).toNat := by
  have hmem : n.toNat ∈ f.map.values.map (·.toNat) := List.mem_map_of_mem hn
  unfold repairedNext
  cases hmax : (f.map.values.map (·.toNat)).max? with
  | none =>
    rw [List.max?_eq_none_iff.1 hmax] at hmem
    cases hmem
  | some max =>
    obtain ⟨hin, hle⟩ := List.max?_eq_some_iff.1 hmax
    obtain ⟨m, hm, rfl⟩ := List.mem_map.1 hin
    have hlast : m.toNat ≠ 65535 := fun h' => h ((UInt16.toNat_inj.1 h' : m = 0xFFFF) ▸ hm)
    have hm16 := m.toNat_lt
    have := hle _ hmem
    dsimp only
    split
    · rw [UInt16.toNat_ofNat']
      omega
    · omega

theorem repairedNext_le (f : LedgerFile) : (repairedNext f).toNat ≤ (ofFile f).next.toNat := by
  unfold ofFile
  dsimp only
  split
  · next h => exact Nat.le_of_lt (UInt16.lt_iff_toNat_lt.1 h)
  · exact Nat.le_refl _

theorem le_next_ofFile (f : LedgerFile) : 2 ≤ (ofFile f).next.toNat := by
  unfold ofFile
  dsimp only
  split
  · exact Nat.le_refl 2
  · next h => exact Nat.le_of_not_lt fun h' => h (UInt16.lt_iff_toNat_lt.2 h')

/-- The next number of a file read lies above every number of the file, unless one of them is the
last number there is. -/
theorem lt_next_ofFile {f : LedgerFile} (h : 0xFFFF ∉ f.map.values) {n : UInt16}
    (hn : n ∈ f.map.values) : n.toNat < (ofFile f).next.toNat :=
  Nat.lt_of_lt_of_le (lt_repairedNext h hn) (repairedNext_le f)

/-- A file in order is read as it stands. -/
theorem ofFile_of_numbered {f : LedgerFile} (h : f.map.Numbered f.next) :
    ofFile f = ⟨f.next, f.map⟩ := by
  have hnext : ¬ f.next < firstBridgedEndpoint := fun h' =>
    absurd (UInt16.lt_iff_toNat_lt.1 h') (Nat.not_lt.2 h.first)
  have hrepaired : repairedNext f = f.next := by
    unfold repairedNext
    cases hm : (f.map.values.map (·.toNat)).max? with
    | none => rfl
    | some max =>
      obtain ⟨_, hn, rfl⟩ := List.mem_map.1 (List.max?_eq_some_iff.1 hm).1
      obtain ⟨row, hrow, rfl⟩ := List.mem_map.1 hn
      exact if_neg (Nat.not_le.2 (h.bounds row hrow).2)
  rw [ofFile, hrepaired, if_neg hnext]

end EndpointLedger

/-! ## Runs -/

/-- A device with its ledger, and what its assigns have returned. -/
structure LedgerHost where
  disk : StoredLedger
  ledger : Option EndpointLedger
  given : List (String × UInt16)

inductive LedgerEvent where
  | load
  | assign (id : String)
  | save (written : Bool)

namespace LedgerHost

/-- No file yet, and nothing read. -/
def init : LedgerHost := ⟨.notFound, none, []⟩

/-- One call. `assign` and `save` are calls on a ledger, so there are none before the first load. -/
def step (s : LedgerHost) : LedgerEvent → LedgerHost
  | .load => { s with ledger := EndpointLedger.load s.disk }
  | .assign id =>
    match s.ledger with
    | none => s
    | some l =>
      { s with ledger := some (l.assign id).2, given := (id, (l.assign id).1) :: s.given }
  | .save written =>
    match s.ledger with
    | none => s
    | some l => if written then { s with disk := .file l.save } else s

/-- The rows of the file, if there is one. -/
def storedRows (s : LedgerHost) : List (String × UInt16) :=
  match s.disk with
  | .file f => f.map.rows
  | _ => []

/-- Reloads come after a save of the numbers handed out, and no new id is given the last number. -/
def Careful (s : LedgerHost) : LedgerEvent → Prop
  | .load => ∀ row ∈ s.given, row ∈ s.storedRows
  | .assign id => ∀ l ∈ s.ledger, ¬ l.Overflows id
  | .save _ => True

instance (s : LedgerHost) : ∀ e, Decidable (s.Careful e)
  | .load => inferInstanceAs (Decidable (∀ row ∈ s.given, row ∈ s.storedRows))
  | .assign id => inferInstanceAs (Decidable (∀ l ∈ s.ledger, ¬ l.Overflows id))
  | .save _ => inferInstanceAs (Decidable True)

/-- The file is none or one in order, so is the ledger, and it holds the numbers handed out. -/
structure Stable (s : LedgerHost) : Prop where
  disk : s.disk = .notFound ∨ ∃ f, s.disk = .file f ∧ f.map.Numbered f.next
  ledger : ∀ l ∈ s.ledger, l.map.Numbered l.next
  held : ∀ l ∈ s.ledger, ∀ row ∈ s.given, row ∈ l.map.rows
  unread : s.ledger = none → s.given = []

theorem stable_init : Stable init where
  disk := .inl rfl
  ledger _ h := by cases h
  held _ h := by cases h
  unread _ := rfl

variable {s : LedgerHost}

theorem Stable.load (h : s.Stable) (hc : s.Careful .load) : (s.step .load).Stable := by
  obtain hd | ⟨f, hd, hf⟩ := h.disk
  · have hgiven : s.given = [] := by
      rw [List.eq_nil_iff_forall_not_mem]
      intro row hrow
      have := hc row hrow
      rw [storedRows, hd] at this
      cases this
    refine ⟨.inl hd, ?_, ?_, ?_⟩
    · intro l hl
      rw [step, hd] at hl
      cases hl
      exact .empty
    · intro l _ row hrow
      rw [step, hgiven] at hrow
      cases hrow
    · exact fun _ => hgiven
  · have hload : (s.step .load).ledger = some ⟨f.next, f.map⟩ := by
      rw [step, hd, EndpointLedger.load, EndpointLedger.ofFile_of_numbered hf]
    refine ⟨.inr ⟨f, hd, hf⟩, ?_, ?_, ?_⟩
    · intro l hl
      rw [hload] at hl
      cases hl
      exact hf
    · intro l hl row hrow
      rw [hload] at hl
      cases hl
      have := hc row hrow
      rwa [storedRows, hd] at this
    · intro hnone
      rw [hload] at hnone
      cases hnone

theorem Stable.assign {id : String} (h : s.Stable) (hc : s.Careful (.assign id)) :
    (s.step (.assign id)).Stable := by
  cases hl : s.ledger with
  | none =>
    rw [step, hl]
    exact h
  | some l =>
    have hnum := h.ledger l hl
    have hheld := h.held l hl
    have hstep : s.step (.assign id) =
        { s with ledger := some (l.assign id).2, given := (id, (l.assign id).1) :: s.given } := by
      rw [step, hl]
    cases hid : l.map.get? id with
    | some endpoint =>
      rw [hstep, EndpointLedger.assign, hid]
      refine ⟨h.disk, ?_, ?_, fun hnone => by cases hnone⟩
      · rintro _ ⟨⟩
        exact hnum
      · rintro _ ⟨⟩ row hrow
        obtain rfl | hrow := List.mem_cons.1 hrow
        · exact EndpointMap.mem_of_get? hid
        · exact hheld row hrow
    | none =>
      have hnext : l.next ≠ 0xFFFF := fun h' => hc l hl ⟨hid, h'⟩
      rw [hstep, EndpointLedger.assign, hid]
      refine ⟨h.disk, ?_, ?_, fun hnone => by cases hnone⟩
      · rintro _ ⟨⟩
        exact hnum.insert hid hnext
      · rintro _ ⟨⟩ row hrow
        refine (EndpointMap.mem_insert hid).2 ?_
        obtain rfl | hrow := List.mem_cons.1 hrow
        · exact .inr rfl
        · exact .inl (hheld row hrow)

theorem Stable.save {written : Bool} (h : s.Stable) : (s.step (.save written)).Stable := by
  cases hl : s.ledger with
  | none =>
    rw [step, hl]
    exact h
  | some l =>
    rw [step, hl]
    dsimp only
    split
    · rw [← hl]
      exact ⟨.inr ⟨l.save, rfl, h.ledger l hl⟩, h.ledger, h.held, h.unread⟩
    · exact h

theorem Stable.step {e : LedgerEvent} (h : s.Stable) (hc : s.Careful e) : (s.step e).Stable := by
  cases e with
  | load => exact h.load hc
  | assign id => exact h.assign hc
  | save written => exact h.save

open Machine

theorem run_stable {es : List LedgerEvent} (h : Along LedgerHost.step Careful init es) :
    (run LedgerHost.step init es).Stable :=
  run_invariant stable_init (fun _ _ hs hc => Stable.step hs hc) h

/-- Numbers handed out are those of bridged endpoints, and two of them are equal exactly when their
ids are. -/
theorem Stable.given (h : s.Stable) :
    (∀ row ∈ s.given, 2 ≤ row.2.toNat) ∧
      ∀ row ∈ s.given, ∀ row' ∈ s.given, row.1 = row'.1 ↔ row.2 = row'.2 := by
  cases hl : s.ledger with
  | none =>
    rw [h.unread hl]
    exact ⟨List.forall_mem_nil _, List.forall_mem_nil _⟩
  | some l =>
    have hnum := h.ledger l hl
    have hheld := h.held l hl
    constructor
    · intro row hrow
      exact (hnum.bounds row (hheld row hrow)).1
    · intro row hrow row' hrow'
      exact hnum.fst_eq_iff (hheld row hrow) (hheld row' hrow')

/-- **Endpoint numbers are stable.** In a run of loads, assigns and saves from no file, in which a
reload comes after a save of the numbers handed out and no new id is given the last number, an id
gets one number for ever and no other id gets it. A file that `load` accepts, whatever it holds
short of the last number, is continued with a number that is free in it, and the increment stays
within sixteen bits short of the last number. -/
theorem endpointNumbers_stable :
    (∀ es, Along LedgerHost.step Careful init es →
      (∀ row ∈ (run LedgerHost.step init es).given, 2 ≤ row.2.toNat) ∧
      ∀ row ∈ (run LedgerHost.step init es).given,
        ∀ row' ∈ (run LedgerHost.step init es).given, row.1 = row'.1 ↔ row.2 = row'.2) ∧
    ∀ f : LedgerFile, 0xFFFF ∉ f.map.values →
      2 ≤ (EndpointLedger.ofFile f).next.toNat ∧
      (∀ n ∈ f.map.values, n.toNat < (EndpointLedger.ofFile f).next.toNat) ∧
      ∀ id, f.map.get? id = none → ¬ (EndpointLedger.ofFile f).Overflows id →
        ((EndpointLedger.ofFile f).assign id).1 = (EndpointLedger.ofFile f).next ∧
        ((EndpointLedger.ofFile f).assign id).2.next.toNat =
          (EndpointLedger.ofFile f).next.toNat + 1 := by
  refine ⟨fun es h => (run_stable h).given, fun f hf => ⟨?_, ?_, ?_⟩⟩
  · exact EndpointLedger.le_next_ofFile f
  · exact fun n hn => EndpointLedger.lt_next_ofFile hf hn
  · intro id hid hover
    have hid' : (EndpointLedger.ofFile f).map.get? id = none := by
      rw [EndpointLedger.ofFile_map]
      exact hid
    have hnext : (EndpointLedger.ofFile f).next.toNat ≠ 65535 := fun h' =>
      hover ⟨hid', UInt16.toNat_inj.1 h'⟩
    have hlt := (EndpointLedger.ofFile f).next.toNat_lt
    rw [EndpointLedger.assign, hid']
    refine ⟨rfl, ?_⟩
    rw [UInt16.toNat_add, UInt16.toNat_one]
    omega

/-- A device that is restarted keeps its numbers. -/
theorem endpointNumbers_stable_restart :
    Along LedgerHost.step Careful init
        [.load, .assign "lamp", .save true, .load, .assign "fan", .assign "lamp"] ∧
      (∀ row ∈ (run LedgerHost.step init
          [.load, .assign "lamp", .save true, .load, .assign "fan", .assign "lamp"]).given,
        2 ≤ row.2.toNat) ∧
      0xFFFF ∉ (EndpointMap.empty.insert "lamp" 7).values ∧
      2 ≤ (EndpointLedger.ofFile ⟨0, EndpointMap.empty.insert "lamp" 7⟩).next.toNat := by
  have hrun : Along LedgerHost.step Careful init
      [.load, .assign "lamp", .save true, .load, .assign "fan", .assign "lamp"] := by decide
  have hfile : 0xFFFF ∉ (EndpointMap.empty.insert "lamp" 7).values := by decide
  exact ⟨hrun, (endpointNumbers_stable.1 _ hrun).1, hfile, (endpointNumbers_stable.2 _ hfile).1⟩

/-- Two devices get one number when the first one's is not saved before the ledger is read again. -/
theorem endpointNumbers_reused_unsaved :
    ¬ ∀ es, ∀ row ∈ (run LedgerHost.step init es).given,
        ∀ row' ∈ (run LedgerHost.step init es).given, row.1 = row'.1 ↔ row.2 = row'.2 := by
  intro h
  have hgiven : (run LedgerHost.step init [.load, .assign "lamp", .load, .assign "fan"]).given =
      [("fan", 2), ("lamp", 2)] := by decide
  have := h [.load, .assign "lamp", .load, .assign "fan"]
  rw [hgiven] at this
  have heq := (this ("fan", 2) (.head _) ("lamp", 2) (.tail _ (.head _))).2 rfl
  exact absurd heq (by decide)

end LedgerHost

end MatStack
