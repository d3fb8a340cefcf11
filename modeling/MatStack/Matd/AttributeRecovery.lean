import Mathlib.Logic.Function.Basic
import Mathlib.Data.Option.Defs
import Mathlib.Data.Fintype.Basic
import MatStack.Controller.MergeReports
import MatStack.Controller.TlvMembers
import MatStack.Lib.Checked
import MatStack.Lib.Trace

/-!
# Attribute recovery across blind windows

The daemon keeps the last value that a node reported for each attribute. When it subscribes again
the node reports all its attributes; a value that differs from the one kept changed while nobody
listened, and is passed on as a recovered event. The values are shared by all sessions of a node and
last until the node is forgotten. What is passed on is a function of the reports that came before
(`LastKept.emit`), and what is kept is the last value reported (`LastKept.step`).
-/

namespace MatStack

open Machine

/-! ## Values -/

/-- Equality of finite floating-point numbers, by their bits: zero has two signs. -/
def sameFloat (a b : UInt64) : Bool := a == b || (a <<< 1 == 0 && b <<< 1 == 0)

mutual

/-- Equality of values. -/
def Json.same : Json → Json → Bool
  | .null, .null => true
  | .bool a, .bool b => a == b
  | .int a, .int b => a == b
  | .float a, .float b => sameFloat a b
  | .string a, .string b => a == b
  | .array a, .array b => Json.sameItems a b
  | .object a, .object b => Json.sameFields a b
  | _, _ => false

def Json.sameItems : List Json → List Json → Bool
  | [], [] => true
  | a :: as, b :: bs => a.same b && Json.sameItems as bs
  | _, _ => false

def Json.sameFields : List (String × Json) → List (String × Json) → Bool
  | [], [] => true
  | (k, a) :: as, (l, b) :: bs => k == l && a.same b && Json.sameFields as bs
  | _, _ => false

end

/-! ### An equivalence -/

theorem sameFloat_iff {a b : UInt64} :
    sameFloat a b = true ↔ a = b ∨ a <<< 1 = 0 ∧ b <<< 1 = 0 := by
  simp [sameFloat]

theorem sameFloat_symm {a b : UInt64} (h : sameFloat a b = true) : sameFloat b a = true :=
  sameFloat_iff.2 ((sameFloat_iff.1 h).imp Eq.symm And.symm)

theorem sameFloat_trans {a b c : UInt64} (h : sameFloat a b = true) (h' : sameFloat b c = true) :
    sameFloat a c = true := by
  obtain rfl | ⟨ha, hb⟩ := sameFloat_iff.1 h
  · exact h'
  · obtain rfl | ⟨-, hc⟩ := sameFloat_iff.1 h'
    · exact h
    · exact sameFloat_iff.2 (.inr ⟨ha, hc⟩)

mutual

theorem Json.same_refl : ∀ a : Json, a.same a = true
  | .null => rfl
  | .bool a => beq_self_eq_true a
  | .int a => beq_self_eq_true a
  | .float _ => sameFloat_iff.2 (.inl rfl)
  | .string a => beq_self_eq_true a
  | .array as => Json.sameItems_refl as
  | .object as => Json.sameFields_refl as

theorem Json.sameItems_refl : ∀ as : List Json, Json.sameItems as as = true
  | [] => rfl
  | a :: as => by rw [Json.sameItems, a.same_refl, Json.sameItems_refl as, Bool.and_self]

theorem Json.sameFields_refl : ∀ as : List (String × Json), Json.sameFields as as = true
  | [] => rfl
  | (k, a) :: as => by
    rw [Json.sameFields, beq_self_eq_true, a.same_refl, Json.sameFields_refl as, Bool.and_self,
      Bool.and_self]

end

mutual

/-- Values that are each the same as a third are the same. -/
theorem Json.same_of_same : ∀ {a b c : Json}, a.same b = true → c.same b = true → a.same c = true
  | .null, .null, .null, _, _ => rfl
  | .bool _, .bool _, .bool _, h, h' => by
    rw [Json.same] at h h' ⊢
    rw [eq_of_beq h, ← eq_of_beq h', beq_self_eq_true]
  | .int _, .int _, .int _, h, h' => by
    rw [Json.same] at h h' ⊢
    rw [eq_of_beq h, ← eq_of_beq h', beq_self_eq_true]
  | .float _, .float _, .float _, h, h' => sameFloat_trans h (sameFloat_symm h')
  | .string _, .string _, .string _, h, h' => by
    rw [Json.same] at h h' ⊢
    rw [eq_of_beq h, ← eq_of_beq h', beq_self_eq_true]
  | .array _, .array _, .array _, h, h' => Json.sameItems_of_same h h'
  | .object _, .object _, .object _, h, h' => Json.sameFields_of_same h h'

theorem Json.sameItems_of_same : ∀ {as bs cs : List Json}, Json.sameItems as bs = true →
    Json.sameItems cs bs = true → Json.sameItems as cs = true
  | [], [], [], _, _ => rfl
  | a :: as, b :: bs, c :: cs, h, h' => by
    rw [Json.sameItems, Bool.and_eq_true] at h h' ⊢
    exact ⟨Json.same_of_same h.1 h'.1, Json.sameItems_of_same h.2 h'.2⟩

theorem Json.sameFields_of_same : ∀ {as bs cs : List (String × Json)},
    Json.sameFields as bs = true → Json.sameFields cs bs = true → Json.sameFields as cs = true
  | [], [], [], _, _ => rfl
  | (k, a) :: as, (l, b) :: bs, (m, c) :: cs, h, h' => by
    rw [Json.sameFields, Bool.and_eq_true, Bool.and_eq_true] at h h' ⊢
    refine ⟨⟨?_, Json.same_of_same h.1.2 h'.1.2⟩, Json.sameFields_of_same h.2 h'.2⟩
    rw [eq_of_beq h.1.1, ← eq_of_beq h'.1.1, beq_self_eq_true]

end

theorem Json.same_symm {a b : Json} (h : a.same b = true) : b.same a = true :=
  Json.same_of_same b.same_refl h

theorem Json.same_trans {a b c : Json} (h : a.same b = true) (h' : b.same c = true) :
    a.same c = true := Json.same_of_same h (Json.same_symm h')

/-- A value that is neither a list nor a struct. -/
def Json.scalar : Json → Bool
  | .array _ | .object _ => false
  | _ => true

/-! ## Reports -/

/-- Node, endpoint, cluster and attribute. -/
abbrev ValueKey := UInt64 × UInt16 × UInt32 × UInt32

/-- An attribute's value as the listeners get it. `recovered` marks a change that is inferred from
the first reports of a subscription. -/
structure AttributeEvent where
  timestamp : String
  nodeId : UInt64
  endpoint : UInt16
  cluster : UInt32
  attr : UInt32
  value : Json
  priming : Bool
  recovered : Bool

namespace AttributeEvent

def key (ev : AttributeEvent) : ValueKey := (ev.nodeId, ev.endpoint, ev.cluster, ev.attr)

/-- The event as a change that was missed. -/
def promoted (ev : AttributeEvent) : AttributeEvent :=
  { ev with priming := false, recovered := true }

end AttributeEvent

/-- The value that a report carries, and its place: nothing for a report without a full path or a
value, for an item of a list, and for a list or a struct. -/
def AttributeReport.scalarAt (nodeId : UInt64) (rep : AttributeReport) :
    Option (ValueKey × Json) := do
  let endpoint ← rep.endpoint
  let cluster ← rep.cluster
  let attr ← rep.attr
  let data ← rep.data
  if rep.listAppend then none
  else if data.scalar then some ((nodeId, endpoint, cluster, attr), data)
  else none

/-- The events of a report. -/
def eventsFromReportAt (nodeId : UInt64) (msg : ReportDataMessage) (priming : Bool) (ts : String) :
    List AttributeEvent :=
  (msg.reports.filterMap (·.scalarAt nodeId)).map fun e =>
    { timestamp := ts
      nodeId := e.1.1
      endpoint := e.1.2.1
      cluster := e.1.2.2.1
      attr := e.1.2.2.2
      value := e.2
      priming
      recovered := false }

/-! ## The values kept -/

/-- The last value of each attribute. -/
abbrev ValueCache := ValueKey → Option Json

/-- Enters an event's value. An event of the first reports of a subscription whose attribute had
another value is promoted. -/
def classifyAgainstCache (cache : ValueCache) (ev : AttributeEvent) :
    AttributeEvent × ValueCache :=
  if (cache ev.key).any (·.same ev.value) then (ev, cache)
  else
    let next := Function.update cache ev.key (some ev.value)
    match (cache ev.key).filter fun _ => ev.priming with
    | some _ => (ev.promoted, next)
    | none => (ev, next)

/-- Drops the values of a node. -/
def ValueCache.forget (cache : ValueCache) (nodeId : UInt64) : ValueCache := fun k =>
  if k.1 = nodeId then none else cache k

/-! ## The daemon -/

/-- The first reports of a subscription, each with the time of its receipt. -/
abbrev Priming := List (ReportDataMessage × String)

/-- What happens to the values: a subscription starts, one reports, or a node is forgotten. -/
inductive ReportEvent where
  | subscribed (nodeId : UInt64) (priming : Priming)
  | reported (nodeId : UInt64) (msg : ReportDataMessage) (ts : String)
  | forgotten (nodeId : UInt64)

/-- What of it concerns the values: single values, and the end of what is known of a node. -/
inductive Sighting where
  | entry (ev : AttributeEvent)
  | forgotten (nodeId : UInt64)

/-- The entries that a priming consists of. -/
def Priming.entries (nodeId : UInt64) (priming : Priming) : List AttributeEvent :=
  priming.flatMap fun m => eventsFromReportAt nodeId m.1 true m.2

def ReportEvent.seen : ReportEvent → List Sighting
  | .subscribed nodeId priming => (priming.entries nodeId).map .entry
  | .reported nodeId msg ts => (eventsFromReportAt nodeId msg false ts).map .entry
  | .forgotten nodeId => [.forgotten nodeId]

namespace Sighting

/-- The values kept after it. -/
def step (cache : ValueCache) : Sighting → ValueCache
  | entry ev => (classifyAgainstCache cache ev).2
  | forgotten nodeId => cache.forget nodeId

/-- What is passed on. -/
def emit (cache : ValueCache) : Sighting → List AttributeEvent
  | entry ev => [(classifyAgainstCache cache ev).1]
  | forgotten _ => []

end Sighting

/-- The values kept after some events, from the start of the daemon. -/
def keptAfter (es : List ReportEvent) : ValueCache :=
  run Sighting.step (fun _ => none) (es.flatMap ReportEvent.seen)

/-- The events that were passed on. -/
def emitted (es : List ReportEvent) : List AttributeEvent :=
  trace Sighting.step Sighting.emit (fun _ => none) (es.flatMap ReportEvent.seen)

/-! ## What is to be passed on -/

/-- The value of an attribute after one more thing was seen. -/
def Sighting.lastOf (k : ValueKey) (last : Option Json) : Sighting → Option Json
  | .entry ev => if ev.key = k then some ev.value else last
  | .forgotten nodeId => if k.1 = nodeId then none else last

/-- The last value that was reported for an attribute since its node was forgotten last. -/
def lastReported (h : List Sighting) (k : ValueKey) : Option Json :=
  h.foldl (Sighting.lastOf k) none

/-- What is to be passed on of an entry: a priming entry whose attribute was reported before with
another last value is promoted, any other is left as it is. -/
def Sighting.answer (before : List Sighting) : Sighting → List AttributeEvent
  | .entry ev =>
    [if ev.priming && (lastReported before ev.key).any (!·.same ev.value) then ev.promoted else ev]
  | .forgotten _ => []

/-- The same for each of some, in order. -/
def answersAfter (before : List Sighting) : List Sighting → List AttributeEvent
  | [] => []
  | s :: h => s.answer before ++ answersAfter (before ++ [s]) h

/-! ## What is kept -/

section
variable {cache : ValueCache} {ev : AttributeEvent} {before h : List Sighting} {k : ValueKey}

theorem classify_of_same (hsame : (cache ev.key).any (·.same ev.value) = true) :
    classifyAgainstCache cache ev = (ev, cache) := if_pos hsame

/-- An entry that is not what is kept. -/
theorem classify_of_not_same (hsame : ¬(cache ev.key).any (·.same ev.value) = true) :
    classifyAgainstCache cache ev =
      (if ev.priming && (cache ev.key).isSome then ev.promoted else ev,
        Function.update cache ev.key (some ev.value)) := by
  rw [classifyAgainstCache, if_neg hsame]
  cases cache ev.key <;> cases ev.priming <;> rfl

/-- What is kept is the last value, or one that is the same. -/
def LastKept (cache : ValueCache) (h : List Sighting) : Prop :=
  ∀ k, Option.Rel (fun a b => a.same b = true) (cache k) (lastReported h k)

theorem lastReported_concat (h : List Sighting) (s : Sighting) (k : ValueKey) :
    lastReported (h ++ [s]) k = s.lastOf k (lastReported h k) := List.foldl_concat ..

/-- A value is the same as what is kept when it is the same as the last one. -/
theorem LastKept.any_same (hkept : LastKept cache before) (v : Json) :
    (cache k).any (·.same v) = (lastReported before k).any (·.same v) := by
  have hk := hkept k
  generalize cache k = kept at hk ⊢
  generalize lastReported before k = last at hk ⊢
  cases hk with
  | none => rfl
  | some hab =>
    refine Bool.eq_iff_iff.2 ⟨fun h => ?_, fun h => ?_⟩
    · exact Json.same_trans (Json.same_symm hab) h
    · exact Json.same_trans hab h

/-- Something is kept when something was reported. -/
theorem LastKept.isSome (hkept : LastKept cache before) :
    (cache k).isSome = (lastReported before k).isSome := by
  have hk := hkept k
  generalize cache k = kept at hk ⊢
  generalize lastReported before k = last at hk ⊢
  cases hk <;> rfl

/-- **One step.** What is kept stays the last value. -/
theorem LastKept.step (hkept : LastKept cache before) (s : Sighting) :
    LastKept (s.step cache) (before ++ [s]) := by
  intro k
  rw [lastReported_concat]
  cases s with
  | forgotten nodeId =>
    by_cases hk : k.1 = nodeId
    · simp only [Sighting.step, ValueCache.forget, Sighting.lastOf, if_pos hk]
      exact .none
    · simp only [Sighting.step, ValueCache.forget, Sighting.lastOf, if_neg hk]
      exact hkept k
  | entry ev =>
    by_cases hsame : (cache ev.key).any (·.same ev.value) = true
    · rw [Sighting.step, classify_of_same hsame, Sighting.lastOf]
      by_cases hk : ev.key = k
      · rw [if_pos hk, ← hk]
        obtain ⟨prev, hprev, hv⟩ := (Option.any_eq_true _ _).1 hsame
        dsimp only
        rw [hprev]
        exact .some hv
      · rw [if_neg hk]
        exact hkept k
    · rw [Sighting.step, classify_of_not_same hsame, Sighting.lastOf]
      by_cases hk : ev.key = k
      · dsimp only
        rw [if_pos hk, ← hk, Function.update_self]
        exact .some ev.value.same_refl
      · dsimp only
        rw [if_neg hk, Function.update_of_ne (Ne.symm hk)]
        exact hkept k

/-- What is passed on is what is to be passed on. -/
theorem LastKept.emit (hkept : LastKept cache before) (s : Sighting) :
    s.emit cache = s.answer before := by
  cases s with
  | forgotten => rfl
  | entry ev =>
    have hany := hkept.any_same (k := ev.key) ev.value
    have hsome := hkept.isSome (k := ev.key)
    have hnot : (lastReported before ev.key).any (!·.same ev.value) =
        ((lastReported before ev.key).isSome &&
          !(lastReported before ev.key).any (·.same ev.value)) := by
      cases lastReported before ev.key <;> rfl
    rw [Sighting.emit, Sighting.answer, hnot, ← hany, ← hsome]
    by_cases hsame : (cache ev.key).any (·.same ev.value) = true
    · rw [classify_of_same hsame, hsame, Bool.not_true, Bool.and_false, Bool.and_false,
        if_neg Bool.false_ne_true]
    · rw [classify_of_not_same hsame, eq_false_of_ne_true hsame, Bool.not_false, Bool.and_true]

/-- **A run.** -/
theorem LastKept.trace (hkept : LastKept cache before) (h : List Sighting) :
    LastKept (run Sighting.step cache h) (before ++ h) ∧
      Machine.trace Sighting.step Sighting.emit cache h = answersAfter before h := by
  induction h generalizing cache before with
  | nil => exact ⟨by rwa [run_nil, List.append_nil], rfl⟩
  | cons s h ih =>
    obtain ⟨hrun, htrace⟩ := ih (hkept.step s)
    refine ⟨?_, ?_⟩
    · rwa [List.append_assoc] at hrun
    · rw [trace_cons, answersAfter, hkept.emit, htrace]

end

/-! ## A priming that comes again -/

section
variable {cache : ValueCache} {ev : AttributeEvent} {evs : List AttributeEvent} {k : ValueKey}
  {nodeId : UInt64} {priming priming' : Priming}

/-- The values that a priming carries, in order. -/
def Priming.values (nodeId : UInt64) (priming : Priming) : List (ValueKey × Json) :=
  (priming.flatMap (·.1.reports)).filterMap (·.scalarAt nodeId)

/-- No attribute has two values in it. -/
def SingleValued (values : List (ValueKey × Json)) : Prop :=
  values.Pairwise fun e e' => e.1 = e'.1 → e.2.same e'.2 = true

/-- The value is what is kept for its attribute. -/
def IsKept (cache : ValueCache) (e : ValueKey × Json) : Prop := (cache e.1).any (·.same e.2) = true

theorem map_eventsFromReportAt (nodeId : UInt64) (msg : ReportDataMessage) (priming : Bool)
    (ts : String) : (eventsFromReportAt nodeId msg priming ts).map (fun ev => (ev.key, ev.value)) =
      msg.reports.filterMap (·.scalarAt nodeId) := by
  rw [eventsFromReportAt, List.map_map]
  exact List.map_id _

theorem map_entries (nodeId : UInt64) (priming : Priming) :
    (priming.entries nodeId).map (fun ev => (ev.key, ev.value)) = priming.values nodeId := by
  rw [Priming.entries, Priming.values, List.map_flatMap, List.filterMap_flatMap]
  exact List.flatMap_congr fun m _ => map_eventsFromReportAt nodeId m.1 true m.2

theorem of_mem_eventsFromReportAt {msg : ReportDataMessage} {p : Bool} {ts : String}
    (h : ev ∈ eventsFromReportAt nodeId msg p ts) : ev.priming = p ∧ ev.recovered = false := by
  obtain ⟨e, -, rfl⟩ := List.mem_map.1 h
  exact ⟨rfl, rfl⟩

theorem of_mem_entries (h : ev ∈ priming.entries nodeId) :
    ev.priming = true ∧ ev.recovered = false := by
  obtain ⟨m, -, hev⟩ := List.mem_flatMap.1 h
  exact of_mem_eventsFromReportAt hev

/-- Entries that are kept already change nothing and are passed on as they are. -/
theorem trace_of_keeps (h : ∀ ev ∈ evs, IsKept cache (ev.key, ev.value)) :
    run Sighting.step cache (evs.map .entry) = cache ∧
      trace Sighting.step Sighting.emit cache (evs.map .entry) = evs := by
  induction evs with
  | nil => exact ⟨rfl, rfl⟩
  | cons ev evs ih =>
    obtain ⟨hev, hevs⟩ := List.forall_mem_cons.1 h
    have hclassify := classify_of_same hev
    obtain ⟨hrun, htrace⟩ := ih hevs
    rw [List.map_cons, run_cons, trace_cons, Sighting.step, Sighting.emit, hclassify]
    exact ⟨hrun, congrArg (ev :: ·) htrace⟩

/-- Priming entries of known attributes of which none is promoted are kept already. -/
theorem keeps_of_trace (hpriming : ∀ ev ∈ evs, ev.priming = true)
    (hknown : ∀ ev ∈ evs, (cache ev.key).isSome)
    (h : ∀ ev ∈ trace Sighting.step Sighting.emit cache (evs.map .entry), ev.recovered = false) :
    ∀ ev ∈ evs, IsKept cache (ev.key, ev.value) := by
  induction evs generalizing cache with
  | nil => exact List.forall_mem_nil _
  | cons ev evs ih =>
    obtain ⟨hp, hpriming⟩ := List.forall_mem_cons.1 hpriming
    obtain ⟨hk, hknown⟩ := List.forall_mem_cons.1 hknown
    rw [List.map_cons, trace_cons, List.forall_mem_append] at h
    have hev : IsKept cache (ev.key, ev.value) := by
      by_contra hsame
      have hpromoted := h.1 _ (List.mem_singleton_self _)
      rw [classify_of_not_same hsame, hp, hk] at hpromoted
      cases hpromoted
    have hclassify := classify_of_same hev
    rw [Sighting.step, hclassify] at h
    exact List.forall_mem_cons.2 ⟨hev, ih hpriming hknown h.2⟩

theorem keeps_step (ev : AttributeEvent) :
    IsKept ((Sighting.entry ev).step cache) (ev.key, ev.value) := by
  rw [Sighting.step]
  by_cases hsame : (cache ev.key).any (·.same ev.value) = true
  · rw [classify_of_same hsame]
    exact hsame
  · rw [classify_of_not_same hsame, IsKept]
    dsimp only
    rw [Function.update_self]
    exact ev.value.same_refl

/-- What is kept stays kept under a value that is the same. -/
theorem IsKept.step {e : ValueKey × Json} (h : IsKept cache e)
    (hev : e.1 = ev.key → e.2.same ev.value = true) :
    IsKept ((Sighting.entry ev).step cache) e := by
  rw [Sighting.step]
  by_cases hsame : (cache ev.key).any (·.same ev.value) = true
  · rwa [classify_of_same hsame]
  · rw [classify_of_not_same hsame, IsKept]
    dsimp only
    by_cases hk : e.1 = ev.key
    · rw [hk, Function.update_self]
      exact Json.same_symm (hev hk)
    · rwa [Function.update_of_ne hk]

theorem IsKept.run {e : ValueKey × Json} (h : IsKept cache e)
    (hevs : ∀ ev ∈ evs, e.1 = ev.key → e.2.same ev.value = true) :
    IsKept (Machine.run Sighting.step cache (evs.map .entry)) e := by
  induction evs generalizing cache with
  | nil => exact h
  | cons ev evs ih =>
    obtain ⟨hev, hevs⟩ := List.forall_mem_cons.1 hevs
    exact ih (h.step hev) hevs

variable (cache) in
/-- Entries without a contradiction are kept afterwards. -/
theorem keeps_run (hcons : SingleValued (evs.map fun ev => (ev.key, ev.value))) :
    ∀ ev ∈ evs, IsKept (run Sighting.step cache (evs.map .entry)) (ev.key, ev.value) := by
  induction evs generalizing cache with
  | nil => exact List.forall_mem_nil _
  | cons ev evs ih =>
    obtain ⟨hev, hcons⟩ := List.pairwise_cons.1 hcons
    refine List.forall_mem_cons.2 ⟨(keeps_step ev).run fun ev' hev' hk => ?_, ih _ hcons⟩
    exact hev _ (List.mem_map_of_mem hev') hk

/-- What is known stays known, and an entry makes its attribute known. -/
theorem isSome_step (h : ev.key = k ∨ (cache k).isSome) :
    (((Sighting.entry ev).step cache) k).isSome := by
  rw [Sighting.step]
  by_cases hsame : (cache ev.key).any (·.same ev.value) = true
  · rw [classify_of_same hsame]
    obtain rfl | h := h
    · obtain ⟨prev, hprev, -⟩ := (Option.any_eq_true _ _).1 hsame
      dsimp only
      rw [hprev]
      rfl
    · exact h
  · rw [classify_of_not_same hsame]
    dsimp only
    by_cases hk : k = ev.key
    · rw [hk, Function.update_self]
      rfl
    · rw [Function.update_of_ne hk]
      exact h.resolve_left (Ne.symm hk)

theorem isSome_run (h : (∃ ev ∈ evs, ev.key = k) ∨ (cache k).isSome) :
    ((run Sighting.step cache (evs.map .entry)) k).isSome := by
  induction evs generalizing cache with
  | nil => exact h.resolve_left fun ⟨_, hmem, _⟩ => by cases hmem
  | cons ev evs ih =>
    refine ih ?_
    obtain ⟨ev', hmem, hk⟩ | h := h
    · obtain rfl | hmem := List.mem_cons.1 hmem
      · exact .inr (isSome_step (.inl hk))
      · exact .inl ⟨ev', hmem, hk⟩
    · exact .inr (isSome_step (.inr h))

/-- Values that are all kept do not contradict each other. -/
theorem consistent_of_keeps (h : ∀ ev ∈ evs, IsKept cache (ev.key, ev.value)) :
    SingleValued (evs.map fun ev => (ev.key, ev.value)) := by
  refine List.pairwise_map.2 (List.pairwise_of_forall_mem_list fun ev hev ev' hev' hk => ?_)
  obtain ⟨prev, hprev, hv⟩ := (Option.any_eq_true _ _).1 (h ev hev)
  obtain ⟨prev', hprev', hv'⟩ := (Option.any_eq_true _ _).1 (h ev' hev')
  dsimp only at hprev hprev' hk
  rw [hk, hprev'] at hprev
  cases hprev
  exact Json.same_trans (Json.same_symm hv) hv'

/-- A priming with the same messages has the same values. -/
theorem values_congr (h : priming'.map Prod.fst = priming.map Prod.fst) :
    priming'.values nodeId = priming.values nodeId := by
  have hmap : ∀ p : Priming, p.flatMap (·.1.reports) = (p.map Prod.fst).flatMap (·.reports) :=
    fun p => (List.flatMap_map ..).symm
  rw [Priming.values, Priming.values, hmap, hmap, h]

variable (cache) in
/-- **A priming that comes again** recovers nothing, however often it does, exactly when it gives no
attribute two values. -/
theorem again_quiet_iff : (∀ again : List Priming,
      (∀ p ∈ again, p.map Prod.fst = priming.map Prod.fst) →
      ∀ ev ∈ trace Sighting.step Sighting.emit
          (run Sighting.step cache (ReportEvent.subscribed nodeId priming).seen)
          ((again.map (.subscribed nodeId)).flatMap ReportEvent.seen),
        ev.recovered = false) ↔ SingleValued (priming.values nodeId) := by
  constructor
  · intro h
    have honce := h [priming] (List.forall_mem_singleton.2 rfl)
    rw [List.map_singleton, List.flatMap_singleton] at honce
    rw [← map_entries]
    refine consistent_of_keeps (keeps_of_trace (fun ev hev => (of_mem_entries hev).1) ?_ honce)
    exact fun ev hev => isSome_run (.inl ⟨ev, hev, rfl⟩)
  · intro hcons again hagain
    rw [← map_entries] at hcons
    have hkeeps := keeps_run cache hcons
    rw [ReportEvent.seen]
    generalize run Sighting.step cache ((priming.entries nodeId).map .entry) = kept at hkeeps ⊢
    induction again with
    | nil => exact List.forall_mem_nil _
    | cons p again ih =>
      obtain ⟨hp, hagain⟩ := List.forall_mem_cons.1 hagain
      have hvalues : ∀ ev ∈ p.entries nodeId, IsKept kept (ev.key, ev.value) := by
        intro ev hev
        have hmem : (ev.key, ev.value) ∈ priming.values nodeId := by
          rw [← values_congr hp, ← map_entries]
          exact List.mem_map_of_mem hev
        rw [← map_entries] at hmem
        obtain ⟨ev', hev', heq⟩ := List.mem_map.1 hmem
        rw [← heq]
        exact hkeeps ev' hev'
      obtain ⟨hrun, htrace⟩ := trace_of_keeps hvalues
      rw [List.map_cons, List.flatMap_cons, trace_append, ReportEvent.seen, hrun, htrace]
      exact List.forall_mem_append.2 ⟨fun ev hev => (of_mem_entries hev).2, ih hagain⟩

end

/-! ## Lists and structs -/

/-- What remains of a report when everything is left out that is no single value. -/
def ReportDataMessage.scalars (nodeId : UInt64) (msg : ReportDataMessage) : ReportDataMessage :=
  { msg with reports := msg.reports.filter fun rep => (rep.scalarAt nodeId).isSome }

/-- The same for what happens. -/
def ReportEvent.scalars : ReportEvent → ReportEvent
  | .subscribed nodeId priming =>
    .subscribed nodeId (priming.map fun m => (m.1.scalars nodeId, m.2))
  | .reported nodeId msg ts => .reported nodeId (msg.scalars nodeId) ts
  | .forgotten nodeId => .forgotten nodeId

theorem eventsFromReportAt_scalars (nodeId : UInt64) (msg : ReportDataMessage) (priming : Bool)
    (ts : String) :
    eventsFromReportAt nodeId (msg.scalars nodeId) priming ts =
      eventsFromReportAt nodeId msg priming ts := by
  have hfilter : (msg.reports.filter fun rep => (rep.scalarAt nodeId).isSome).filterMap
      (·.scalarAt nodeId) = msg.reports.filterMap (·.scalarAt nodeId) := by
    rw [List.filterMap_filter]
    refine List.filterMap_congr fun rep _ => ?_
    cases rep.scalarAt nodeId <;> rfl
  rw [eventsFromReportAt, eventsFromReportAt, ReportDataMessage.scalars, hfilter]

/-- Lists, structs and items of lists are not seen. -/
theorem seen_scalars (e : ReportEvent) : e.scalars.seen = e.seen := by
  cases e with
  | subscribed nodeId priming =>
    rw [ReportEvent.scalars, ReportEvent.seen, ReportEvent.seen, Priming.entries, Priming.entries,
      List.flatMap_map]
    refine congrArg _ (List.flatMap_congr fun m _ => ?_)
    exact eventsFromReportAt_scalars nodeId m.1 true m.2
  | reported nodeId msg ts =>
    rw [ReportEvent.scalars, ReportEvent.seen, ReportEvent.seen, eventsFromReportAt_scalars]
  | forgotten => rfl

theorem scalarAt_eq_some {nodeId : UInt64} {rep : AttributeReport} {e : ValueKey × Json}
    (h : rep.scalarAt nodeId = some e) :
    rep.listAppend = false ∧ rep.data = some e.2 ∧ e.2.scalar = true := by
  obtain ⟨endpoint, cluster, attr, listAppend, data, status⟩ := rep
  cases endpoint <;> cases cluster <;> cases attr <;> cases data <;> try cases h
  next endpoint cluster attr data =>
  change (if listAppend then none else if data.scalar then
    some ((nodeId, endpoint, cluster, attr), data) else none) = some e at h
  split at h
  · cases h
  next hlist =>
  split at h
  · next hscalar =>
    cases h
    exact ⟨eq_false_of_ne_true hlist, rfl, hscalar⟩
  · cases h

/-! ### Paths -/

/-- The list index of a path: null, or a number. -/
def Element.isListIndex (el : Element) : Bool :=
  match el.tag, el.value with
  | .context 5, .null | .context 5, .uint _ | .context 5, .int _ => true
  | _, _ => false

namespace Im

/-- A member that is not looked at is read to its end. -/
theorem ignore_ok {σ : Type} {f f' : σ} {el : Element} {r r' : Reader}
    (hend : el.value ≠ .containerEnd) (h : ignore f el r = .ok (f', r')) :
    f' = f ∧ ∃ body, r.Reads body r' ∧ Member.Closed ⟨el, body⟩ := by
  unfold ignore at h
  split at h
  · next hstart =>
    rw [skipContainer] at h
    cases hskip : r.skipContainer with
    | error e =>
      rw [hskip] at h
      cases h
    | ok r₁ =>
      rw [hskip] at h
      cases h
      obtain ⟨els, hreads, hbody⟩ := Reader.skipContainer_ok hskip
      exact ⟨rfl, els, hreads, .container hstart hbody⟩
  · next hstart =>
    cases h
    exact ⟨rfl, [], .nil r, .leaf (eq_false_of_ne_true hstart) hend⟩

/-- What a member of a path does to the flag. -/
def FlagKept (f : AttributePathFields) (el : Element) (r : Reader) (f' : AttributePathFields)
    (r' : Reader) : Prop :=
  ∃ body, r.Reads body r' ∧ Member.Closed ⟨el, body⟩ ∧
    f'.listAppend = (f.listAppend || el.isListIndex)

section
variable {f f' : AttributePathFields} {tag : Tag} {t : UInt8} {value : Value} {r r' : Reader}

theorem flagKept_leaf {b : Bool} (hend : value ≠ .containerEnd) (hstart : value.isStart = false)
    (hindex : (⟨tag, value⟩ : Element).isListIndex = b)
    (hf : f'.listAppend = (f.listAppend || b)) : FlagKept f ⟨tag, value⟩ r f' r :=
  ⟨[], .nil r, .leaf hstart hend, hindex ▸ hf⟩

theorem flagKept_ignore (hend : value ≠ .containerEnd)
    (hindex : (⟨tag, value⟩ : Element).isListIndex = false)
    (h : ignore f ⟨tag, value⟩ r = .ok (f', r')) : FlagKept f ⟨tag, value⟩ r f' r' := by
  obtain ⟨rfl, body, hbody, hclosed⟩ := ignore_ok hend h
  exact ⟨body, hbody, hclosed, by rw [hindex, Bool.or_false]⟩

theorem isListIndex_of_ne (h₅ : t ≠ 5) : (⟨.context t, value⟩ : Element).isListIndex = false := by
  unfold Element.isListIndex
  split
  · next htag _ => exact absurd (Tag.context.inj htag) h₅
  · next htag _ => exact absurd (Tag.context.inj htag) h₅
  · next htag _ => exact absurd (Tag.context.inj htag) h₅
  · rfl

/-- A member with another tag than those of a path is not looked at. -/
theorem attributePathMember_of_ne (h₂ : t ≠ 2) (h₃ : t ≠ 3) (h₄ : t ≠ 4) (h₅ : t ≠ 5) :
    attributePathMember f ⟨.context t, value⟩ r = ignore f ⟨.context t, value⟩ r := by
  -- number by number, since the tags of the match are literals
  obtain ⟨⟨⟨n, hn⟩⟩⟩ := t
  obtain _ | _ | _ | _ | _ | _ | n := n
  · rfl
  · rfl
  · exact absurd rfl h₂
  · exact absurd rfl h₃
  · exact absurd rfl h₄
  · exact absurd rfl h₅
  · rfl

theorem attributePathMember_ok {el : Element} (hend : el.value ≠ .containerEnd)
    (h : attributePathMember f el r = .ok (f', r')) : FlagKept f el r f' r' := by
  obtain ⟨tag, value⟩ := el
  cases tag with
  | context t =>
    by_cases h₂ : t = 2
    · subst h₂
      cases value with
      | uint v =>
        obtain ⟨id, -, hok⟩ := Checked.bind_eq_ok.1 h
        cases hok
        exact flagKept_leaf hend rfl rfl (Bool.or_false _).symm
      | _ => exact flagKept_ignore hend rfl h
    by_cases h₃ : t = 3
    · subst h₃
      cases value with
      | uint v =>
        obtain ⟨id, -, hok⟩ := Checked.bind_eq_ok.1 h
        cases hok
        exact flagKept_leaf hend rfl rfl (Bool.or_false _).symm
      | _ => exact flagKept_ignore hend rfl h
    by_cases h₄ : t = 4
    · subst h₄
      cases value with
      | uint v =>
        obtain ⟨id, -, hok⟩ := Checked.bind_eq_ok.1 h
        cases hok
        exact flagKept_leaf hend rfl rfl (Bool.or_false _).symm
      | _ => exact flagKept_ignore hend rfl h
    by_cases h₅ : t = 5
    · subst h₅
      cases value with
      | null | uint | int =>
        cases h
        exact flagKept_leaf hend rfl rfl (Bool.or_true _).symm
      | _ => exact flagKept_ignore hend rfl h
    · rw [attributePathMember_of_ne h₂ h₃ h₄ h₅] at h
      exact flagKept_ignore hend (isListIndex_of_ne h₅) h
  | _ => exact flagKept_ignore hend rfl h

end

/-- **List indices.** A path that is read is that of a list item when one of its members is a list
index. -/
theorem decodeAttributePathIb_listAppend {r r' : Reader} {p : AttributePathFields}
    (h : decodeAttributePathIb r = .ok (p, r')) :
    ∃ ms close, r.Reads (elementsOf ms ++ [close]) r' ∧ (∀ m ∈ ms, m.Closed) ∧
      close.value = .containerEnd ∧ p.listAppend = ms.any (·.el.isListIndex) := by
  obtain ⟨ms, close, hreads, hall, hclose, hfolds⟩ := Reader.walk_ok
    (P := fun f m f' => f'.listAppend = (f.listAppend || m.el.isListIndex))
    attributePathMember_ok h
  refine ⟨ms, close, hreads, hall, hclose, ?_⟩
  have hany : ∀ {f f' : AttributePathFields} {ms : List Member},
      Folds (fun f (m : Member) f' => f'.listAppend = (f.listAppend || m.el.isListIndex)) f ms f' →
        f'.listAppend = (f.listAppend || ms.any (·.el.isListIndex)) := by
    intro f f' ms h
    induction h with
    | nil => rw [List.any_nil, Bool.or_false]
    | cons hm _ ih => rw [ih, hm, List.any_cons, Bool.or_assoc]
  rw [hany hfolds, Bool.false_or]

end Im

/-! ## Runs -/

theorem lastKept_start : LastKept (fun _ => none) [] := fun _ => .none

/-- What is to be passed on tells of entries that were seen. -/
theorem of_mem_answersAfter {before h : List Sighting} {ev : AttributeEvent}
    (hev : ev ∈ answersAfter before h) :
    ∃ ev', Sighting.entry ev' ∈ h ∧ ev.key = ev'.key ∧ ev.value = ev'.value := by
  induction h generalizing before with
  | nil => cases hev
  | cons s h ih =>
    obtain hev | hev := List.mem_append.1 hev
    · cases s with
      | forgotten => cases hev
      | entry ev' =>
        refine ⟨ev', List.mem_cons_self, ?_⟩
        rw [Sighting.answer, List.mem_singleton] at hev
        rw [hev]
        split
        · exact ⟨rfl, rfl⟩
        · exact ⟨rfl, rfl⟩
    · obtain ⟨ev', hmem, heq⟩ := ih hev
      exact ⟨ev', List.mem_cons_of_mem _ hmem, heq⟩

theorem scalar_of_mem_seen {e : ReportEvent} {ev : AttributeEvent}
    (h : Sighting.entry ev ∈ e.seen) : ev.value.scalar = true := by
  have hreport : ∀ {nodeId msg priming ts}, ev ∈ eventsFromReportAt nodeId msg priming ts →
      ev.value.scalar = true := by
    intro nodeId msg priming ts hev
    obtain ⟨e, he, rfl⟩ := List.mem_map.1 hev
    obtain ⟨rep, -, hrep⟩ := List.mem_filterMap.1 he
    exact (scalarAt_eq_some hrep).2.2
  cases e with
  | subscribed nodeId priming =>
    obtain ⟨ev', hev, heq⟩ := List.mem_map.1 h
    cases heq
    obtain ⟨m, -, hm⟩ := List.mem_flatMap.1 hev
    exact hreport hm
  | reported nodeId msg ts =>
    obtain ⟨ev', hev, heq⟩ := List.mem_map.1 h
    cases heq
    exact hreport hev
  | forgotten => exact absurd (List.mem_singleton.1 h) nofun

theorem keptAfter_append (es fs : List ReportEvent) : keptAfter (es ++ fs) =
    run Sighting.step (keptAfter es) (fs.flatMap ReportEvent.seen) := by
  rw [keptAfter, List.flatMap_append, run_append]
  rfl

theorem emitted_append (es fs : List ReportEvent) : emitted (es ++ fs) = emitted es ++
    trace Sighting.step Sighting.emit (keptAfter es) (fs.flatMap ReportEvent.seen) := by
  rw [emitted, List.flatMap_append, trace_append]
  rfl

/-- **Recovery of attributes.** In every run, with all nodes and sessions mixed:
* a priming entry is promoted exactly when its attribute was reported before with another last
  value, and everything else is passed on as it came;
* what is kept of an attribute is the last value reported for it;
* lists, structs and items of lists are not seen, and every event has a single value;
* it makes no difference how reports are split into messages;
* a priming that comes again recovers nothing, however often it does, exactly when it gives no
  attribute two values;
* a path with a list index is read as one of a list item. -/
theorem attribute_recovery (es : List ReportEvent) :
    emitted es = answersAfter [] (es.flatMap ReportEvent.seen) ∧
    (∀ k, Option.Rel (fun a b => a.same b = true) (keptAfter es k)
      (lastReported (es.flatMap ReportEvent.seen) k)) ∧
    (emitted (es.map ReportEvent.scalars) = emitted es ∧
      ∀ ev ∈ emitted es, ev.value.scalar = true) ∧
    (∀ (nodeId : UInt64) (msg : ReportDataMessage) (rs rs' : List AttributeReport) (p : Bool)
      (ts : String), eventsFromReportAt nodeId { msg with reports := rs ++ rs' } p ts =
        eventsFromReportAt nodeId { msg with reports := rs } p ts ++
          eventsFromReportAt nodeId { msg with reports := rs' } p ts) ∧
    (∀ (nodeId : UInt64) (priming : Priming),
      (∀ again : List Priming, (∀ p ∈ again, p.map Prod.fst = priming.map Prod.fst) →
        ∃ evs, emitted (es ++ [.subscribed nodeId priming] ++ again.map (.subscribed nodeId)) =
            emitted (es ++ [.subscribed nodeId priming]) ++ evs ∧
          ∀ ev ∈ evs, ev.recovered = false) ↔
        SingleValued (priming.values nodeId)) ∧
    ∀ (r r' : Reader) (p : Im.AttributePathFields), Im.decodeAttributePathIb r = .ok (p, r') →
      ∃ ms close, r.Reads (elementsOf ms ++ [close]) r' ∧ (∀ m ∈ ms, m.Closed) ∧
        close.value = .containerEnd ∧ p.listAppend = ms.any (·.el.isListIndex) := by
  have hkept := lastKept_start.trace (es.flatMap ReportEvent.seen)
  refine ⟨hkept.2, hkept.1, ⟨?_, ?_⟩, ?_, ?_, fun r r' p => Im.decodeAttributePathIb_listAppend⟩
  · rw [emitted, List.flatMap_map]
    exact congrArg _ (List.flatMap_congr fun e _ => seen_scalars e)
  · intro ev hev
    rw [emitted, hkept.2] at hev
    obtain ⟨ev', hmem, -, hvalue⟩ := of_mem_answersAfter hev
    obtain ⟨e, -, he⟩ := List.mem_flatMap.1 hmem
    rw [hvalue]
    exact scalar_of_mem_seen he
  · intro nodeId msg rs rs' p ts
    rw [eventsFromReportAt, List.filterMap_append, List.map_append]
    rfl
  · intro nodeId priming
    rw [← again_quiet_iff (keptAfter es)]
    have hrun : keptAfter (es ++ [.subscribed nodeId priming]) =
        run Sighting.step (keptAfter es) (ReportEvent.subscribed nodeId priming).seen := by
      rw [keptAfter_append, List.flatMap_singleton]
    constructor
    · intro h again hagain
      obtain ⟨evs, heq, hquiet⟩ := h again hagain
      have happend := (emitted_append (es ++ [.subscribed nodeId priming]) _).symm.trans heq
      rw [← hrun, List.append_cancel_left happend]
      exact hquiet
    · intro h again hagain
      refine ⟨_, emitted_append (es ++ [.subscribed nodeId priming]) _, ?_⟩
      rw [hrun]
      exact h again hagain

/-- A report of the state of a lamp. -/
def lampReport (on : Bool) : AttributeReport :=
  ⟨some 1, some 0x0006, some 0x0000, false, some (.bool on), none⟩

/-- A message with some reports. -/
def messageOf (reports : List AttributeReport) : ReportDataMessage := ⟨reports, none, false, false⟩

/-- A lamp that is switched while nobody listens. -/
theorem attribute_recovery_sample :
    (emitted [.subscribed 5 [(messageOf [lampReport true], "t")],
      .subscribed 5 [(messageOf [lampReport false], "u")]]).map (·.recovered) = [false, true] ∧
    ∃ evs, emitted ([] ++ [.subscribed 5 [(messageOf [lampReport true], "t")]] ++
        [[(messageOf [lampReport true], "u")]].map (.subscribed 5)) =
      emitted ([] ++ [.subscribed 5 [(messageOf [lampReport true], "t")]]) ++ evs ∧
      ∀ ev ∈ evs, ev.recovered = false :=
  ⟨by decide, ((attribute_recovery []).2.2.2.2.1 5 [(messageOf [lampReport true], "t")]).2
    (List.pairwise_singleton _ _) [[(messageOf [lampReport true], "u")]]
    (List.forall_mem_singleton.2 rfl)⟩

/-- A priming that gives an attribute two values recovers something each time it comes again. -/
theorem twice_in_one_priming :
    (emitted (List.replicate 2 (.subscribed 5
      [(messageOf [lampReport true, lampReport false], "t")]))).map (·.recovered) =
      [false, true, true, true] := by
  decide

end MatStack
