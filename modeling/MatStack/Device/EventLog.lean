import MatStack.Device.Read
import MatStack.Lib.Cursor

/-!
# The event log

A node numbers its events in the order in which they are logged and retains the last ones. A
request for events names paths, as one for attributes does, and the least number it wants;
`NodeView.eventEntries` answers it. The answer has a status for every path that names an event the
node does not have, and the retained events that some path matches and that the session may see,
each once and in the order of their numbers: `dataOf_eventEntries`.
-/

namespace MatStack

/-! ## The log -/

/-- An event as a cluster reports it. -/
structure EmittedEvent where
  event : UInt32
  priority : EventPriority
  dataTlv : Option Bytes
deriving DecidableEq

/-- An event in the log. -/
structure StoredEvent where
  number : UInt64
  endpoint : UInt16
  cluster : UInt32
  event : UInt32
  priority : EventPriority
  systemTimestampMs : UInt64
  dataTlv : Option Bytes
deriving DecidableEq

/-- The log of a node: the number of the next event, and at most `cap` events. -/
structure EventLog where
  nextNumber : UInt64
  entries : List StoredEvent
  cap : Nat
  cap_pos : 0 < cap
  length_le : entries.length ≤ cap

namespace EventLog

def defaultCap : Nat := 64

/-- An empty log that retains one event at least. -/
def new (firstNumber : UInt64) (cap : Nat) : EventLog :=
  ⟨firstNumber, [], max cap 1, by omega, Nat.zero_le _⟩

/-- What is retained when there has to be room for one more event. -/
def kept (log : EventLog) : List StoredEvent :=
  if log.entries.length = log.cap then log.entries.tail else log.entries

theorem length_kept_lt (log : EventLog) : log.kept.length < log.cap := by
  have hle := log.length_le
  have hpos := log.cap_pos
  unfold kept
  split
  · rw [List.length_tail]
    omega
  · omega

/-- Logs an event; the oldest one makes room. -/
def append (log : EventLog) (endpoint : UInt16) (cluster : UInt32) (ev : EmittedEvent)
    (systemTimestampMs : UInt64) : EventLog where
  nextNumber := log.nextNumber + 1
  entries := log.kept ++
    [⟨log.nextNumber, endpoint, cluster, ev.event, ev.priority, systemTimestampMs, ev.dataTlv⟩]
  cap := log.cap
  cap_pos := log.cap_pos
  length_le := by
    rw [List.length_append]
    exact log.length_kept_lt

/-- Logs what a handler emitted. -/
def drain (log : EventLog) (endpoint : UInt16) (cluster : UInt32) (events : List EmittedEvent)
    (systemTimestampMs : UInt64) : EventLog :=
  events.foldl (fun log ev => log.append endpoint cluster ev systemTimestampMs) log

/-- The retained events from a number on. -/
def since (log : EventLog) (min : UInt64) : List StoredEvent :=
  log.entries.filter fun e => decide (min ≤ e.number)

end EventLog

/-- What is reported of an event. -/
def StoredEvent.report (e : StoredEvent) : EventReportOut :=
  ⟨e.endpoint, e.cluster, e.event, e.number, e.priority, e.systemTimestampMs, e.dataTlv⟩

/-- A path matches an event; an absent field matches everything. -/
def eventPathMatches (p : EventPathIn) (endpoint : UInt16) (cluster event : UInt32) : Bool :=
  p.endpoint.all (· == endpoint) && p.cluster.all (· == cluster) && p.event.all (· == event)

/-- What an entry of the event half reports. -/
def EventEntryOut.data? : EventEntryOut → Option EventReportOut
  | data d => some d
  | status .. => none

/-- What the events are ordered by; a status comes first. -/
def EventEntryOut.sortKey : EventEntryOut → UInt64
  | data d => d.eventNumber
  | status .. => 0

/-- The statuses that are reported. -/
def statusesOf (entries : List EventEntryOut) : List EventEntryOut :=
  entries.filter (·.data?.isNone)

/-- The events that are reported. -/
def dataOf (entries : List EventEntryOut) : List EventReportOut := entries.filterMap (·.data?)

@[simp] theorem dataOf_append (a b : List EventEntryOut) : dataOf (a ++ b) = dataOf a ++ dataOf b :=
  List.filterMap_append ..

@[simp] theorem dataOf_data (d : EventReportOut) : dataOf [.data d] = [d] := rfl

namespace NodeView

/-! ## Event requests -/

/-- The handler of a cluster on an endpoint. -/
def handlerFor (n : NodeView) (endpoint : UInt16) (cluster : UInt32) : Option ClusterHandler := do
  let (_, clusters) ← n.registry.endpoints.find? (·.1 == endpoint)
  clusters.find? (·.clusterId == cluster)

/-- The status of a path that names an event the node does not have. -/
def concreteEventPathStatus (n : NodeView) (endpoint : UInt16) (cluster event : UInt32) :
    Option UInt8 :=
  match n.registry.endpoints.find? (·.1 == endpoint) with
  | none => some statusUnsupportedEndpoint
  | some (_, clusters) =>
    match clusters.find? (·.clusterId == cluster) with
    | none => some statusUnsupportedCluster
    | some h => if h.events.contains event then none else some statusUnsupportedEvent

/-- The status that answers a path, if one does. -/
def eventPathStatus (n : NodeView) (path : EventPathIn) : Option EventEntryOut := do
  let endpoint ← path.endpoint
  let cluster ← path.cluster
  let event ← path.event
  let status ← n.concreteEventPathStatus endpoint cluster event
  return .status endpoint cluster event status

/-- The session may see an event of a cluster of the node. -/
def eventAllowed (n : NodeView) (readCtx : ReadCtx) (endpoint : UInt16) (cluster event : UInt32) :
    Bool :=
  match n.handlerFor endpoint cluster with
  | none => false
  | some h =>
    n.aclAllows readCtx.fabricIndex readCtx.subject (h.eventPrivilege event) endpoint cluster

/-- What one path adds to an answer, for each retained event: `seen` has the numbers it has. -/
def addEvent (n : NodeView) (readCtx : ReadCtx) (path : EventPathIn)
    (acc : List EventEntryOut × List UInt64) (stored : StoredEvent) :
    List EventEntryOut × List UInt64 :=
  if acc.2.contains stored.number ||
      !eventPathMatches path stored.endpoint stored.cluster stored.event then acc
  else if n.eventAllowed readCtx stored.endpoint stored.cluster stored.event then
    (acc.1 ++ [.data stored.report], stored.number :: acc.2)
  else acc

/-- What one path adds: a status, or events. -/
def addPath (n : NodeView) (log : EventLog) (eventMin : UInt64) (readCtx : ReadCtx)
    (acc : List EventEntryOut × List UInt64) (path : EventPathIn) :
    List EventEntryOut × List UInt64 :=
  match n.eventPathStatus path with
  | some entry => (acc.1 ++ [entry], acc.2)
  | none => (log.since eventMin).foldl (n.addEvent readCtx path) acc

/-- The answer to a request for events. -/
def eventEntries (n : NodeView) (log : EventLog) (paths : List EventPathIn) (eventMin : UInt64)
    (readCtx : ReadCtx) : List EventEntryOut :=
  (paths.foldl (n.addPath log eventMin readCtx) ([], [])).1.mergeSort
    fun a b => decide (a.sortKey ≤ b.sortKey)

/-- A path with a wildcard may be subscribed to if it may ever yield an event. -/
def hasReadableEventPath (n : NodeView) (paths : List EventPathIn) (readCtx : ReadCtx) : Bool :=
  paths.any fun path =>
    (path.endpoint.isSome && path.cluster.isSome && path.event.isSome) ||
      (n.registry.endpoints.filter fun e => path.endpoint.all (· == e.1)).any fun e =>
        (e.2.filter fun h => path.cluster.all (· == h.clusterId)).any fun h =>
          (h.events.filter fun event => path.event.all (· == event)).any fun event =>
            n.aclAllows readCtx.fabricIndex readCtx.subject (h.eventPrivilege event) e.1 h.clusterId

end NodeView

/-! ## The order of the log -/

namespace EventLog

/-- The numbers increase, and are below the next one. -/
structure Ordered (log : EventLog) : Prop where
  increasing : log.entries.Pairwise fun a b => a.number < b.number
  below : ∀ e ∈ log.entries, e.number < log.nextNumber

variable {log : EventLog} {endpoint : UInt16} {cluster : UInt32} {ev : EmittedEvent} {ts : UInt64}

/-- The retained events, as they are reported. -/
def reports (log : EventLog) : List EventReportOut := log.entries.map (·.report)

theorem Ordered.increasing_reports (h : log.Ordered) :
    Cursor.Increasing (·.eventNumber.toNat) log.reports :=
  List.pairwise_map.2 (h.increasing.imp fun hlt => UInt64.lt_iff_toNat_lt.1 hlt)

theorem ordered_new (firstNumber : UInt64) (cap : Nat) : (new firstNumber cap).Ordered :=
  ⟨.nil, nofun⟩

theorem kept_sublist (log : EventLog) : log.kept.Sublist log.entries := by
  unfold kept
  split
  · exact List.tail_sublist _
  · exact .refl _

/-- A number names one retained event. -/
theorem Ordered.number_inj (h : log.Ordered) {a b : StoredEvent} (ha : a ∈ log.entries)
    (hb : b ∈ log.entries) (hn : a.number = b.number) : a = b := by
  have hnodup : (log.entries.map (·.number)).Nodup :=
    List.pairwise_map.2 (h.increasing.imp fun hlt => UInt64.ne_of_lt hlt)
  exact List.inj_on_of_nodup_map hnodup ha hb hn

/-- The order is kept until the numbers are used up. -/
theorem Ordered.append (h : log.Ordered) (hnext : log.nextNumber.toNat + 1 < 2 ^ 64) :
    (log.append endpoint cluster ev ts).Ordered := by
  have hlt : log.nextNumber < log.nextNumber + 1 := by
    rw [UInt64.lt_iff_toNat_lt, UInt64.toNat_add]
    simp only [UInt64.toNat_one]
    omega
  constructor
  · refine List.pairwise_append.2 ⟨h.increasing.sublist log.kept_sublist, List.pairwise_singleton ..,
      ?_⟩
    intro a ha b hb
    rw [List.mem_singleton] at hb
    rw [hb]
    exact h.below a (log.kept_sublist.subset ha)
  · intro e he
    obtain he | he := List.mem_append.1 he
    · exact UInt64.lt_trans (h.below e (log.kept_sublist.subset he)) hlt
    · rw [List.mem_singleton] at he
      rw [he]
      exact hlt

end EventLog

/-! ## The answer to a request for events -/

namespace NodeView

/-- The events a request is about: some path matches, and the session may see them. -/
def wantsEvent (n : NodeView) (paths : List EventPathIn) (readCtx : ReadCtx)
    (endpoint : UInt16) (cluster event : UInt32) : Bool :=
  paths.any (fun p => eventPathMatches p endpoint cluster event) &&
    n.eventAllowed readCtx endpoint cluster event

/-- The same, of an event that is reported. -/
def wants (n : NodeView) (paths : List EventPathIn) (readCtx : ReadCtx) (d : EventReportOut) :
    Bool := n.wantsEvent paths readCtx d.endpoint d.cluster d.event

/-- Every event that is retained is one of those its cluster generates. -/
def Declared (n : NodeView) (log : EventLog) : Prop :=
  ∀ e ∈ log.entries, ∃ h, n.handlerFor e.endpoint e.cluster = some h ∧ e.event ∈ h.events

variable {n : NodeView} {log : EventLog} {paths : List EventPathIn} {eventMin : UInt64}
  {readCtx : ReadCtx} {path : EventPathIn}

/-- The statuses of an answer. -/
def eventStatuses (n : NodeView) (paths : List EventPathIn) : List EventEntryOut :=
  paths.filterMap n.eventPathStatus

/-- A path that matches a declared event is not answered by a status. -/
theorem eventPathStatus_eq_none (hd : n.Declared log) {e : StoredEvent} (he : e ∈ log.entries)
    (hm : eventPathMatches path e.endpoint e.cluster e.event = true) :
    n.eventPathStatus path = none := by
  obtain ⟨h, hh, hev⟩ := hd e he
  obtain ⟨endpoint, cluster, event, urgent⟩ := path
  cases endpoint with
  | none => rfl
  | some endpoint =>
    cases cluster with
    | none => rfl
    | some cluster =>
      cases event with
      | none => rfl
      | some event =>
        simp only [eventPathMatches, Option.all_some, Bool.and_eq_true, beq_iff_eq] at hm
        obtain ⟨⟨rfl, rfl⟩, rfl⟩ := hm
        simp only [handlerFor, Option.bind_eq_bind, Option.bind_eq_some_iff] at hh
        obtain ⟨⟨ep, clusters⟩, hep, hcl⟩ := hh
        simp [eventPathStatus, concreteEventPathStatus, hep, hcl, hev]

theorem mem_since {e : StoredEvent} :
    e ∈ log.since eventMin ↔ e ∈ log.entries ∧ eventMin ≤ e.number := by
  simp [EventLog.since]

theorem dataOf_eventPathStatus {entry : EventEntryOut} (h : n.eventPathStatus path = some entry) :
    dataOf [entry] = [] := by
  simp only [eventPathStatus, Option.bind_eq_bind, Option.bind_eq_some_iff, Option.pure_def,
    Option.some.injEq] at h
  obtain ⟨_, -, _, -, _, -, _, -, rfl⟩ := h
  rfl

/-- What has been collected for an answer: each event that was matched once, under its number. -/
structure Collected (n : NodeView) (log : EventLog) (eventMin : UInt64) (readCtx : ReadCtx)
    (matched : StoredEvent → Prop) (acc : List EventEntryOut × List UInt64) : Prop where
  seen : ∀ k, k ∈ acc.2 ↔ ∃ d ∈ dataOf acc.1, d.eventNumber = k
  nodup : ((dataOf acc.1).map (·.eventNumber)).Nodup
  mem : ∀ d, d ∈ dataOf acc.1 ↔ ∃ e ∈ log.since eventMin, e.report = d ∧ matched e ∧
    n.eventAllowed readCtx e.endpoint e.cluster e.event = true

section
variable {matched matched' : StoredEvent → Prop} {acc : List EventEntryOut × List UInt64}

theorem Collected.congr (h : Collected n log eventMin readCtx matched acc)
    (hm : ∀ e ∈ log.since eventMin, matched e ↔ matched' e) :
    Collected n log eventMin readCtx matched' acc where
  seen := h.seen
  nodup := h.nodup
  mem d := by
    rw [h.mem]
    constructor
    · rintro ⟨e, he, rfl, hmatch, ha⟩
      exact ⟨e, he, rfl, (hm e he).1 hmatch, ha⟩
    · rintro ⟨e, he, rfl, hmatch, ha⟩
      exact ⟨e, he, rfl, (hm e he).2 hmatch, ha⟩

/-- One event of the log, for one path. -/
theorem Collected.addEvent (h : Collected n log eventMin readCtx matched acc) (ho : log.Ordered)
    {stored : StoredEvent} (hs : stored ∈ log.since eventMin) :
    Collected n log eventMin readCtx
      (fun e => matched e ∨ e = stored ∧ eventPathMatches path e.endpoint e.cluster e.event = true)
      (n.addEvent readCtx path acc stored) := by
  unfold NodeView.addEvent
  split
  · next hskip =>
    -- it is there already, or the path does not match it
    refine h.congr fun e he => ⟨.inl, fun hm => ?_⟩
    obtain hm | ⟨rfl, hm⟩ := hm
    · exact hm
    · simp only [hm, Bool.not_true, Bool.or_false, List.contains_iff_mem] at hskip
      obtain ⟨d, hd, hnum⟩ := (h.seen _).1 hskip
      obtain ⟨e', he', rfl, hmatch, -⟩ := (h.mem d).1 hd
      rwa [← ho.number_inj (mem_since.1 he').1 (mem_since.1 hs).1 hnum]
  · next hnew =>
    simp only [Bool.or_eq_true, Bool.not_eq_true', not_or, List.contains_iff_mem,
      Bool.not_eq_false] at hnew
    split
    · next hallow =>
      refine ⟨fun k => ?_, ?_, fun d => ?_⟩
      · simp only [List.mem_cons, dataOf_append, dataOf_data, List.mem_append,
          List.not_mem_nil, or_false, h.seen]
        constructor
        · rintro (rfl | ⟨d, hd, rfl⟩)
          · exact ⟨_, .inr rfl, rfl⟩
          · exact ⟨d, .inl hd, rfl⟩
        · rintro ⟨d, hd | rfl, rfl⟩
          · exact .inr ⟨d, hd, rfl⟩
          · exact .inl rfl
      · rw [dataOf_append, dataOf_data, List.map_append, List.map_singleton]
        refine List.Nodup.append h.nodup (List.nodup_singleton _) fun k hk hk' => ?_
        rw [List.mem_singleton] at hk'
        obtain ⟨d, hd, hnum⟩ := List.mem_map.1 hk
        exact hnew.1 ((h.seen _).2 ⟨d, hd, hnum.trans hk'⟩)
      · rw [dataOf_append, dataOf_data, List.mem_append, List.mem_singleton, h.mem]
        constructor
        · rintro (⟨e, he, rfl, hmatch, ha⟩ | rfl)
          · exact ⟨e, he, rfl, .inl hmatch, ha⟩
          · exact ⟨stored, hs, rfl, .inr ⟨rfl, hnew.2⟩, hallow⟩
        · rintro ⟨e, he, rfl, hmatch | ⟨rfl, -⟩, ha⟩
          · exact .inl ⟨e, he, rfl, hmatch, ha⟩
          · exact .inr rfl
    · next hallow =>
      refine ⟨h.seen, h.nodup, fun d => ?_⟩
      rw [h.mem]
      constructor
      · rintro ⟨e, he, rfl, hmatch, ha⟩
        exact ⟨e, he, rfl, .inl hmatch, ha⟩
      · rintro ⟨e, he, rfl, hmatch | ⟨rfl, -⟩, ha⟩
        · exact ⟨e, he, rfl, hmatch, ha⟩
        · exact absurd ha hallow

/-- The events of the log, for one path. -/
theorem Collected.foldl_addEvent (h : Collected n log eventMin readCtx matched acc)
    (ho : log.Ordered) {l : List StoredEvent} (hl : ∀ e ∈ l, e ∈ log.since eventMin) :
    Collected n log eventMin readCtx
      (fun e => matched e ∨ e ∈ l ∧ eventPathMatches path e.endpoint e.cluster e.event = true)
      (l.foldl (n.addEvent readCtx path) acc) := by
  induction l generalizing matched acc with
  | nil => exact h.congr fun e _ => by simp
  | cons stored l ih =>
    rw [List.forall_mem_cons] at hl
    refine (ih (h.addEvent ho hl.1) hl.2).congr fun e _ => ?_
    rw [List.mem_cons, or_assoc, ← or_and_right]

/-- One path. -/
theorem Collected.addPath (h : Collected n log eventMin readCtx matched acc) (ho : log.Ordered)
    (hd : n.Declared log) :
    Collected n log eventMin readCtx
      (fun e => matched e ∨ eventPathMatches path e.endpoint e.cluster e.event = true)
      (n.addPath log eventMin readCtx acc path) := by
  unfold NodeView.addPath
  split
  · next entry hstatus =>
    have hdata : dataOf (acc.1 ++ [entry]) = dataOf acc.1 := by
      rw [dataOf_append, dataOf_eventPathStatus hstatus, List.append_nil]
    have h' : Collected n log eventMin readCtx matched (acc.1 ++ [entry], acc.2) :=
      ⟨by simpa only [hdata] using h.seen, by simpa only [hdata] using h.nodup,
        by simpa only [hdata] using h.mem⟩
    refine h'.congr fun e he => ⟨.inl, fun hm => hm.resolve_right fun hm => ?_⟩
    rw [eventPathStatus_eq_none hd (mem_since.1 he).1 hm] at hstatus
    cases hstatus
  · refine (h.foldl_addEvent ho fun _ he => he).congr fun e he => ?_
    simp only [he, true_and]

/-- All paths. -/
theorem Collected.foldl_addPath (h : Collected n log eventMin readCtx matched acc)
    (ho : log.Ordered) (hd : n.Declared log) (paths : List EventPathIn) :
    Collected n log eventMin readCtx
      (fun e => matched e ∨
        ∃ p ∈ paths, eventPathMatches p e.endpoint e.cluster e.event = true)
      (paths.foldl (n.addPath log eventMin readCtx) acc) := by
  induction paths generalizing matched acc with
  | nil => exact h.congr fun e _ => by simp
  | cons path paths ih =>
    refine (ih (h.addPath ho hd)).congr fun e _ => ?_
    simp only [List.mem_cons, exists_eq_or_imp, or_assoc]

end

/-- The entries of an answer before they are ordered. -/
theorem eventEntries_perm (n : NodeView) (log : EventLog) (paths : List EventPathIn)
    (eventMin : UInt64) (readCtx : ReadCtx) :
    (n.eventEntries log paths eventMin readCtx).Perm
      (paths.foldl (n.addPath log eventMin readCtx) ([], [])).1 := List.mergeSort_perm _ _

theorem eventEntries_sorted (n : NodeView) (log : EventLog) (paths : List EventPathIn)
    (eventMin : UInt64) (readCtx : ReadCtx) :
    (n.eventEntries log paths eventMin readCtx).Pairwise fun a b => a.sortKey ≤ b.sortKey := by
  let le : EventEntryOut → EventEntryOut → Bool := fun a b => decide (a.sortKey ≤ b.sortKey)
  have htrans : ∀ a b c, le a b = true → le b c = true → le a c = true := fun a b c hab hbc =>
    decide_eq_true (UInt64.le_trans (of_decide_eq_true hab) (of_decide_eq_true hbc))
  have htotal : ∀ a b, (le a b || le b a) = true := fun a b => by
    simpa [le] using UInt64.le_total a.sortKey b.sortKey
  exact (List.pairwise_mergeSort htrans htotal _).imp of_decide_eq_true

/-- **Event requests.** The events of an answer are the retained ones that are wanted from the
least number on, in the order of the log. -/
theorem dataOf_eventEntries (ho : log.Ordered) (hd : n.Declared log) :
    dataOf (n.eventEntries log paths eventMin readCtx) =
      Cursor.awaiting (·.eventNumber.toNat) (n.wants paths readCtx) eventMin.toNat log.reports := by
  have hc : Collected n log eventMin readCtx
      (fun e => ∃ p ∈ paths, eventPathMatches p e.endpoint e.cluster e.event = true)
      (paths.foldl (n.addPath log eventMin readCtx) ([], [])) := by
    have h₀ : Collected n log eventMin readCtx (fun _ => False) ([], []) :=
      ⟨fun k => by simp [dataOf], List.nodup_nil, fun d => by simp [dataOf]⟩
    exact (h₀.foldl_addPath ho hd paths).congr fun e _ => by simp
  have hperm := (n.eventEntries_perm log paths eventMin readCtx).filterMap (·.data?)
  have hsorted : (dataOf (n.eventEntries log paths eventMin readCtx)).Pairwise
      fun a b => a.eventNumber.toNat ≤ b.eventNumber.toNat := by
    refine (List.pairwise_filterMap.2 ((n.eventEntries_sorted log paths eventMin readCtx).imp ?_))
    rintro a b hab d hd d' hd'
    cases a <;> cases hd
    cases b <;> cases hd'
    exact hab
  have hnodup : (dataOf (n.eventEntries log paths eventMin readCtx)).Pairwise
      fun a b => a.eventNumber ≠ b.eventNumber :=
    List.pairwise_map.1 ((hperm.map EventReportOut.eventNumber).nodup_iff.2 hc.nodup)
  have hinc : Cursor.Increasing (·.eventNumber.toNat)
      (dataOf (n.eventEntries log paths eventMin readCtx)) :=
    (hsorted.and hnodup).imp fun h => lt_of_le_of_ne h.1 fun heq => h.2 (UInt64.toNat_inj.1 heq)
  refine hinc.ext ho.increasing_reports.awaiting fun d => ?_
  · rw [Cursor.mem_awaiting]
    refine (hperm.mem_iff.trans (hc.mem d)).trans ?_
    simp only [EventLog.reports, List.mem_map, wants, wantsEvent, Bool.and_eq_true, List.any_eq_true]
    constructor
    · rintro ⟨e, he, rfl, hm, ha⟩
      exact ⟨⟨e, (mem_since.1 he).1, rfl⟩, ⟨hm, ha⟩, (mem_since.1 he).2⟩
    · rintro ⟨⟨e, he, rfl⟩, ⟨hm, ha⟩, hmin⟩
      exact ⟨e, mem_since.2 ⟨he, hmin⟩, rfl, hm, ha⟩

/-- The events of a path are no statuses. -/
theorem statusesOf_foldl_addEvent (l : List StoredEvent) (acc : List EventEntryOut × List UInt64) :
    statusesOf (l.foldl (n.addEvent readCtx path) acc).1 = statusesOf acc.1 := by
  induction l generalizing acc with
  | nil => rfl
  | cons stored l ih =>
    rw [List.foldl_cons, ih]
    unfold addEvent
    split_ifs
    · rfl
    · exact (List.filter_append ..).trans (List.append_nil _)
    · rfl

theorem statusesOf_foldl_addPath (paths : List EventPathIn)
    (acc : List EventEntryOut × List UInt64) :
    statusesOf (paths.foldl (n.addPath log eventMin readCtx) acc).1 =
      statusesOf acc.1 ++ n.eventStatuses paths := by
  induction paths generalizing acc with
  | nil => exact (List.append_nil _).symm
  | cons path paths ih =>
    rw [List.foldl_cons, ih]
    unfold addPath eventStatuses
    cases hstatus : n.eventPathStatus path with
    | none =>
      rw [statusesOf_foldl_addEvent, List.filterMap_cons_none hstatus]
    | some entry =>
      have hentry : entry.data?.isNone = true := by
        have h := dataOf_eventPathStatus hstatus
        cases entry with
        | data d => cases h
        | status => rfl
      rw [List.filterMap_cons_some hstatus]
      simp only [statusesOf, List.filter_append, List.filter_singleton, hentry, cond_true,
        List.append_assoc, List.singleton_append]

/-- The statuses of an answer are those of its paths. -/
theorem statusesOf_eventEntries (n : NodeView) (log : EventLog) (paths : List EventPathIn)
    (eventMin : UInt64) (readCtx : ReadCtx) :
    (statusesOf (n.eventEntries log paths eventMin readCtx)).Perm (n.eventStatuses paths) :=
  ((n.eventEntries_perm log paths eventMin readCtx).filter _).trans
    (.of_eq (statusesOf_foldl_addPath paths ([], [])))

end NodeView

end MatStack
