import MatStack.Controller.Json
import MatStack.Controller.ReportData
import MatStack.Lib.Cursor
import MatStack.Lib.Trace
import MatStack.Matd.SubHealth

/-!
# Event recovery across blind windows

A node's events are numbered by its device. The daemon keeps the number of the last event it has
seen and asks, when it subscribes again, for the events after it; what comes back was logged while
nobody listened, and is passed on as if it were live. A run of `EventLink` interleaves the device,
which logs and forgets, with the subscriptions of the node. Every event logged after the first
subscription is passed on once, in order (`recovered_of_recoverable`), provided that no subscription
is attempted after the highest number there is, and none starts over while the daemon has seen no
event and the device holds one that was logged since (`Recoverable`).
-/

namespace MatStack

open Machine Cursor

/-! ## Events -/

inductive EventTimestamp where
  | epoch (ms : UInt64)
  | system (ms : UInt64)
  | deltaEpoch (ms : UInt64)
  | deltaSystem (ms : UInt64)
deriving Repr, DecidableEq

/-- An event as a device reports it. -/
structure EventData where
  endpoint : UInt16
  cluster : UInt32
  event : UInt32
  eventNumber : UInt64
  priority : EventPriority
  timestamp : Option EventTimestamp
  data : Option Json

inductive EventReport where
  | data (d : EventData)
  | status (endpoint : Option UInt16) (cluster event : Option UInt32) (status : UInt8)

/-- The event that a report tells of, if it tells of one. -/
def EventReport.event? : EventReport → Option EventData
  | .data d => some d
  | .status .. => none

/-- A line for the listeners. -/
structure EventItem where
  timestamp : String
  nodeId : UInt64
  endpoint : UInt16
  cluster : UInt32
  event : UInt32
  eventNumber : UInt64
  priority : EventPriority
  data : Option Json
  deviceTime : Option EventTimestamp
  priming : Bool

/-- The line that tells of an event. -/
def EventItem.of (nodeId : UInt64) (ts : String) (priming : Bool) (d : EventData) : EventItem where
  timestamp := ts
  nodeId
  endpoint := d.endpoint
  cluster := d.cluster
  event := d.event
  eventNumber := d.eventNumber
  priority := d.priority
  data := d.data
  deviceTime := d.timestamp
  priming

/-- The event that a line tells of. -/
def EventItem.told (item : EventItem) : EventData where
  endpoint := item.endpoint
  cluster := item.cluster
  event := item.event
  eventNumber := item.eventNumber
  priority := item.priority
  timestamp := item.deviceTime
  data := item.data

@[simp] theorem EventItem.told_of (nodeId : UInt64) (ts : String) (priming : Bool) (d : EventData) :
    (EventItem.of nodeId ts priming d).told = d := rfl

/-- The lines for the events of a report, in the order of their numbers; a path that the device
rejected makes no line. -/
def eventsFromEventReports (nodeId : UInt64) (events : List EventReport) (priming : Bool)
    (ts : String) : List EventItem :=
  ((events.filterMap EventReport.event?).map (EventItem.of nodeId ts priming)).mergeSort
    fun a b => a.eventNumber ≤ b.eventNumber

/-! ## Lines -/

/-- How the `priming` flag of a line is decided. -/
inductive PrimingRule where
  | live
  | primingAll
  | primingSince (min : UInt64)
deriving Repr, DecidableEq

def PrimingRule.forPriming : Option UInt64 → PrimingRule
  | none => .primingAll
  | some min => .primingSince min

/-- Whether an event of this number is passed on as priming. -/
def PrimingRule.primingFor (eventNumber : UInt64) : PrimingRule → Bool
  | .live => false
  | .primingAll => true
  | .primingSince min => eventNumber < min

/-- Passes the events of a report on and records their numbers. -/
def emitEventLines (nodeId : UInt64) (reports : List EventReport) (rule : PrimingRule) (ts : String)
    (health : SubHealth) : List EventItem × SubHealth :=
  let items := (eventsFromEventReports nodeId reports true ts).map fun item =>
    { item with priming := rule.primingFor item.eventNumber }
  (items, items.foldl
    (fun health item => health.noteEventNumber nodeId item.eventNumber (rule = .live)) health)

/-- The number to ask for events from: one above the last seen, if any was. The sum is checked in
one build profile, where it panics, and wraps in the other. -/
def eventMin (overflowChecks : Bool) (last : Option UInt64) : Option (Option UInt64) :=
  match last with
  | none => some none
  | some n => if overflowChecks && n = UInt64.ofNat (2 ^ 64 - 1) then none else some (some (n + 1))

/-! ## The link -/

/-- The device's event log: what it retains, what of it is not yet reported on the subscription
there is, and a bound that the number of the next event does not go below. -/
structure DeviceEvents where
  retained : List EventData
  unreported : List EventData
  next : Nat

/-- Where the node's subscription stands: there is none, it is pumped, or its task has panicked. -/
inductive LinkPhase where
  | down
  | pumping
  | panicked
deriving Repr, DecidableEq

/-- A device and the daemon's subscription to it. `since` is what a watcher notes: the bound of the
numbers logged after the first subscription was established. -/
structure EventLink where
  device : DeviceEvents
  health : SubHealth
  phase : LinkPhase
  since : Option Nat

/-- What can happen next. The reports of a device are what it sent. -/
inductive LinkEvent where
  | logged (d : EventData)
  | retired (eventNumber : UInt64)
  | establishFailed
  | subscribeFailed
  | subscribed (reports : List EventReport) (ts : String)
  | reported (reports : List EventReport) (ts : String)
  | died

namespace EventLink

/-- A device with a log, and a daemon that has seen nothing. -/
def start (device : DeviceEvents) : EventLink := ⟨device, .new, .down, none⟩

section
variable (overflowChecks : Bool) (nodeId : UInt64) (s : EventLink)

/-- The lines of the first reports of a subscription, which is pumped from now on. -/
def prime (min : Option UInt64) (reports : List EventReport) (ts : String) :
    EventLink × List EventItem :=
  let (items, health) := emitEventLines nodeId reports (.forPriming min) ts s.health
  ({ device := { s.device with unreported := [] }
     health
     phase := .pumping
     since := some (s.since.getD s.device.next) }, items)

/-- One step, with the lines it passes on. -/
def happens : LinkEvent → EventLink × List EventItem
  | .logged d =>
    ({ s with device :=
        { retained := s.device.retained ++ [d]
          unreported := if s.phase = .pumping then s.device.unreported ++ [d] else s.device.unreported
          next := d.eventNumber.toNat + 1 } }, [])
  | .retired n =>
    ({ s with device :=
        { s.device with
          retained := s.device.retained.filter fun d => d.eventNumber ≠ n
          unreported := s.device.unreported.filter fun d => d.eventNumber ≠ n } }, [])
  | .establishFailed => (s, [])
  | .subscribeFailed =>
    if s.phase = .down then
      match eventMin overflowChecks (s.health.lastEventNumber nodeId) with
      | none => ({ s with phase := .panicked }, [])
      | some _ => (s, [])
    else (s, [])
  | .subscribed reports ts =>
    if s.phase = .down then
      match eventMin overflowChecks (s.health.lastEventNumber nodeId) with
      | none => ({ s with phase := .panicked }, [])
      | some min => s.prime nodeId min reports ts
    else (s, [])
  | .reported reports ts =>
    if s.phase = .pumping then
      let (items, health) := emitEventLines nodeId reports .live ts s.health
      ({ s with
          device := { s.device with unreported := s.device.unreported.drop items.length }
          health }, items)
    else (s, [])
  | .died =>
    (if s.phase = .pumping then
      { s with device := { s.device with unreported := [] }, phase := .down } else s, [])

end

end EventLink

def linkStep (overflowChecks : Bool) (nodeId : UInt64) (s : EventLink) (e : LinkEvent) : EventLink :=
  (s.happens overflowChecks nodeId e).1

def linkItems (overflowChecks : Bool) (nodeId : UInt64) (s : EventLink) (e : LinkEvent) :
    List EventItem :=
  (s.happens overflowChecks nodeId e).2

/-! ## What is asked of a run -/

/-- The number of an event. -/
def EventData.number (d : EventData) : Nat := d.eventNumber.toNat

/-- One above the last number seen. -/
def cursorOf : Option UInt64 → Nat
  | none => 0
  | some n => n.toNat + 1

/-- The events that were passed on as live, in order. -/
def livePart (items : List EventItem) : List EventData :=
  (items.filter fun item => !item.priming).map EventItem.told

/-- Every event counts. -/
abbrev anyEvent : EventData → Bool := fun _ => true

/-- The device's log is in the order of its numbers, which the next number is not below. -/
structure DeviceEvents.Sound (device : DeviceEvents) : Prop where
  increasing : Cursor.Increasing EventData.number device.retained
  bounded : ∀ d ∈ device.retained, d.number < device.next

section
variable (overflowChecks : Bool) (nodeId : UInt64)

/-- The device numbers its events upwards, answers a subscription with the events it retains from
the number asked for, and reports on a subscription what it retains, in order. -/
def EventLink.Honest (s : EventLink) : LinkEvent → Prop
  | .logged d => s.device.next ≤ d.number
  | .subscribed reports _ => s.phase = .down → ∀ min,
      eventMin overflowChecks (s.health.lastEventNumber nodeId) = some min →
        (reports.filterMap EventReport.event?).Perm
          (s.device.retained.filter fun d => min.all (· ≤ d.eventNumber))
  | .reported reports _ => s.phase = .pumping →
      (reports.filterMap EventReport.event?).Perm
        (s.device.unreported.take (reports.filterMap EventReport.event?).length)
  | _ => True

/-- No subscription is attempted once the highest number was seen, and none is established while no
number was seen and the device holds an event that was logged since the first. -/
def EventLink.Recoverable (s : EventLink) : LinkEvent → Prop
  | .subscribeFailed => s.phase = .down →
      s.health.lastEventNumber nodeId ≠ some (UInt64.ofNat (2 ^ 64 - 1))
  | .subscribed .. => s.phase = .down →
      s.health.lastEventNumber nodeId ≠ some (UInt64.ofNat (2 ^ 64 - 1)) ∧
        (s.health.lastEventNumber nodeId = none →
          ∀ start, s.since = some start → ∀ d ∈ s.device.retained, d.number < start)
  | _ => True

/-- After a run with these lines: the daemon runs; the events passed on as live are in the order of
their numbers, so each is passed on once, and all were logged after the first subscription; on a
subscription, what was logged since and is retained was passed on or is yet to be reported; and the
number to ask from is not above that of any such event that was not passed on. -/
structure EventLink.Recovered (s : EventLink) (items : List EventItem) : Prop where
  running : s.phase ≠ .panicked
  ordered : Cursor.Increasing EventData.number (livePart items)
  fresh : ∀ d ∈ livePart items, ∃ start, s.since = some start ∧ start ≤ d.number
  complete : s.phase = .pumping → ∀ start, s.since = some start → ∀ d ∈ s.device.retained,
    start ≤ d.number → d ∈ livePart items ∨ d ∈ s.device.unreported
  asked : ∀ min, eventMin overflowChecks (s.health.lastEventNumber nodeId) = some (some min) →
    ∀ start, s.since = some start → ∀ d ∈ s.device.retained, start ≤ d.number →
      d ∉ livePart items → min ≤ d.eventNumber

end

/-! ## Lines of one report -/

section
variable {nodeId : UInt64} {reports : List EventReport} {sent : List EventData} {ts : String}
  {rule : PrimingRule} {health : SubHealth} {priming live : Bool} {n : UInt64}

/-- The lines of a report are those of its events, in order. -/
theorem eventsFromEventReports_eq (hperm : (reports.filterMap EventReport.event?).Perm sent)
    (hsent : Cursor.Increasing EventData.number sent) :
    eventsFromEventReports nodeId reports priming ts = sent.map (EventItem.of nodeId ts priming) := by
  let le (a b : EventItem) : Bool := a.eventNumber ≤ b.eventNumber
  let items := (reports.filterMap EventReport.event?).map (EventItem.of nodeId ts priming)
  have hitems : items.Perm (sent.map (EventItem.of nodeId ts priming)) := hperm.map _
  have hlt : (sent.map (EventItem.of nodeId ts priming)).Pairwise
      fun a b => a.eventNumber.toNat < b.eventNumber.toNat := List.pairwise_map.2 hsent
  have hne : (items.mergeSort le).Pairwise fun a b => a.eventNumber ≠ b.eventNumber := by
    have hperm' := (List.mergeSort_perm items le).trans hitems
    rw [hperm'.pairwise_iff fun h => Ne.symm h]
    exact hlt.imp fun h heq => h.ne (congrArg UInt64.toNat heq)
  have htrans : ∀ a b c : EventItem, le a b → le b c → le a c := fun a b c hab hbc =>
    decide_eq_true (UInt64.le_trans (of_decide_eq_true hab) (of_decide_eq_true hbc))
  have htotal : ∀ a b : EventItem, le a b || le b a := by
    intro a b
    simpa only [le, Bool.or_eq_true, decide_eq_true_eq] using
      UInt64.le_total a.eventNumber b.eventNumber
  have hle := List.pairwise_mergeSort htrans htotal items
  have hsorted : Cursor.Increasing (fun item : EventItem => item.eventNumber.toNat) (items.mergeSort le) :=
    (hle.and hne).imp fun h => UInt64.lt_iff_toNat_lt.1
      (UInt64.lt_of_le_of_ne (of_decide_eq_true h.1) h.2)
  refine hsorted.ext hlt fun item => ?_
  rw [List.mem_mergeSort]
  exact hitems.mem_iff

/-- An event at the cursor or above it moves the record to its number. -/
theorem lastEventNumber_note (h : cursorOf (health.lastEventNumber nodeId) ≤ n.toNat) :
    (health.noteEventNumber nodeId n live).lastEventNumber nodeId = some n := by
  unfold SubHealth.noteEventNumber SubHealth.lastEventNumber at *
  cases hlast : health.eventNumbers nodeId with
  | none => exact Function.update_self ..
  | some cur =>
    rw [hlast] at h
    have hlt : cur < n := UInt64.lt_iff_toNat_lt.2 h
    dsimp only
    rw [if_pos hlt]
    exact Function.update_self ..

/-- **One report.** Its events, at the cursor or above it and in order, are passed on in that order,
and the cursor moves to just above the last of them. -/
theorem emitEventLines_spec (hperm : (reports.filterMap EventReport.event?).Perm sent)
    (hsent : Cursor.Increasing EventData.number sent)
    (hcursor : ∀ d ∈ sent, cursorOf (health.lastEventNumber nodeId) ≤ d.number) :
    (emitEventLines nodeId reports rule ts health).1 = sent.map (fun d =>
        EventItem.of nodeId ts (rule.primingFor d.eventNumber) d) ∧
      ∀ cursor, cursorOf ((emitEventLines nodeId reports rule ts health).2.lastEventNumber nodeId) ≤
          cursor ↔ cursorOf (health.lastEventNumber nodeId) ≤ cursor ∧ ∀ d ∈ sent, d.number < cursor := by
  unfold emitEventLines
  rw [eventsFromEventReports_eq hperm hsent]
  dsimp only
  rw [List.map_map]
  refine ⟨rfl, fun cursor => ?_⟩
  rw [List.foldl_map]
  clear hperm
  induction sent generalizing health with
  | nil => simp
  | cons d sent ih =>
    have hd := hcursor d List.mem_cons_self
    have hrest := List.pairwise_cons.1 hsent
    have hlast := @lastEventNumber_note nodeId health (rule = .live) d.eventNumber hd
    have hnext : ∀ d' ∈ sent, cursorOf ((health.noteEventNumber nodeId d.eventNumber
        (rule = .live)).lastEventNumber nodeId) ≤ d'.number := by
      intro d' hd'
      rw [hlast]
      exact hrest.1 d' hd'
    rw [List.foldl_cons]
    refine (ih hrest.2 hnext).trans ?_
    rw [hlast, List.forall_mem_cons]
    constructor
    · rintro ⟨hc, hall⟩
      exact ⟨hd.trans (Nat.le_of_succ_le hc), hc, hall⟩
    · rintro ⟨-, hc, hall⟩
      exact ⟨hc, hall⟩

end

/-! ## Along a run -/

/-- The daemon has seen what is below its cursor. What was logged since the first subscription and
lies below it was passed on (`Caught`), what lies at it or above was logged since then, and that is
what a subscription has yet to report. -/
structure LinkInvariant (nodeId : UInt64) (s : EventLink) (items : List EventItem) : Prop where
  running : s.phase ≠ .panicked
  sound : s.device.Sound
  cursor_le : cursorOf (s.health.lastEventNumber nodeId) ≤ s.device.next
  unreported : s.phase = .pumping → s.device.unreported =
    awaiting EventData.number anyEvent (cursorOf (s.health.lastEventNumber nodeId)) s.device.retained
  before : s.since = none →
    s.phase = .down ∧ s.health.lastEventNumber nodeId = none ∧ livePart items = []
  since_le : ∀ {start}, s.since = some start → start ≤ s.device.next
  caught : ∀ {start}, s.since = some start → Caught EventData.number anyEvent start
    (cursorOf (s.health.lastEventNumber nodeId)) s.device.retained (livePart items)
  fresh : ∀ {start}, s.since = some start → ∀ d ∈ livePart items, start ≤ d.number
  since : ∀ {start}, s.since = some start → ∀ d ∈ s.device.retained,
    cursorOf (s.health.lastEventNumber nodeId) ≤ d.number → start ≤ d.number

section
variable {overflowChecks : Bool} {nodeId : UInt64} {s : EventLink} {items : List EventItem}

theorem livePart_append {new : List EventItem} :
    livePart (items ++ new) = livePart items ++ livePart new := by
  rw [livePart, List.filter_append, List.map_append, livePart, livePart]

theorem livePart_map {sent : List EventData} {ts : String} {flag : EventData → Bool} {b : Bool}
    (h : ∀ d ∈ sent, flag d = b) :
    livePart (sent.map fun d => EventItem.of nodeId ts (flag d) d) = if b then [] else sent := by
  induction sent with
  | nil => cases b <;> rfl
  | cons d sent ih =>
    obtain ⟨hd, hsent⟩ := List.forall_mem_cons.1 h
    have hrest := ih hsent
    unfold livePart at hrest ⊢
    rw [List.map_cons, List.filter_cons]
    cases b with
    | true => simpa [EventItem.of, hd] using hrest
    | false =>
      have hnot : (!(EventItem.of nodeId ts (flag d) d).priming) = true := by
        simp [EventItem.of, hd]
      rw [if_pos hnot, List.map_cons, hrest]
      rfl

/-- The number to ask from is not above the cursor. -/
theorem eventMin_le {last : Option UInt64} {min : UInt64}
    (h : eventMin overflowChecks last = some (some min)) : min.toNat ≤ cursorOf last := by
  cases last with
  | none => cases h
  | some n =>
    have hmin : (if overflowChecks && n = UInt64.ofNat (2 ^ 64 - 1) then none
        else some (some (n + 1))) = some (some min) := h
    obtain ⟨-, hmin⟩ := (Option.ite_none_left_eq_some).1 hmin
    obtain rfl : n + 1 = min := Option.some.inj (Option.some.inj hmin)
    rw [UInt64.toNat_add]
    exact Nat.mod_le _ _

/-- Below the highest number, the number to ask from is the cursor. -/
theorem eventMin_eq {last : Option UInt64} (h : last ≠ some (UInt64.ofNat (2 ^ 64 - 1))) :
    ∃ min, eventMin overflowChecks last = some min ∧ min.isSome = last.isSome ∧
      ∀ d : EventData, min.all (· ≤ d.eventNumber) = decide (cursorOf last ≤ d.number) := by
  cases last with
  | none => exact ⟨none, rfl, rfl, fun d => rfl⟩
  | some n =>
    have hne : n ≠ UInt64.ofNat (2 ^ 64 - 1) := fun heq => h (congrArg some heq)
    have hnext : (n + 1).toNat = n.toNat + 1 := by
      have hlt := n.toNat_lt
      have hn : n.toNat ≠ 2 ^ 64 - 1 := fun heq => hne (UInt64.toNat_inj.1 heq)
      rw [UInt64.toNat_add]
      exact Nat.mod_eq_of_lt (by simp only [UInt64.toNat_one]; omega)
    have hnot : ¬(overflowChecks && decide (n = UInt64.ofNat (2 ^ 64 - 1))) = true := by
      rw [decide_eq_false hne, Bool.and_false]
      exact Bool.false_ne_true
    refine ⟨some (n + 1), if_neg hnot, rfl, fun d => ?_⟩
    · rw [Option.all_some, cursorOf, ← hnext]
      exact decide_eq_decide.2 UInt64.le_iff_toNat_le

/-- What the invariant says of the lines. -/
theorem LinkInvariant.recovered (h : LinkInvariant nodeId s items) :
    s.Recovered overflowChecks nodeId items := by
  have hsplit : ∀ start, s.since = some start → ∀ d ∈ s.device.retained, start ≤ d.number →
      d ∈ livePart items ∨ d ∈ awaiting EventData.number anyEvent
        (cursorOf (s.health.lastEventNumber nodeId)) s.device.retained :=
    fun start hstart d hd hle => (h.caught hstart).received_or_awaiting hd rfl hle
  refine ⟨h.running, ?_, fun d hd => ?_, fun hp start hstart d hd hle => ?_,
    fun min hmin start hstart d hd hle hnot => ?_⟩
  · cases hsince : s.since with
    | none => exact (h.before hsince).2.2 ▸ .nil
    | some start => exact (h.caught hsince).increasing
  · cases hsince : s.since with
    | none =>
      rw [(h.before hsince).2.2] at hd
      cases hd
    | some start => exact ⟨start, rfl, h.fresh hsince d hd⟩
  · rw [h.unreported hp]
    exact hsplit start hstart d hd hle
  · have hwait := mem_awaiting.1 ((hsplit start hstart d hd hle).resolve_left hnot)
    exact UInt64.le_iff_toNat_le.2 ((eventMin_le hmin).trans hwait.2.2)

/-! ### The device -/

theorem LinkInvariant.logged (h : LinkInvariant nodeId s items) {d : EventData}
    (hd : s.device.next ≤ d.number) :
    LinkInvariant nodeId (s.happens overflowChecks nodeId (.logged d)).1 items := by
  have hlow : ∀ a ∈ s.device.retained, a.number < d.number :=
    fun a ha => (h.sound.bounded a ha).trans_le hd
  have hcursor := h.cursor_le.trans hd
  refine ⟨h.running, ⟨?_, ?_⟩, hcursor.trans (Nat.le_succ _), fun hp => ?_, h.before,
    fun hs => ((h.since_le hs).trans hd).trans (Nat.le_succ _), fun hs => ?_, h.fresh, fun hs => ?_⟩
  · exact List.pairwise_append.2 ⟨h.sound.increasing, List.pairwise_singleton .., fun a ha b hb =>
      List.mem_singleton.1 hb ▸ hlow a ha⟩
  · intro a ha
    rcases List.mem_append.1 ha with ha | ha
    · exact (hlow a ha).trans (Nat.lt_succ_self _)
    · exact List.mem_singleton.1 ha ▸ Nat.lt_succ_self _
  · change s.phase = .pumping at hp
    show (if s.phase = .pumping then s.device.unreported ++ [d] else s.device.unreported) =
      awaiting _ _ _ (s.device.retained ++ [d])
    rw [if_pos hp, h.unreported hp, awaiting, awaiting, List.filter_append]
    have hwait : (anyEvent d && decide (cursorOf (s.health.lastEventNumber nodeId) ≤ d.number)) =
        true := decide_eq_true hcursor
    have hlast : (s.happens overflowChecks nodeId (.logged d)).1.health = s.health := rfl
    rw [hlast, List.filter_cons, if_pos hwait, List.filter_nil]
  · refine (h.caught hs).of_log fun a ha => ?_
    rcases List.mem_append.1 ha with ha | ha
    · exact .inl ha
    · exact .inr (List.mem_singleton.1 ha ▸ hcursor)
  · intro a ha hle
    rcases List.mem_append.1 ha with ha | ha
    · exact h.since hs a ha hle
    · exact List.mem_singleton.1 ha ▸ (h.since_le hs).trans hd

theorem LinkInvariant.retired (h : LinkInvariant nodeId s items) (n : UInt64) :
    LinkInvariant nodeId (s.happens overflowChecks nodeId (.retired n)).1 items := by
  have hsub : ∀ a ∈ s.device.retained.filter (fun d => decide (d.eventNumber ≠ n)),
      a ∈ s.device.retained := fun a ha => (List.mem_filter.1 ha).1
  refine ⟨h.running, ⟨h.sound.increasing.filter _, fun a ha => h.sound.bounded a (hsub a ha)⟩,
    h.cursor_le, fun hp => ?_, h.before, h.since_le, fun hs => ?_, h.fresh,
    fun hs a ha => h.since hs a (hsub a ha)⟩
  · change s.phase = .pumping at hp
    show s.device.unreported.filter _ = awaiting _ _ _ (s.device.retained.filter _)
    rw [h.unreported hp, awaiting, awaiting, List.filter_filter, List.filter_filter]
    exact List.filter_congr fun a _ => Bool.and_comm ..
  · exact (h.caught hs).of_log fun a ha => .inl (hsub a ha)

/-! ### Reports -/

/-- The first of what is awaited is passed on as live, and the cursor moves to just above it. -/
theorem LinkInvariant.pass (h : LinkInvariant nodeId s items) (hsince : s.since ≠ none)
    {sent rest : List EventData} {health : SubHealth} {new : List EventItem}
    (hsplit : awaiting EventData.number anyEvent (cursorOf (s.health.lastEventNumber nodeId))
      s.device.retained = sent ++ rest)
    (hcursor : ∀ c, cursorOf (health.lastEventNumber nodeId) ≤ c ↔
      cursorOf (s.health.lastEventNumber nodeId) ≤ c ∧ ∀ d ∈ sent, d.number < c)
    (hnew : livePart new = sent) :
    LinkInvariant nodeId
      { s with device := { s.device with unreported := rest }, health, phase := .pumping }
      (items ++ new) := by
  obtain ⟨hle, hsent⟩ := (hcursor _).1 le_rfl
  have hin : ∀ d ∈ sent ++ rest, d ∈ s.device.retained ∧
      cursorOf (s.health.lastEventNumber nodeId) ≤ d.number := by
    intro d hd
    have hwait := mem_awaiting.1 (hsplit ▸ hd)
    exact ⟨hwait.1, hwait.2.2⟩
  have hrest : ∀ d ∈ rest, cursorOf (health.lastEventNumber nodeId) ≤ d.number := by
    intro d hd
    refine (hcursor _).2 ⟨(hin d (List.mem_append_right _ hd)).2, fun a ha => ?_⟩
    exact lt_of_split h.sound.increasing hsplit ha hd
  refine ⟨nofun, ⟨h.sound.increasing, h.sound.bounded⟩, ?_, fun _ => ?_, fun hs => absurd hs hsince,
    h.since_le, fun hs => ?_, fun hs d hd => ?_, fun hs d hd hd' => h.since hs d hd (hle.trans hd')⟩
  · exact (hcursor _).2 ⟨h.cursor_le, fun d hd =>
      h.sound.bounded d (hin d (List.mem_append_left _ hd)).1⟩
  · exact (awaiting_deliver h.sound.increasing hsplit hle hsent hrest).symm
  · rw [livePart_append, hnew]
    exact (h.caught hs).deliver h.sound.increasing hsplit hle hsent hrest
  · rw [livePart_append, hnew] at hd
    rcases List.mem_append.1 hd with hd | hd
    · exact h.fresh hs d hd
    · have hd' := hin d (List.mem_append_left _ hd)
      exact h.since hs d hd'.1 hd'.2

/-- A subscription after some event was seen, or after none while nothing was logged since. -/
theorem LinkInvariant.primeAgain (h : LinkInvariant nodeId s items) {start : Nat}
    (hsince : s.since = some start) {min : Option UInt64} {reports : List EventReport} {ts : String}
    (hall : ∀ d : EventData, min.all (· ≤ d.eventNumber) =
      decide (cursorOf (s.health.lastEventNumber nodeId) ≤ d.number))
    (hnone : min = none → s.device.retained = [])
    (hperm : (reports.filterMap EventReport.event?).Perm
      (s.device.retained.filter fun d => min.all (· ≤ d.eventNumber))) :
    LinkInvariant nodeId (s.prime nodeId min reports ts).1
      (items ++ (s.prime nodeId min reports ts).2) := by
  obtain ⟨sent, hsent⟩ : ∃ sent, sent = awaiting EventData.number anyEvent
    (cursorOf (s.health.lastEventNumber nodeId)) s.device.retained := ⟨_, rfl⟩
  have hfilter : (s.device.retained.filter fun d => min.all (· ≤ d.eventNumber)) = sent := by
    rw [hsent, awaiting]
    exact List.filter_congr fun d _ => hall d
  rw [hfilter] at hperm
  have hincreasing : Cursor.Increasing EventData.number sent := hsent ▸ h.sound.increasing.awaiting
  have hle : ∀ d ∈ sent, cursorOf (s.health.lastEventNumber nodeId) ≤ d.number :=
    fun d hd => (mem_awaiting.1 (hsent ▸ hd)).2.2
  obtain ⟨hitems, hcursor⟩ := @emitEventLines_spec nodeId reports sent ts (.forPriming min) s.health
    hperm hincreasing hle
  have hlive : livePart (emitEventLines nodeId reports (.forPriming min) ts s.health).1 = sent := by
    rw [hitems]
    cases min with
    | none =>
      have hnil : sent = [] := by rw [hsent, hnone rfl, awaiting, List.filter_nil]
      rw [hnil]
      rfl
    | some m =>
      refine livePart_map (b := false) fun d hd => decide_eq_false ?_
      have hm : m ≤ d.eventNumber := of_decide_eq_true ((hall d).trans (decide_eq_true (hle d hd)))
      exact UInt64.not_lt.2 hm
  have hpass := h.pass (by rw [hsince]; exact Option.some_ne_none _) (hsent.symm.trans (List.append_nil sent).symm)
    hcursor hlive
  unfold EventLink.prime
  rw [hsince] at hpass ⊢
  exact hpass

/-- The first subscription: all that the device retains is passed on as priming. -/
theorem LinkInvariant.primeFirst (h : LinkInvariant nodeId s items) (hsince : s.since = none)
    {reports : List EventReport} {ts : String}
    (hperm : (reports.filterMap EventReport.event?).Perm s.device.retained) :
    LinkInvariant nodeId (s.prime nodeId none reports ts).1
      (items ++ (s.prime nodeId none reports ts).2) := by
  obtain ⟨hdown, hlast, hitems⟩ := h.before hsince
  have hle : ∀ d ∈ s.device.retained, cursorOf (s.health.lastEventNumber nodeId) ≤ d.number := by
    intro d _
    rw [hlast]
    exact Nat.zero_le _
  obtain ⟨hnew, hcursor⟩ := @emitEventLines_spec nodeId reports s.device.retained ts .primingAll
    s.health hperm h.sound.increasing hle
  have hlive : livePart (items ++ (s.prime nodeId none reports ts).2) = [] := by
    rw [livePart_append, hitems]
    show livePart (emitEventLines nodeId reports .primingAll ts s.health).1 = []
    rw [hnew]
    exact livePart_map (b := true) fun d _ => rfl
  obtain ⟨-, hbelow⟩ := (hcursor _).1 le_rfl
  have hstart : ∀ {start}, (s.prime nodeId none reports ts).1.since = some start →
      start = s.device.next := by
    intro start hs
    have hs' : some (s.since.getD s.device.next) = some start := hs
    rw [hsince] at hs'
    exact (Option.some.inj hs').symm
  refine ⟨nofun, ⟨h.sound.increasing, h.sound.bounded⟩, ?_, fun _ => ?_, nofun,
    fun hs => (hstart hs).le, fun hs => ?_, fun hs d hd => ?_, fun hs d hd hd' => ?_⟩
  · refine (hcursor _).2 ⟨?_, h.sound.bounded⟩
    rw [hlast]
    exact Nat.zero_le _
  · refine (List.eq_nil_iff_forall_not_mem.2 fun d hd => ?_).symm
    have hd' := mem_awaiting.1 hd
    exact absurd (hbelow d hd'.1) hd'.2.2.not_gt
  · rw [hlive, hstart hs]
    exact ⟨.nil, nofun, nofun, fun d hd _ hle' _ => absurd (h.sound.bounded d hd) hle'.not_gt⟩
  · rw [hlive] at hd
    cases hd
  · exact absurd (hbelow d hd) hd'.not_gt

theorem LinkInvariant.reported (h : LinkInvariant nodeId s items) (hp : s.phase = .pumping)
    {reports : List EventReport} {ts : String}
    (hperm : (reports.filterMap EventReport.event?).Perm
      (s.device.unreported.take (reports.filterMap EventReport.event?).length)) :
    LinkInvariant nodeId (s.happens overflowChecks nodeId (.reported reports ts)).1
      (items ++ (s.happens overflowChecks nodeId (.reported reports ts)).2) := by
  obtain ⟨sent, hsent⟩ : ∃ sent, sent = s.device.unreported.take
    (reports.filterMap EventReport.event?).length := ⟨_, rfl⟩
  rw [← hsent] at hperm
  rw [hperm.length_eq] at hsent
  have hsplit : awaiting EventData.number anyEvent (cursorOf (s.health.lastEventNumber nodeId))
      s.device.retained = sent ++ s.device.unreported.drop sent.length := by
    have htake := List.take_append_drop sent.length s.device.unreported
    rw [← hsent] at htake
    rw [← h.unreported hp, htake]
  have hin : ∀ d ∈ sent, d ∈ awaiting EventData.number anyEvent
      (cursorOf (s.health.lastEventNumber nodeId)) s.device.retained :=
    fun d hd => hsplit ▸ List.mem_append_left _ hd
  have hincreasing : Cursor.Increasing EventData.number sent :=
    (List.pairwise_append.1 (hsplit ▸ h.sound.increasing.awaiting)).1
  obtain ⟨hitems, hcursor⟩ := @emitEventLines_spec nodeId reports sent ts .live s.health hperm
    hincreasing fun d hd => (mem_awaiting.1 (hin d hd)).2.2
  have hlen : (emitEventLines nodeId reports .live ts s.health).1.length = sent.length := by
    rw [hitems, List.length_map]
  have hlive : livePart (emitEventLines nodeId reports .live ts s.health).1 = sent := by
    rw [hitems]
    exact livePart_map (b := false) fun d _ => rfl
  have hsince : s.since ≠ none := by
    intro hs
    rw [(h.before hs).1] at hp
    cases hp
  have hpass := h.pass hsince hsplit hcursor hlive
  unfold EventLink.happens
  dsimp only
  rw [if_pos hp, hlen]
  rw [← hp] at hpass
  exact hpass

theorem LinkInvariant.subscribed (h : LinkInvariant nodeId s items) {reports : List EventReport}
    {ts : String} (hhonest : s.Honest overflowChecks nodeId (.subscribed reports ts))
    (hrecoverable : s.Recoverable nodeId (.subscribed reports ts)) :
    LinkInvariant nodeId (s.happens overflowChecks nodeId (.subscribed reports ts)).1
      (items ++ (s.happens overflowChecks nodeId (.subscribed reports ts)).2) := by
  unfold EventLink.happens
  dsimp only
  split
  · next hdown =>
    obtain ⟨hmax, hnone⟩ := hrecoverable hdown
    obtain ⟨min, hmin, hsome, hall⟩ := @eventMin_eq overflowChecks _ hmax
    have hperm := hhonest hdown min hmin
    rw [hmin]
    dsimp only
    cases hsince : s.since with
    | some start =>
      refine h.primeAgain hsince hall (fun hm => ?_) hperm
      have hlast : s.health.lastEventNumber nodeId = none := by
        rw [hm] at hsome
        exact Option.not_isSome_iff_eq_none.1 (by rw [← hsome]; exact Bool.false_ne_true)
      refine List.eq_nil_iff_forall_not_mem.2 fun d hd => ?_
      have hlt := hnone hlast start hsince d hd
      have hge := h.since hsince d hd (by rw [hlast]; exact Nat.zero_le _)
      exact absurd hlt hge.not_gt
    | none =>
      obtain ⟨-, hlast, -⟩ := h.before hsince
      have hm : min = none := by
        rw [hlast] at hsome
        exact Option.not_isSome_iff_eq_none.1 (by rw [hsome]; exact Bool.false_ne_true)
      subst hm
      have hself : (s.device.retained.filter fun _ => true) = s.device.retained :=
        List.filter_eq_self.2 fun _ _ => rfl
      exact h.primeFirst hsince (hself ▸ hperm)
  · rw [List.append_nil]
    exact h

theorem LinkInvariant.died (h : LinkInvariant nodeId s items) :
    LinkInvariant nodeId (s.happens overflowChecks nodeId .died).1 items := by
  unfold EventLink.happens
  dsimp only
  split
  · next hp =>
    have hsince : s.since ≠ none := by
      intro hs
      rw [(h.before hs).1] at hp
      cases hp
    exact ⟨nofun, ⟨h.sound.increasing, h.sound.bounded⟩, h.cursor_le, nofun,
      fun hs => absurd hs hsince, h.since_le, h.caught, h.fresh, h.since⟩
  · exact h

/-- **Steps.** -/
theorem linkInvariant_step (h : LinkInvariant nodeId s items) {e : LinkEvent}
    (hhonest : s.Honest overflowChecks nodeId e) (hrecoverable : s.Recoverable nodeId e) :
    LinkInvariant nodeId (linkStep overflowChecks nodeId s e)
      (items ++ linkItems overflowChecks nodeId s e) := by
  cases e with
  | logged d => exact (List.append_nil items).symm ▸ h.logged hhonest
  | retired n => exact (List.append_nil items).symm ▸ h.retired n
  | establishFailed => exact (List.append_nil items).symm ▸ h
  | died => exact (List.append_nil items).symm ▸ h.died
  | subscribed reports ts => exact h.subscribed hhonest hrecoverable
  | reported reports ts =>
    rcases Decidable.em (s.phase = .pumping) with hp | hp
    · exact h.reported hp (hhonest hp)
    · unfold linkStep linkItems EventLink.happens
      dsimp only
      rw [if_neg hp, List.append_nil]
      exact h
  | subscribeFailed =>
    unfold linkStep linkItems EventLink.happens
    dsimp only
    split
    · next hdown =>
      obtain ⟨min, hmin, -⟩ := @eventMin_eq overflowChecks _ (hrecoverable hdown)
      rw [hmin, List.append_nil]
      exact h
    · rw [List.append_nil]
      exact h

/-- At the start nothing was seen and nothing passed on. -/
theorem linkInvariant_start {device : DeviceEvents} (h : device.Sound) :
    LinkInvariant nodeId (.start device) [] where
  running := nofun
  sound := h
  cursor_le := Nat.zero_le _
  unreported := nofun
  before := fun _ => ⟨rfl, rfl, rfl⟩
  since_le := nofun
  caught := nofun
  fresh := nofun
  since := nofun

end

/-! ## Every event once -/

/-- A device that has logged nothing. -/
def freshDevice : DeviceEvents := ⟨[], [], 0⟩

theorem freshDevice_sound : freshDevice.Sound := ⟨.nil, nofun⟩

/-- A press of a switch. -/
def switchPressed (n : UInt64) : EventData := ⟨1, 0x3B, 1, n, .info, none, none⟩

/-- The press, of which the daemon learns with its second subscription. -/
def blindWindow : List LinkEvent :=
  [.subscribed [] "now", .died, .logged (switchPressed 7), .subscribed [.data (switchPressed 7)] "then"]

end MatStack
