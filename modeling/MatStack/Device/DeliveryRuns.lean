import MatStack.Device.EventDelivery
import MatStack.Lib.Machine

/-!
# Event delivery over runs

What the subscriber of a node receives, over every order of emitted events, subscriptions, reports
and new sessions. While event numbers last, the events that were received are in order, each once,
and every retained event that is wanted was received or still waits. An event that waits is received
after as many reports as there are events up to it, if the reports have room for the first event
that waits. Where the statuses of the subscribed paths leave no room, it waits for ever.
-/

namespace MatStack

/-! ## The values of the attributes -/

/-- What the attributes of a node read as at one moment. -/
structure AttributeValues where
  value : UInt16 → UInt32 → UInt32 → ReadCtx → Option Bytes
  version : UInt16 → UInt32 → UInt32

namespace NodeView

/-- A node with other values of its attributes. -/
def withValues (n : NodeView) (v : AttributeValues) : NodeView where
  registry :=
    { endpoints := n.registry.endpoints.map fun e =>
        (e.1, e.2.map fun h => { h with read := v.value e.1 h.clusterId })
      endpoints_nodup := by
        rw [List.map_map]
        exact n.registry.endpoints_nodup
      clusters_nodup := by
        intro e he
        obtain ⟨e', he', rfl⟩ := List.mem_map.1 he
        rw [List.map_map]
        exact n.registry.clusters_nodup e' he' }
  acl := n.acl
  dataVersion := v.version

variable {n : NodeView} {v : AttributeValues}

theorem find?_withValues (endpoint : UInt16) :
    (n.withValues v).registry.endpoints.find? (·.1 == endpoint) =
      (n.registry.endpoints.find? (·.1 == endpoint)).map fun e =>
        (e.1, e.2.map fun h => { h with read := v.value e.1 h.clusterId }) := List.find?_map ..

theorem eventPathStatus_withValues : (n.withValues v).eventPathStatus = n.eventPathStatus := by
  have h : (n.withValues v).concreteEventPathStatus = n.concreteEventPathStatus := by
    funext endpoint cluster event
    unfold concreteEventPathStatus
    rw [find?_withValues]
    cases n.registry.endpoints.find? (·.1 == endpoint) with
    | none => rfl
    | some e =>
      simp only [Option.map_some, List.find?_map, Function.comp_def]
      cases e.2.find? (·.clusterId == cluster) <;> rfl
  funext path
  unfold eventPathStatus
  rw [h]

/-- Events do not depend on the values of attributes. -/
theorem eventEntries_withValues (log : EventLog) (paths : List EventPathIn) (eventMin : UInt64)
    (readCtx : ReadCtx) :
    (n.withValues v).eventEntries log paths eventMin readCtx =
      n.eventEntries log paths eventMin readCtx := by
  have hallowed : (n.withValues v).eventAllowed = n.eventAllowed := by
    funext readCtx endpoint cluster event
    unfold eventAllowed handlerFor
    rw [find?_withValues]
    cases n.registry.endpoints.find? (·.1 == endpoint) with
    | none => rfl
    | some e =>
      simp only [Option.map_some, Option.bind_eq_bind, Option.bind_some, List.find?_map,
        Function.comp_def]
      cases e.2.find? (·.clusterId == cluster) <;> rfl
  have hadd : (n.withValues v).addPath = n.addPath := by
    funext log eventMin readCtx acc path
    have hevent : (n.withValues v).addEvent = n.addEvent := by
      funext readCtx path acc stored
      unfold addEvent
      rw [hallowed]
    unfold addPath
    rw [eventPathStatus_withValues, hevent]
  unfold eventEntries
  rw [hadd]

end NodeView

/-! ## The node and its subscriber -/

/-- The subscriber of a node: its session and its subscription, the least number it asked for, and
the events that it received and acknowledged. -/
structure Subscriber where
  fabricIndex : UInt8
  subject : Subject
  sub : ActiveSubscription
  eventMin : UInt64
  received : List EventReportOut

/-- The log of a node and its subscriber, if it has one. -/
structure EventDelivery where
  log : EventLog
  subscriber : Option Subscriber

/-- What a stimulus or a request did to a cluster: it changed attributes, and emitted events that
the cluster declares. -/
structure Emission (n : NodeView) where
  endpoint : UInt16
  cluster : UInt32
  handler : ClusterHandler
  events : List EmittedEvent
  systemTimestampMs : UInt64
  changed : List AttrPath
  serves : n.handlerFor endpoint cluster = some handler
  declared : ∀ ev ∈ events, ev.event ∈ handler.events

/-- What happens to a node. The clock, the values of attributes, and whether the peer acknowledges
are the environment's. -/
inductive DeliveryEvent (n : NodeView) where
  | emit (emission : Emission n)
  | subscribe (req : SubscribeRequestIn) (fabricIndex : UInt8) (subject : Subject)
      (subscriptionId : UInt32) (now : Instant) (values : AttributeValues) (acknowledged : Bool)
  | report (now : Instant) (values : AttributeValues) (acknowledged : Bool)
  | installSession

namespace Subscriber

def readCtx (r : Subscriber) : ReadCtx := r.sub.readCtx r.fabricIndex r.subject

/-- The next report to the subscriber. -/
def nextReport (r : Subscriber) (n : NodeView) (log : EventLog) : Option SubscriptionReport :=
  r.sub.nextReport n log r.fabricIndex r.subject

/-- The subscriber acknowledged a report. -/
def acknowledge (r : Subscriber) (log : EventLog) (report : SubscriptionReport) (now : Instant) :
    Subscriber :=
  { r with
    sub := r.sub.acknowledge log report now
    received := r.received ++ dataOf report.events }

/-- The events that the subscriber waits for. -/
def awaiting (r : Subscriber) (n : NodeView) (log : EventLog) : List EventReportOut :=
  Cursor.awaiting (·.eventNumber.toNat) (n.wants r.sub.eventPaths r.readCtx)
    r.sub.nextEvent.toNat log.reports

/-- How many events it waits for up to one of them. -/
def ahead (r : Subscriber) (n : NodeView) (log : EventLog) (d : EventReportOut) : Nat :=
  Cursor.ahead (·.eventNumber.toNat) (n.wants r.sub.eventPaths r.readCtx) d
    r.sub.nextEvent.toNat log.reports

end Subscriber

namespace EventDelivery

/-- A node that has logged nothing. -/
def start (firstNumber : UInt64) (cap : Nat) : EventDelivery := ⟨.new firstNumber cap, none⟩

section
variable (n : NodeView)

/-- One event. A message that cannot be encoded, or is not acknowledged, ends the subscription. -/
def step (s : EventDelivery) : DeliveryEvent n → EventDelivery
  | .emit e =>
    let log := s.log.drain e.endpoint e.cluster e.events e.systemTimestampMs
    ⟨log, s.subscriber.map fun r => { r with sub := r.sub.noteOutcome e.changed log }⟩
  | .subscribe req fabricIndex subject subscriptionId now values acknowledged =>
    match serveSubscribeRequest (n.withValues values) s.log req fabricIndex subject subscriptionId
      now acknowledged with
    | some (.installed sub delivered) =>
      let r := ⟨fabricIndex, subject, sub, req.eventMin.getD 0, dataOf delivered⟩
      { s with subscriber := some r }
    | some .rejected => s
    | some .tornDown | none => { s with subscriber := none }
  | .report now values acknowledged =>
    match s.subscriber with
    | none => s
    | some r =>
      match r.nextReport (n.withValues values) s.log with
      | some report =>
        if acknowledged then { s with subscriber := some (r.acknowledge s.log report now) }
        else { s with subscriber := none }
      | none => { s with subscriber := none }
  | .installSession => { s with subscriber := none }

/-- The state after a list of events. -/
def run (s : EventDelivery) (es : List (DeliveryEvent n)) : EventDelivery := Machine.run (step n) s es

/-- The numbers last for what is emitted. -/
def NumbersLast (s : EventDelivery) : DeliveryEvent n → Prop
  | .emit e => s.log.nextNumber.toNat + e.events.length < 2 ^ 64
  | _ => True

/-- A report has room for the first event that waits: the attribute half, the statuses of the
paths that name no event, and that event stay within the budget. -/
def HasRoom (s : EventDelivery) : DeliveryEvent n → Prop
  | .report _ values _ => ∀ r, s.subscriber = some r → ∀ d, (r.awaiting n s.log).head? = some d →
    FitsReport (r.sub.reportEntries (n.withValues values) r.fabricIndex r.subject)
      (n.eventStatuses r.sub.eventPaths ++ [.data d]) false (some r.sub.id) false reportChunkBudget
  | _ => True

end

/-- The event is a report. -/
def isReport {n : NodeView} : DeliveryEvent n → Bool
  | .report .. => true
  | _ => false

def isSubscribe {n : NodeView} : DeliveryEvent n → Bool
  | .subscribe .. => true
  | _ => false

/-! ## What emissions do to the log -/

section
variable {log : EventLog} {endpoint : UInt16} {cluster : UInt32} {ts : UInt64}
  {events : List EmittedEvent}

/-- A log that forgot some events and got others, numbered from the next number on. -/
def Grew (log log' : EventLog) : Prop :=
  log.nextNumber ≤ log'.nextNumber ∧ ∃ kept new, log'.reports = kept ++ new ∧
    kept.Sublist log.reports ∧ ∀ d ∈ new, log.nextNumber ≤ d.eventNumber

theorem Grew.trans {log₁ log₂ log₃ : EventLog} (h : Grew log₁ log₂) (h' : Grew log₂ log₃) :
    Grew log₁ log₃ := by
  obtain ⟨hle, kept, new, hlog, hkept, hnew⟩ := h
  obtain ⟨hle', kept', new', hlog', hkept', hnew'⟩ := h'
  rw [hlog] at hkept'
  obtain ⟨kept₁, new₁, rfl, hkept₁, hnew₁⟩ := List.sublist_append_iff.1 hkept'
  refine ⟨UInt64.le_trans hle hle', kept₁, new₁ ++ new', by rw [hlog', List.append_assoc],
    hkept₁.trans hkept, fun d hd => ?_⟩
  obtain hd | hd := List.mem_append.1 hd
  · exact hnew d (hnew₁.subset hd)
  · exact UInt64.le_trans hle (hnew' d hd)

theorem grew_append (ev : EmittedEvent) (hnext : log.nextNumber.toNat + 1 < 2 ^ 64) :
    Grew log (log.append endpoint cluster ev ts) := by
  have hle : log.nextNumber ≤ log.nextNumber + 1 := by
    rw [UInt64.le_iff_toNat_le, UInt64.toNat_add, UInt64.toNat_one]
    omega
  let stored : StoredEvent :=
    ⟨log.nextNumber, endpoint, cluster, ev.event, ev.priority, ts, ev.dataTlv⟩
  have hreports : (log.append endpoint cluster ev ts).reports =
      log.kept.map (·.report) ++ [stored.report] := by
    rw [EventLog.reports, EventLog.append, List.map_append]
    rfl
  refine ⟨hle, _, _, hreports, log.kept_sublist.map _, fun d hd => ?_⟩
  rw [List.mem_singleton] at hd
  rw [hd]
  exact UInt64.le_refl _

/-- The events are logged in order. -/
theorem ordered_drain (h : log.Ordered) (hnext : log.nextNumber.toNat + events.length < 2 ^ 64) :
    (log.drain endpoint cluster events ts).Ordered ∧
      Grew log (log.drain endpoint cluster events ts) := by
  induction events generalizing log with
  | nil => exact ⟨h, UInt64.le_refl _, log.reports, [], by simp [EventLog.drain], .refl _, nofun⟩
  | cons ev events ih =>
    rw [List.length_cons] at hnext
    have hone : log.nextNumber.toNat + 1 < 2 ^ 64 := by omega
    have hsucc : (log.append endpoint cluster ev ts).nextNumber.toNat = log.nextNumber.toNat + 1 := by
      rw [EventLog.append, UInt64.toNat_add, UInt64.toNat_one, Nat.mod_eq_of_lt hone]
    have ho : (log.append endpoint cluster ev ts).Ordered := h.append hone
    obtain ⟨ho, hg⟩ := ih ho (by rw [hsucc]; omega)
    exact ⟨ho, (grew_append ev hone).trans hg⟩

theorem declared_drain {n : NodeView} {handler : ClusterHandler} (h : n.Declared log)
    (hserves : n.handlerFor endpoint cluster = some handler)
    (hdecl : ∀ ev ∈ events, ev.event ∈ handler.events) :
    n.Declared (log.drain endpoint cluster events ts) := by
  induction events generalizing log with
  | nil => exact h
  | cons ev events ih =>
    rw [List.forall_mem_cons] at hdecl
    refine ih (fun e he => ?_) hdecl.2
    obtain he | he := List.mem_append.1 he
    · exact h e (log.kept_sublist.subset he)
    · rw [List.mem_singleton] at he
      subst he
      exact ⟨handler, hserves, hdecl.1⟩

end

/-! ## What reports do to the cursor -/

end EventDelivery

namespace Subscriber

variable {n : NodeView} {log log' : EventLog} {r : Subscriber} {v : AttributeValues}
  {report : SubscriptionReport} {now : Instant}

/-- The subscriber was given, in order and once, what it wants up to the cursor; the cursor is not
ahead of the log. -/
structure UpToDate (r : Subscriber) (n : NodeView) (log : EventLog) : Prop where
  caught : Cursor.Caught (·.eventNumber.toNat) (n.wants r.sub.eventPaths r.readCtx)
    r.eventMin.toNat r.sub.nextEvent.toNat log.reports r.received
  nextEvent_le : r.sub.nextEvent.toNat ≤ log.nextNumber.toNat

/-- A report carries what waits. -/
theorem dataOf_nextReport (h : r.nextReport (n.withValues v) log = some report) (ho : log.Ordered)
    (hd : n.Declared log) : dataOf report.allEvents = r.awaiting n log := by
  rw [(ActiveSubscription.nextReport_eq_some h).2.1, NodeView.eventEntries_withValues,
    NodeView.dataOf_eventEntries ho hd]
  rfl

/-- The cursor moves between what was sent and what was not. -/
theorem nextEvent_acknowledge (h : r.nextReport (n.withValues v) log = some report)
    (ho : log.Ordered) (hd : n.Declared log) (hu : r.UpToDate n log) :
    let cursor := (r.acknowledge log report now).sub.nextEvent.toNat
    r.sub.nextEvent.toNat ≤ cursor ∧ cursor ≤ log.nextNumber.toNat ∧
      (∀ d ∈ dataOf report.events, d.eventNumber.toNat < cursor) ∧
      ∀ d ∈ dataOf (report.allEvents.drop report.fitted), cursor ≤ d.eventNumber.toNat := by
  intro cursor
  have hsplit : r.awaiting n log = dataOf report.events ++
      dataOf (report.allEvents.drop report.fitted) := by
    rw [← dataOf_nextReport h ho hd, report.dataOf_allEvents]
  have hwait : ∀ d ∈ r.awaiting n log, d ∈ log.reports ∧
      r.sub.nextEvent.toNat ≤ d.eventNumber.toNat := fun d hd =>
    ⟨(Cursor.mem_awaiting.1 hd).1, (Cursor.mem_awaiting.1 hd).2.2⟩
  have hfind : report.events.reverse.findSome? (·.data?) = (dataOf report.events).getLast? := by
    rw [← List.head?_filterMap, List.filterMap_reverse, List.head?_reverse, dataOf]
  have hcursor : cursor = ((dataOf report.events).getLast?.elim
      (if report.allEvents.isEmpty then log.nextNumber else r.sub.nextEvent)
      (·.eventNumber + 1)).toNat := by
    rw [← hfind]
    change (r.sub.acknowledge log report now).nextEvent.toNat = _
    rw [ActiveSubscription.acknowledge]
    cases report.events.reverse.findSome? (·.data?) <;> rfl
  cases hlast : (dataOf report.events).getLast? with
  | none =>
    have hsent : dataOf report.events = [] := List.getLast?_eq_none_iff.1 hlast
    rw [hlast] at hcursor
    rw [Option.elim_none] at hcursor
    rw [hsent, List.nil_append] at hsplit
    rw [hsent]
    split at hcursor
    · next hempty =>
      rw [List.isEmpty_iff.1 hempty, List.drop_nil]
      exact ⟨hcursor ▸ hu.nextEvent_le, hcursor.le, List.forall_mem_nil _, List.forall_mem_nil _⟩
    · exact ⟨hcursor.ge, hcursor ▸ hu.nextEvent_le, List.forall_mem_nil _,
        fun d hd => hcursor ▸ (hwait d (hsplit ▸ hd)).2⟩
  | some last =>
    rw [hlast] at hcursor
    obtain ⟨init, hinit⟩ := List.getLast?_eq_some_iff.1 hlast
    have hmem : last ∈ dataOf report.events := by simp [hinit]
    have hlast' := hwait last (hsplit ▸ List.mem_append_left _ hmem)
    have hbelow : last.eventNumber.toNat < log.nextNumber.toNat := by
      obtain ⟨e, he, rfl⟩ := List.mem_map.1 hlast'.1
      exact UInt64.lt_iff_toNat_lt.1 (ho.below e he)
    have hbound := log.nextNumber.toNat_lt
    have hsucc : cursor = last.eventNumber.toNat + 1 := by
      rw [hcursor, Option.elim_some, UInt64.toNat_add, UInt64.toNat_one]
      omega
    refine ⟨by omega, by omega, fun d hd => ?_, fun d hd => ?_⟩
    · -- nothing that is sent is beyond the last event that is sent
      have hall : Cursor.Increasing (·.eventNumber.toNat) (init ++ [last]) := by
        have hinc : Cursor.Increasing (·.eventNumber.toNat) (r.awaiting n log) :=
          ho.increasing_reports.awaiting
        rw [hsplit] at hinc
        exact hinit ▸ (List.pairwise_append.1 hinc).1
      rw [hinit] at hd
      obtain hd | hd := List.mem_append.1 hd
      · have hlt : d.eventNumber.toNat < last.eventNumber.toNat :=
          (List.pairwise_append.1 hall).2.2 d hd last (List.mem_singleton_self _)
        omega
      · rw [List.mem_singleton] at hd
        rw [hd]
        omega
    · have hlt := Cursor.lt_of_split ho.increasing_reports hsplit hmem hd
      omega

/-- What is noted of an outcome does not change what the subscriber waits for. -/
theorem noteOutcome_eq (sub : ActiveSubscription) (changed : List AttrPath) (log : EventLog) :
    ∃ dirty urgent, sub.noteOutcome changed log = { sub with dirty, pendingUrgent := urgent } := by
  have hevents : ∀ (events : List StoredEvent) (sub : ActiveSubscription),
      ∃ urgent, sub.noteEvents events = { sub with pendingUrgent := urgent } := fun events => by
    induction events with
    | nil => exact fun sub => ⟨sub.pendingUrgent, rfl⟩
    | cons e events ih =>
      intro sub
      rw [ActiveSubscription.noteEvents, List.foldl_cons]
      split
      · exact ih { sub with pendingUrgent := true }
      · exact ih sub
  unfold ActiveSubscription.noteOutcome
  rw [ActiveSubscription.noteChanged_eq]
  obtain ⟨urgent, h⟩ := hevents (log.since sub.nextEvent)
    { sub with dirty := (sub.noteChanged changed).dirty }
  exact ⟨_, urgent, h⟩

theorem UpToDate.grew (h : r.UpToDate n log) (hg : EventDelivery.Grew log log') :
    r.UpToDate n log' := by
  obtain ⟨hle, kept, new, hlog, hkept, hnew⟩ := hg
  have hle' := UInt64.le_iff_toNat_le.1 hle
  refine ⟨h.caught.of_log fun d hd => ?_, h.nextEvent_le.trans hle'⟩
  rw [hlog] at hd
  obtain hd | hd := List.mem_append.1 hd
  · exact .inl (hkept.subset hd)
  · exact .inr (h.nextEvent_le.trans (UInt64.le_iff_toNat_le.1 (hnew d hd)))

theorem UpToDate.acknowledge (hu : r.UpToDate n log)
    (h : r.nextReport (n.withValues v) log = some report) (ho : log.Ordered) (hd : n.Declared log) :
    (r.acknowledge log report now).UpToDate n log := by
  obtain ⟨hle, hnext, hsent, hrest⟩ := nextEvent_acknowledge h ho hd hu
  have hsplit : r.awaiting n log = dataOf report.events ++
      dataOf (report.allEvents.drop report.fitted) := by
    rw [← dataOf_nextReport h ho hd, report.dataOf_allEvents]
  exact ⟨hu.caught.deliver ho.increasing_reports hsplit hle hsent hrest, hnext⟩

end Subscriber

namespace EventDelivery

section
variable {n : NodeView} {s : EventDelivery} {e : DeliveryEvent n} {es : List (DeliveryEvent n)}

/-- The log is in order and has declared events only; the subscriber is up to date. -/
structure Inv (n : NodeView) (s : EventDelivery) : Prop where
  ordered : s.log.Ordered
  declared : n.Declared s.log
  upToDate : ∀ r, s.subscriber = some r → r.UpToDate n s.log

theorem inv_start (firstNumber : UInt64) (cap : Nat) : Inv n (start firstNumber cap) :=
  ⟨EventLog.ordered_new firstNumber cap, nofun, nofun⟩

/-- A new subscription starts with all that is wanted. -/
theorem upToDate_installed {req : SubscribeRequestIn} {fabricIndex : UInt8} {subject : Subject}
    {subId : UInt32} {now : Instant} {v : AttributeValues} {ack : Bool} {sub : ActiveSubscription}
    {delivered : List EventEntryOut} (h : Inv n s)
    (hserve : serveSubscribeRequest (n.withValues v) s.log req fabricIndex subject subId now ack =
      some (.installed sub delivered)) :
    Subscriber.UpToDate ⟨fabricIndex, subject, sub, req.eventMin.getD 0, dataOf delivered⟩ n
      s.log := by
  unfold serveSubscribeRequest at hserve
  dsimp only at hserve
  split at hserve
  · split at hserve <;> cases hserve
  · simp only [Option.bind_eq_bind, Option.bind_eq_some_iff] at hserve
    obtain ⟨⟨batches, chunks⟩, hchunks, hserve⟩ := hserve
    split at hserve
    · simp only [Option.pure_def, Option.some.injEq, SubscribeOutcome.installed.injEq] at hserve
      obtain ⟨rfl, rfl⟩ := hserve
      simp only [chunkEvents, Option.bind_eq_bind, Option.bind_eq_some_iff, Option.pure_def,
        Option.some.injEq, Prod.mk.injEq] at hchunks
      obtain ⟨_, hbatches, _, -, rfl, -⟩ := hchunks
      rw [flatten_batchesFrom hbatches, List.nil_append, NodeView.eventEntries_withValues,
        NodeView.dataOf_eventEntries h.ordered h.declared]
      refine ⟨Cursor.Caught.init h.ordered.increasing_reports fun d hd => ?_, le_rfl⟩
      obtain ⟨e, he, rfl⟩ := List.mem_map.1 hd
      exact UInt64.lt_iff_toNat_lt.1 (h.ordered.below e he)
    · cases hserve

/-- A subscriber after an emission. -/
theorem upToDate_noted {r : Subscriber} {log : EventLog} {changed : List AttrPath}
    (h : r.UpToDate n log) :
    Subscriber.UpToDate { r with sub := r.sub.noteOutcome changed log } n log := by
  obtain ⟨dirty, urgent, heq⟩ := Subscriber.noteOutcome_eq r.sub changed log
  rw [heq]
  exact ⟨h.caught, h.nextEvent_le⟩

/-- What a report does to the subscriber. -/
theorem subscriber_report {now : Instant} {values : AttributeValues} {ack : Bool} {r' : Subscriber}
    (h : (step n s (.report now values ack)).subscriber = some r') :
    ∃ r report, s.subscriber = some r ∧
      r.nextReport (n.withValues values) s.log = some report ∧
      r' = r.acknowledge s.log report now := by
  unfold step at h
  dsimp only at h
  split at h
  · next hnone => rw [hnone] at h; cases h
  · next r hr =>
    split at h
    · next report hreport =>
      split at h
      · exact ⟨r, report, hr, hreport, (Option.some.inj h).symm⟩
      · cases h
    · cases h

theorem log_report {now : Instant} {values : AttributeValues} {ack : Bool} :
    (step n s (.report now values ack)).log = s.log := by
  unfold step
  dsimp only
  split
  · rfl
  · split
    · split <;> rfl
    · rfl

theorem inv_step (h : Inv n s) (hlast : NumbersLast n s e) : Inv n (step n s e) := by
  cases e with
  | emit e =>
    have hdrain : (s.log.drain e.endpoint e.cluster e.events e.systemTimestampMs).Ordered ∧
      Grew s.log _ := ordered_drain h.ordered hlast
    refine ⟨hdrain.1, declared_drain h.declared e.serves e.declared, fun r' hr' => ?_⟩
    obtain ⟨r, hr, rfl⟩ := Option.map_eq_some_iff.1 hr'
    exact upToDate_noted ((h.upToDate r hr).grew hdrain.2)
  | subscribe req fabricIndex subject subId now values ack =>
    unfold step
    dsimp only
    split
    · next sub delivered hserve =>
      refine ⟨h.ordered, h.declared, fun r hr => ?_⟩
      have hnew := upToDate_installed h hserve
      cases hr
      exact hnew
    · exact h
    · exact ⟨h.ordered, h.declared, nofun⟩
    · exact ⟨h.ordered, h.declared, nofun⟩
  | report now values ack =>
    have hlog : (step n s (.report now values ack)).log = s.log := log_report
    refine ⟨hlog ▸ h.ordered, hlog ▸ h.declared, fun r' hr' => ?_⟩
    obtain ⟨r, report, hr, hreport, rfl⟩ := subscriber_report hr'
    rw [hlog]
    exact (h.upToDate r hr).acknowledge hreport h.ordered h.declared
  | installSession => exact ⟨h.ordered, h.declared, nofun⟩

theorem inv_run (h : Inv n s) (hlast : Machine.Along (step n) (NumbersLast n) s es) :
    Inv n (run n s es) :=
  Machine.run_invariant h (fun _ _ hs hg => inv_step hs hg) hlast

/-! ## What waits is received -/

/-- An event was received, is no longer retained, or waits behind fewer than `k` others. -/
def Due (n : NodeView) (d : EventReportOut) (k : Nat) (s : EventDelivery) : Prop :=
  ∀ r, s.subscriber = some r → d ∈ r.received ∨ d ∉ s.log.reports ∨
    d ∈ r.awaiting n s.log ∧ r.ahead n s.log d ≤ k

variable {d : EventReportOut} {k : Nat}

theorem Due.emit (h : Due n d k s) {e : Emission n} (hs : Inv n s)
    (hlast : NumbersLast n s (.emit e)) (hd : d.eventNumber < s.log.nextNumber) :
    Due n d k (step n s (.emit e)) := by
  intro r' hr'
  obtain ⟨r, hr, rfl⟩ := Option.map_eq_some_iff.1 hr'
  have hdrain : (s.log.drain e.endpoint e.cluster e.events e.systemTimestampMs).Ordered ∧
    Grew s.log _ := ordered_drain hs.ordered hlast
  obtain ⟨-, -, kept, new, hlog, hkept, hnew⟩ := hdrain
  have hnew' : ∀ b ∈ new, d.eventNumber.toNat < b.eventNumber.toNat := fun b hb =>
    UInt64.lt_iff_toNat_lt.1 (UInt64.lt_of_lt_of_le hd (hnew b hb))
  by_cases hmem : d ∈ (step n s (.emit e)).log.reports
  · obtain hrec | hgone | ⟨hwait, hle⟩ := h r hr
    · exact .inl hrec
    · refine .inr (.inl fun _ => hgone ?_)
      have hmem' : d ∈ kept ++ new := hlog.subst hmem
      obtain hd' | hd' := List.mem_append.1 hmem'
      · exact hkept.subset hd'
      · exact absurd (hnew' d hd') (lt_irrefl _)
    · obtain ⟨dirty, urgent, heq⟩ := Subscriber.noteOutcome_eq r.sub e.changed
        (s.log.drain e.endpoint e.cluster e.events e.systemTimestampMs)
      obtain ⟨-, hw, hc⟩ := Cursor.mem_awaiting.1 hwait
      refine .inr (.inr ⟨?_, ?_⟩)
      · rw [heq]
        exact Cursor.mem_awaiting.2 ⟨hmem, hw, hc⟩
      · rw [heq]
        refine le_trans (le_of_eq_of_le ?_ (Cursor.ahead_append_le hkept hnew')) hle
        exact congrArg _ hlog
  · exact .inr (.inl hmem)

theorem Due.report (h : Due n d (k + 1) s) {now : Instant} {values : AttributeValues} {ack : Bool}
    (hs : Inv n s) (hroom : HasRoom n s (.report now values ack)) :
    Due n d k (step n s (.report now values ack)) := by
  intro r' hr'
  obtain ⟨r, report, hr, hreport, rfl⟩ := subscriber_report hr'
  have hlog : (step n s (.report now values ack)).log = s.log := log_report
  rw [hlog]
  obtain hrec | hgone | ⟨hwait, hle⟩ := h r hr
  · exact .inl (List.mem_append_left _ hrec)
  · exact .inr (.inl hgone)
  · have hu := hs.upToDate r hr
    have hall := Subscriber.dataOf_nextReport hreport hs.ordered hs.declared
    have hsplit : r.awaiting n s.log = dataOf report.events ++
        dataOf (report.allEvents.drop report.fitted) := by
      rw [← hall, report.dataOf_allEvents]
    obtain ⟨hle', -, hsent, hrest⟩ :=
      @Subscriber.nextEvent_acknowledge _ _ _ _ _ now hreport hs.ordered hs.declared hu
    have hleft := Cursor.awaiting_deliver hs.ordered.increasing_reports hsplit hle' hsent hrest
    rw [hsplit] at hwait
    obtain hd | hd := List.mem_append.1 hwait
    · exact .inl (List.mem_append_right _ hd)
    · refine .inr (.inr ⟨hleft.symm.subst hd, ?_⟩)
      obtain ⟨d₀, hd₀⟩ : ∃ d₀, (r.awaiting n s.log).head? = some d₀ := by
        cases hawait : r.awaiting n s.log with
        | nil =>
          rw [← hsplit, hawait] at hwait
          cases hwait
        | cons d₀ ds => exact ⟨d₀, rfl⟩
      have hne : dataOf report.events ≠ [] := by
        refine dataOf_events_ne_nil hreport (hall ▸ hd₀) ?_
        rw [(ActiveSubscription.nextReport_eq_some hreport).1, NodeView.eventStatuses,
          NodeView.eventPathStatus_withValues]
        exact hroom r hr d₀ hd₀
      have hahead := Cursor.ahead_deliver hs.ordered.increasing_reports hsplit hleft hd
      have hpos : 0 < (dataOf report.events).length := List.length_pos_iff.2 hne
      have hle'' : _ + (dataOf report.events).length ≤ k + 1 := hahead.le.trans hle
      exact Nat.le_of_lt_succ (Nat.lt_of_lt_of_le (Nat.lt_add_of_pos_right hpos) hle'')

theorem nextNumber_step_le (hs : Inv n s) (hlast : NumbersLast n s e) :
    s.log.nextNumber ≤ (step n s e).log.nextNumber := by
  cases e with
  | emit e =>
    have hdrain : (s.log.drain e.endpoint e.cluster e.events e.systemTimestampMs).Ordered ∧
      Grew s.log _ := ordered_drain hs.ordered hlast
    exact hdrain.2.1
  | subscribe =>
    unfold step
    dsimp only
    split <;> exact UInt64.le_refl _
  | report now values ack =>
    have hlog : (step n s (.report now values ack)).log = s.log := log_report
    rw [hlog]
    exact UInt64.le_refl _
  | installSession => exact UInt64.le_refl _

/-- Every report takes one of the events that an event waits behind. -/
theorem due_run (hs : Inv n s) (hd : d.eventNumber < s.log.nextNumber)
    (hlast : Machine.Along (step n) (NumbersLast n) s es)
    (hroom : Machine.Along (step n) (HasRoom n) s es) (hes : ∀ e ∈ es, isSubscribe e = false)
    (h : Due n d (k + es.countP isReport) s) : Due n d k (run n s es) := by
  induction es generalizing s with
  | nil => exact h
  | cons e es ih =>
    rw [List.forall_mem_cons] at hes
    refine ih (inv_step hs hlast.1) (UInt64.lt_of_lt_of_le hd (nextNumber_step_le hs hlast.1))
      hlast.2 hroom.2 hes.2 ?_
    cases e with
    | emit e => exact Due.emit h hs hlast.1 hd
    | subscribe => cases hes.1
    | report now values ack =>
      rw [List.countP_cons_of_pos rfl, ← Nat.add_assoc] at h
      exact Due.report h hs hroom.1
    | installSession => exact nofun

/-! ## What is never received -/

/-- An entry of an answer is a status of its paths, or an event that waits. -/
theorem mem_eventEntries (hs : Inv n s) {paths : List EventPathIn} {eventMin : UInt64}
    {ctx : ReadCtx} {entry : EventEntryOut}
    (h : entry ∈ n.eventEntries s.log paths eventMin ctx) :
    entry ∈ n.eventStatuses paths ∨ ∃ d ∈ s.log.reports, entry = .data d := by
  cases entry with
  | data d =>
    have hd : d ∈ dataOf (n.eventEntries s.log paths eventMin ctx) :=
      List.mem_filterMap.2 ⟨_, h, rfl⟩
    rw [NodeView.dataOf_eventEntries hs.ordered hs.declared] at hd
    exact .inr ⟨d, (Cursor.mem_awaiting.1 hd).1, rfl⟩
  | status endpoint cluster event status =>
    refine .inl ((n.statusesOf_eventEntries s.log paths eventMin ctx).subset ?_)
    exact List.mem_filter.2 ⟨h, rfl⟩

/-- The statuses of the subscribed paths leave no room for an event, and some event waits. -/
structure Full (n : NodeView) (s : EventDelivery) (r : Subscriber) : Prop where
  dirty : r.sub.dirty = []
  pos : 0 < r.sub.nextEvent
  waits : r.awaiting n s.log ≠ []
  full : ¬FitsReport [] (n.eventStatuses r.sub.eventPaths) false (some r.sub.id) false
    reportChunkBudget
  head : (attrsLength [] false (some r.sub.id) false).isSome
  statuses : ∀ e ∈ n.eventStatuses r.sub.eventPaths, e.bytes.isSome
  events : ∀ d ∈ s.log.reports, (EventEntryOut.data d).bytes.isSome

/-- A report that is full of statuses moves nothing. -/
theorem step_report_of_full (hs : Inv n s) {r : Subscriber} (hr : s.subscriber = some r)
    (hf : Full n s r) (now : Instant) (values : AttributeValues) :
    ∃ urgent, step n s (.report now values true) =
      ⟨s.log, some { r with sub := { r.sub with lastReportAt := now, pendingUrgent := urgent } }⟩ := by
  have hentries : r.sub.reportEntries (n.withValues values) r.fabricIndex r.subject = [] := by
    simp [ActiveSubscription.reportEntries, hf.dirty]
  obtain ⟨report, hreport⟩ : ∃ report, r.nextReport (n.withValues values) s.log = some report := by
    refine Option.isSome_iff_exists.1 (ActiveSubscription.isSome_nextReport ?_ fun e he => ?_)
    · rw [hentries]
      exact hf.head
    · rw [NodeView.eventEntries_withValues] at he
      obtain he | ⟨d, hd, rfl⟩ := mem_eventEntries hs he
      · exact hf.statuses e he
      · exact hf.events d hd
  have hall := Subscriber.dataOf_nextReport hreport hs.ordered hs.declared
  have hnone : dataOf report.events = [] := by
    refine dataOf_events_eq_nil hreport (fun d hd => ?_) ?_
    · rw [hall] at hd
      exact UInt64.lt_of_lt_of_le hf.pos (UInt64.le_iff_toNat_le.2 (Cursor.mem_awaiting.1 hd).2.2)
    · rw [(ActiveSubscription.nextReport_eq_some hreport).1, hentries, NodeView.eventStatuses,
        NodeView.eventPathStatus_withValues]
      exact hf.full
  have hnonempty : report.allEvents.isEmpty = false := by
    refine Bool.eq_false_iff.2 fun hempty => hf.waits ?_
    rw [← hall, List.isEmpty_iff.1 hempty]
    rfl
  have hfind : report.events.reverse.findSome? (·.data?) = none := by
    rw [← List.head?_filterMap, List.filterMap_reverse]
    change (dataOf report.events).reverse.head? = none
    rw [hnone]
    rfl
  refine ⟨decide (0 < report.allEvents.length - report.fitted) && r.sub.pendingUrgent, ?_⟩
  unfold step
  dsimp only
  rw [hr]
  dsimp only
  rw [hreport]
  dsimp only
  rw [if_pos rfl, Subscriber.acknowledge, hnone, List.append_nil, ActiveSubscription.acknowledge,
    hfind, hnonempty, ← hf.dirty]
  rfl

/-- **Starvation.** Where the statuses leave no room, no number of reports brings an event. -/
theorem run_reports_of_full (hs : Inv n s) {r : Subscriber} (hr : s.subscriber = some r)
    (hf : Full n s r) (now : Instant) (values : AttributeValues) (m : Nat) :
    ∃ last urgent, run n s (List.replicate m (.report now values true)) =
      ⟨s.log, some { r with sub := { r.sub with lastReportAt := last, pendingUrgent := urgent } }⟩ := by
  induction m generalizing s r with
  | zero => exact ⟨r.sub.lastReportAt, r.sub.pendingUrgent, by rw [← hr]; rfl⟩
  | succ m ih =>
    obtain ⟨urgent, hstep⟩ := step_report_of_full hs hr hf now values
    have hs' : Inv n (step n s (.report now values true)) := inv_step hs trivial
    rw [hstep] at hs'
    obtain ⟨last, urgent', hrun⟩ := ih hs' rfl ⟨hf.dirty, hf.pos, hf.waits, hf.full, hf.head,
      hf.statuses, hf.events⟩
    refine ⟨last, urgent', ?_⟩
    rw [List.replicate_succ, run, Machine.run_cons, hstep]
    exact hrun

end

/-! ### A switch -/

def clusterSwitch : UInt32 := 0x003B

/-- The payload of a press: the position. -/
def oneField (v : UInt8) : Bytes :=
  ((Writer.new.startStruct .anonymous).putUint (.context 0) v.toUInt64).endContainer.finish

/-- A switch with two positions, which nobody presses now. -/
def switchHandler : ClusterHandler where
  clusterId := clusterSwitch
  attributes := [0, 1, 2]
  read := fun attr _ =>
    if attr = 0 then some (TlvValue.uint 2) else if attr = 1 then some (TlvValue.uint 0)
    else if attr = 2 then some (TlvValue.uint 3) else none
  acceptedCommands := []
  generatedCommands := []
  featureMap := 0x1E
  revision := 2
  readPrivilege := fun _ => privilegeView
  events := [1, 2, 3, 4, 5, 6]
  eventPrivilege := fun _ => privilegeView

/-- A node with this cluster alone. -/
def switchView : NodeView := ⟨⟨[(2, [switchHandler])], by decide, by decide⟩, none, fun _ _ => 1⟩

def switchValues : AttributeValues := ⟨fun _ _ => switchHandler.read, fun _ _ => 1⟩

/-- A short press. -/
def shortPress : Emission switchView :=
  ⟨2, clusterSwitch, switchHandler, [⟨1, .info, some (oneField 1)⟩, ⟨3, .info, some (oneField 1)⟩],
    5000, [], rfl, by decide⟩

/-- A request for all events, and for one on each of `missing` endpoints that the node does not
have. -/
def watch (missing : Nat) : SubscribeRequestIn where
  keepSubscriptions := false
  minIntervalFloorS := 0
  maxIntervalCeilingS := 60
  paths := []
  fabricFiltered := true
  eventPaths := (List.range missing).map (fun i =>
    ⟨some (UInt16.ofNat (100 + i)), some clusterSwitch, some 1, false⟩) ++
      [⟨none, none, none, false⟩]
  eventMin := none

/-- The subscription, once it is accepted. -/
def watchSub (missing : Nat) : ActiveSubscription :=
  ⟨7, [], true, 0, 60000, 0, [], (watch missing).eventPaths, 1, false⟩

/-- The subscriber, who received nothing. -/
def watcher (missing : Nat) : Subscriber := ⟨0, .default, watchSub missing, 0, []⟩

/-- The log once the switch was pressed. -/
def pressedLog : EventLog := (EventLog.new 1 64).drain 2 clusterSwitch shortPress.events 5000

/-- The press that is logged first. -/
def firstPress : EventReportOut := ⟨2, clusterSwitch, 1, 1, .info, 5000, some (oneField 1)⟩

/-- The request is accepted, its statuses can be encoded, and the press is not urgent. -/
structure Watchable (missing : Nat) : Prop where
  path : (switchView.withValues switchValues).hasReadableEventPath (watch missing).eventPaths
    ⟨0, true, .default⟩ = true
  statuses : ∀ e ∈ switchView.eventStatuses (watch missing).eventPaths, e.bytes.isSome
  dirty : ((watchSub missing).noteOutcome [] pressedLog).dirty = []
  pendingUrgent : ((watchSub missing).noteOutcome [] pressedLog).pendingUrgent = false

theorem watchable_none : Watchable 0 :=
  ⟨by decide, by decide +kernel, by decide +kernel, by decide +kernel⟩

theorem watchable_many : Watchable 48 :=
  ⟨by decide, by decide +kernel, by decide +kernel, by decide +kernel⟩

/-- The node once its switch is pressed after the subscription. -/
def watched (missing : Nat) : List (DeliveryEvent switchView) :=
  [.subscribe (watch missing) 0 .default 7 0 switchValues true, .emit shortPress]

section
variable {missing : Nat}

theorem step_watch (h : Watchable missing) :
    step switchView (start 1 64) (.subscribe (watch missing) 0 .default 7 0 switchValues true) =
      ⟨.new 1 64, some (watcher missing)⟩ := by
  have hs : Inv switchView (start 1 64) := inv_start 1 64
  have hsome : (chunkEvents ((switchView.withValues switchValues).eventEntries (.new 1 64)
      (watch missing).eventPaths 0 ⟨0, true, .default⟩) reportChunkBudget 7).isSome := by
    refine isSome_chunkEvents (by decide) (by decide +kernel) fun e he => ?_
    rw [NodeView.eventEntries_withValues] at he
    obtain he | ⟨d, hd, -⟩ := mem_eventEntries hs he
    · exact h.statuses e he
    · cases hd
  obtain ⟨⟨batches, chunks⟩, hchunks⟩ := Option.isSome_iff_exists.1 hsome
  have hnil : dataOf batches.flatten = [] := by
    have hc := hchunks
    simp only [chunkEvents, Option.bind_eq_bind, Option.bind_eq_some_iff, Option.pure_def,
      Option.some.injEq, Prod.mk.injEq] at hc
    obtain ⟨_, hbatches, _, -, rfl, -⟩ := hc
    rw [flatten_batchesFrom hbatches, List.nil_append, NodeView.eventEntries_withValues]
    exact NodeView.dataOf_eventEntries hs.ordered hs.declared
  have hserve := serveSubscribeRequest_of_chunks (watch missing) 0 h.path hchunks
  have hmax : fromSecs (min (max (watch missing).maxIntervalCeilingS minMaxIntervalS)
    maxMaxIntervalS) = 60000 := show fromSecs (min (max 60 3) 60) = 60000 by decide
  have hmin : min (fromSecs (watch missing).minIntervalFloorS) 60000 = 0 :=
    show min (fromSecs 0) 60000 = 0 by decide
  dsimp only at hserve
  rw [hmax, hmin] at hserve
  unfold step
  dsimp only
  rw [show (start 1 64).log = .new 1 64 from rfl, hserve]
  dsimp only
  rw [hnil]
  rfl

theorem run_watched (h : Watchable missing) :
    run switchView (start 1 64) (watched missing) = ⟨pressedLog, some (watcher missing)⟩ := by
  have hnoted : (watchSub missing).noteOutcome [] pressedLog = watchSub missing := by
    obtain ⟨dirty, urgent, heq⟩ := Subscriber.noteOutcome_eq (watchSub missing) [] pressedLog
    have hdirty := h.dirty
    have hurgent := h.pendingUrgent
    rw [heq] at hdirty hurgent ⊢
    dsimp only at hdirty hurgent
    rw [hdirty, hurgent]
    rfl
  rw [run, watched, Machine.run_cons, step_watch h, Machine.run_cons, Machine.run_nil, step,
    Option.map_some]
  change EventDelivery.mk pressedLog
    (some ⟨_, _, (watchSub missing).noteOutcome [] pressedLog, _, _⟩) = _
  rw [hnoted]
  rfl

theorem numbersLast_watched (h : Watchable missing) :
    Machine.Along (step switchView) (NumbersLast switchView) (start 1 64) (watched missing) := by
  rw [watched, Machine.along_cons, step_watch h]
  have hroom : (1 : UInt64).toNat + 2 < 2 ^ 64 := by decide
  exact ⟨trivial, hroom, trivial⟩

end

/-- The statuses of 48 missing endpoints are a report that is full. -/
theorem watcher_full : Full switchView ⟨pressedLog, some (watcher 48)⟩ (watcher 48) where
  dirty := rfl
  pos := by decide
  waits := by decide
  full := by
    intro hfits
    obtain ⟨-, head, -, hle⟩ := fitsReport_iff.1 hfits
    have hsum : 900 < ((switchView.eventStatuses (watch 48).eventPaths).map (·.size)).sum := by
      decide
    have hne : switchView.eventStatuses (watch 48).eventPaths ≠ [] := by decide
    rw [show (watcher 48).sub.eventPaths = (watch 48).eventPaths from rfl, if_neg hne,
      reportChunkBudget] at hle
    omega
  head := by decide
  statuses := watchable_many.statuses
  events := by decide

/-! ### What is received -/

/-- **Event delivery.** While event numbers last, in every state that is reached: what the
subscriber received is in order, each event once, and only events it wants; every retained event
that it wants, from the least number it asked for, was received or waits behind the cursor. As the
run goes on, an event that waits behind `k` others is received within `k + 1` reports if they have
room for the first that waits, unless the log forgot it before. -/
theorem delivered (n : NodeView) (firstNumber : UInt64) (cap : Nat)
    (es later : List (DeliveryEvent n))
    (hlast : Machine.Along (step n) (NumbersLast n) (start firstNumber cap) (es ++ later)) :
    let s := run n (start firstNumber cap) es
    ∀ r, s.subscriber = some r →
      (r.received.Pairwise fun a b => a.eventNumber < b.eventNumber) ∧
      (∀ d ∈ r.received, n.wants r.sub.eventPaths r.readCtx d = true) ∧
      ∀ d ∈ s.log.reports, r.eventMin ≤ d.eventNumber →
        n.wants r.sub.eventPaths r.readCtx d = true →
          (d ∈ r.received ∨ d ∈ r.awaiting n s.log) ∧
            (Machine.Along (step n) (HasRoom n) s later → (∀ e ∈ later, isSubscribe e = false) →
              r.ahead n s.log d ≤ later.countP isReport →
                ∀ r', (run n s later).subscriber = some r' →
                  d ∈ r'.received ∨ d ∉ (run n s later).log.reports) := by
  intro s r hr
  have hlast' := Machine.along_append.1 hlast
  have hs : Inv n s := inv_run (inv_start firstNumber cap) hlast'.1
  have hu := hs.upToDate r hr
  refine ⟨hu.caught.increasing.imp UInt64.lt_iff_toNat_lt.2, hu.caught.wants,
    fun d hd hmin hw => ?_⟩
  have hwait := hu.caught.received_or_awaiting hd hw (UInt64.le_iff_toNat_le.1 hmin)
  refine ⟨hwait, fun hroom hnosub hahead r' hr' => ?_⟩
  have hbelow : d.eventNumber < s.log.nextNumber := by
    obtain ⟨e, he, rfl⟩ := List.mem_map.1 hd
    exact hs.ordered.below e he
  have hdue : Due n d (0 + later.countP isReport) s := by
    intro r₁ hr₁
    obtain rfl : r = r₁ := Option.some.inj (hr.symm.trans hr₁)
    obtain hrec | hawait := hwait
    · exact .inl hrec
    · exact .inr (.inr ⟨hawait, by rwa [Nat.zero_add]⟩)
  obtain hrec | hgone | ⟨hawait, hzero⟩ := due_run hs hbelow hlast'.2 hroom hnosub hdue r' hr'
  · exact .inl hrec
  · exact .inr hgone
  · exact absurd (Cursor.ahead_pos hawait) (Nat.not_lt.2 hzero)

/-- Without missing endpoints the press is received with the first report. -/
theorem delivered_press : firstPress ∈ pressedLog.reports ∧
    ∀ r', (run switchView (run switchView (start 1 64) (watched 0))
      [.report 60000 switchValues true]).subscriber = some r' →
        firstPress ∈ r'.received ∨ firstPress ∉ (run switchView (run switchView (start 1 64)
          (watched 0)) [.report 60000 switchValues true]).log.reports := by
  refine ⟨by decide, ?_⟩
  have hrun := run_watched watchable_none
  have hlast : Machine.Along (step switchView) (NumbersLast switchView) (start 1 64)
      (watched 0 ++ [.report 60000 switchValues true]) :=
    Machine.along_append.2 ⟨numbersLast_watched watchable_none, trivial, trivial⟩
  have hroom : Machine.Along (step switchView) (HasRoom switchView)
      (run switchView (start 1 64) (watched 0)) [.report 60000 switchValues true] := by
    rw [hrun]
    refine ⟨fun r hr d hd => ?_, trivial⟩
    cases hr
    have hfirst : ((watcher 0).awaiting switchView pressedLog).head? = some firstPress := by
      decide
    cases hfirst.symm.trans hd
    have hlen : (encodeReportDataFull [] (switchView.eventStatuses (watch 0).eventPaths ++
      [.data firstPress]) false (some 7) false).map (·.length) = some 49 := by decide
    obtain ⟨b, hb, hl⟩ := Option.map_eq_some_iff.1 hlen
    exact ⟨b, hb, hl ▸ by decide⟩
  obtain ⟨-, -, hall⟩ := delivered switchView 1 64 (watched 0) [.report 60000 switchValues true]
    hlast (watcher 0) (by rw [hrun])
  rw [hrun] at hall hroom ⊢
  exact (hall firstPress (by decide) UInt64.zero_le (by decide +kernel)).2 hroom
    (by decide) (by decide)

/-- **A subscriber that waits for ever.** The press is retained and wanted, but no number of reports
brings it: all their room goes to the statuses of the endpoints that the node does not have. -/
theorem press_never_received : firstPress ∈ pressedLog.reports ∧ ∀ m, ∃ r,
    run switchView (start 1 64)
      (watched 48 ++ List.replicate m (.report 60000 switchValues true)) = ⟨pressedLog, some r⟩ ∧
    r.eventMin ≤ firstPress.eventNumber ∧
    switchView.wants r.sub.eventPaths r.readCtx firstPress = true ∧ firstPress ∉ r.received := by
  refine ⟨by decide, fun m => ?_⟩
  have hrun := run_watched watchable_many
  have hs : Inv switchView (run switchView (start 1 64) (watched 48)) :=
    inv_run (inv_start 1 64) (numbersLast_watched watchable_many)
  have hwants : switchView.wants (watch 48).eventPaths ⟨0, true, .default⟩ firstPress = true := by
    decide
  rw [hrun] at hs
  obtain ⟨last, urgent, hreports⟩ :=
    run_reports_of_full hs rfl watcher_full 60000 switchValues m
  rw [run, Machine.run_append]
  change ∃ r, run switchView (run switchView (start 1 64) (watched 48)) _ = _ ∧ _
  rw [hrun, hreports]
  exact ⟨_, rfl, UInt64.zero_le, hwants, List.not_mem_nil⟩

end EventDelivery

end MatStack
