import MatStack.Device.EventLog
import MatStack.Device.Subscription

/-!
# Event reports of a subscription

A subscription starts with a report of all retained events that it wants, in as many messages as
they take. Later reports are one message each: the changed attributes, and as many of the new events
as there is room for; the number that the next report starts from follows what was sent. What is
sent is always the first of what waits, and it is something whenever there is room for the
attributes, for the statuses of the paths that name no event, and for the first event that waits:
`data_sent_of_room`. Where the statuses alone leave no room, no event is ever sent:
`dataOf_sent_eq_nil`.
-/

namespace MatStack

def minMaxIntervalS : UInt16 := 3
def maxMaxIntervalS : UInt16 := 60

/-- The size that a report should not exceed. -/
def reportChunkBudget : Nat := 900

/-! ## Priming -/

/-- The events of the first report, cut where the next one would exceed the budget; `none` where
encoding panics. `current` is the message in the making. -/
def batchesFrom (budget : Nat) (subscriptionId : UInt32) (current : List EventEntryOut) :
    List EventEntryOut → Option (List (List EventEntryOut))
  | [] => some (if current.isEmpty then [] else [current])
  | e :: entries => do
    let candidate := current ++ [e]
    let b ← encodeReportDataFull [] candidate false (some subscriptionId) true
    if budget < b.length && !current.isEmpty then
      return current :: (← batchesFrom budget subscriptionId [e] entries)
    else batchesFrom budget subscriptionId candidate entries

/-- The messages, of which only the last one says that no other follows. -/
def encodeBatches (subscriptionId : UInt32) (batches : List (List EventEntryOut)) :
    Option (List Bytes) :=
  let last := batches.length - 1
  batches.zipIdx.mapM fun (b, i) =>
    encodeReportDataFull [] b false (some subscriptionId) (decide (i ≠ last))

/-- The messages of the first report that carry events, with their entries. -/
def chunkEvents (entries : List EventEntryOut) (budget : Nat) (subscriptionId : UInt32) :
    Option (List (List EventEntryOut) × List Bytes) := do
  let batches ← batchesFrom budget subscriptionId [] entries
  return (batches, ← encodeBatches subscriptionId batches)

/-- What a subscription asks for. -/
structure SubscribeRequestIn where
  keepSubscriptions : Bool
  minIntervalFloorS : UInt16
  maxIntervalCeilingS : UInt16
  paths : List AttrPathIn
  fabricFiltered : Bool
  eventPaths : List EventPathIn
  eventMin : Option UInt64

/-- What a request makes of the subscription of the node; a new one was sent the events of
`delivered`. -/
inductive SubscribeOutcome where
  | installed (sub : ActiveSubscription) (delivered : List EventEntryOut)
  | tornDown
  | rejected

/-- Serves a request: the first report, whose attribute half is not modelled, and the response.
`acknowledged` says whether the peer acknowledged all of it. -/
def serveSubscribeRequest (n : NodeView) (log : EventLog) (req : SubscribeRequestIn)
    (fabricIndex : UInt8) (subject : Subject) (subscriptionId : UInt32) (now : Instant)
    (acknowledged : Bool) : Option SubscribeOutcome :=
  let maxIntervalS := min (max req.maxIntervalCeilingS minMaxIntervalS) maxMaxIntervalS
  let maxInterval := fromSecs maxIntervalS
  let minInterval := min (fromSecs req.minIntervalFloorS) maxInterval
  let readCtx : ReadCtx := ⟨fabricIndex, req.fabricFiltered, subject⟩
  if !n.hasReadablePath req.paths readCtx && !n.hasReadableEventPath req.eventPaths readCtx then
    some (if req.keepSubscriptions then .rejected else .tornDown)
  else do
    let eventMin := req.eventMin.getD 0
    let eventEntries := n.eventEntries log req.eventPaths eventMin readCtx
    let (batches, _) ← chunkEvents eventEntries reportChunkBudget subscriptionId
    if acknowledged then
      return .installed ⟨subscriptionId, req.paths, req.fabricFiltered, minInterval, maxInterval,
        now, [], req.eventPaths, log.nextNumber, false⟩ batches.flatten
    else return .tornDown

/-- A request that names an event that may be received is accepted, if the first report can be
made. -/
theorem serveSubscribeRequest_of_chunks {n : NodeView} {log : EventLog} (req : SubscribeRequestIn)
    {fabricIndex : UInt8} {subject : Subject} {subId : UInt32} (now : Instant)
    {batches : List (List EventEntryOut)} {chunks : List Bytes}
    (hpath : n.hasReadableEventPath req.eventPaths ⟨fabricIndex, req.fabricFiltered, subject⟩ = true)
    (hchunks : chunkEvents (n.eventEntries log req.eventPaths (req.eventMin.getD 0)
      ⟨fabricIndex, req.fabricFiltered, subject⟩) reportChunkBudget subId = some (batches, chunks)) :
    let maxInterval := fromSecs (min (max req.maxIntervalCeilingS minMaxIntervalS) maxMaxIntervalS)
    serveSubscribeRequest n log req fabricIndex subject subId now true =
      some (.installed ⟨subId, req.paths, req.fabricFiltered,
        min (fromSecs req.minIntervalFloorS) maxInterval, maxInterval, now, [], req.eventPaths,
        log.nextNumber, false⟩ batches.flatten) := by
  unfold serveSubscribeRequest
  dsimp only
  rw [hpath, Bool.not_true, Bool.and_false, if_neg Bool.false_ne_true, hchunks]
  rfl

/-! ## Reports -/

/-- How many of the entries fit behind those that are `sent`; `none` where encoding panics. -/
def fitFrom (entries : List ReportEntryOut) (budget : Nat) (subscriptionId : UInt32)
    (sent : List EventEntryOut) : List EventEntryOut → Option Nat
  | [] => some sent.length
  | e :: rest => do
    let b ← encodeReportDataFull entries (sent ++ [e]) false (some subscriptionId) false
    if budget < b.length then return sent.length
    else fitFrom entries budget subscriptionId (sent ++ [e]) rest

/-- How many of the events go into one report with the entries. -/
def fitEvents (entries : List ReportEntryOut) (all : List EventEntryOut) (budget : Nat)
    (subscriptionId : UInt32) : Option Nat := fitFrom entries budget subscriptionId [] all

/-- A report: its attribute half, all events that wait, how many of them go out, and its bytes. -/
structure SubscriptionReport where
  entries : List ReportEntryOut
  allEvents : List EventEntryOut
  fitted : Nat
  payload : Bytes

/-- The events that go out. -/
def SubscriptionReport.events (r : SubscriptionReport) : List EventEntryOut :=
  r.allEvents.take r.fitted

namespace ActiveSubscription

/-- Some path asks for the event; whether one asks for it urgently. -/
def coversEvent (sub : ActiveSubscription) (endpoint : UInt16) (cluster event : UInt32) :
    Option Bool :=
  sub.eventPaths.foldl (fun urgent p =>
    if eventPathMatches p endpoint cluster event then some (urgent.getD false || p.urgent)
    else urgent) none

/-- An event that is asked for urgently hastens the next report. -/
def noteEvents (sub : ActiveSubscription) (events : List StoredEvent) : ActiveSubscription :=
  events.foldl (fun sub e =>
    if sub.coversEvent e.endpoint e.cluster e.event = some true then
      { sub with pendingUrgent := true }
    else sub) sub

/-- Notes what a request or a stimulus did. -/
def noteOutcome (sub : ActiveSubscription) (changed : List AttrPath) (log : EventLog) :
    ActiveSubscription :=
  let sub := sub.noteChanged changed
  sub.noteEvents (log.since sub.nextEvent)

/-- The next report; `none` where encoding panics. -/
def nextReport (sub : ActiveSubscription) (n : NodeView) (log : EventLog) (fabricIndex : UInt8)
    (subject : Subject) : Option SubscriptionReport := do
  let entries := sub.reportEntries n fabricIndex subject
  let allEvents := n.eventEntries log sub.eventPaths sub.nextEvent (sub.readCtx fabricIndex subject)
  let fitted ← fitEvents entries allEvents reportChunkBudget sub.id
  let payload ← encodeReportDataFull entries (allEvents.take fitted) false (some sub.id) false
  return ⟨entries, allEvents, fitted, payload⟩

/-- After a report was acknowledged. -/
def acknowledge (sub : ActiveSubscription) (log : EventLog) (r : SubscriptionReport)
    (now : Instant) : ActiveSubscription :=
  { sub with
    lastReportAt := now
    dirty := []
    nextEvent :=
      match r.events.reverse.findSome? (·.data?) with
      | some d => d.eventNumber + 1
      | none => if r.allEvents.isEmpty then log.nextNumber else sub.nextEvent
    pendingUrgent := decide (0 < r.allEvents.length - r.fitted) && sub.pendingUrgent }

end ActiveSubscription

/-! ## Nothing is lost between messages -/

section
variable {budget : Nat} {subId : UInt32} {current entries : List EventEntryOut}
  {batches : List (List EventEntryOut)}

/-- The messages of the first report carry all entries, in their order. -/
theorem flatten_batchesFrom (h : batchesFrom budget subId current entries = some batches) :
    batches.flatten = current ++ entries := by
  induction entries generalizing current batches with
  | nil =>
    rw [batchesFrom, Option.some.injEq] at h
    rw [← h]
    split
    · next hnil => simp [List.isEmpty_iff.1 hnil]
    · simp
  | cons e entries ih =>
    rw [batchesFrom] at h
    simp only [Option.bind_eq_bind, Option.bind_eq_some_iff] at h
    obtain ⟨b, -, h⟩ := h
    split at h
    · obtain ⟨rest, hrest, h⟩ := Option.bind_eq_some_iff.1 h
      rw [Option.pure_def, Option.some.injEq] at h
      rw [← h, List.flatten_cons, ih hrest, List.singleton_append]
    · rw [ih h, List.append_assoc, List.singleton_append]

theorem isSome_mapM {α β : Type} {f : α → Option β} {l : List α} (h : ∀ x ∈ l, (f x).isSome) :
    (l.mapM f).isSome := by
  induction l with
  | nil => rfl
  | cons x l ih =>
    rw [List.forall_mem_cons] at h
    obtain ⟨y, hy⟩ := Option.isSome_iff_exists.1 h.1
    obtain ⟨ys, hys⟩ := Option.isSome_iff_exists.1 (ih h.2)
    rw [List.mapM_cons, hy, hys]
    rfl

/-- The messages of the first report can be made if their entries can be encoded. -/
theorem isSome_batchesFrom (hhead : (attrsLength [] false (some subId) true).isSome)
    (hcurrent : ∀ e ∈ current, e.bytes.isSome) (hentries : ∀ e ∈ entries, e.bytes.isSome) :
    (batchesFrom budget subId current entries).isSome := by
  induction entries generalizing current with
  | nil => rfl
  | cons e entries ih =>
    rw [List.forall_mem_cons] at hentries
    have hcandidate : ∀ x ∈ current ++ [e], x.bytes.isSome :=
      List.forall_mem_append.2 ⟨hcurrent, List.forall_mem_singleton.2 hentries.1⟩
    obtain ⟨b, hb⟩ := Option.isSome_iff_exists.1 (isSome_encodeReportDataFull hhead hcandidate)
    rw [batchesFrom, Option.bind_eq_bind, hb, Option.bind_some]
    split
    · obtain ⟨rest, hrest⟩ := Option.isSome_iff_exists.1
        (ih (List.forall_mem_singleton.2 hentries.1) hentries.2)
      rw [hrest]
      rfl
    · exact ih hcandidate hentries.2

theorem isSome_chunkEvents (hmore : (attrsLength [] false (some subId) true).isSome)
    (hlast : (attrsLength [] false (some subId) false).isSome)
    (hentries : ∀ e ∈ entries, e.bytes.isSome) : (chunkEvents entries budget subId).isSome := by
  have hsome : (batchesFrom budget subId [] entries).isSome :=
    isSome_batchesFrom hmore (fun _ h => absurd h List.not_mem_nil) hentries
  obtain ⟨batches, hbatches⟩ := Option.isSome_iff_exists.1 hsome
  have hflat := flatten_batchesFrom hbatches
  have hall : ∀ x ∈ batches.zipIdx, (encodeReportDataFull [] x.1 false (some subId)
      (decide (x.2 ≠ batches.length - 1))).isSome := fun x hx => by
    refine isSome_encodeReportDataFull ?_ fun e he => hentries e ?_
    · cases decide (x.2 ≠ batches.length - 1)
      · exact hlast
      · exact hmore
    · rw [← List.nil_append entries, ← hflat]
      exact List.mem_flatten_of_mem (List.fst_mem_of_mem_zipIdx hx) he
  obtain ⟨chunks, hchunks⟩ := Option.isSome_iff_exists.1 (isSome_mapM hall)
  rw [chunkEvents, hbatches, Option.bind_eq_bind, Option.bind_some, encodeBatches]
  exact hchunks ▸ rfl

end

section
variable {entries : List ReportEntryOut} {budget : Nat} {subId : UInt32}
  {sent rest pre : List EventEntryOut} {k : Nat}

/-- What is sent anyway. -/
theorem le_fitFrom (h : fitFrom entries budget subId sent rest = some k) :
    sent.length ≤ k ∧ k ≤ sent.length + rest.length := by
  induction rest generalizing sent with
  | nil =>
    rw [fitFrom, Option.some.injEq] at h
    exact h ▸ ⟨le_rfl, le_rfl⟩
  | cons e rest ih =>
    simp only [fitFrom, Option.bind_eq_bind, Option.bind_eq_some_iff] at h
    obtain ⟨b, -, h⟩ := h
    split at h
    · rw [Option.pure_def, Option.some.injEq] at h
      omega
    · obtain ⟨hle, hge⟩ := ih h
      simp only [List.length_append, List.length_cons, List.length_nil] at hle hge ⊢
      omega

theorem isSome_fitFrom (hhead : (attrsLength entries false (some subId) false).isSome)
    (hsent : ∀ e ∈ sent, e.bytes.isSome) (hrest : ∀ e ∈ rest, e.bytes.isSome) :
    (fitFrom entries budget subId sent rest).isSome := by
  induction rest generalizing sent with
  | nil => rfl
  | cons e rest ih =>
    rw [List.forall_mem_cons] at hrest
    have hnext : ∀ x ∈ sent ++ [e], x.bytes.isSome :=
      List.forall_mem_append.2 ⟨hsent, List.forall_mem_singleton.2 hrest.1⟩
    obtain ⟨b, hb⟩ := Option.isSome_iff_exists.1 (isSome_encodeReportDataFull hhead hnext)
    rw [fitFrom, Option.bind_eq_bind, hb, Option.bind_some]
    split
    · rfl
    · exact ih hnext hrest.2

/-- What fits is sent. -/
theorem le_fitFrom_of_fits (h : fitFrom entries budget subId sent (pre ++ rest) = some k)
    (hfits : FitsReport entries (sent ++ pre) false (some subId) false budget) :
    sent.length + pre.length ≤ k := by
  induction pre generalizing sent with
  | nil => exact (le_fitFrom h).1
  | cons e pre ih =>
    simp only [List.cons_append, fitFrom, Option.bind_eq_bind, Option.bind_eq_some_iff] at h
    obtain ⟨b, hb, h⟩ := h
    have hone : FitsReport entries (sent ++ [e]) false (some subId) false budget :=
      hfits.of_subperm (List.Sublist.subperm
        ((List.append_sublist_append_left sent).2 (List.sublist_append_left [e] pre)))
    obtain ⟨b', hb', hle⟩ := hone
    rw [hb, Option.some.injEq] at hb'
    subst hb'
    rw [if_neg (Nat.not_lt.2 hle)] at h
    have hk := ih h (by rwa [List.append_assoc, List.singleton_append])
    simp only [List.length_append, List.length_cons, List.length_nil] at hk ⊢
    omega

/-- What is sent fits, if it is more than what is sent anyway. -/
theorem fits_of_fitFrom (h : fitFrom entries budget subId sent rest = some k)
    (hk : sent.length < k) :
    FitsReport entries (sent ++ rest.take (k - sent.length)) false (some subId) false budget := by
  induction rest generalizing sent with
  | nil =>
    rw [fitFrom, Option.some.injEq] at h
    omega
  | cons e rest ih =>
    simp only [fitFrom, Option.bind_eq_bind, Option.bind_eq_some_iff] at h
    obtain ⟨b, hb, h⟩ := h
    split at h
    · rw [Option.pure_def, Option.some.injEq] at h
      omega
    · next hle =>
      obtain ⟨m, hm⟩ : ∃ m, k - sent.length = m + 1 := ⟨k - sent.length - 1, by omega⟩
      have hlen : (sent ++ [e]).length = sent.length + 1 := by simp
      rw [hm, List.take_succ_cons]
      by_cases hlast : (sent ++ [e]).length < k
      · have hfits := ih h hlast
        rwa [List.append_assoc, List.singleton_append,
          show k - (sent ++ [e]).length = m by omega] at hfits
      · have hzero : m = 0 := by
          have := (le_fitFrom h).1
          omega
        rw [hzero, List.take_zero]
        exact ⟨b, hb, Nat.le_of_not_lt hle⟩

end

/-! ## What is sent -/

section
variable {sub : ActiveSubscription} {n : NodeView} {log : EventLog} {fabricIndex : UInt8}
  {subject : Subject} {r : SubscriptionReport}

/-- What is in a report. -/
theorem ActiveSubscription.nextReport_eq_some
    (h : sub.nextReport n log fabricIndex subject = some r) :
    r.entries = sub.reportEntries n fabricIndex subject ∧
      r.allEvents = n.eventEntries log sub.eventPaths sub.nextEvent
        (sub.readCtx fabricIndex subject) ∧
      fitFrom r.entries reportChunkBudget sub.id [] r.allEvents = some r.fitted := by
  simp only [nextReport, Option.bind_eq_bind, Option.bind_eq_some_iff, Option.pure_def,
    Option.some.injEq] at h
  obtain ⟨fitted, hfitted, payload, -, rfl⟩ := h
  exact ⟨rfl, rfl, hfitted⟩

/-- A report can be made if its attribute half and its entries can be encoded. -/
theorem ActiveSubscription.isSome_nextReport
    (hhead : (attrsLength (sub.reportEntries n fabricIndex subject) false (some sub.id)
      false).isSome)
    (hall : ∀ e ∈ n.eventEntries log sub.eventPaths sub.nextEvent (sub.readCtx fabricIndex subject),
      e.bytes.isSome) : (sub.nextReport n log fabricIndex subject).isSome := by
  have hsome : (fitEvents (sub.reportEntries n fabricIndex subject) (n.eventEntries log
      sub.eventPaths sub.nextEvent (sub.readCtx fabricIndex subject)) reportChunkBudget
      sub.id).isSome := isSome_fitFrom hhead (fun _ h => absurd h List.not_mem_nil) hall
  obtain ⟨fitted, hfitted⟩ := Option.isSome_iff_exists.1 hsome
  obtain ⟨payload, hpayload⟩ := Option.isSome_iff_exists.1
    (isSome_encodeReportDataFull hhead fun e he => hall e (List.mem_of_mem_take he))
  rw [nextReport, hfitted, Option.bind_eq_bind, Option.bind_some, hpayload]
  rfl

/-- The events that wait are those that are sent, and then the others. -/
theorem SubscriptionReport.dataOf_allEvents (r : SubscriptionReport) :
    dataOf r.allEvents = dataOf r.events ++ dataOf (r.allEvents.drop r.fitted) := by
  rw [events, ← dataOf_append, List.take_append_drop]

/-- A report whose attribute half, statuses and first event fit sends that event. -/
theorem dataOf_events_ne_nil (h : sub.nextReport n log fabricIndex subject = some r)
    {d : EventReportOut} (hd : (dataOf r.allEvents).head? = some d)
    (hroom : FitsReport r.entries (n.eventStatuses sub.eventPaths ++ [.data d]) false
      (some sub.id) false reportChunkBudget) : dataOf r.events ≠ [] := by
  obtain ⟨-, hall, hfit⟩ := ActiveSubscription.nextReport_eq_some h
  obtain ⟨ds, hds⟩ := List.head?_eq_some_iff.1 hd
  obtain ⟨pre, entry, post, hsplit, hpre, hentry, -⟩ := List.filterMap_eq_cons_iff.1 hds
  obtain rfl : entry = .data d := by
    cases entry with
    | data d' => exact congrArg _ (Option.some.inj hentry)
    | status => cases hentry
  -- before the first event there are only statuses
  have hsub : (pre ++ [EventEntryOut.data d]).Subperm
      (n.eventStatuses sub.eventPaths ++ [EventEntryOut.data d]) := by
    have hstatuses : statusesOf pre = pre :=
      List.filter_eq_self.2 fun e he => by rw [hpre e he, Option.isNone_none]
    refine (List.subperm_append_right _).2 ?_
    have hpre' : pre.Sublist (statusesOf r.allEvents) := by
      rw [← hstatuses, hsplit]
      exact (List.sublist_append_left pre _).filter _
    rw [hall] at hpre'
    exact hpre'.subperm.trans (n.statusesOf_eventEntries ..).subperm
  have hk : pre.length + 1 ≤ r.fitted := by
    rw [hsplit, show pre ++ .data d :: post = (pre ++ [.data d]) ++ post by simp] at hfit
    simpa using le_fitFrom_of_fits hfit (hroom.of_subperm hsub)
  have hmem : EventEntryOut.data d ∈ r.events := by
    rw [SubscriptionReport.events, hsplit, List.take_append]
    refine List.mem_append_right _ ?_
    rw [show r.fitted - pre.length = (r.fitted - pre.length - 1) + 1 by omega, List.take_succ_cons]
    exact List.mem_cons_self
  exact List.ne_nil_of_mem (List.mem_filterMap.2 ⟨_, hmem, rfl⟩)

/-- A report that has no room for the statuses sends no event, if events come after statuses. -/
theorem dataOf_events_eq_nil (h : sub.nextReport n log fabricIndex subject = some r)
    (hpos : ∀ d ∈ dataOf r.allEvents, 0 < d.eventNumber)
    (hfull : ¬FitsReport r.entries (n.eventStatuses sub.eventPaths) false (some sub.id) false
      reportChunkBudget) : dataOf r.events = [] := by
  obtain ⟨-, hall, hfit⟩ := ActiveSubscription.nextReport_eq_some h
  by_contra hne
  obtain ⟨d, hd⟩ := List.exists_mem_of_ne_nil _ hne
  obtain ⟨entry, hentry, hd'⟩ := List.mem_filterMap.1 hd
  obtain rfl : entry = .data d := by
    cases entry with
    | data d' => exact congrArg _ (Option.some.inj hd')
    | status => cases hd'
  have hsorted : r.allEvents.Pairwise fun a b => a.sortKey ≤ b.sortKey :=
    hall ▸ n.eventEntries_sorted ..
  rw [← List.take_append_drop r.fitted r.allEvents] at hsorted
  have hpos' : 0 < d.eventNumber := by
    refine hpos d ?_
    rw [r.dataOf_allEvents]
    exact List.mem_append_left _ hd
  -- behind an event there is no status, so all of them are sent
  have hnone : statusesOf (r.allEvents.drop r.fitted) = [] := by
    refine List.filter_eq_nil_iff.2 fun e he hstatus => ?_
    have hle : d.eventNumber ≤ e.sortKey := (List.pairwise_append.1 hsorted).2.2 _ hentry e he
    cases e with
    | data => cases hstatus
    | status => exact UInt64.lt_irrefl _ (UInt64.lt_of_lt_of_le hpos' hle)
  have hsub : (n.eventStatuses sub.eventPaths).Subperm r.events := by
    have hperm := n.statusesOf_eventEntries log sub.eventPaths sub.nextEvent
      (sub.readCtx fabricIndex subject)
    rw [← hall] at hperm
    refine hperm.symm.subperm.trans (List.Sublist.subperm ?_)
    rw [← List.take_append_drop r.fitted r.allEvents, statusesOf, List.filter_append]
    change (_ ++ statusesOf (r.allEvents.drop r.fitted)).Sublist _
    rw [hnone, List.append_nil]
    exact List.filter_sublist
  have hk : ([] : List EventEntryOut).length < r.fitted := by
    refine Nat.pos_of_ne_zero fun hzero => ?_
    rw [SubscriptionReport.events, hzero, List.take_zero] at hentry
    cases hentry
  exact hfull ((fits_of_fitFrom hfit hk).of_subperm hsub)

end

end MatStack
