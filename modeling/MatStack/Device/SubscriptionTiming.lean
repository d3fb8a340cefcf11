import MatStack.Device.EventDelivery
import MatStack.Device.NodeAttributes
import MatStack.Lib.Machine

/-!
# When a subscription reports

The response to a subscription announces the greatest time between two reports. Whatever is noted
and reported afterwards, the next report is due in that time after the last one (`Timely`), at once
after the least interval where something changed, and before the time is over where nothing did.
A report takes all changes that wait with it; so where every report goes out when it is due, no
change waits longer than the time that was announced (`subscription_timing`). What a report carries
of them is what the session may read, and an answer for each attribute that the request names; a
change of an attribute that only a wildcard covers and that may not be read waits and goes like the
others, and nobody is told of it (`refused_change_cleared`).
-/

namespace MatStack

open Machine

/-- The greatest time between two reports that the response announces. -/
def announcedMaxInterval (req : SubscribeRequestIn) : Nat :=
  fromSecs (min (max req.maxIntervalCeilingS minMaxIntervalS) maxMaxIntervalS)

namespace ActiveSubscription

variable {sub : ActiveSubscription} {limit : Nat}

/-! ## What is noted -/

/-- Noting events touches nothing but the flag. -/
theorem noteEvents_eq (sub : ActiveSubscription) (events : List StoredEvent) :
    sub.noteEvents events =
      { sub with pendingUrgent := (sub.noteEvents events).pendingUrgent } := by
  induction events generalizing sub with
  | nil => rfl
  | cons e events ih =>
    rw [noteEvents, List.foldl_cons]
    split
    · exact ih _
    · exact ih _

/-- Noting an outcome touches nothing but what waits and the flag. -/
theorem noteOutcome_eq_of (sub : ActiveSubscription) (changed : List AttrPath) (log : EventLog) :
    sub.noteOutcome changed log = { sub with
      dirty := (sub.noteChanged changed).dirty
      pendingUrgent := (sub.noteOutcome changed log).pendingUrgent } := by
  have hevents := noteEvents_eq (sub.noteChanged changed)
    (log.since (sub.noteChanged changed).nextEvent)
  have hchanged := noteChanged_eq sub changed
  rw [noteOutcome, hevents]
  generalize (noteEvents _ _).pendingUrgent = urgent
  rw [hchanged]

/-- The negotiated intervals: a report is due in some seconds, and not before the least interval. -/
structure Negotiated (limit : Nat) (sub : ActiveSubscription) : Prop where
  max : sub.maxInterval = limit
  min : sub.minInterval ≤ limit
  positive : 2 ≤ limit

/-- Where nothing waits. -/
def Clean (sub : ActiveSubscription) : Prop := sub.dirty = [] ∧ sub.pendingUrgent = false

theorem nextReportDeadline_of_clean (h : sub.Clean) :
    sub.nextReportDeadline = sub.lastReportAt + sub.maxInterval - sub.keepAliveMargin := by
  rw [nextReportDeadline, h.1, h.2]
  rfl

theorem nextReportDeadline_of_not_clean (h : ¬sub.Clean) :
    sub.nextReportDeadline = sub.lastReportAt + sub.minInterval := by
  rw [nextReportDeadline, if_neg]
  rw [Bool.and_eq_true, List.isEmpty_iff, Bool.not_eq_true']
  exact h

/-- What a subscription owes at any time: the next report is due between the last one and the limit
after it, strictly before where nothing waits; noting changes or events makes it due within the
limit, and where something waits then, not before the least interval; and what is subtracted is not
more than what it is subtracted from. -/
structure Timely (limit : Nat) (sub : ActiveSubscription) : Prop where
  not_later : sub.nextReportDeadline ≤ sub.lastReportAt + limit
  not_earlier : sub.lastReportAt ≤ sub.nextReportDeadline
  clean : sub.Clean → sub.nextReportDeadline < sub.lastReportAt + limit
  noted : ∀ changed events log, ∀ sub' ∈ [sub.noteChanged changed, sub.noteEvents events,
      sub.noteOutcome changed log],
    sub'.lastReportAt = sub.lastReportAt ∧ sub'.nextReportDeadline ≤ sub.lastReportAt + limit ∧
      (¬sub'.Clean → sub.lastReportAt + sub.minInterval ≤ sub'.nextReportDeadline)
  subtracts : sub.keepAliveMargin ≤ sub.lastReportAt + sub.maxInterval

/-- The margin is something, and not more than half of the limit. -/
theorem Negotiated.margin (h : sub.Negotiated limit) :
    0 < sub.keepAliveMargin ∧ sub.keepAliveMargin ≤ limit := by
  have hmax := h.max
  have hpos := h.positive
  rw [keepAliveMargin, keepAliveMs]
  omega

theorem Negotiated.deadline (h : sub.Negotiated limit) :
    sub.lastReportAt ≤ sub.nextReportDeadline ∧
      sub.nextReportDeadline ≤ sub.lastReportAt + limit := by
  by_cases hclean : sub.Clean
  · rw [nextReportDeadline_of_clean hclean, h.max, Nat.add_sub_assoc h.margin.2]
    exact ⟨Nat.le_add_right _ _, Nat.add_le_add_left (Nat.sub_le _ _) _⟩
  · rw [nextReportDeadline_of_not_clean hclean]
    exact ⟨Nat.le_add_right _ _, Nat.add_le_add_left h.min _⟩

theorem Negotiated.timely (h : sub.Negotiated limit) : sub.Timely limit := by
  have hmargin := h.margin
  refine ⟨h.deadline.2, h.deadline.1, fun hclean => ?_, fun changed events log sub' hsub' => ?_, ?_⟩
  · rw [nextReportDeadline_of_clean hclean, h.max, Nat.add_sub_assoc hmargin.2]
    exact Nat.add_lt_add_left (Nat.sub_lt (hmargin.1.trans_le hmargin.2) hmargin.1) _
  · have hsame : sub'.lastReportAt = sub.lastReportAt ∧ sub'.minInterval = sub.minInterval ∧
        sub'.maxInterval = sub.maxInterval := by
      simp only [List.mem_cons, List.not_mem_nil, or_false] at hsub'
      obtain rfl | rfl | rfl := hsub'
      · rw [noteChanged_eq]
        exact ⟨rfl, rfl, rfl⟩
      · rw [noteEvents_eq]
        exact ⟨rfl, rfl, rfl⟩
      · rw [noteOutcome_eq_of]
        exact ⟨rfl, rfl, rfl⟩
    obtain ⟨hlast, hmin, hmax⟩ := hsame
    have hsub : sub'.Negotiated limit := ⟨hmax.trans h.max, hmin ▸ h.min, h.positive⟩
    refine ⟨hlast, hlast ▸ hsub.deadline.2, fun hclean => ?_⟩
    rw [nextReportDeadline_of_not_clean hclean, hlast, hmin]
  · rw [h.max]
    exact hmargin.2.trans (Nat.le_add_left _ _)

/-! ## What is reported -/

/-- What is read by a path that names one attribute carries that path. -/
theorem path_of_mem_expand {n : NodeView} {path : AttrPath} {ctx : ReadCtx}
    {entry : ReportEntryOut} (hm : entry ∈ n.expandEndpoint (.concrete path) ctx) :
    entry.path = path := by
  simp only [NodeView.expandEndpoint, AttrPathIn.concrete] at hm
  cases hf : n.registry.endpoints.find? (·.1 == path.1) with
  | none =>
    rw [hf] at hm
    rw [List.mem_singleton.1 hm]
    rfl
  | some e =>
    simp only [hf, NodeView.expandCluster] at hm
    cases hc : e.2.find? (·.clusterId == path.2.1) with
    | none =>
      rw [hc] at hm
      rw [List.mem_singleton.1 hm]
      rfl
    | some h =>
      rw [hc] at hm
      obtain ⟨attr, hattr, rfl, -⟩ := NodeView.mem_expandAttribute.1 hm
      have hid : h.clusterId = path.2.1 := by
        have hfound := List.find?_some hc
        exact eq_of_beq hfound
      rw [NodeView.answer_path, List.mem_singleton.1 hattr, hid]

/-- A path that names one attribute is always answered. -/
theorem expand_ne_nil (n : NodeView) (path : AttrPath) (ctx : ReadCtx) :
    n.expandEndpoint (.concrete path) ctx ≠ [] := by
  simp only [NodeView.expandEndpoint, AttrPathIn.concrete]
  cases n.registry.endpoints.find? (·.1 == path.1) with
  | none => exact List.cons_ne_nil _ _
  | some e =>
    simp only [NodeView.expandCluster]
    cases e.2.find? (·.clusterId == path.2.1) with
    | none => exact List.cons_ne_nil _ _
    | some h =>
      have hmem : n.answer ⟨path.1, e.2, ctx⟩ h path.2.2 ∈
          n.expandAttribute ⟨path.1, e.2, ctx⟩ h (.concrete path) true :=
        NodeView.mem_expandAttribute.2
          ⟨path.2.2, List.mem_singleton_self path.2.2, rfl, .inr ⟨rfl, rfl⟩⟩
      exact List.ne_nil_of_mem hmem

/-- What a report takes with it: of the changed attributes every value that can be read and an
answer for each that a requested path names, and nothing else, and the first of the events that
wait. Nothing that changed waits any more then, the next report starts behind the events that were
sent, and the flag stays only where events were left out. -/
structure ClearsCarried (sub : ActiveSubscription) (n : NodeView) (log : EventLog)
    (fabricIndex : UInt8) (subject : Subject) (r : SubscriptionReport) (now : Instant) : Prop where
  values : ∀ path ∈ sub.dirty, ∀ clusters h, n.Serves path clusters h →
    (n.answer ⟨path.1, clusters, sub.readCtx fabricIndex subject⟩ h path.2.2).isData = true →
      n.answer ⟨path.1, clusters, sub.readCtx fabricIndex subject⟩ h path.2.2 ∈ r.entries
  named : ∀ path ∈ sub.dirty, sub.coveredConcretely path = true →
    ∃ entry ∈ r.entries, entry.path = path
  only : ∀ entry ∈ r.entries, entry.path ∈ sub.dirty
  dirty : (sub.acknowledge log r now).dirty = []
  events : ∀ d, r.events.reverse.findSome? (·.data?) = some d →
    (sub.acknowledge log r now).nextEvent = d.eventNumber + 1
  urgent : (sub.acknowledge log r now).pendingUrgent = true ↔
    sub.pendingUrgent = true ∧ r.fitted < r.allEvents.length
  reported : (sub.acknowledge log r now).lastReportAt = now

theorem reportEntries_eq (sub : ActiveSubscription) (n : NodeView) (fabricIndex : UInt8)
    (subject : Subject) :
    sub.reportEntries n fabricIndex subject = sub.retainReportable
      (n.readEntries (sub.dirty.map .concrete) (sub.readCtx fabricIndex subject)) := by
  unfold reportEntries
  dsimp only
  split
  · next hnil =>
    rw [List.isEmpty_iff.1 hnil]
    rfl
  · rfl

theorem clearsCarried {n : NodeView} {log : EventLog} {fabricIndex : UInt8} {subject : Subject}
    {r : SubscriptionReport} (h : sub.nextReport n log fabricIndex subject = some r)
    (now : Instant) : sub.ClearsCarried n log fabricIndex subject r now := by
  have hentries : r.entries = sub.reportEntries n fabricIndex subject := by
    simp only [nextReport, Option.bind_eq_bind, Option.bind_eq_some_iff, Option.pure_def,
      Option.some.injEq] at h
    obtain ⟨_, -, _, -, rfl⟩ := h
    rfl
  have hmem : ∀ entry, entry ∈ r.entries ↔
      (∃ path ∈ sub.dirty, entry ∈ n.expandEndpoint (.concrete path)
        (sub.readCtx fabricIndex subject)) ∧
      (entry.isData = true ∨ sub.coveredConcretely entry.path = true) := fun entry => by
    rw [hentries, reportEntries_eq, mem_retainReportable, NodeView.readEntries, List.flatMap_map,
      List.mem_flatMap]
  refine ⟨fun path hpath clusters c hs hd => ?_, fun path hpath hc => ?_, fun entry hentry => ?_,
    rfl, fun d hd => ?_, ?_, rfl⟩
  · refine (hmem _).2 ⟨⟨path, hpath, ?_⟩, .inl hd⟩
    have hanswer : (n.answer ⟨path.1, clusters, sub.readCtx fabricIndex subject⟩ c
        path.2.2).path = path := by
      rw [NodeView.answer_path, hs.clusterId]
    exact (NodeView.mem_expandEndpoint_of_serves hs hanswer).2
      ⟨pathMatches_concrete.2 rfl, rfl, .inl hd⟩
  · obtain ⟨entry, hentry⟩ := List.exists_mem_of_ne_nil _
      (expand_ne_nil n path (sub.readCtx fabricIndex subject))
    have hp := path_of_mem_expand hentry
    exact ⟨entry, (hmem entry).2 ⟨⟨path, hpath, hentry⟩, .inr (hp ▸ hc)⟩, hp⟩
  · obtain ⟨⟨path, hpath, hm⟩, -⟩ := (hmem entry).1 hentry
    rwa [path_of_mem_expand hm]
  · rw [acknowledge]
    dsimp only
    rw [hd]
  · rw [acknowledge, Bool.and_eq_true, decide_eq_true_iff, Nat.sub_pos_iff_lt, and_comm]

end ActiveSubscription

/-! ## Runs -/

/-- A subscription as time goes by: the changes that were noted and wait, each with the time when it
was noted, and those that were taken by a report, with the time when it went out. -/
structure TimedSubscription where
  sub : ActiveSubscription
  now : Instant
  waiting : List (AttrPath × Instant)
  reported : List ((AttrPath × Instant) × Instant)

/-- What happens to a subscription: changes and events are noted, or a report is sent and
acknowledged. -/
inductive TimedEvent where
  | changed (now : Instant) (changed : List AttrPath)
  | events (now : Instant) (events : List StoredEvent)
  | outcome (now : Instant) (changed : List AttrPath) (log : EventLog)
  | report (sentAt acknowledgedAt : Instant) (n : NodeView) (log : EventLog) (fabricIndex : UInt8)
      (subject : Subject)

namespace TimedEvent

/-- When it happens; a report is sent then. -/
def time : TimedEvent → Instant
  | changed now _ => now
  | events now _ => now
  | outcome now _ _ => now
  | report sentAt _ _ _ _ _ => sentAt

/-- When it is over. -/
def ends : TimedEvent → Instant
  | report _ acknowledgedAt _ _ _ _ => acknowledgedAt
  | e => e.time

/-- The attributes that changed. -/
def noted : TimedEvent → List AttrPath
  | changed _ paths => paths
  | outcome _ paths _ => paths
  | _ => []

end TimedEvent

namespace TimedSubscription

def start (sub : ActiveSubscription) : TimedSubscription := ⟨sub, sub.lastReportAt, [], []⟩

/-- The covered ones among the changes wait from now on. -/
def note (s : TimedSubscription) (now : Instant) (changed : List AttrPath)
    (sub : ActiveSubscription) : TimedSubscription where
  sub
  now
  waiting := s.waiting ++ (changed.filter s.sub.covers).map (·, now)
  reported := s.reported

/-- A report takes the changes it reads. -/
def take (s : TimedSubscription) (sentAt acknowledgedAt : Instant) (log : EventLog)
    (r : SubscriptionReport) : TimedSubscription where
  sub := s.sub.acknowledge log r acknowledgedAt
  now := acknowledgedAt
  waiting := s.waiting.filter fun w => !s.sub.dirty.contains w.1
  reported := s.reported ++
    (s.waiting.filter fun w => s.sub.dirty.contains w.1).map (·, sentAt)

def step (s : TimedSubscription) : TimedEvent → TimedSubscription
  | .changed now changed => s.note now changed (s.sub.noteChanged changed)
  | .events now events => s.note now [] (s.sub.noteEvents events)
  | .outcome now changed log => s.note now changed (s.sub.noteOutcome changed log)
  | .report sentAt acknowledgedAt n log fabricIndex subject =>
    (s.sub.nextReport n log fabricIndex subject).elim s (s.take sentAt acknowledgedAt log)

/-- Time does not go back, and when a report is due nothing comes before it. -/
structure Punctual (s : TimedSubscription) (e : TimedEvent) : Prop where
  later : s.now ≤ e.time
  due : e.time ≤ max s.now s.sub.nextReportDeadline
  lasts : e.time ≤ e.ends

/-- The intervals stay, and the changes that wait are the ones that the next report reads. -/
structure Inv (limit : Nat) (s : TimedSubscription) : Prop where
  negotiated : s.sub.Negotiated limit
  waiting : ∀ w ∈ s.waiting, w.1 ∈ s.sub.dirty

/-- What waits was noted since the last report, not longer than the limit ago, and what was reported
did not wait longer. -/
structure InTime (limit : Nat) (s : TimedSubscription) : Prop where
  since : s.sub.lastReportAt ≤ s.now
  now : s.now ≤ s.sub.lastReportAt + limit
  waiting : ∀ w ∈ s.waiting, s.sub.lastReportAt ≤ w.2 ∧ w.2 ≤ s.now
  reported : ∀ r ∈ s.reported, r.1.2 ≤ r.2 ∧ r.2 ≤ r.1.2 + limit

/-- A change that was noted waits, or was reported. -/
def Kept (w : AttrPath × Instant) (s : TimedSubscription) : Prop :=
  w ∈ s.waiting ∨ ∃ sentAt, (w, sentAt) ∈ s.reported

section
variable {s : TimedSubscription} {limit : Nat} {e : TimedEvent} {w : AttrPath × Instant}

/-- What an event does to a subscription: it notes changes that are covered, leaving the rest of the
subscription but for the flag, or a report takes what waits. -/
theorem step_cases (s : TimedSubscription) (e : TimedEvent) :
    (∃ sub, s.step e = s.note e.time e.noted sub ∧
      sub = { s.sub with dirty := sub.dirty, pendingUrgent := sub.pendingUrgent } ∧
      ∀ path, path ∈ sub.dirty ↔
        path ∈ s.sub.dirty ∨ path ∈ e.noted ∧ s.sub.covers path = true) ∨
    (e.noted = [] ∧ (s.step e = s ∨ ∃ log r, s.step e = s.take e.time e.ends log r)) := by
  cases e with
  | changed now changed =>
    refine .inl ⟨_, rfl, ?_, fun _ => ActiveSubscription.mem_noteChanged⟩
    rw [ActiveSubscription.noteChanged_eq]
  | events now events =>
    refine .inl ⟨_, rfl, ?_, fun path => ?_⟩
    · rw [ActiveSubscription.noteEvents_eq]
    · rw [ActiveSubscription.noteEvents_eq]
      exact ⟨.inl, fun h => h.resolve_right fun hnil => List.not_mem_nil hnil.1⟩
  | outcome now changed log =>
    refine .inl ⟨_, rfl, ?_, fun path => ?_⟩
    · rw [ActiveSubscription.noteOutcome_eq_of]
    · rw [ActiveSubscription.noteOutcome_eq_of]
      exact ActiveSubscription.mem_noteChanged
  | report sentAt acknowledgedAt n log fabricIndex subject =>
    have hstep : s.step (.report sentAt acknowledgedAt n log fabricIndex subject) =
        (s.sub.nextReport n log fabricIndex subject).elim s (s.take sentAt acknowledgedAt log) :=
      rfl
    refine .inr ⟨rfl, ?_⟩
    rw [hstep]
    cases s.sub.nextReport n log fabricIndex subject with
    | none => exact .inl rfl
    | some r => exact .inr ⟨log, r, rfl⟩

/-- What waits is what a report reads, so none of it is left. -/
theorem Inv.take_waiting (h : s.Inv limit) (sentAt acknowledgedAt : Instant) (log : EventLog)
    (r : SubscriptionReport) : (s.take sentAt acknowledgedAt log r).waiting = [] := by
  rw [take, List.filter_eq_nil_iff]
  intro w hw
  rw [List.contains_iff_mem.2 (h.waiting w hw)]
  exact Bool.false_ne_true

theorem Inv.step (h : s.Inv limit) (e : TimedEvent) : (s.step e).Inv limit := by
  have hn := h.negotiated
  obtain ⟨sub, hstep, hsub, hdirty⟩ | ⟨-, hstep | ⟨log, r, hstep⟩⟩ := step_cases s e
  · rw [hstep]
    refine ⟨?_, fun w hw => (hdirty w.1).2 ?_⟩
    · have hsame : sub.Negotiated limit := by
        rw [hsub]
        exact ⟨hn.max, hn.min, hn.positive⟩
      exact hsame
    · obtain hw | hw := List.mem_append.1 hw
      · exact .inl (h.waiting w hw)
      · obtain ⟨path, hpath, rfl⟩ := List.mem_map.1 hw
        exact .inr (List.mem_filter.1 hpath)
  · rwa [hstep]
  · rw [hstep]
    refine ⟨⟨hn.max, hn.min, hn.positive⟩, fun w hw => ?_⟩
    rw [h.take_waiting] at hw
    exact absurd hw List.not_mem_nil

theorem InTime.step (hinv : s.Inv limit) (h : s.InTime limit) (hp : s.Punctual e) :
    (s.step e).InTime limit := by
  have hdue : e.time ≤ s.sub.lastReportAt + limit :=
    hp.due.trans (max_le h.now hinv.negotiated.deadline.2)
  obtain ⟨sub, hstep, hsub, -⟩ | ⟨-, hstep | ⟨log, r, hstep⟩⟩ := step_cases s e
  · have hlast : sub.lastReportAt = s.sub.lastReportAt := by rw [hsub]
    rw [hstep]
    refine ⟨?_, ?_, fun w hw => ?_, h.reported⟩
    · exact hlast.trans_le (h.since.trans hp.later)
    · exact hdue.trans_eq (by rw [note, hlast])
    · have hsince : s.sub.lastReportAt ≤ w.2 ∧ w.2 ≤ e.time := by
        obtain hw | hw := List.mem_append.1 hw
        · exact ⟨(h.waiting w hw).1, (h.waiting w hw).2.trans hp.later⟩
        · obtain ⟨path, -, rfl⟩ := List.mem_map.1 hw
          exact ⟨h.since.trans hp.later, le_rfl⟩
      exact ⟨hlast.trans_le hsince.1, hsince.2⟩
  · rwa [hstep]
  · rw [hstep]
    refine ⟨le_rfl, Nat.le_add_right _ _, fun w hw => ?_, fun x hx => ?_⟩
    · rw [hinv.take_waiting] at hw
      exact absurd hw List.not_mem_nil
    · obtain hx | hx := List.mem_append.1 hx
      · exact h.reported x hx
      · obtain ⟨w, hw, rfl⟩ := List.mem_map.1 hx
        obtain ⟨hsince, hnow⟩ := h.waiting w (List.mem_filter.1 hw).1
        exact ⟨hnow.trans hp.later, hdue.trans (Nat.add_le_add_right hsince _)⟩

/-- A change that was noted is not forgotten. -/
theorem Kept.step (h : s.Kept w) (e : TimedEvent) : (s.step e).Kept w := by
  obtain ⟨sub, hstep, -, -⟩ | ⟨-, hstep | ⟨log, r, hstep⟩⟩ := step_cases s e
  · rw [hstep]
    exact h.imp (List.mem_append_left _) id
  · rwa [hstep]
  · rw [hstep]
    obtain h | ⟨sentAt, h⟩ := h
    · by_cases hd : s.sub.dirty.contains w.1 = true
      · exact .inr ⟨_, List.mem_append_right _
          (List.mem_map_of_mem (List.mem_filter.2 ⟨h, hd⟩))⟩
      · exact .inl (List.mem_filter.2 ⟨h, by rw [Bool.not_eq_true', ← Bool.not_eq_true]; exact hd⟩)
    · exact .inr ⟨sentAt, List.mem_append_left _ h⟩

theorem Kept.run (h : s.Kept w) (es : List TimedEvent) :
    (Machine.run TimedSubscription.step s es).Kept w :=
  invariant h (fun _ e hkept => hkept.step e) es

/-- A covered change is noted. -/
theorem kept_step {path : AttrPath} (hpath : path ∈ e.noted) (hc : s.sub.covers path = true) :
    (s.step e).Kept (path, e.time) := by
  obtain ⟨sub, hstep, -, -⟩ | ⟨hnil, -⟩ := step_cases s e
  · rw [hstep]
    exact .inl (List.mem_append_right _ (List.mem_map_of_mem (List.mem_filter.2 ⟨hpath, hc⟩)))
  · rw [hnil] at hpath
    exact absurd hpath List.not_mem_nil

/-- What is covered stays. -/
theorem step_covers (s : TimedSubscription) (e : TimedEvent) :
    (s.step e).sub.covers = s.sub.covers := by
  obtain ⟨sub, hstep, hsub, -⟩ | ⟨-, hstep | ⟨log, r, hstep⟩⟩ := step_cases s e
  · rw [hstep, note, hsub]
    rfl
  · rw [hstep]
  · rw [hstep]
    rfl

theorem run_covers (s : TimedSubscription) (es : List TimedEvent) :
    (Machine.run TimedSubscription.step s es).sub.covers = s.sub.covers :=
  invariant (I := fun s' => s'.sub.covers = s.sub.covers) rfl
    (fun s' e h => (step_covers s' e).trans h) es

end

/-! ## From the request on -/

section
variable {n : NodeView} {log : EventLog} {req : SubscribeRequestIn} {fabricIndex : UInt8}
  {subject : Subject} {subId : UInt32} {now : Instant} {acknowledged : Bool}
  {sub : ActiveSubscription} {delivered : List EventEntryOut}

/-- The intervals of a new subscription: the announced one, and a floor that is not above it. -/
theorem negotiated_of_installed
    (h : serveSubscribeRequest n log req fabricIndex subject subId now acknowledged =
      some (.installed sub delivered)) : sub.Negotiated (announcedMaxInterval req) := by
  unfold serveSubscribeRequest at h
  dsimp only at h
  split at h
  · split at h
    · exact absurd (Option.some.inj h) SubscribeOutcome.noConfusion
    · exact absurd (Option.some.inj h) SubscribeOutcome.noConfusion
  · obtain ⟨chunks, -, h⟩ := Option.bind_eq_some_iff.1 h
    split at h
    · rw [Option.pure_def, Option.some.injEq, SubscribeOutcome.installed.injEq] at h
      rw [← h.1]
      refine ⟨rfl, Nat.min_le_right _ _, ?_⟩
      have hmin : minMaxIntervalS ≤
          min (max req.maxIntervalCeilingS minMaxIntervalS) maxMaxIntervalS := by
        have hmax : minMaxIntervalS ≤ maxMaxIntervalS := by decide
        refine Std.le_min_iff.2 ⟨?_, hmax⟩
        change minMaxIntervalS ≤ if _ then _ else _
        split
        · exact UInt16.le_refl _
        · next hlt => exact UInt16.le_of_lt (UInt16.not_le.1 hlt)
      have hnat := UInt16.le_iff_toNat_le.1 hmin
      rw [show minMaxIntervalS.toNat = 3 from rfl] at hnat
      rw [announcedMaxInterval, fromSecs]
      omega
    · exact absurd (Option.some.inj h) SubscribeOutcome.noConfusion

/-- **Subscription timing.** Whatever was noted and reported on an accepted subscription, its next
report is due within the announced interval; a report takes what it carries and leaves nothing that
changed. Where every report goes out when it is due, a covered change was reported within the
announced interval, or waits, no longer than that, and is reported by the end of it. -/
theorem subscription_timing
    (h : serveSubscribeRequest n log req fabricIndex subject subId now acknowledged =
      some (.installed sub delivered)) (es : List TimedEvent) :
    let s := run step (start sub) es
    let limit := announcedMaxInterval req
    s.sub.Timely limit ∧
      (∀ n log fabricIndex subject r acknowledgedAt,
        s.sub.nextReport n log fabricIndex subject = some r →
          s.sub.ClearsCarried n log fabricIndex subject r acknowledgedAt) ∧
      (Along step Punctual (start sub) es → ∀ pre e post, es = pre ++ e :: post →
        ∀ path ∈ e.noted, sub.covers path = true →
          (path ∈ s.sub.dirty ∧ s.now ≤ e.time + limit ∧
            s.sub.nextReportDeadline ≤ e.time + limit) ∨
          ∃ sentAt, ((path, e.time), sentAt) ∈ s.reported ∧ e.time ≤ sentAt ∧
            sentAt ≤ e.time + limit) := by
  intro s limit
  have hstart : (start sub).Inv limit := ⟨negotiated_of_installed h, nofun⟩
  have hinv : s.Inv limit := invariant hstart (fun _ e hs => hs.step e) es
  refine ⟨hinv.negotiated.timely, fun n log fabricIndex subject r acknowledgedAt hr =>
    ActiveSubscription.clearsCarried hr acknowledgedAt, ?_⟩
  intro hp pre e post hes path hpath hc
  have htime : s.Inv limit ∧ s.InTime limit :=
    run_invariant (I := fun s => s.Inv limit ∧ s.InTime limit)
      ⟨hstart, le_rfl, Nat.le_add_right _ _, nofun, nofun⟩
      (fun _ e hs he => ⟨hs.1.step e, hs.2.step hs.1 he⟩) hp
  have hkept : s.Kept (path, e.time) := by
    have hcovers : (run step (start sub) pre).sub.covers path = true := by
      rw [run_covers]
      exact hc
    have hrun := (kept_step hpath hcovers).run post
    rw [← run_cons, ← run_append, ← hes] at hrun
    exact hrun
  obtain hw | ⟨sentAt, hr⟩ := hkept
  · have hsince := (htime.2.waiting _ hw).1
    refine .inl ⟨hinv.waiting _ hw, ?_, ?_⟩
    · exact htime.2.now.trans (Nat.add_le_add_right hsince _)
    · exact hinv.negotiated.deadline.2.trans (Nat.add_le_add_right hsince _)
  · exact .inr ⟨sentAt, hr, htime.2.reported _ hr⟩

end

/-! ### A viewer of the access control table -/

/-- A session of fabric 1 that may view everything. -/
def viewerAcl : AclStore := ⟨[⟨privilegeView, authModeCase, [5], none, 1⟩]⟩

/-- A node with the access control cluster alone. -/
def aclView : NodeView :=
  ⟨⟨[(0, [Handler.accessControlHandler viewerAcl])], by decide, by decide⟩, some viewerAcl,
    fun _ _ => 1⟩

/-- A request for everything. -/
def everything : SubscribeRequestIn := ⟨false, 0, 60, [⟨none, none, none⟩], true, [], none⟩

/-- The subscription that the viewer gets. -/
def viewerSub : ActiveSubscription :=
  ⟨1, everything.paths, true, 0, 60000, 0, [], [], 0, false⟩

/-- The attribute that holds the table. -/
def aclPath : AttrPath := (0, clusterAccessControl, attrAcl)

theorem serve_everything :
    serveSubscribeRequest aclView (.new 0 64) everything 1 (.new 5 .none) 1 0 true =
      some (.installed viewerSub []) := by
  have hread : aclView.hasReadablePath everything.paths ⟨1, true, .new 5 .none⟩ = true := by decide
  have hevents : aclView.eventEntries (.new 0 64) [] 0 ⟨1, true, .new 5 .none⟩ = [] :=
    List.mergeSort_nil
  have hmax : fromSecs (min (max everything.maxIntervalCeilingS minMaxIntervalS)
      maxMaxIntervalS) = 60000 := show fromSecs (min (max 60 3) 60) = 60000 by decide
  have hmin : min (fromSecs everything.minIntervalFloorS) 60000 = 0 :=
    show min (fromSecs 0) 60000 = 0 by decide
  unfold serveSubscribeRequest
  dsimp only
  rw [show everything.fabricFiltered = true from rfl, hread, Bool.not_true, Bool.false_and,
    if_neg Bool.false_ne_true, show everything.eventPaths = [] from rfl,
    show everything.eventMin.getD 0 = 0 from rfl, hevents, hmax, hmin]
  rfl

/-- A change of the table is noted and cleared, but the session may not read the table. -/
theorem refused_change_cleared :
    serveSubscribeRequest aclView (.new 0 64) everything 1 (.new 5 .none) 1 0 true =
        some (.installed viewerSub []) ∧
      viewerSub.covers aclPath = true ∧ (viewerSub.noteChanged [aclPath]).dirty = [aclPath] ∧
      ∃ r, (viewerSub.noteChanged [aclPath]).nextReport aclView (.new 0 64) 1 (.new 5 .none) =
          some r ∧ r.entries = [] ∧ r.events = [] ∧
        ((viewerSub.noteChanged [aclPath]).acknowledge (.new 0 64) r 0).dirty = [] := by
  refine ⟨serve_everything, by decide, by decide, ?_⟩
  have hentries :
      (viewerSub.noteChanged [aclPath]).reportEntries aclView 1 (.new 5 .none) = [] := by
    decide
  have hevents : aclView.eventEntries (.new 0 64) (viewerSub.noteChanged [aclPath]).eventPaths
      (viewerSub.noteChanged [aclPath]).nextEvent
      ((viewerSub.noteChanged [aclPath]).readCtx 1 (.new 5 .none)) = [] :=
    List.mergeSort_nil
  have hsome : ((viewerSub.noteChanged [aclPath]).nextReport aclView (.new 0 64) 1
      (.new 5 .none)).isSome := by
    refine ActiveSubscription.isSome_nextReport ?_ fun e he => ?_
    · rw [hentries]
      decide
    · rw [hevents] at he
      exact absurd he List.not_mem_nil
  obtain ⟨r, hr⟩ := Option.isSome_iff_exists.1 hsome
  obtain ⟨hr', hall, -⟩ := ActiveSubscription.nextReport_eq_some hr
  refine ⟨r, hr, hr'.trans hentries, ?_, rfl⟩
  rw [SubscriptionReport.events, hall, hevents, List.take_nil]

/-- The viewer is told of a change of what it may read. -/
theorem subscription_timing_viewer :
    let path := (0, clusterAccessControl, attrAclSubjectsPerEntry)
    let s := run step (start viewerSub) [.changed 5 [path]]
    s.sub.Timely (announcedMaxInterval everything) ∧
      ((path ∈ s.sub.dirty ∧ s.now ≤ 5 + announcedMaxInterval everything ∧
          s.sub.nextReportDeadline ≤ 5 + announcedMaxInterval everything) ∨
        ∃ sentAt, ((path, 5), sentAt) ∈ s.reported ∧ 5 ≤ sentAt ∧
          sentAt ≤ 5 + announcedMaxInterval everything) := by
  intro path s
  have htiming := subscription_timing serve_everything [.changed 5 [path]]
  have hp : Along step Punctual (start viewerSub) [.changed 5 [path]] :=
    ⟨⟨by decide, by decide, le_rfl⟩, trivial⟩
  exact ⟨htiming.1, htiming.2.2 hp [] _ [] rfl path (List.mem_singleton_self path) (by decide)⟩

end TimedSubscription

end MatStack
