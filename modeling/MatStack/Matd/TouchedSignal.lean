import MatStack.Lib.Trace
import MatStack.Matd.SubHealth

/-!
# Touched signals

Another session to a node may supersede the one its subscription lives on, and the node's
subscription loop is told so by `noteTouched`. The loop takes the signal in two places: its pump
looks at the flag between reports, and its backoff sleep is woken by the `Notify`. A run of
`loopStep` interleaves any number of touches with the loop, one shared access a step. No touch is
lost: as long as the pump finds the flag clear, no touch has come since the session began to be
established. None is replayed: a session that ends for a touch, and a sleep that is woken by one,
ends for a touch that came after all earlier signals were answered (`touched_answered_once`).
-/

namespace MatStack

open Machine

/-! ## The pump -/

/-- A time span in milliseconds. -/
abbrev Duration := Nat

def Duration.asSecs (d : Duration) : Nat := d / 1000

def backoffInitial : Duration := 5000
def backoffMax : Duration := 60000
def opGrace : Duration := 10000

/-- Why the pump ends. -/
inductive PumpEnd where
  | touched
  | opGrace (sinceOp : Duration)
  | bornDeadSilence
  | silence
deriving Repr, DecidableEq

/-- Whether the pump is to end: a touch first, then an operation that had no report, then silence.
-/
def pumpVerdict (touched proven : Bool) (sinceLastMsg deadline : Duration)
    (pendingOp : Option Duration) : Option PumpEnd :=
  if touched then some .touched
  else
    match pendingOp.filter (opGrace ≤ ·) with
    | some sinceOp => some (.opGrace sinceOp)
    | none =>
      if deadline ≤ sinceLastMsg then some (if proven then .silence else .bornDeadSilence) else none

theorem pumpVerdict_eq_touched {touched proven : Bool} {sinceLastMsg deadline : Duration}
    {pendingOp : Option Duration} :
    pumpVerdict touched proven sinceLastMsg deadline pendingOp = some .touched ↔ touched = true := by
  cases touched with
  | true => exact iff_of_true rfl rfl
  | false =>
    refine iff_of_false ?_ Bool.false_ne_true
    rw [pumpVerdict, if_neg Bool.false_ne_true]
    cases pendingOp.filter (opGrace ≤ ·) with
    | some sinceOp => exact fun h => by cases h
    | none =>
      dsimp only
      split
      · cases proven <;> exact fun h => by cases h
      · exact fun h => by cases h

/-- The reason the pump gives, with the silence so far. -/
def PumpEnd.reason (silent : Duration) : PumpEnd → String
  | .touched => "touched:" ++ " direct-path session superseded"
  | .opGrace sinceOp =>
    "op-correlated: no device message " ++ (toString sinceOp.asSecs ++ "s after op")
  | .bornDeadSilence =>
    "born-dead: no device message since establishment (" ++ (toString silent.asSecs ++ "s silent)")
  | .silence => "silence past deadline (" ++ (toString silent.asSecs ++ "s)")

def isTouchedReason (reason : String) : Bool := "touched:".toList.isPrefixOf reason.toList

theorem isTouchedReason_append {t : String} (text : String) {c : Char} {cs : List Char}
    (ht : t.toList = c :: cs) (hc : c ≠ 't') : isTouchedReason (t ++ text) = false := by
  have htouched : "touched:".toList = 't' :: "ouched:".toList := rfl
  rw [isTouchedReason, String.toList_append, ht, htouched, List.cons_append,
    List.isPrefixOf_cons_cons, beq_false_of_ne hc.symm, Bool.false_and]

/-- Only the reason of a touch is taken for one. -/
theorem isTouchedReason_reason (silent : Duration) (pumpEnd : PumpEnd) :
    isTouchedReason (pumpEnd.reason silent) = decide (pumpEnd = .touched) := by
  cases pumpEnd with
  | touched =>
    show isTouchedReason ("touched:" ++ " direct-path session superseded") = true
    rw [isTouchedReason, String.toList_append, List.isPrefixOf_iff_prefix]
    exact List.prefix_append ..
  | opGrace sinceOp =>
    exact isTouchedReason_append (toString sinceOp.asSecs ++ "s after op") rfl (by decide)
  | bornDeadSilence =>
    exact isTouchedReason_append (toString silent.asSecs ++ "s silent)") rfl (by decide)
  | silence => exact isTouchedReason_append (toString silent.asSecs ++ "s)") rfl (by decide)

theorem isTouchedReason_sessionError (detail : String) :
    isTouchedReason ("pump ended: " ++ detail) = false :=
  isTouchedReason_append detail rfl (by decide)

def nextBackoff (cur : Duration) : Duration :=
  if cur = 0 then backoffInitial else min (cur * 2) backoffMax

/-! ## The loop -/

/-- Where the loop stands. In the pump it is about to look at the flag (`checking`), has found it
set (`superseded`) or waits for a report (`receiving`). -/
inductive Phase where
  | staggering
  | starting
  | establishing
  | checking
  | superseded
  | receiving
  | closing (reason : String)
  | lost
  | sleeping (notify : Nat)
  | woken
deriving Repr, DecidableEq

/-- The loop is establishing a session or pumping one. -/
def Phase.InSession : Phase → Prop
  | .establishing | .checking | .superseded | .receiving => True
  | _ => False

/-- The loop is in the pump. -/
def Phase.InPump : Phase → Prop
  | .checking | .receiving => True
  | _ => False

structure LoopState where
  health : SubHealth
  phase : Phase
  backoff : Duration

/-- What can happen next: a touch of some node, or the loop's next step with what it depends on. -/
inductive LoopEvent where
  | noteTouched (nodeId : UInt64)
  | proceed
  | established
  | failed
  | verdict (proven : Bool) (sinceLastMsg deadline : Duration) (pendingOp : Option Duration)
  | received
  | sessionError (detail : String)
  | polled
  | slept
deriving Repr, DecidableEq

/-- What a watcher of the loop sees: a touch of its node, a session that begins to be established,
the pump that ends for a touch, the sleep that is woken by one, and the flag that is taken down. -/
inductive Seen where
  | noted
  | begun
  | superseded
  | woken
  | cleared
deriving Repr, DecidableEq

/-- A touch is taken: it ends a session or a sleep. -/
def Seen.Takes (o : Seen) : Prop := o = .superseded ∨ o = .woken

/-- Whatever was noted before is answered. -/
def Seen.Answers (o : Seen) : Prop := o = .cleared ∨ o.Takes

namespace LoopState

/-- The loop when it is spawned. -/
def spawned : LoopState := ⟨.new, .staggering, 0⟩

/-- The loop's own next step, where it waits for nothing. -/
def proceed (nodeId : UInt64) (s : LoopState) : LoopState × List Seen :=
  match s.phase with
  | .staggering => ({ s with phase := .starting }, [])
  | .starting => ({ s with phase := .establishing }, [.begun])
  | .superseded =>
    ({ s with health := s.health.clearTouched nodeId, phase := .closing (PumpEnd.touched.reason 0) },
      [.cleared])
  | .closing reason =>
    ({ s with phase := if isTouchedReason reason then .starting else .lost, backoff := 0 }, [])
  | .lost =>
    let (notify, health) := s.health.touchNotify nodeId
    (⟨health, .sleeping notify, nextBackoff s.backoff⟩, [])
  | .woken => (⟨s.health.clearTouched nodeId, .starting, 0⟩, [.cleared])
  | _ => (s, [])

/-- The sleep is polled: its `Notify` may be due. -/
def polled (s : LoopState) : LoopState × List Seen :=
  match s.phase with
  | .sleeping place =>
    match s.health.notifies[place]?.map Notify.poll with
    | some (true, n) => ({ s with health := s.health.setNotify place n, phase := .woken }, [.woken])
    | some (false, n) => ({ s with health := s.health.setNotify place n }, [])
    | none => (s, [])
  | _ => (s, [])

/-- The sleep is over, and the wait for the `Notify` is given up. -/
def slept (s : LoopState) : LoopState :=
  match s.phase with
  | .sleeping place =>
    match s.health.notifies[place]? with
    | some n => { s with health := s.health.setNotify place n.drop, phase := .starting }
    | none => s
  | _ => s

/-- The pump looks whether it is to end. -/
def verdict (nodeId : UInt64) (s : LoopState) (proven : Bool) (sinceLastMsg deadline : Duration)
    (pendingOp : Option Duration) : LoopState × List Seen :=
  match s.phase with
  | .checking =>
    match pumpVerdict (s.health.isTouched nodeId) proven sinceLastMsg deadline pendingOp with
    | none => ({ s with phase := .receiving }, [])
    | some .touched => ({ s with phase := .superseded }, [.superseded])
    | some pumpEnd => ({ s with phase := .closing (pumpEnd.reason sinceLastMsg) }, [])
  | _ => (s, [])

/-- One step, with what is seen of it. -/
def happens (nodeId : UInt64) (s : LoopState) : LoopEvent → LoopState × List Seen
  | .noteTouched other =>
    ({ s with health := s.health.noteTouched other }, if other = nodeId then [.noted] else [])
  | .proceed => s.proceed nodeId
  | .established => (if s.phase = .establishing then { s with phase := .checking } else s, [])
  | .failed => (if s.phase = .establishing then { s with phase := .lost } else s, [])
  | .verdict proven sinceLastMsg deadline pendingOp =>
    s.verdict nodeId proven sinceLastMsg deadline pendingOp
  | .received => (if s.phase = .receiving then { s with phase := .checking } else s, [])
  | .sessionError detail =>
    (if s.phase = .receiving then { s with phase := .closing ("pump ended: " ++ detail) } else s, [])
  | .polled => s.polled
  | .slept => (s.slept, [])

end LoopState

def loopStep (nodeId : UInt64) (s : LoopState) (e : LoopEvent) : LoopState := (s.happens nodeId e).1

def loopSeen (nodeId : UInt64) (s : LoopState) (e : LoopEvent) : List Seen := (s.happens nodeId e).2

/-! ## The signal and what was seen -/

/-- The signal of a node after what was seen: its flag is up exactly if a touch has come since the
flag was last taken down, and its `Notify` is due exactly then, unless a wait has just used it up.
-/
structure Signal (nodeId : UInt64) (health : SubHealth) (used : Bool) (seen : List Seen) : Prop where
  sound : health.Sound
  flag : health.isTouched nodeId = true ↔ Since (· = .noted) (· = .cleared) seen
  notify : ∀ {s n}, health.Holds nodeId s n → n.Sound
  raised : ∀ {s n}, health.Holds nodeId s n → n.Due → s.flag = true
  due : ∀ {s n}, health.Holds nodeId s n → used = false → s.flag = true → n.Due

section
variable {nodeId other : UInt64} {health : SubHealth} {used : Bool} {seen : List Seen} {o : Seen}
  {s : TouchedState} {n : Notify}

theorem Signal.spawned : Signal nodeId .new false [] where
  sound := SubHealth.sound_new
  flag := iff_of_false Bool.false_ne_true not_since_nil
  notify := fun hh => by cases hh.entry
  raised := fun hh => by cases hh.entry
  due := fun hh => by cases hh.entry

/-- What is neither a touch nor an answer leaves the signal. -/
theorem Signal.shown (h : Signal nodeId health used seen) (hnoted : o ≠ .noted)
    (hcleared : o ≠ .cleared) : Signal nodeId health used (seen ++ [o]) := by
  refine { h with flag := h.flag.trans ?_ }
  rw [since_concat]
  exact ⟨fun hs => .inr ⟨hcleared, hs⟩, fun hs => hs.elim (absurd · hnoted) And.right⟩

/-- The table has, after a change, one entry for the node, which settles its signal. -/
theorem Signal.of_holds (hsound : health.Sound) (hh : health.Holds nodeId s n) (hn : n.Sound)
    (hflag : s.flag = true ↔ Since (· = .noted) (· = .cleared) seen)
    (hraised : n.Due → s.flag = true) (hdue : used = false → s.flag = true → n.Due) :
    Signal nodeId health used seen := by
  have honly : ∀ {s' n'}, health.Holds nodeId s' n' → s' = s ∧ n' = n := by
    intro s' n' hh'
    obtain rfl : s' = s := Option.some.inj (hh'.entry.symm.trans hh.entry)
    exact ⟨rfl, Option.some.inj (hh'.notify.symm.trans hh.notify)⟩
  refine ⟨hsound, ?_, fun hh' => ?_, fun hh' => ?_, fun hh' => ?_⟩
  · rw [SubHealth.isTouched_of_entry hh.entry, hflag]
  · exact (honly hh').2 ▸ hn
  · obtain ⟨rfl, rfl⟩ := honly hh'
    exact hraised
  · obtain ⟨rfl, rfl⟩ := honly hh'
    exact hdue

/-- A touch raises the flag and makes the `Notify` due. -/
theorem Signal.noted (h : Signal nodeId health used seen) :
    Signal nodeId (health.noteTouched nodeId) used (seen ++ [.noted]) := by
  have hnoted : Since (· = .noted) (· = .cleared) (seen ++ [Seen.noted]) := since_concat.2 (.inl rfl)
  cases hentry : health.touched nodeId with
  | some s =>
    obtain ⟨n, hh⟩ := h.sound.holds hentry
    exact .of_holds (h.sound.noteTouched _) hh.noteTouched (h.notify hh).notifyOne
      (iff_of_true rfl hnoted) (fun _ => rfl) fun _ _ => Notify.due_notifyOne
  | none =>
    exact .of_holds (h.sound.noteTouched _) (SubHealth.holds_noteTouched_of_none hentry)
      Notify.sound_new.notifyOne (iff_of_true rfl hnoted) (fun _ => rfl) fun _ _ =>
        Notify.due_notifyOne

/-- A touch of another node is nothing to this one. -/
theorem Signal.noted_other (h : Signal nodeId health used seen) (hne : nodeId ≠ other) :
    Signal nodeId (health.noteTouched other) used seen := by
  obtain ⟨hentry, hnotify⟩ := SubHealth.noteTouched_other h.sound hne
  have hsame : ∀ {s n}, (health.noteTouched other).Holds nodeId s n → health.Holds nodeId s n := by
    intro s n hh
    have hs := hentry ▸ hh.entry
    exact ⟨hs, hnotify s hs ▸ hh.notify⟩
  refine ⟨h.sound.noteTouched _, ?_, fun hh => h.notify (hsame hh), fun hh => h.raised (hsame hh),
    fun hh => h.due (hsame hh)⟩
  rw [SubHealth.isTouched, hentry]
  exact h.flag

/-- The flag is taken down: whatever came before is answered. -/
theorem Signal.cleared (h : Signal nodeId health used seen) :
    Signal nodeId (health.clearTouched nodeId) false (seen ++ [.cleared]) := by
  have hnone : ¬Since (· = .noted) (· = .cleared) (seen ++ [Seen.cleared]) := by
    rw [since_concat]
    rintro (hc | ⟨hc, -⟩)
    · cases hc
    · exact hc rfl
  exact .of_holds (h.sound.clearTouched _) SubHealth.holds_clearTouched Notify.sound_new
    (iff_of_false Bool.false_ne_true hnone) (fun hd => absurd hd Notify.not_due_new)
    fun _ hf => by cases hf

/-- The loop asks for its `Notify`. -/
theorem Signal.touchNotify (h : Signal nodeId health used seen) :
    Signal nodeId (health.touchNotify nodeId).2 used seen ∧
      ∃ s, (health.touchNotify nodeId).2.touched nodeId = some s ∧
        s.notify = (health.touchNotify nodeId).1 := by
  cases hentry : health.touched nodeId with
  | some s =>
    rw [SubHealth.touchNotify_of_entry hentry]
    exact ⟨h, s, hentry, rfl⟩
  | none =>
    obtain ⟨hplace, hh⟩ := SubHealth.touchNotify_of_none hentry
    refine ⟨?_, _, hh.entry, hplace.symm⟩
    have hnone := h.flag.not.1 (by rw [SubHealth.isTouched_of_none hentry]; exact Bool.false_ne_true)
    exact .of_holds (h.sound.touchNotify _) hh Notify.sound_new
      (iff_of_false Bool.false_ne_true hnone) (fun hd => absurd hd Notify.not_due_new)
      fun _ hf => by cases hf

/-- A `Notify` in a state of its own leaves the signal if it is due as before. -/
theorem Signal.setNotify (h : Signal nodeId health used seen) (hh : health.Holds nodeId s n)
    {n' : Notify} {used' : Bool} (hn' : n'.Sound) (hraised : n'.Due → n.Due)
    (hdue : used' = false → used = false ∧ (n.Due → n'.Due)) :
    Signal nodeId (health.setNotify s.notify n') used' seen :=
  .of_holds (h.sound.setNotify _ _) (hh.setNotify n') hn'
    ((SubHealth.isTouched_of_entry hh.entry) ▸ h.flag) (fun hd => h.raised hh (hraised hd))
    fun hu hf => (hdue hu).2 (h.due hh (hdue hu).1 hf)

end

/-! ## Along a run -/

/-- The loop after what was seen of it. A session has no answer behind it since it began; a touch
that was taken is answered before the next is; and each touch that was taken had come since all
answers. -/
structure LoopInvariant (nodeId : UInt64) (s : LoopState) (seen : List Seen) : Prop where
  signal : Signal nodeId s.health (decide (s.phase = .woken)) seen
  asleep : ∀ {place}, s.phase = .sleeping place →
    ∃ t, s.health.touched nodeId = some t ∧ t.notify = place
  session : s.phase.InSession → ¬Since (· = .cleared) (· = .begun) seen
  taken : s.phase ≠ .superseded → s.phase ≠ .woken → ¬Since Seen.Takes (· = .cleared) seen
  answered : EachAfter (fun before o => o.Takes → Since (· = .noted) Seen.Answers before) seen

section
variable {nodeId : UInt64} {s : LoopState} {seen : List Seen} {o : Seen}

/-- The loop moves between phases that have nothing to do with the signal. -/
theorem LoopInvariant.move (h : LoopInvariant nodeId s seen) (phase : Phase)
    (hs : s.phase ≠ .superseded) (hs' : s.phase ≠ .woken) (hwoken : phase ≠ .woken)
    (hasleep : ∀ place, phase ≠ .sleeping place)
    (hsession : phase.InSession → s.phase.InSession) (backoff : Duration) :
    LoopInvariant nodeId { s with phase, backoff } seen where
  signal := by
    have hused : decide (phase = .woken) = decide (s.phase = .woken) := by simp [hs', hwoken]
    exact hused ▸ h.signal
  asleep := fun hp => absurd hp (hasleep _)
  session := fun hp => h.session (hsession hp)
  taken := fun _ _ => h.taken hs hs'
  answered := h.answered

/-- A touch that is taken had come since all answers. -/
theorem LoopInvariant.take (h : LoopInvariant nodeId s seen) (hs : s.phase ≠ .superseded)
    (hs' : s.phase ≠ .woken) (hflag : s.health.isTouched nodeId = true) :
    Since (· = .noted) Seen.Answers seen :=
  (h.signal.flag.1 hflag).of_not (h.taken hs hs')

theorem eachAfter_answered (h : EachAfter (fun before o => o.Takes →
      Since (· = .noted) Seen.Answers before) seen) (ho : ¬o.Takes) :
    EachAfter (fun before o => o.Takes → Since (· = .noted) Seen.Answers before) (seen ++ [o]) :=
  eachAfter_concat.2 ⟨h, fun ht => absurd ht ho⟩

theorem not_since_cleared (h : ¬Since (· = .cleared) (· = .begun) seen) (ho : o ≠ .cleared) :
    ¬Since (· = .cleared) (· = .begun) (seen ++ [o]) := by
  rw [since_concat]
  rintro (hc | ⟨-, hs⟩)
  · exact ho hc
  · exact h hs

theorem not_since_takes (h : ¬Since Seen.Takes (· = .cleared) seen) (ho : ¬o.Takes) :
    ¬Since Seen.Takes (· = .cleared) (seen ++ [o]) := by
  rw [since_concat]
  rintro (ht | ⟨-, hs⟩)
  · exact ho ht
  · exact h hs

/-- The flag is taken down and the loop goes on outside a session. -/
theorem LoopInvariant.clear (h : LoopInvariant nodeId s seen) (phase : Phase)
    (hwoken : phase ≠ .woken) (hasleep : ∀ place, phase ≠ .sleeping place)
    (hsession : ¬phase.InSession) (backoff : Duration) :
    LoopInvariant nodeId ⟨s.health.clearTouched nodeId, phase, backoff⟩ (seen ++ [.cleared]) where
  signal := by
    have hused : decide (phase = .woken) = false := decide_eq_false hwoken
    exact hused ▸ h.signal.cleared
  asleep := fun hp => absurd hp (hasleep _)
  session := fun hp => absurd hp hsession
  taken := by
    intro _ _
    rw [since_concat]
    rintro ((ht | ht) | ⟨hc, -⟩)
    · cases ht
    · cases ht
    · exact hc rfl
  answered := eachAfter_answered h.answered (by rintro (ht | ht) <;> cases ht)

theorem LoopInvariant.noteTouched (h : LoopInvariant nodeId s seen) (other : UInt64) :
    LoopInvariant nodeId { s with health := s.health.noteTouched other }
      (seen ++ if other = nodeId then [.noted] else []) := by
  rcases eq_or_ne other nodeId with rfl | hne
  · rw [if_pos rfl]
    refine ⟨h.signal.noted, fun hp => ?_, fun hp => not_since_cleared (h.session hp) (by decide),
      fun hp hp' => not_since_takes (h.taken hp hp') ?_, eachAfter_answered h.answered ?_⟩
    · obtain ⟨t, ht, rfl⟩ := h.asleep hp
      obtain ⟨n, hh⟩ := h.signal.sound.holds ht
      exact ⟨_, hh.noteTouched.entry, rfl⟩
    all_goals rintro (ht | ht) <;> cases ht
  · rw [if_neg hne, List.append_nil]
    refine ⟨h.signal.noted_other hne.symm, fun hp => ?_, h.session, h.taken, h.answered⟩
    obtain ⟨t, ht, hplace⟩ := h.asleep hp
    exact ⟨t, (SubHealth.noteTouched_other h.signal.sound hne.symm).1.trans ht, hplace⟩

theorem LoopInvariant.proceed (h : LoopInvariant nodeId s seen) :
    LoopInvariant nodeId (s.proceed nodeId).1 (seen ++ (s.proceed nodeId).2) := by
  obtain ⟨health, phase, backoff⟩ := s
  cases phase with
  | staggering =>
    rw [LoopState.proceed, List.append_nil]
    exact h.move .starting nofun nofun nofun nofun (fun hp => hp.elim) backoff
  | starting =>
    show LoopInvariant nodeId ⟨health, .establishing, backoff⟩ (seen ++ [.begun])
    refine ⟨h.signal.shown (by decide) (by decide), nofun, fun _ => ?_, fun _ _ => ?_,
      eachAfter_answered h.answered ?_⟩
    · rw [since_concat]
      rintro (hc | ⟨hc, -⟩)
      · cases hc
      · exact hc rfl
    · exact not_since_takes (h.taken nofun nofun) (by rintro (ht | ht) <;> cases ht)
    · rintro (ht | ht) <;> cases ht
  | superseded =>
    exact h.clear (.closing (PumpEnd.touched.reason 0)) nofun nofun (fun hp => hp.elim) backoff
  | closing reason =>
    rw [LoopState.proceed, List.append_nil]
    show LoopInvariant nodeId ⟨health, if isTouchedReason reason then .starting else .lost, 0⟩ seen
    split
    · exact h.move .starting nofun nofun nofun nofun (fun hp => hp.elim) 0
    · exact h.move .lost nofun nofun nofun nofun (fun hp => hp.elim) 0
  | lost =>
    rw [LoopState.proceed, List.append_nil]
    obtain ⟨hsignal, hplace⟩ := h.signal.touchNotify
    refine ⟨hsignal, fun hp => ?_, fun hp => hp.elim, fun _ _ => h.taken nofun nofun, h.answered⟩
    cases hp
    exact hplace
  | woken =>
    exact h.clear .starting nofun nofun (fun hp => hp.elim) 0
  | establishing | checking | receiving | sleeping =>
    rw [LoopState.proceed, List.append_nil]
    exact h

theorem LoopInvariant.verdict (h : LoopInvariant nodeId s seen) (proven : Bool)
    (sinceLastMsg deadline : Duration) (pendingOp : Option Duration) :
    LoopInvariant nodeId (s.verdict nodeId proven sinceLastMsg deadline pendingOp).1
      (seen ++ (s.verdict nodeId proven sinceLastMsg deadline pendingOp).2) := by
  obtain ⟨health, phase, backoff⟩ := s
  cases phase with
  | checking =>
    unfold LoopState.verdict
    dsimp only
    cases hverdict : pumpVerdict (health.isTouched nodeId) proven sinceLastMsg deadline pendingOp with
    | none =>
      rw [List.append_nil]
      exact h.move .receiving nofun nofun nofun nofun (fun _ => trivial) backoff
    | some pumpEnd =>
      cases pumpEnd with
      | touched =>
        have hflag := pumpVerdict_eq_touched.1 hverdict
        refine ⟨h.signal.shown (by decide) (by decide), nofun,
          fun _ => not_since_cleared (h.session trivial) (by decide), fun hp => absurd rfl hp,
          eachAfter_concat.2 ⟨h.answered, fun _ => h.take nofun nofun hflag⟩⟩
      | opGrace | bornDeadSilence | silence =>
        rw [List.append_nil]
        exact h.move (.closing _) nofun nofun nofun nofun (fun hp => hp.elim) backoff
  | staggering | starting | establishing | superseded | receiving | closing | lost | sleeping | woken =>
    rw [LoopState.verdict, List.append_nil]
    exact h

theorem LoopInvariant.polled (h : LoopInvariant nodeId s seen) :
    LoopInvariant nodeId s.polled.1 (seen ++ s.polled.2) := by
  obtain ⟨health, phase, backoff⟩ := s
  cases phase with
  | sleeping place =>
    obtain ⟨t, ht, rfl⟩ := h.asleep rfl
    obtain ⟨n, hh⟩ := h.signal.sound.holds ht
    have hsound := h.signal.notify hh
    have hdue := Notify.poll_iff hsound
    unfold LoopState.polled
    dsimp only
    rw [hh.notify, Option.map_some]
    cases hpoll : n.poll with
    | mk ready n' =>
      obtain rfl : n.poll.2 = n' := by rw [hpoll]
      cases ready with
      | true =>
        rw [hpoll] at hdue
        have hflag := SubHealth.isTouched_of_entry hh.entry ▸ h.signal.raised hh (hdue.1 rfl)
        have hsignal : Signal nodeId (health.setNotify t.notify n.poll.2) true seen :=
          h.signal.setNotify hh hsound.poll (fun _ => hdue.1 rfl) (fun hu => by cases hu)
        exact ⟨hsignal.shown (by decide) (by decide), nofun, fun hp => hp.elim,
          fun _ hp => absurd rfl hp, eachAfter_concat.2 ⟨h.answered, fun _ => h.take nofun nofun hflag⟩⟩
      | false =>
        rw [hpoll] at hdue
        have hnot : ¬n.Due := fun hd => by cases hdue.2 hd
        rw [List.append_nil]
        refine ⟨h.signal.setNotify hh hsound.poll (fun hd => absurd hd (Notify.not_due_poll hnot))
          fun hu => ⟨hu, fun hd => absurd hd hnot⟩, fun hp => ?_, fun hp => hp.elim,
          fun _ _ => h.taken nofun nofun, h.answered⟩
        cases hp
        exact ⟨t, ht, rfl⟩
  | staggering | starting | establishing | checking | superseded | receiving | closing | lost | woken =>
    rw [LoopState.polled, List.append_nil]
    exact h

theorem LoopInvariant.slept (h : LoopInvariant nodeId s seen) :
    LoopInvariant nodeId s.slept seen := by
  obtain ⟨health, phase, backoff⟩ := s
  cases phase with
  | sleeping place =>
    obtain ⟨t, ht, rfl⟩ := h.asleep rfl
    obtain ⟨n, hh⟩ := h.signal.sound.holds ht
    unfold LoopState.slept
    dsimp only
    rw [hh.notify]
    have hsignal : Signal nodeId (health.setNotify t.notify n.drop) false seen :=
      h.signal.setNotify hh (h.signal.notify hh).drop Notify.due_drop.1
        fun _ => ⟨rfl, Notify.due_drop.2⟩
    exact ⟨hsignal, nofun, fun hp => hp.elim, fun _ _ => h.taken nofun nofun, h.answered⟩
  | staggering | starting | establishing | checking | superseded | receiving | closing | lost | woken =>
    exact h

/-- A step that moves the loop from one phase, when it is there, to another. -/
theorem LoopInvariant.moveFrom (h : LoopInvariant nodeId s seen) {phase : Phase} (phase' : Phase)
    (hs : phase ≠ .superseded) (hs' : phase ≠ .woken) (hwoken : phase' ≠ .woken)
    (hasleep : ∀ place, phase' ≠ .sleeping place) (hsession : phase'.InSession → phase.InSession) :
    LoopInvariant nodeId (if s.phase = phase then { s with phase := phase' } else s)
      (seen ++ []) := by
  rw [List.append_nil]
  split
  · next hp =>
    subst hp
    exact h.move phase' hs hs' hwoken hasleep hsession s.backoff
  · exact h

/-- **Steps.** -/
theorem loopInvariant_step (h : LoopInvariant nodeId s seen) (e : LoopEvent) :
    LoopInvariant nodeId (loopStep nodeId s e) (seen ++ loopSeen nodeId s e) := by
  cases e with
  | noteTouched other => exact h.noteTouched other
  | proceed => exact h.proceed
  | verdict proven sinceLastMsg deadline pendingOp =>
    exact h.verdict proven sinceLastMsg deadline pendingOp
  | polled => exact h.polled
  | slept => exact (List.append_nil seen).symm ▸ h.slept
  | established => exact h.moveFrom .checking nofun nofun nofun nofun fun _ => trivial
  | failed => exact h.moveFrom .lost nofun nofun nofun nofun fun hp => hp.elim
  | received => exact h.moveFrom .checking nofun nofun nofun nofun fun _ => trivial
  | sessionError detail => exact h.moveFrom (.closing _) nofun nofun nofun nofun fun hp => hp.elim

theorem loopInvariant_run (nodeId : UInt64) (es : List LoopEvent) :
    LoopInvariant nodeId (run (loopStep nodeId) .spawned es)
      (trace (loopStep nodeId) (loopSeen nodeId) .spawned es) := by
  have h₀ : LoopInvariant nodeId .spawned [] :=
    ⟨.spawned, nofun, fun hp => hp.elim, fun _ _ => not_since_nil, eachAfter_nil⟩
  exact trace_invariant h₀ (fun s seen e h => loopInvariant_step h e) es

end

/-! ## Neither lost nor replayed -/

section
variable {nodeId : UInt64} {s : LoopState} {seen : List Seen}

/-- In the pump with the flag clear, no touch has come since the session began. -/
theorem LoopInvariant.not_noted (h : LoopInvariant nodeId s seen) (hp : s.phase.InPump)
    (hflag : s.health.isTouched nodeId = false) : ¬Since (· = .noted) (· = .begun) seen := by
  have hsession : s.phase.InSession := by
    obtain ⟨health, phase, backoff⟩ := s
    cases phase <;> trivial
  intro hnoted
  have hboth := hnoted.of_not (h.session hsession)
  have hsince := hboth.mono (r := (· = .cleared)) fun o ho => .inr ho
  rw [h.signal.flag.2 hsince] at hflag
  cases hflag

/-- Asleep with a touch that is not answered, the loop wakes as soon as it is polled. -/
theorem LoopInvariant.wakes (h : LoopInvariant nodeId s seen) {place : Nat}
    (hp : s.phase = .sleeping place) (hnoted : Since (· = .noted) Seen.Answers seen) :
    (loopStep nodeId s .polled).phase = .woken := by
  obtain ⟨health, phase, backoff⟩ := s
  cases hp
  obtain ⟨t, ht, rfl⟩ := h.asleep rfl
  obtain ⟨n, hh⟩ := h.signal.sound.holds ht
  have hflag := h.signal.flag.2 (hnoted.mono fun o ho => .inl ho)
  have hdue := h.signal.due hh rfl (SubHealth.isTouched_of_entry hh.entry ▸ hflag)
  have hover := (Notify.poll_iff (h.signal.notify hh)).2 hdue
  unfold loopStep LoopState.happens LoopState.polled
  dsimp only
  rw [hh.notify, Option.map_some]
  cases hpoll : n.poll with
  | mk ready n' =>
    rw [hpoll] at hover
    cases hover
    rfl

end

/-- **Touches.** In every interleaving of touches with the subscription loop of a node:

* when the loop is in the pump and the flag is clear, no touch of the node has come since the session
  began to be established;
* a session that ends for a touch, and a sleep that is woken by one, ends for a touch that came after
  every session that ended for a touch, every sleep that was woken by one, and every time the flag was
  taken down;
* a loop that sleeps with such a touch behind it is woken as soon as it is polled. -/
theorem touched_answered_once (nodeId : UInt64) (es : List LoopEvent) :
    let s := run (loopStep nodeId) .spawned es
    let seen := trace (loopStep nodeId) (loopSeen nodeId) .spawned es
    (s.phase.InPump → s.health.isTouched nodeId = false →
        ¬Since (· = .noted) (· = .begun) seen) ∧
      EachAfter (fun before o => o.Takes → Since (· = .noted) Seen.Answers before) seen ∧
      ∀ place, s.phase = .sleeping place → Since (· = .noted) Seen.Answers seen →
        (loopStep nodeId s .polled).phase = .woken := by
  have h := loopInvariant_run nodeId es
  exact ⟨h.not_noted, h.answered, fun place => h.wakes⟩

end MatStack
