import MatStack.Matd.WarmSession

/-!
# Announcements and deadlines

Two promises of `with_session`. A session it establishes is announced by `on_new_session` before
the request is over (`AnnounceRule`), since the device may from then on send its reports there. And
a request with a deadline is not kept past it, be it in line for the slot or in the establishment or
the operation (`Timely`). Neither is kept by itself: the announcement comes only when the call
returns, so one that is given up after its establishment makes none; and the deadline bounds the
establishment and the operation but not the time in line. Both are kept in runs where no client goes
once its call has established a session, and a call queues only behind calls whose deadlines come no
later (`Orderly`, `sessions_announced_in_time`).
-/

namespace MatStack

open Machine

/-- The call waits for the slot, or is in an establishment or an operation. -/
def CallPhase.Bounded : CallPhase → Prop
  | .waiting | .establishing _ | .sending _ => True
  | _ => False

/-- The call has a timer running. -/
def CallPhase.Timed : CallPhase → Prop
  | .establishing _ | .sending _ => True
  | _ => False

/-- The client of the call has gone, or the call is over. -/
def CallPhase.Over : CallPhase → Prop
  | .aborted _ | .cleaning | .done => True
  | _ => False

/-- The deadline of `c`, if it has one, is no earlier than that of `d`. -/
def Call.NoLater (d c : Call) : Prop :=
  ∀ t, c.deadline = some t → ∃ u, d.deadline = some u ∧ u ≤ t

namespace NativeBackend

/-! ## The rules -/

def IsEstablished (r : Nat) (o : Happening) : Prop := ∃ sid, o = .established r sid

/-- A session is announced once, after it was established, and before its request is over. -/
def AnnounceRule (h : List Happening) : Happening → Prop
  | .announced r => (∃ sid, .established r sid ∈ h) ∧ .announced r ∉ h
  | .ended r | .cancelled r =>
    (∃ sid, .established r sid ∈ h) → Since (· = .announced r) (IsEstablished r) h
  | _ => True

/-- No call is past its deadline in line for the slot, in an establishment or in an operation. -/
def Timely (b : NativeBackend) : Prop :=
  ∀ r c t, b.calls r = some c → c.phase.Bounded → c.deadline = some t → b.now ≤ t

/-! ## When they are kept -/

/-- A timer fires when it is due: the clock does not pass it. -/
def TimersFire (b : NativeBackend) : SlotEvent → Prop
  | .elapsed d => ∀ r c t, b.calls r = some c → c.phase.Timed → c.deadline = some t → b.now + d ≤ t
  | _ => True

/-- A client goes only before its call has established a session; a call queues only behind calls
whose deadlines come no later; and the clock does not move while a session is being closed, which
is one datagram, or while the holder of the mutex has yet to be polled. -/
def Orderly (b : NativeBackend) : SlotEvent → Prop
  | .wake r .clientGone => ∀ c, b.calls r = some c → ¬c.phase.Over → c.establishedNew = false
  | .wake r .poll => ∀ c, b.calls r = some c → c.phase = .created →
      ∀ q ∈ b.mutex.line, ∀ d, b.calls q = some d → d.phase = .cleaning ∨ d.NoLater (c.arrive b.now)
  | .elapsed _ => ∀ r c, b.calls r = some c →
      ¬c.phase.Drops ∧ (c.phase = .waiting → b.mutex.holder ≠ some r)
  | _ => True

section
variable {b b' : NativeBackend} {q r : Nat} {c c' : Call} {w : Wake} {e : SlotEvent}
  {h seen : List Happening}

/-! ## Announcements -/

/-- The call is marked as having established a session when it has, and is yet to announce it. -/
def Unannounced (_ : NativeBackend) (h : List Happening) (r : Nat) : Option Call → Prop
  | none => .announced r ∉ h ∧ ¬∃ sid, .established r sid ∈ h
  | some c => c.phase.Over ∨
      .announced r ∉ h ∧ (c.establishedNew = true ↔ ∃ sid, .established r sid ∈ h)

/-- What is seen of others is no session of this call and no announcement. -/
theorem unannounced_append (hseen : ∀ o ∈ seen, o ≠ .announced r ∧ ∀ sid, o ≠ .established r sid) :
    (.announced r ∈ h ++ seen ↔ .announced r ∈ h) ∧
      ((∃ sid, .established r sid ∈ h ++ seen) ↔ ∃ sid, .established r sid ∈ h) := by
  constructor
  · rw [List.mem_append, or_iff_left fun ho => (hseen _ ho).1 rfl]
  · refine exists_congr fun sid => ?_
    rw [List.mem_append, or_iff_left fun ho => (hseen _ ho).2 sid rfl]

theorem Frame.unannounced {oc : Option Call} (hf : Frame b r c' b' seen) (hq : q ≠ r)
    (hk : Unannounced b h q oc) : Unannounced b' (h ++ seen) q oc := by
  have hother : ∀ o ∈ seen, o ≠ .announced q ∧ ∀ sid, o ≠ .established q sid := by
    intro o ho
    refine ⟨?_, fun sid => ?_⟩ <;> rintro rfl <;> exact hq (hf.seen _ ho)
  obtain ⟨ha, he⟩ := unannounced_append (h := h) hother
  cases oc with
  | none => exact ⟨mt ha.1 hk.1, mt he.1 hk.2⟩
  | some d => exact hk.imp_right fun hk => ⟨mt ha.1 hk.1, hk.2.trans he.symm⟩

/-- A live call that only shows other things stays unannounced. -/
theorem Unannounced.keep (hk : Unannounced b h r (some c)) (hp : ¬c.phase.Over)
    (hnew : c'.establishedNew = c.establishedNew)
    (hseen : ∀ o ∈ seen, o ≠ .announced r ∧ ∀ sid, o ≠ .established r sid) :
    Unannounced b' (h ++ seen) r (some c') := by
  obtain ⟨ha, he⟩ := unannounced_append (h := h) hseen
  obtain ⟨hna, hflag⟩ := hk.resolve_left hp
  exact .inr ⟨mt ha.1 hna, hnew ▸ hflag.trans he.symm⟩

theorem over_afterGone {left : Option Nat} : (c.afterGone left).Over := by
  obtain ⟨hph, -⟩ | hph := c.afterGone_cases left <;> rw [hph] <;> trivial

theorem arrive_establishedNew {now : Instant} :
    (c.arrive now).establishedNew = c.establishedNew := by
  unfold Call.arrive
  split <;> rfl

theorem not_over_of_asks (hp : c.phase.Asks) : ¬c.phase.Over := by
  cases hph : c.phase <;> rw [hph] at hp <;> first | exact id | exact hp.elim

theorem Turn.unannounced (hc : b.calls r = some c) (ht : Turn b r c w b' seen)
    (hk : Unannounced b h r (some c)) : Unannounced b' (h ++ seen) r (b'.calls r) := by
  cases ht with
  | idle =>
    rw [List.append_nil, hc]
    exact hk
  | waits hp hm =>
    exact calls_set_self ▸ hk.keep (not_over_of_asks hp) arrive_establishedNew (by simp)
  | establishes hp hm hs =>
    exact calls_set_self ▸ hk.keep (not_over_of_asks hp) arrive_establishedNew (by simp)
  | sends hp hm hs =>
    exact calls_set_self ▸ hk.keep (not_over_of_asks hp) arrive_establishedNew (by simp)
  | established hp =>
    have hna := (hk.resolve_left (by rw [hp]; exact id)).1
    exact calls_set_self ▸ .inr ⟨by simp [hna], iff_of_true rfl ⟨b.established, by simp⟩⟩
  | fails hp hs hkind =>
    exact calls_set_self ▸ hk.keep (by rw [hp]; exact id) rfl (by simp)
  | retries hp hs hl =>
    exact calls_set_self ▸ hk.keep (by rw [hp]; exact id) rfl (by simp)
  | fruitless | answered | rejected | drops | cleaned | passes | cleans =>
    exact calls_set_self ▸ .inl trivial
  | leaves | abandons | leavesOpen => exact calls_set_self ▸ .inl over_afterGone

theorem unannounced_step (hd : b.Disciplined) (hk : Each Unannounced b h) :
    Each Unannounced (b.step e) (h ++ b.seen e) :=
  hk.step hd (fun hf hq _ hk => hf.unannounced hq hk) (fun _ hc _ ht hk => ht.unannounced hc hk)
    (fun hk => .inr ⟨hk.1, iff_of_false Bool.false_ne_true hk.2⟩) id

/-- A call that returns announces what it has established. -/
theorem Unannounced.farewell {l : List Happening} (hk : Unannounced b h r (some c))
    (hp : ¬c.phase.Over) (hos : ∀ o ∈ l, (o ≠ .announced r ∧ ∀ sid, o ≠ .established r sid) ∧
      ∀ t, AnnounceRule t o) (hr : EachAfter AnnounceRule h) :
    EachAfter AnnounceRule (h ++ (l ++ c.farewell r)) := by
  obtain ⟨hna, hflag⟩ := hk.resolve_left hp
  obtain ⟨ha, he⟩ := unannounced_append (h := h) fun o ho => (hos o ho).1
  have hos' : EachAfter AnnounceRule (h ++ l) := hr.append fun o ho => (hos o ho).2
  rw [← List.append_assoc]
  unfold Call.farewell
  split
  · next hnew =>
    rw [List.singleton_append, List.append_cons]
    refine eachAfter_concat.2 ⟨eachAfter_concat.2 ⟨hos', he.2 (hflag.1 hnew), mt ha.1 hna⟩, ?_⟩
    exact fun _ => since_concat.2 (.inl rfl)
  · next hnew =>
    exact eachAfter_concat.2 ⟨hos', fun hest => absurd (hflag.2 (he.1 hest)) hnew⟩

/-- A call that is given up has established nothing. -/
theorem Unannounced.cancelled (hk : Unannounced b h r (some c)) (hp : ¬c.phase.Over)
    (hnew : c.establishedNew = false) {l : List Happening}
    (hos : ∀ o ∈ l, (o ≠ .announced r ∧ ∀ sid, o ≠ .established r sid) ∧ ∀ t, AnnounceRule t o)
    (hr : EachAfter AnnounceRule h) : EachAfter AnnounceRule (h ++ (l ++ [.cancelled r])) := by
  obtain ⟨hna, hflag⟩ := hk.resolve_left hp
  obtain ⟨ha, he⟩ := unannounced_append (h := h) fun o ho => (hos o ho).1
  rw [← List.append_assoc]
  refine eachAfter_concat.2 ⟨hr.append fun o ho => (hos o ho).2, fun hest => ?_⟩
  exact absurd (hnew.symm.trans (hflag.2 (he.1 hest))) Bool.false_ne_true

theorem Turn.announces (hc : b.calls r = some c) (ht : Turn b r c w b' seen)
    (hk : Each Unannounced b h) (hg : Orderly b (.wake r w)) (hr : EachAfter AnnounceRule h) :
    EachAfter AnnounceRule (h ++ seen) := by
  have hk : Unannounced b h r (some c) := hc ▸ hk r
  cases ht with
  | fruitless hp | answered hp =>
    exact hk.farewell (l := []) (by rw [hp]; exact id) (by simp) hr
  | @rejected _ again sid kind hp hs hkind =>
    exact hk.farewell (l := [.failed r sid kind]) (by rw [hp]; exact id)
      (by simp [AnnounceRule]) hr
  | @drops again sid kind hp hs =>
    exact hk.farewell (l := [.dropped r sid]) (by rw [hp]; exact id) (by simp [AnnounceRule]) hr
  | leaves hp =>
    have hno : ¬c.phase.Over := by
      obtain hp | ⟨again, hp⟩ := hp
      · exact not_over_of_asks hp
      · rw [hp]
        exact id
    exact hk.cancelled (l := []) hno (hg c hc hno) (by simp) hr
  | @abandons again sid hp hs =>
    have hno : ¬c.phase.Over := by rw [hp]; exact id
    exact hk.cancelled (l := [.abandoned r sid]) hno (hg c hc hno) (by simp [AnnounceRule]) hr
  | leavesOpen hp hs =>
    have hno : ¬c.phase.Over := by rw [hp]; exact id
    exact hk.cancelled (l := []) hno (hg c hc hno) (by simp) hr
  | _ => exact hr.append (by simp [AnnounceRule])

/-! ## Deadlines -/

/-- `q` is ahead of `r` by right: it only cleans up, or is due no later. -/
def Before (b : NativeBackend) (q r : Nat) : Prop :=
  ∀ c d, b.calls q = some c → b.calls r = some d → c.phase = .cleaning ∨ c.NoLater d

/-- The line for the slot goes by deadlines. -/
def Ordered (b : NativeBackend) : Prop := b.mutex.line.Pairwise b.Before

theorem arrive_of_waiting {now : Instant} (hp : c.phase = .waiting) : c.arrive now = c := by
  rw [Call.arrive, hp]

/-- A call that gets to the mutex has its deadline still to come. -/
theorem arrive_timely {now t : Instant} (hp : c.phase.Asks)
    (hw : c.phase = .waiting → ∀ t, c.deadline = some t → now ≤ t)
    (ht : (c.arrive now).deadline = some t) : now ≤ t := by
  cases hph : c.phase with
  | created =>
    rw [Call.arrive, hph] at ht
    obtain ⟨id, -, hd⟩ := Option.bind_eq_some_iff.1 ht
    unfold opDeadline at hd
    split at hd
    · split at hd
      · cases hd
      · exact Option.some_inj.1 hd ▸ Nat.le_add_right ..
    · exact Option.some_inj.1 hd ▸ Nat.le_add_right ..
  | waiting =>
    rw [arrive_of_waiting hph] at ht
    exact hw hph t ht
  | _ => rw [hph] at hp; exact hp.elim

/-- What a turn does to the deadline of its call, if that call is to be held to one. -/
theorem Turn.timely (hc : b.calls r = some c) (ht : Turn b r c w b' seen) (hb : b.Timely) :
    ∀ c' t, b'.calls r = some c' → c'.phase.Bounded → c'.deadline = some t → b.now ≤ t := by
  have hwait : c.phase = .waiting → ∀ t, c.deadline = some t → b.now ≤ t :=
    fun hp t => hb r c t hc (by rw [hp]; trivial)
  intro c' t hc' hbound hdl
  cases ht with
  | idle => exact hb r c' t hc' hbound hdl
  | waits hp | establishes hp | sends hp =>
    rw [calls_set_self, Option.some_inj] at hc'
    subst hc'
    exact arrive_timely hp hwait hdl
  | established hp =>
    rw [calls_set_self, Option.some_inj] at hc'
    subst hc'
    exact hb r c t hc (by rw [hp]; trivial) hdl
  | retries hp hs hl =>
    rw [calls_set_self, Option.some_inj] at hc'
    subst hc'
    have hleft := hl (t - b.now) (by rw [remaining, hdl]; rfl)
    exact Nat.le_of_lt (Nat.lt_of_sub_pos (Nat.lt_of_lt_of_le (by decide) hleft))
  | fruitless | answered | rejected | fails | drops | cleaned | passes | cleans =>
    have hcall := Option.some_inj.1 (calls_set_self.symm.trans hc')
    subst hcall
    exact hbound.elim
  | leaves | abandons | leavesOpen =>
    have hcall := Option.some_inj.1 (calls_set_self.symm.trans hc')
    subst hcall
    exfalso
    obtain ⟨hph, -⟩ | hph := c.afterGone_cases _ <;> rw [hph] at hbound <;> exact hbound

/-- A line that loses calls, or has one whose deadline stays, goes by deadlines as before. -/
theorem Ordered.of_sublist {l : List Nat} (ho : b.Ordered) (hl : l.Sublist b.mutex.line)
    (hf : b'.calls = Function.update b.calls r (some c')) (hc : b.calls r = some c)
    (hkeep : r ∈ l → c'.deadline = c.deadline ∧ c.phase ≠ .cleaning) : l.Pairwise b'.Before := by
  refine (ho.sublist hl).imp_of_mem fun {q s} hq hs hbefore d d' hd hd' => ?_
  have hcall : ∀ {p x}, p ∈ l → b'.calls p = some x → ∃ y, b.calls p = some y ∧
      x.deadline = y.deadline ∧ (y.phase = .cleaning → x = y) := by
    intro p x hp hx
    rw [hf] at hx
    by_cases hpr : p = r
    · subst hpr
      rw [Function.update_self, Option.some_inj] at hx
      exact ⟨c, hc, hx ▸ (hkeep hp).1, fun hcl => absurd hcl (hkeep hp).2⟩
    · rw [Function.update_of_ne hpr] at hx
      exact ⟨x, hx, rfl, fun _ => rfl⟩
  obtain ⟨y, hy, hydl, hycl⟩ := hcall hq hd
  obtain ⟨y', hy', hydl', -⟩ := hcall hs hd'
  refine (hbefore y y' hy hy').imp (fun hcl => hycl hcl ▸ hcl) fun hno t ht => ?_
  rw [hydl]
  exact hno t (hydl' ▸ ht)

/-- A call that gets to the mutex takes its place by its deadline. -/
theorem Ordered.lock (ho : b.Ordered) (hc : b.calls r = some c) (hpl : b.Placed r c)
    (hp : c.phase.Asks) (hg : Orderly b (.wake r .poll))
    (hf : b'.calls = Function.update b.calls r (some c'))
    (hdl : c'.deadline = (c.arrive b.now).deadline) : (b.mutex.lock r).line.Pairwise b'.Before := by
  cases hph : c.phase with
  | created =>
    have hout : r ∉ b.mutex.line := fun hr => by
      have := hpl.line.1 hr
      rw [hph] at this
      exact this.elim (fun h => by cases h) id
    rw [FifoMutex.line_lock hout, List.pairwise_append]
    refine ⟨ho.of_sublist (List.Sublist.refl _) hf hc fun hr => absurd hr hout,
      List.pairwise_singleton .., ?_⟩
    intro q hq s hs d d' hd hd'
    obtain rfl := List.mem_singleton.1 hs
    have hne : q ≠ s := fun hqs => hout (hqs ▸ hq)
    rw [hf, Function.update_of_ne hne] at hd
    rw [hf, Function.update_self, Option.some_inj] at hd'
    refine (hg c hc hph q hq d hd).imp_right fun hno t ht => hno t ?_
    rw [← hdl, hd', ht]
  | waiting =>
    rw [FifoMutex.lock_of_mem (hpl.line.2 (by rw [hph]; exact .inl rfl))]
    refine ho.of_sublist (List.Sublist.refl _) hf hc fun _ => ⟨?_, ?_⟩
    · rw [hdl, arrive_of_waiting hph]
    · rw [hph]
      exact fun h => by cases h
  | _ => rw [hph] at hp; exact hp.elim

theorem Turn.ordered (hpl : b.Placed r c) (hc : b.calls r = some c) (ht : Turn b r c w b' seen)
    (ho : b.Ordered) (hg : Orderly b (.wake r w)) : b'.Ordered := by
  cases ht with
  | idle => exact ho
  | waits hp | establishes hp | sends hp => exact ho.lock hc hpl hp hg rfl rfl
  | established hp | fails hp | retries hp =>
    refine ho.of_sublist (List.Sublist.refl _) rfl hc fun _ => ⟨rfl, ?_⟩
    rw [hp]
    exact fun h => by cases h
  | fruitless | answered | rejected | drops | cleaned | leaves | abandons | leavesOpen =>
    exact ho.of_sublist List.erase_sublist rfl hc fun hr => absurd hr FifoMutex.not_mem_leave
  | passes hp =>
    refine ho.of_sublist (List.Sublist.refl _) rfl hc fun hr => ?_
    have := hpl.line.1 hr
    rw [hp] at this
    exact this.elim (fun h => by cases h) False.elim
  | cleans hp hline =>
    have hnil : r ∉ b.mutex.line := by
      rw [hline]
      exact List.not_mem_nil
    change (b.mutex.lock r).line.Pairwise _
    rw [FifoMutex.line_lock hnil, hline]
    exact List.pairwise_singleton ..

/-- In a line that goes by deadlines, the timer of the call that holds the mutex keeps the clock
from the deadlines of all that wait. -/
theorem Ordered.elapsed {d : Duration} (ho : b.Ordered) (hd : b.Disciplined)
    (ht : TimersFire b (.elapsed d)) (hg : Orderly b (.elapsed d)) :
    ({ b with now := b.now + d } : NativeBackend).Timely := by
  intro r c t hc hbound hdl
  have hpl := hd.placed r c hc
  cases hph : c.phase with
  | waiting =>
    have hmem : r ∈ b.mutex.line := hpl.line.2 (.inl hph)
    cases hline : b.mutex.line with
    | nil =>
      rw [hline] at hmem
      cases hmem
    | cons q rest =>
      have hold : b.mutex.holder = some q := by rw [FifoMutex.holder, hline, List.head?_cons]
      obtain ⟨y, hy⟩ : ∃ y, b.calls q = some y := by
        refine Option.ne_none_iff_exists'.1 fun hnone => hd.absent q hnone ?_
        rw [hline]
        exact List.mem_cons_self
      have hyt : y.phase.Timed := by
        have hin := (hd.placed q y hy).line.1 (by rw [hline]; exact List.mem_cons_self)
        obtain ⟨hnd, hnw⟩ := hg q y hy
        obtain hw | hh := hin
        · exact absurd hold (hnw hw)
        · cases hyp : y.phase <;> rw [hyp] at hh hnd <;> trivial
      have hbefore : q = r ∨ b.Before q r := by
        rw [hline] at hmem
        refine (List.mem_cons.1 hmem).imp Eq.symm fun hr => ?_
        exact List.rel_of_pairwise_cons (hline ▸ ho) hr
      obtain rfl | hbefore := hbefore
      · exact absurd hold ((hg q c hc).2 hph)
      · obtain hcl | hno := hbefore y c hy hc
        · rw [hcl] at hyt
          exact hyt.elim
        · obtain ⟨u, hu, hut⟩ := hno t hdl
          exact Nat.le_trans (ht q y u hy hyt hu) hut
  | establishing | sending => exact ht r c t hc (by rw [hph]; trivial) hdl
  | _ => rw [hph] at hbound; exact hbound.elim

theorem orderly_step (hd : b.Disciplined) (ho : b.Ordered) (hb : b.Timely)
    (ht : TimersFire b e) (hg : Orderly b e) : (b.step e).Ordered ∧ (b.step e).Timely := by
  have hs := hd.steps e
  generalize b.step e = b', b.seen e = seen at hs
  cases hs with
  | ignored => exact ⟨ho, hb⟩
  | @requested r op ms hr =>
    have hother : ∀ {q c}, (b.set r (incoming op ms)).calls q = some c →
        c.phase.InLine → b.calls q = some c := by
      intro q c hc hp
      by_cases hq : q = r
      · subst hq
        obtain rfl := Option.some_inj.1 (calls_set_self.symm.trans hc)
        exact hp.elim (fun h => by cases h) False.elim
      · exact (Function.update_of_ne hq ..).symm.trans hc
    constructor
    · refine List.Pairwise.imp_of_mem (fun {q s} hq hs hbefore d d' hd' hd'' => ?_) ho
      have hne : ∀ {p}, p ∈ b.mutex.line → p ≠ r := fun hp hpr => hd.absent r hr (hpr ▸ hp)
      exact hbefore d d' ((Function.update_of_ne (hne hq) ..).symm.trans hd')
        ((Function.update_of_ne (hne hs) ..).symm.trans hd'')
    · intro q c t hc hbound hdl
      refine hb q c t (hother hc ?_) hbound hdl
      cases hph : c.phase <;> rw [hph] at hbound <;>
        first | exact .inl rfl | exact .inr trivial | exact hbound.elim
  | @turned r c w _ _ hc hturn =>
    have hpl := hd.placed r c hc
    obtain ⟨c', hf⟩ := hturn.frame hpl hc
    refine ⟨hturn.ordered hpl hc ho hg, fun q d t hd' hbound hdl => ?_⟩
    rw [hf.now]
    by_cases hq : q = r
    · subst hq
      exact hturn.timely hc hb d t hd' hbound hdl
    · rw [hf.calls, Function.update_of_ne hq] at hd'
      exact hb q d t hd' hbound hdl
  | elapsed d => exact ⟨ho, ho.elapsed hd ht hg⟩

theorem announces_step (hd : b.Disciplined) (hk : Each Unannounced b h) (hg : Orderly b e)
    (hr : EachAfter AnnounceRule h) : EachAfter AnnounceRule (h ++ b.seen e) := by
  have hs := hd.steps e
  generalize b.step e = b', b.seen e = seen at hs
  cases hs with
  | turned hc ht => exact ht.announces hc hk hg hr
  | _ => rwa [List.append_nil]

end

section
variable {id : UInt64} {now : Instant}

/-- **Announcements and deadlines.** In an orderly run with timers that fire when due, every session
is announced before its request is over, and no call is past its deadline in line for the slot, in
an establishment or in an operation. -/
theorem sessions_announced_in_time {es : List SlotEvent}
    (ht : Along step TimersFire (fromEngine id now) es)
    (hg : Along step Orderly (fromEngine id now) es) :
    EachAfter AnnounceRule (trace step seen (fromEngine id now) es) ∧
      (run step (fromEngine id now) es).Timely := by
  suffices hall : (run step (fromEngine id now) es).Disciplined ∧
      Each Unannounced (run step (fromEngine id now) es) (trace step seen (fromEngine id now) es) ∧
      EachAfter AnnounceRule (trace step seen (fromEngine id now) es) ∧
      (run step (fromEngine id now) es).Ordered ∧ (run step (fromEngine id now) es).Timely from
    ⟨hall.2.2.1, hall.2.2.2.2⟩
  exact trace_run_invariant (G := fun b e => TimersFire b e ∧ Orderly b e)
    (I := fun b h => b.Disciplined ∧ Each Unannounced b h ∧ EachAfter AnnounceRule h ∧
      b.Ordered ∧ b.Timely)
    (s := fromEngine id now)
    ⟨disciplined_fromEngine, fun _ => ⟨List.not_mem_nil, fun ⟨_, h⟩ => List.not_mem_nil h⟩,
      eachAfter_nil, List.Pairwise.nil, fun _ _ _ h => by cases h⟩
    (fun b h e ⟨hd, hk, hr, ho, hb⟩ ⟨ht, hg⟩ => ⟨hd.step e, unannounced_step hd hk,
      announces_step hd hk hg hr, orderly_step hd ho hb ht hg⟩) (ht.and hg)

end

/-! ## Samples -/

/-- A first request establishes the session and is answered; a second is in line behind it. -/
def inTurn : List SlotEvent :=
  [.request 0 (.read 5) (some 1000), .wake 0 .poll, .request 1 (.write 5) (some 2000),
    .wake 1 .poll, .elapsed 500, .wake 0 .established, .wake 0 (.replied (.ok ())), .wake 1 .poll]

theorem sessions_announced_in_time_inTurn :
    EachAfter AnnounceRule (trace step seen (fromEngine 5 0) inTurn) ∧
      (run step (fromEngine 5 0) inTurn).Timely := by
  refine sessions_announced_in_time
    ⟨trivial, trivial, trivial, trivial, ?_, trivial, trivial, trivial, trivial⟩
    ⟨trivial, ?_, trivial, ?_, ?_, trivial, trivial, ?_, trivial⟩
  · rintro (_ | _ | r) c t hc - hdl
    · obtain rfl := Option.some_inj.1 hc
      obtain rfl := Option.some_inj.1 hdl
      decide
    · obtain rfl := Option.some_inj.1 hc
      obtain rfl := Option.some_inj.1 hdl
      decide
    · cases hc
  · rintro c hc - q hq
    cases hq
  · rintro c hc - q hq d hd
    obtain rfl := List.mem_singleton.1 hq
    obtain rfl := Option.some_inj.1 hc
    obtain rfl := Option.some_inj.1 hd
    refine .inr fun t ht => ⟨1000, rfl, ?_⟩
    obtain rfl := Option.some_inj.1 ht
    decide
  · rintro (_ | _ | r) c hc
    · obtain rfl := Option.some_inj.1 hc
      exact ⟨id, fun h => by cases h⟩
    · obtain rfl := Option.some_inj.1 hc
      exact ⟨id, fun _ => by decide⟩
    · cases hc
  · intro c hc hph
    obtain rfl := Option.some_inj.1 hc
    cases hph

/-- The client goes when the session has been established. -/
def hungUp : List SlotEvent :=
  [.request 0 (.read 5) none, .wake 0 .poll, .wake 0 .established, .wake 0 .clientGone]

/-- A request that is to be answered in a second is in line behind a group provisioning. -/
def keptWaiting : List SlotEvent :=
  [.request 0 (.groupProvision [5]) none, .wake 0 .poll, .wake 0 .established,
    .request 1 (.read 5) (some 1000), .wake 1 .poll, .elapsed 2000]

/-- With all timers firing when due, a session is left unannounced when the client goes, and a call
waits for the slot past its deadline. -/
theorem unannounced_and_late :
    Along step TimersFire (fromEngine 5 0) hungUp ∧
      ¬EachAfter AnnounceRule (trace step seen (fromEngine 5 0) hungUp) ∧
      Along step TimersFire (fromEngine 5 0) keptWaiting ∧
      ¬(run step (fromEngine 5 0) keptWaiting).Timely := by
  refine ⟨⟨trivial, trivial, trivial, trivial, trivial⟩, fun hall => ?_,
    ⟨trivial, trivial, trivial, trivial, trivial, ?_, trivial⟩, fun hb => ?_⟩
  · have hrule := hall [.established 0 0, .started 0 0, .abandoned 0 0] (.cancelled 0) [] rfl
    obtain ⟨pre, o, post, heq, rfl, -⟩ := hrule ⟨0, List.mem_cons_self⟩
    have hmem : .announced 0 ∈ pre ++ .announced 0 :: post := by simp
    rw [← heq] at hmem
    exact absurd hmem (by decide)
  · rintro (_ | _ | r) c t hc hph hdl
    · obtain rfl := Option.some_inj.1 hc
      cases hdl
    · obtain rfl := Option.some_inj.1 hc
      exact hph.elim
    · cases hc
  · exact absurd (hb 1 ⟨.read 5, some 1000, some 1000, .waiting, false⟩ 1000 rfl trivial rfl)
      (by decide)

end NativeBackend

end MatStack
