import MatStack.Matd.WarmSession

/-!
# The reuse of warm sessions

A session on which an operation was given up midway, or failed without an answer of the device, is
`Broken`: the next operation on it could read the answer to the last one. `SessionRule` is what the
slot is for: no operation starts on a broken session, a request runs its operation again only after
a timeout, with time to spare and on a session of its own making, and a sound session is dropped
only for a request that has used it. At most one operation runs at a time in any run
(`Disciplined.holds_inj`), and no request runs its operation a third time. A session is not reused
after a client has gone as long as nobody was in line behind it, the operation was one on a single
node, and `abort_op` got to the mutex before the next request (`Tidy`, `session_rule`).
-/

namespace MatStack

open Machine

namespace NativeBackend

/-! ## The rule -/

/-- The session cannot be used after this: an operation on it was given up midway, or failed and
was not answered. -/
def Breaks (sid : Nat) : Happening → Prop
  | .abandoned _ s => s = sid
  | .failed _ s kind => s = sid ∧ kind.keepsSession = false
  | _ => False

def Broken (sid : Nat) (h : List Happening) : Prop := ∃ o ∈ h, Breaks sid o

/-- The session on which an operation of call `r` starts. -/
def startOf (r : Nat) : Happening → Option Nat
  | .started q sid => if q = r then some sid else none
  | _ => none

/-- The sessions on which the operation of call `r` was started, in order. -/
def starts (r : Nat) (h : List Happening) : List Nat := h.filterMap (startOf r)

/-- Call `r` has run its operation once, which timed out, and has gone for a second attempt with
time to spare. -/
def Retrying (r : Nat) (h : List Happening) : Prop :=
  ∃ sid left, starts r h = [sid] ∧ .failed r sid .timeout ∈ h ∧ .retried r left ∈ h ∧
    worthRetry left

/-- An operation starts as the first of its request, or as the second on a session that was just
established for it. -/
def TryRule (h : List Happening) : Happening → Prop
  | .started r sid =>
    starts r h = [] ∨ Retrying r h ∧ h.getLast? = some (.established r sid)
  | _ => True

/-- An operation starts on a sound session, and a session is dropped when it is broken or when the
request has used it. -/
def ReuseRule (h : List Happening) : Happening → Prop
  | .started _ sid => ¬Broken sid h
  | .dropped r sid => Broken sid h ∨ sid ∈ starts r h
  | _ => True

/-- What the slot is for. -/
def SessionRule (h : List Happening) (o : Happening) : Prop := TryRule h o ∧ ReuseRule h o

/-- At most one operation runs. -/
def OneAtATime (b : NativeBackend) : Prop :=
  ∀ q r c c' again again', b.calls q = some c → b.calls r = some c' →
    c.phase = .sending again → c'.phase = .sending again' → q = r

/-! ## When it is kept -/

/-- The session in the slot was let go of by a call that `abort_op` has yet to clean up after. -/
def LeftOpen (b : NativeBackend) : Prop :=
  ∃ sid r c, b.session = some sid ∧ b.calls r = some c ∧ c.phase = .aborted (some sid)

/-- The clean-up after a client that has gone is in time and does not hit others: a call that has
used the session is given up only when it is for a single node and nobody is in line behind it,
nobody gets to the free mutex before `abort_op` does, and an `abort_op` after a call that has not
used the session finds the mutex taken or no sound session in the slot. -/
def Tidy (b : NativeBackend) : SlotEvent → Prop
  | .wake _ .poll => b.mutex.line = [] → ¬b.LeftOpen
  | .wake r .clientGone => ∀ c, b.calls r = some c →
      (∃ again, c.phase = .sending again) ∨ (∃ again kind, c.phase = .closing again kind) →
      c.op.nodeId.isSome ∧ b.mutex.line = [r]
  | .wake r .dropSession => ∀ c left, b.calls r = some c → c.phase = .aborted left →
      b.mutex.line = [] → b.session = none ∨ b.LeftOpen
  | _ => True

section
variable {b b' : NativeBackend} {q r sid : Nat} {c c' : Call} {w : Wake} {e : SlotEvent}
  {h seen : List Happening}

theorem starts_append : starts r (h ++ seen) = starts r h ++ starts r seen :=
  List.filterMap_append

theorem starts_started : starts r [.started r sid] = [sid] := by
  have hself : startOf r (.started r sid) = some sid := if_pos rfl
  rw [starts, List.filterMap_cons_some hself, List.filterMap_nil]

theorem starts_established {n : Nat} : starts r (.established q n :: h) = starts r h := rfl

/-- What other calls do is no start of this one. -/
theorem starts_append_of_ne (hseen : ∀ o ∈ seen, o.call = q) (hr : r ≠ q) :
    starts r (h ++ seen) = starts r h := by
  rw [starts_append, List.append_right_eq_self, starts, List.filterMap_eq_nil_iff]
  intro o ho
  have hcall := hseen o ho
  cases o with
  | started p sid =>
    rw [startOf, if_neg]
    exact fun hp => hr (hp.symm.trans hcall)
  | _ => rfl

theorem Broken.append (hb : Broken sid h) : Broken sid (h ++ seen) := by
  obtain ⟨o, ho, hbr⟩ := hb
  exact ⟨o, List.mem_append_left seen ho, hbr⟩

theorem broken_append : Broken sid (h ++ seen) ↔ Broken sid h ∨ ∃ o ∈ seen, Breaks sid o := by
  constructor
  · rintro ⟨o, ho, hbr⟩
    exact (List.mem_append.1 ho).imp (fun ho => ⟨o, ho, hbr⟩) fun ho => ⟨o, ho, hbr⟩
  · rintro (hb | ⟨o, ho, hbr⟩)
    · exact hb.append
    · exact ⟨o, List.mem_append_right h ho, hbr⟩

theorem not_breaks_farewell : ∀ o ∈ c.farewell r, ¬Breaks sid o := by
  intro o ho
  unfold Call.farewell at ho
  split at ho <;> simp at ho
  · obtain rfl | rfl := ho <;> exact id
  · subst ho
    exact id

/-- A turn breaks no session but the one in the slot. -/
theorem Turn.breaks (ht : Turn b r c w b' seen) (ho : ∃ o ∈ seen, Breaks sid o) :
    b.session = some sid := by
  obtain ⟨o, ho, hbr⟩ := ho
  cases ht with
  | idle | waits | establishes | passes | cleans => cases ho
  | sends | leaves | leavesOpen | cleaned =>
    rw [List.mem_singleton.1 ho] at hbr
    exact hbr.elim
  | established | retries =>
    simp only [List.mem_cons, List.not_mem_nil, or_false] at ho
    obtain rfl | rfl := ho <;> exact hbr.elim
  | fruitless | answered => exact absurd hbr (not_breaks_farewell o ho)
  | rejected hp hs hk =>
    obtain rfl | ho := List.mem_cons.1 ho
    · exact absurd (hk.symm.trans hbr.2) (by decide)
    · exact absurd hbr (not_breaks_farewell o ho)
  | fails hp hs hk =>
    rw [List.mem_singleton.1 ho] at hbr
    exact hbr.1 ▸ hs
  | drops =>
    obtain rfl | ho := List.mem_cons.1 ho
    · exact hbr.elim
    · exact absurd hbr (not_breaks_farewell o ho)
  | abandons hp hs =>
    simp only [List.mem_cons, List.not_mem_nil, or_false] at ho
    obtain rfl | rfl := ho
    · exact hbr ▸ hs
    · exact hbr.elim

/-! ## Attempts -/

/-- How often the operation of a call has been started, by what the call is at. -/
def Counted (b : NativeBackend) (h : List Happening) (r : Nat) : Option Call → Prop
  | none => starts r h = []
  | some c =>
    match c.phase with
    | .created | .waiting | .establishing false => starts r h = []
    | .sending false => ∃ sid, starts r h = [sid] ∧ b.session = some sid
    | .closing false kind => ∃ sid, starts r h = [sid] ∧ .failed r sid kind ∈ h
    | .establishing true => Retrying r h
    | _ => True

theorem Retrying.append (hr : Retrying r h) (hs : starts r (h ++ seen) = starts r h) :
    Retrying r (h ++ seen) := by
  obtain ⟨sid, left, hsid, hf, hl, hw⟩ := hr
  exact ⟨sid, left, hs.trans hsid, List.mem_append_left seen hf, List.mem_append_left seen hl, hw⟩

/-- What others do leaves the count of a call. -/
theorem Frame.counted {oc : Option Call} (hf : Frame b r c' b' seen) (hq : q ≠ r)
    (hp : ∀ c, oc = some c → b.Placed q c) (hk : Counted b h q oc) :
    Counted b' (h ++ seen) q oc := by
  have hs : starts q (h ++ seen) = starts q h := starts_append_of_ne hf.seen hq
  cases oc with
  | none => exact hs.trans hk
  | some d =>
    have hd := hp d rfl
    unfold Counted at hk ⊢
    dsimp only at hk ⊢
    cases hph : d.phase with
    | created | waiting =>
      rw [hph] at hk
      exact hs.trans hk
    | establishing again =>
      rw [hph] at hk
      cases again with
      | false => exact hs.trans hk
      | true => exact hk.append hs
    | sending again =>
      rw [hph] at hk
      cases again with
      | false =>
        obtain ⟨sid, hsid, hsess⟩ := hk
        exact ⟨sid, hs.trans hsid,
          (hf.holder q hq (hd.holds (by rw [hph]; trivial))).2.trans hsess⟩
      | true => trivial
    | closing again kind =>
      rw [hph] at hk
      cases again with
      | false =>
        obtain ⟨sid, hsid, hfail⟩ := hk
        exact ⟨sid, hs.trans hsid, List.mem_append_left seen hfail⟩
      | true => trivial
    | aborted | cleaning | done => trivial

theorem Counted.of_asks (hp : c.phase.Asks) (hk : Counted b h r (some c)) : starts r h = [] := by
  unfold Counted at hk
  dsimp only at hk
  cases hph : c.phase <;> rw [hph] at hp hk <;> first | exact hk | exact hp.elim

theorem counted_afterGone {left : Option Nat} :
    Counted b h r (some { c with phase := c.afterGone left }) := by
  unfold Counted
  dsimp only
  obtain ⟨h, -⟩ | h := c.afterGone_cases left <;> rw [h] <;> trivial

/-- The call whose turn it is keeps its count. -/
theorem Turn.counted (hc : b.calls r = some c) (ht : Turn b r c w b' seen)
    (hk : Counted b h r (some c)) : Counted b' (h ++ seen) r (b'.calls r) := by
  cases ht with
  | idle =>
    rw [List.append_nil, hc]
    exact hk
  | waits hp hm =>
    rw [calls_set_self, List.append_nil]
    unfold Counted
    dsimp only
    rw [arrive_phase hp]
    exact hk.of_asks hp
  | establishes hp hm hs =>
    rw [calls_set_self, List.append_nil]
    exact hk.of_asks hp
  | @sends sid hp hm hs =>
    rw [calls_set_self]
    refine ⟨sid, ?_, hs⟩
    rw [starts_append, hk.of_asks hp, starts_started, List.nil_append]
  | @established again hp =>
    rw [calls_set_self]
    cases again with
    | false =>
      unfold Counted at hk
      dsimp only at hk
      rw [hp] at hk
      refine ⟨b.established, ?_, rfl⟩
      rw [starts_append, starts_established, starts_started, hk, List.nil_append]
    | true => trivial
  | fruitless hp | answered hp | rejected hp hs hk => exact calls_set_self ▸ trivial
  | @fails _ again sid kind hp hs _ =>
    rw [calls_set_self]
    cases again with
    | false =>
      unfold Counted at hk
      dsimp only at hk
      rw [hp] at hk
      obtain ⟨first, hfirst, hsess⟩ := hk
      obtain rfl := Option.some_inj.1 (hs.symm.trans hsess)
      refine ⟨sid, ?_, by simp⟩
      rw [starts_append, hfirst]
      simp [starts, startOf]
    | true => trivial
  | @retries sid hp hs hl =>
    rw [calls_set_self]
    unfold Counted at hk
    dsimp only at hk
    rw [hp] at hk
    obtain ⟨first, hfirst, hfail⟩ := hk
    refine ⟨first, remaining c.deadline b.now, ?_, List.mem_append_left _ hfail, by simp, hl⟩
    rw [starts_append, hfirst]
    simp [starts, startOf]
  | drops hp hs => exact calls_set_self ▸ trivial
  | cleaned hp hs | passes hp hm | cleans hp hm hs => exact calls_set_self ▸ trivial
  | leaves hp | abandons hp hs | leavesOpen hp hs =>
    rw [calls_set_self]
    exact counted_afterGone

/-- How often and on what a call has started, and how it goes on, are kept by every step. -/
theorem counted_step (hd : b.Disciplined) (hk : Each Counted b h) :
    Each Counted (b.step e) (h ++ b.seen e) :=
  hk.step hd (fun hf hq hp hk => hf.counted hq hp hk) (fun _ hc _ ht hk => ht.counted hc hk)
    id id

/-! ## Broken sessions -/

/-- A call that closes the session in the slot, or has let go of one, knows it as broken. -/
def Marked (b : NativeBackend) (h : List Happening) (_ : Nat) : Option Call → Prop
  | none => True
  | some c => (c.phase.Drops → ∀ sid, b.session = some sid → Broken sid h) ∧
      ∀ sid, c.phase = .aborted (some sid) → Broken sid h

/-- A broken session in the slot is being closed, or was let go of with nobody in line. -/
structure Sound (b : NativeBackend) (h : List Happening) : Prop where
  numbered : ∀ sid, Broken sid h → sid < b.established
  slot : ∀ sid, b.session = some sid → Broken sid h →
    (∃ r c, b.mutex.holder = some r ∧ b.calls r = some c ∧ c.phase.Drops) ∨
      b.mutex.line = [] ∧ b.LeftOpen

theorem Frame.marked {oc : Option Call} (hf : Frame b r c' b' seen) (hq : q ≠ r)
    (hp : ∀ c, oc = some c → b.Placed q c) (hk : Marked b h q oc) :
    Marked b' (h ++ seen) q oc := by
  cases oc with
  | none => trivial
  | some d =>
    refine ⟨fun hdr sid hsid => ?_, fun sid hsid => (hk.2 sid hsid).append⟩
    have hh : d.phase.Holds := by
      cases hph : d.phase <;> rw [hph] at hdr <;> trivial
    rw [(hf.holder q hq ((hp d rfl).holds hh)).2] at hsid
    exact (hk.1 hdr sid hsid).append

theorem marked_afterGone {left : Option Nat} (hl : ∀ sid, left = some sid → Broken sid h) :
    Marked b h r (some { c with phase := c.afterGone left }) := by
  obtain ⟨hph, -⟩ | hph := c.afterGone_cases left
  · constructor
    · rw [hph]
      exact False.elim
    · intro sid hsid
      rw [hph, CallPhase.aborted.injEq] at hsid
      exact hl sid hsid
  · constructor
    · rw [hph]
      exact False.elim
    · intro sid hsid
      rw [hph] at hsid
      cases hsid

/-- A session that was let go of is broken. -/
theorem LeftOpen.broken (ho : b.LeftOpen) (hm : Each Marked b h) (hs : b.session = some sid) :
    Broken sid h := by
  obtain ⟨t, q, d, ht, hd, hph⟩ := ho
  obtain rfl := Option.some_inj.1 (hs.symm.trans ht)
  have hq := hm q
  rw [hd] at hq
  exact hq.2 sid hph

theorem Turn.marked (hc : b.calls r = some c) (ht : Turn b r c w b' seen) (hm : Each Marked b h)
    (hg : Tidy b (.wake r w)) : Marked b' (h ++ seen) r (b'.calls r) := by
  have hk : Marked b h r (some c) := hc ▸ hm r
  cases ht with
  | idle =>
    rw [List.append_nil, hc]
    exact hk
  | waits hp hm' =>
    rw [calls_set_self]
    constructor
    · rw [arrive_phase hp]
      exact False.elim
    · intro sid hsid
      rw [arrive_phase hp] at hsid
      cases hsid
  | establishes | sends | established | fruitless | answered | rejected | retries | drops
  | cleaned | passes =>
    exact calls_set_self ▸ ⟨False.elim, fun sid hsid => by cases hsid⟩
  | @fails _ again sid kind hp hs hkind =>
    refine calls_set_self ▸ ⟨fun _ t ht => ?_, fun t ht => by cases ht⟩
    obtain rfl := Option.some_inj.1 (hs.symm.trans ht)
    exact broken_append.2 (.inr ⟨_, List.mem_singleton_self _, rfl, hkind⟩)
  | leaves hp =>
    exact calls_set_self ▸ marked_afterGone fun sid hsid => by cases hsid
  | @abandons again sid hp hs =>
    refine calls_set_self ▸ marked_afterGone fun t ht => ?_
    obtain rfl := Option.some_inj.1 ht
    exact broken_append.2 (.inr ⟨_, List.mem_cons_self, rfl⟩)
  | @leavesOpen again kind sid hp hs =>
    refine calls_set_self ▸ marked_afterGone fun t ht => ?_
    obtain rfl := Option.some_inj.1 ht
    exact (hk.1 (by rw [hp]; trivial) sid hs).append
  | @cleans left sid hp hline hs =>
    refine calls_set_self ▸ ⟨fun _ t ht => ?_, fun t ht => by cases ht⟩
    rw [List.append_nil]
    refine LeftOpen.broken ?_ hm ht
    exact (hg c left hc hp hline).resolve_left fun hn => by cases hs.symm.trans hn

theorem marked_step (hd : b.Disciplined) (hm : Each Marked b h) (hg : Tidy b e) :
    Each Marked (b.step e) (h ++ b.seen e) :=
  hm.step hd (fun hf hq hp hk => hf.marked hq hp hk)
    (fun he hc _ ht _ => ht.marked hc hm (he ▸ hg))
    (fun _ => ⟨False.elim, fun sid hsid => by cases hsid⟩) id

/-! ## The slot -/

/-- Whoever gets the guard finds a sound session. -/
theorem Sound.of_asks (hs : Sound b h) (hc : b.calls r = some c) (hp : c.phase.Asks)
    (hm : (b.mutex.lock r).holder = some r) (hg : Tidy b (.wake r .poll))
    (hsid : b.session = some sid) : ¬Broken sid h := by
  intro hb
  have hline := FifoMutex.holder_lock_self.1 hm
  obtain ⟨q, d, hq, hd, hdr⟩ | ⟨hnil, ho⟩ := hs.slot sid hsid hb
  · rw [← FifoMutex.holder_eq_none, hq] at hline
    obtain hline | hline := hline
    · cases hline
    · obtain rfl := Option.some_inj.1 hline
      obtain rfl := Option.some_inj.1 (hc.symm.trans hd)
      cases hph : c.phase <;> rw [hph] at hp hdr <;> first | exact hp | exact hdr
  · exact hg hnil ho

/-- An operation that runs has a sound session. -/
theorem Sound.of_sending {again : Bool} (hs : Sound b h) (hpl : b.Placed r c)
    (hc : b.calls r = some c) (hp : c.phase = .sending again) (hsid : b.session = some sid) :
    ¬Broken sid h := by
  intro hb
  have hold : b.mutex.holder = some r := hpl.holds (by rw [hp]; trivial)
  obtain ⟨q, d, hq, hd, hdr⟩ | ⟨hnil, -⟩ := hs.slot sid hsid hb
  · obtain rfl := Option.some_inj.1 (hold.symm.trans hq)
    obtain rfl := Option.some_inj.1 (hc.symm.trans hd)
    rw [hp] at hdr
    exact hdr
  · rw [← FifoMutex.holder_eq_none, hold] at hnil
    cases hnil

/-- Who closes the session goes on when another call has its turn. -/
theorem Frame.closing (hf : Frame b r c' b' seen) (hc : b.calls r = some c) (hp : ¬c.phase.Drops)
    (hcl : ∃ q d, b.mutex.holder = some q ∧ b.calls q = some d ∧ d.phase.Drops) :
    ∃ q d, b'.mutex.holder = some q ∧ b'.calls q = some d ∧ d.phase.Drops := by
  obtain ⟨q, d, hq, hd, hdr⟩ := hcl
  have hne : q ≠ r := by
    rintro rfl
    obtain rfl := Option.some_inj.1 (hc.symm.trans hd)
    exact hp hdr
  refine ⟨q, d, (hf.holder q hne hq).1, ?_, hdr⟩
  rw [hf.calls, Function.update_of_ne hne, hd]

/-- A turn that breaks nothing leaves the same sessions broken. -/
theorem broken_append_of_none (hn : ∀ o ∈ seen, ¬Breaks sid o) :
    Broken sid (h ++ seen) ↔ Broken sid h := by
  rw [broken_append, or_iff_left]
  rintro ⟨o, ho, hbr⟩
  exact hn o ho hbr

/-- A call for a single node that had the guard to itself leaves its session open. -/
theorem left_open (hsess : b.session = some sid) (hsingle : c.op.nodeId.isSome)
    (hline : b.mutex.line = [r])
    (hb' : b' = { b with mutex := b.mutex.leave r }.set r
      { c with phase := c.afterGone (some sid) }) :
    b'.mutex.line = [] ∧ b'.LeftOpen := by
  subst hb'
  constructor
  · refine List.eq_nil_iff_forall_not_mem.2 fun x hx => ?_
    obtain ⟨hne, hx⟩ := FifoMutex.mem_leave.1 hx
    rw [hline] at hx
    exact hne (List.mem_singleton.1 hx)
  · exact ⟨sid, r, _, hsess, calls_set_self, if_pos hsingle⟩

/-- The excuse for a broken session outlives a turn of another call. -/
theorem Turn.slot (hd : b.Disciplined) (hc : b.calls r = some c) (ht : Turn b r c w b' seen)
    (hs : Sound b h) (hg : Tidy b (.wake r w)) (hsid : b'.session = some sid)
    (hb : Broken sid (h ++ seen)) :
    (∃ q d, b'.mutex.holder = some q ∧ b'.calls q = some d ∧ d.phase.Drops) ∨
      b'.mutex.line = [] ∧ b'.LeftOpen := by
  have hpl := hd.placed r c hc
  obtain ⟨c', hf⟩ := ht.frame hpl hc
  cases ht with
  | idle => exact hs.slot sid hsid ((List.append_nil h) ▸ hb)
  | waits hp hm =>
    rw [List.append_nil] at hb
    have hnd : ¬c.phase.Drops := by
      cases hph : c.phase <;> rw [hph] at hp <;> first | exact id | exact hp.elim
    obtain hcl | ⟨hnil, -⟩ := hs.slot sid hsid hb
    · exact .inl (hf.closing hc hnd hcl)
    · exact absurd (FifoMutex.holder_lock_self.2 (.inl hnil)) hm
  | establishes hp hm hn => cases hn.symm.trans hsid
  | sends hp hm hsess =>
    refine absurd ((broken_append_of_none ?_).1 hb) (hs.of_asks hc hp hm hg hsid)
    rintro o ho hbr
    rw [List.mem_singleton.1 ho] at hbr
    exact hbr
  | established hp =>
    obtain rfl := Option.some_inj.1 hsid
    refine absurd (hs.numbered _ ((broken_append_of_none ?_).1 hb)) (Nat.lt_irrefl _)
    rintro o ho hbr
    simp only [List.mem_cons, List.not_mem_nil, or_false] at ho
    obtain rfl | rfl := ho <;> exact hbr
  | fruitless hp => cases (hpl.empty _ hp).symm.trans hsid
  | answered hp =>
    exact absurd ((broken_append_of_none not_breaks_farewell).1 hb) (hs.of_sending hpl hc hp hsid)
  | rejected hp hsess hk =>
    refine absurd ((broken_append_of_none ?_).1 hb) (hs.of_sending hpl hc hp hsid)
    refine List.forall_mem_cons.2 ⟨?_, not_breaks_farewell⟩
    rintro ⟨-, hk'⟩
    exact absurd (hk.symm.trans hk') (by decide)
  | fails hp hsess hk =>
    exact .inl ⟨r, _, hpl.holds (by rw [hp]; trivial), calls_set_self, trivial⟩
  | retries | drops | cleaned => cases hsid
  | leaves hp =>
    have hna : ∀ t, c.phase ≠ .aborted t := by
      intro t hph
      rw [hph] at hp
      obtain hp | ⟨again, hp⟩ := hp
      · exact hp
      · cases hp
    have hnd : ¬c.phase.Drops := by
      intro hdr
      obtain hp | ⟨again, hp⟩ := hp
      · cases hph : c.phase <;> rw [hph] at hp hdr <;> first | exact hp | exact hdr
      · rw [hp] at hdr
        exact hdr
    rw [broken_append_of_none fun o ho => by rw [List.mem_singleton.1 ho]; exact id] at hb
    obtain hcl | ⟨hnil, t, q, d, ht, hdq, hph⟩ := hs.slot sid hsid hb
    · exact .inl (hf.closing hc hnd hcl)
    · refine .inr ⟨?_, t, q, d, ht, ?_, hph⟩
      · exact List.eq_nil_iff_forall_not_mem.2 fun x hx => by
          have := (FifoMutex.mem_leave.1 hx).2
          rw [hnil] at this
          exact absurd this List.not_mem_nil
      · have hne : q ≠ r := by
          rintro rfl
          obtain rfl := Option.some_inj.1 (hc.symm.trans hdq)
          exact hna _ hph
        rw [hf.calls, Function.update_of_ne hne, hdq]
  | @abandons again t hp hsess =>
    obtain ⟨hsingle, hline⟩ := hg c hc (.inl ⟨again, hp⟩)
    exact .inr (left_open hsess hsingle hline rfl)
  | @leavesOpen again kind t hp hsess =>
    obtain ⟨hsingle, hline⟩ := hg c hc (.inr ⟨again, kind, hp⟩)
    exact .inr (left_open hsess hsingle hline rfl)
  | passes hp hm =>
    rw [List.append_nil] at hb
    obtain hcl | ⟨hnil, -⟩ := hs.slot sid hsid hb
    · exact .inl (hf.closing hc (by rw [hp]; exact id) hcl)
    · cases (hm hnil).symm.trans hsid
  | cleans hp hline hsess =>
    exact .inl ⟨r, _, FifoMutex.holder_lock_self.2 (.inl hline), calls_set_self, trivial⟩

theorem Turn.sound (hd : b.Disciplined) (hc : b.calls r = some c) (ht : Turn b r c w b' seen)
    (hs : Sound b h) (hg : Tidy b (.wake r w)) : Sound b' (h ++ seen) where
  numbered sid hb := by
    obtain ⟨c', hf⟩ := ht.frame (hd.placed r c hc) hc
    refine Nat.lt_of_lt_of_le ?_ hf.established
    obtain hb | hb := broken_append.1 hb
    · exact hs.numbered sid hb
    · exact hd.fresh sid (ht.breaks hb)
  slot _ hsid hb := ht.slot hd hc hs hg hsid hb

/-! ## The rule along a run -/

theorem harmless_farewell :
    ∀ o ∈ c.farewell r, ∀ t, TryRule t o ∧ ReuseRule t o := by
  intro o ho
  unfold Call.farewell at ho
  split at ho <;> simp at ho
  · obtain rfl | rfl := ho <;> exact fun _ => ⟨trivial, trivial⟩
  · subst ho
    exact fun _ => ⟨trivial, trivial⟩

theorem Turn.tries (hc : b.calls r = some c) (ht : Turn b r c w b' seen) (hk : Each Counted b h)
    (hr : EachAfter TryRule h) : EachAfter TryRule (h ++ seen) := by
  have hcount : Counted b h r (some c) := hc ▸ hk r
  cases ht with
  | sends hp => exact eachAfter_concat.2 ⟨hr, .inl (hcount.of_asks hp)⟩
  | @established again hp =>
    rw [List.append_cons]
    refine eachAfter_concat.2 ⟨eachAfter_concat.2 ⟨hr, trivial⟩, ?_⟩
    have hsame : starts r (h ++ [.established r b.established]) = starts r h := by
      rw [starts_append, starts_established]
      exact List.append_nil _
    unfold Counted at hcount
    dsimp only at hcount
    rw [hp] at hcount
    cases again with
    | false => exact .inl (hsame.trans hcount)
    | true => exact .inr ⟨hcount.append hsame, List.getLast?_concat ..⟩
  | fruitless | answered => exact hr.append fun o ho t => (harmless_farewell o ho t).1
  | rejected | drops =>
    exact hr.append (List.forall_mem_cons.2
      ⟨fun _ => trivial, fun o ho t => (harmless_farewell o ho t).1⟩)
  | _ => exact hr.append (by simp [TryRule])

theorem Marked.dropped (hk : Marked b h r (some c)) (hp : c.phase.Drops)
    (hsess : b.session = some sid) : ReuseRule h (.dropped r sid) :=
  .inl (hk.1 hp sid hsess)

theorem Turn.reuses (hc : b.calls r = some c) (ht : Turn b r c w b' seen) (hs : Sound b h)
    (hm : Each Marked b h) (hg : Tidy b (.wake r w)) (hr : EachAfter ReuseRule h) :
    EachAfter ReuseRule (h ++ seen) := by
  have hmark : Marked b h r (some c) := hc ▸ hm r
  cases ht with
  | sends hp hm' hsess => exact eachAfter_concat.2 ⟨hr, hs.of_asks hc hp hm' hg hsess⟩
  | established hp =>
    rw [List.append_cons]
    refine eachAfter_concat.2 ⟨eachAfter_concat.2 ⟨hr, trivial⟩, fun hb => ?_⟩
    rw [broken_append_of_none fun o ho => by rw [List.mem_singleton.1 ho]; exact id] at hb
    exact Nat.lt_irrefl _ (hs.numbered _ hb)
  | fruitless | answered => exact hr.append fun o ho t => (harmless_farewell o ho t).2
  | rejected =>
    exact hr.append (List.forall_mem_cons.2
      ⟨fun _ => trivial, fun o ho t => (harmless_farewell o ho t).2⟩)
  | retries hp hsess =>
    rw [List.append_cons]
    exact (eachAfter_concat.2 ⟨hr, hmark.dropped (by rw [hp]; trivial) hsess⟩).append
      (by simp [ReuseRule])
  | drops hp hsess =>
    rw [List.append_cons]
    exact (eachAfter_concat.2 ⟨hr, hmark.dropped (by rw [hp]; trivial) hsess⟩).append
      fun o ho t => (harmless_farewell o ho t).2
  | cleaned hp hsess =>
    exact eachAfter_concat.2 ⟨hr, hmark.dropped (by rw [hp]; trivial) hsess⟩
  | _ => exact hr.append (by simp [ReuseRule])

/-- A request changes nothing of the slot. -/
theorem Sound.request (hs : Sound b h) (hr : b.calls r = none) : Sound (b.set r c) h where
  numbered := hs.numbered
  slot t ht hb := by
    have hother : ∀ {q d}, b.calls q = some d → (b.set r c).calls q = some d := by
      intro q d hd
      have hne : q ≠ r := by
        rintro rfl
        cases hr.symm.trans hd
      exact (Function.update_of_ne hne ..).trans hd
    obtain ⟨q, d, hq, hd, hdr⟩ | ⟨hnil, u, q, d, hu, hd, hph⟩ := hs.slot t ht hb
    · exact .inl ⟨q, d, hq, hother hd, hdr⟩
    · exact .inr ⟨hnil, u, q, d, hu, hother hd, hph⟩

theorem tries_step (hd : b.Disciplined) (hk : Each Counted b h) (hr : EachAfter TryRule h) :
    EachAfter TryRule (h ++ b.seen e) := by
  have hs := hd.steps e
  generalize b.step e = b', b.seen e = seen at hs
  cases hs with
  | turned hc ht => exact ht.tries hc hk hr
  | _ => rwa [List.append_nil]

theorem reuses_step (hd : b.Disciplined) (hs : Sound b h) (hm : Each Marked b h) (hg : Tidy b e)
    (hr : EachAfter ReuseRule h) :
    Sound (b.step e) (h ++ b.seen e) ∧ EachAfter ReuseRule (h ++ b.seen e) := by
  have hst := hd.steps e
  generalize b.step e = b', b.seen e = seen at hst
  cases hst with
  | turned hc ht => exact ⟨ht.sound hd hc hs hg, ht.reuses hc hs hm hg hr⟩
  | ignored =>
    rw [List.append_nil]
    exact ⟨hs, hr⟩
  | requested hr' =>
    rw [List.append_nil]
    exact ⟨hs.request hr', hr⟩
  | elapsed d =>
    rw [List.append_nil]
    exact ⟨⟨hs.numbered, hs.slot⟩, hr⟩

theorem Disciplined.oneAtATime (hd : b.Disciplined) : b.OneAtATime := by
  intro q r c c' again again' hc hc' hp hp'
  exact hd.holds_inj hc hc' (by rw [hp]; trivial) (by rw [hp']; trivial)

end

section
variable {id : UInt64} {now : Instant}

/-- In any run, at most one operation runs at a time, and a request runs its operation at most
twice: again only after a timeout, with time to spare and on a session of its own. -/
theorem tries_run (es : List SlotEvent) :
    EachAfter TryRule (trace step seen (fromEngine id now) es) ∧
      (run step (fromEngine id now) es).OneAtATime := by
  have hall : (run step (fromEngine id now) es).Disciplined ∧
      Each Counted (run step (fromEngine id now) es) (trace step seen (fromEngine id now) es) ∧
      EachAfter TryRule (trace step seen (fromEngine id now) es) :=
    trace_invariant (I := fun b h => b.Disciplined ∧ Each Counted b h ∧ EachAfter TryRule h)
      (s := fromEngine id now) ⟨disciplined_fromEngine, fun _ => rfl, eachAfter_nil⟩
      (fun b h e ⟨hd, hk, hr⟩ => ⟨hd.step e, counted_step hd hk, tries_step hd hk hr⟩) es
  exact ⟨hall.2.2, hall.1.oneAtATime⟩

theorem reuses_run {es : List SlotEvent} (h : Along step Tidy (fromEngine id now) es) :
    EachAfter ReuseRule (trace step seen (fromEngine id now) es) := by
  suffices hall : (run step (fromEngine id now) es).Disciplined ∧
      Each Marked (run step (fromEngine id now) es) (trace step seen (fromEngine id now) es) ∧
      Sound (run step (fromEngine id now) es) (trace step seen (fromEngine id now) es) ∧
      EachAfter ReuseRule (trace step seen (fromEngine id now) es) from hall.2.2.2
  exact trace_run_invariant
    (I := fun b h => b.Disciplined ∧ Each Marked b h ∧ Sound b h ∧ EachAfter ReuseRule h)
    (s := fromEngine id now)
    ⟨disciplined_fromEngine, fun _ => trivial,
      ⟨fun _ ⟨_, ho, _⟩ => absurd ho List.not_mem_nil, fun _ hs => by cases hs⟩, eachAfter_nil⟩
    (fun b h e ⟨hd, hm, hs, hr⟩ hg =>
      ⟨hd.step e, marked_step hd hm hg, reuses_step hd hs hm hg hr⟩) h

/-- **Warm sessions.** In a run that is tidied up in time, every operation starts on a session that
no earlier one broke and every session is dropped for a reason. -/
theorem warm_sessions_sound {es : List SlotEvent} (h : Along step Tidy (fromEngine id now) es) :
    EachAfter SessionRule (trace step seen (fromEngine id now) es) ∧
      (run step (fromEngine id now) es).OneAtATime := by
  obtain ⟨htries, hone⟩ : EachAfter TryRule (trace step seen (fromEngine id now) es) ∧
      (run step (fromEngine id now) es).OneAtATime := tries_run es
  exact ⟨fun pre o post hpre => ⟨htries pre o post hpre, reuses_run h pre o post hpre⟩, hone⟩

end

/-! ## Samples -/

/-- A first request has established the session and is sending. -/
def firstSending : List SlotEvent :=
  [.request 0 (.read 5) none, .wake 0 .poll, .wake 0 .established]

/-- Its client goes with nobody in line, and the next request comes after the clean-up. -/
def tidied : List SlotEvent :=
  firstSending ++ [.wake 0 .clientGone, .wake 0 .dropSession, .wake 0 .closed,
    .request 1 (.write 5) none, .wake 1 .poll, .wake 1 .established]

theorem warm_sessions_sound_tidied :
    EachAfter SessionRule (trace step seen (fromEngine 5 0) tidied) ∧
      (run step (fromEngine 5 0) tidied).OneAtATime := by
  refine warm_sessions_sound ⟨trivial, ?_, trivial, ?_, ?_, trivial, trivial, ?_, trivial, trivial⟩
  · rintro - ⟨sid, r, c, hs, -⟩
    cases hs
  · rintro c hc -
    obtain rfl := Option.some_inj.1 hc
    decide
  · rintro c left hc hph -
    obtain rfl := Option.some_inj.1 hc
    exact .inr ⟨0, 0, _, rfl, rfl, rfl⟩
  · rintro - ⟨sid, r, c, hs, -⟩
    cases hs

/-- The client of the first request goes while a second one is in line: the mutex is the second's
before `abort_op` tries it. -/
def overtaken : List SlotEvent :=
  firstSending ++ [.request 1 (.write 5) none, .wake 1 .poll, .wake 0 .clientGone,
    .wake 0 .dropSession, .wake 1 .poll]

/-- The client of the second request goes from the line, and the first is answered before `abort_op`
tries the mutex. -/
def spoiled : List SlotEvent :=
  firstSending ++ [.request 1 (.write 5) none, .wake 1 .poll, .wake 1 .clientGone,
    .wake 0 (.replied (.ok ())), .wake 1 .dropSession, .wake 1 .closed]

/-- The client of a group provisioning goes while a node is being provisioned: nothing cleans up. -/
def provisioned : List SlotEvent :=
  [.request 0 (.groupProvision [5, 6]) none, .wake 0 .poll, .wake 0 .established,
    .wake 0 .clientGone, .request 1 (.write 5) none, .wake 1 .poll]

/-- An operation runs on a session that another was given up on, after a request for a single node
as after a group provisioning, and a sound session is dropped for a request that never had it. -/
theorem session_reused_after_abort :
    ¬EachAfter SessionRule (trace step seen (fromEngine 5 0) overtaken) ∧
      ¬EachAfter SessionRule (trace step seen (fromEngine 5 0) provisioned) ∧
      ¬EachAfter SessionRule (trace step seen (fromEngine 5 0) spoiled) := by
  refine ⟨fun hall => ?_, fun hall => ?_, fun hall => ?_⟩
  · have hrule := hall [.established 0 0, .started 0 0, .abandoned 0 0, .cancelled 0]
      (.started 1 0) [] rfl
    exact hrule.2 ⟨.abandoned 0 0, by decide, rfl⟩
  · have hrule := hall [.established 0 0, .started 0 0, .abandoned 0 0, .cancelled 0]
      (.started 1 0) [] rfl
    exact hrule.2 ⟨.abandoned 0 0, by decide, rfl⟩
  · have hrule := hall [.established 0 0, .started 0 0, .cancelled 1, .announced 0, .ended 0]
      (.dropped 1 0) [] rfl
    obtain ⟨o, ho, hbr⟩ | hstart := hrule.2
    · simp only [List.mem_cons, List.not_mem_nil, or_false] at ho
      obtain rfl | rfl | rfl | rfl | rfl := ho <;> exact hbr
    · exact absurd hstart (by decide)

end NativeBackend

end MatStack
