import MatStack.Lib.Machine
import MatStack.Lib.Sweep
import Mathlib.Data.List.Range
import Mathlib.Data.List.Sort
import Mathlib.Data.Option.NAry

/-!
# A staggered race

Attempts are started one after the other, each some time after the one before or as soon as none is
running, and the first value that an attempt gives is the result. `poll` is the body of the future:
it starts what is due, asks every running attempt, and says when it has to be polled again. The
environment polls it at any times, but not later than it was asked to (`Punctual`).

`startAt` says when each attempt would be started, from the times at which the attempts before it
end. The attempts that are started are the first ones of that timeline, at the times it says; the
result is a value that no started attempt was earlier with, or the errors of all of them in their
order (`race_staggered`).
-/

namespace MatStack.Race

open Machine Sweep

/-- What becomes of an attempt: some time after its start it gives a value or an error, or it never
does. -/
abbrev Fate (α ε : Type) := Option (Nat × Except ε α)

/-- A running attempt: its index, and when it gives what. -/
structure Running (α ε : Type) where
  idx : Nat
  ending : Option (Nat × Except ε α)

/-- The state of the race. `starts` and `wakes` are what the world sees of it: which attempt was
started when, and when the future wants to be polled again. -/
structure State (ι α ε : Type) where
  pending : List (ι × Nat)
  running : List (Running α ε)
  errors : List (Nat × ε)
  timer : Option Nat
  starts : List (Nat × Nat)
  wakes : List Nat

/-- How an iteration ends. -/
inductive Verdict (α ε : Type) where
  | continues
  | pending
  | ready (r : Except (List ε) (Nat × α))

section
variable {ι α ε : Type}

/-- Polls an attempt. -/
def Running.ask (now : Nat) (f : Running α ε) : Sweep.Answer (Nat × α) (Nat × ε) :=
  match f.ending with
  | none => .stays
  | some (t, r) =>
    if t ≤ now then
      match r with
      | .ok v => .ends (f.idx, v)
      | .error e => .dropped (f.idx, e)
    else .stays

/-- The errors by index. -/
def sortErrors (errors : List (Nat × ε)) : List ε :=
  (errors.mergeSort fun a b => decide (a.1 ≤ b.1)).map (·.2)

/-- How many rounds a poll takes at most. -/
def budget (s : State ι α ε) : Nat := 2 * s.pending.length + if s.running.isEmpty then 0 else 1

/-- The race as its caller sees it: its state, when it was polled last, and its result. Once it has
a result it is not polled any more. -/
structure Polls (ι α ε : Type) where
  state : State ι α ε
  now : Nat
  result : Option (Except (List ε) (Nat × α))

/-- The environment polls the race when it was asked to, or earlier. -/
def Punctual (s : Polls ι α ε) (now : Nat) : Prop := s.now ≤ now ∧ ∀ t ∈ s.state.wakes, now ≤ t

end

/-- What a race is about: the items, how long the next attempt waits, what becomes of an attempt by
its index, its item and the time of its start, and when the race is polled first. -/
structure Contest (ι α ε : Type) where
  items : List ι
  stagger : Nat
  attempt : Nat → ι → Nat → Fate α ε
  firstPoll : Nat

namespace Contest

section
variable {ι α ε : Type} (c : Contest ι α ε)

/-- The race before it is polled. -/
def init : State ι α ε := ⟨c.items.zipIdx, [], [], none, [], []⟩

/-- Starts an attempt. -/
def start (now : Nat) (s : State ι α ε) (item : ι) (idx : Nat) (pending : List (ι × Nat)) :
    State ι α ε where
  pending := pending
  running := s.running ++ [⟨idx, (c.attempt idx item now).map fun fate => (now + fate.1, fate.2)⟩]
  errors := s.errors
  timer := some (now + c.stagger)
  starts := s.starts ++ [(idx, now)]
  wakes := []

/-- Starts the next attempt if it is due, and says whether one was started. The timer is asked only
while some attempt is running; if it is not over it wakes the race. -/
def startDue (now : Nat) (s : State ι α ε) : State ι α ε × Bool :=
  match s.pending with
  | [] => ({ s with wakes := [] }, false)
  | (item, idx) :: pending =>
    if s.running.isEmpty then (c.start now s item idx pending, true)
    else
      match s.timer with
      | none => (c.start now s item idx pending, true)
      | some t =>
        if t ≤ now then (c.start now s item idx pending, true)
        else ({ s with wakes := [t] }, false)

/-- One round: starts what is due, polls what is running, and decides. -/
def iteration (now : Nat) (s : State ι α ε) : State ι α ε × Verdict α ε :=
  let (s, startedNow) := c.startDue now s
  match sweep (Running.ask now) s.running.length 0 s.running s.errors [] with
  | .inl winner => (s, .ready (.ok winner))
  | .inr (running, errors, asked) =>
    let s := { s with
      running, errors, wakes := s.wakes ++ asked.filterMap fun f => f.ending.map (·.1) }
    if running.isEmpty && s.pending.isEmpty then (s, .ready (.error (sortErrors errors)))
    else if startedNow || running.isEmpty then (s, .continues)
    else (s, .pending)

/-- Rounds until the race is over or has to wait; `none` where they do not come to an end. -/
def rounds (now : Nat) :
    Nat → State ι α ε → Option (State ι α ε × Option (Except (List ε) (Nat × α)))
  | 0, _ => none
  | fuel + 1, s =>
    match c.iteration now s with
    | (s, .continues) => rounds now fuel s
    | (s, .pending) => some (s, none)
    | (s, .ready r) => some (s, some r)

/-- Polls the race. -/
def poll (now : Nat) (s : State ι α ε) :
    Option (State ι α ε × Option (Except (List ε) (Nat × α))) :=
  c.rounds now (budget s + 1) s

/-- A poll; `none` of `poll` would be a race that spins. -/
def step (s : Polls ι α ε) (now : Nat) : Polls ι α ε :=
  match s.result, c.poll now s.state with
  | none, some (state, result) => ⟨state, now, result⟩
  | _, _ => s

/-- A race that was polled for the first time. -/
def first : Polls ι α ε := c.step ⟨c.init, c.firstPoll, none⟩ c.firstPoll

end

/-! ## The timeline -/

section
variable {ι α ε : Type} (c : Contest ι α ε)

/-- When the attempt of an index gives what, if it is started at a time. -/
def ending (k now : Nat) : Option (Nat × Except ε α) :=
  c.items[k]?.bind fun item => (c.attempt k item now).map fun fate => (now + fate.1, fate.2)

/-- When the attempt of an index is started, and when none of the attempts up to it is running any
more: it is started when the one before it was started some time ago, or when none is running. -/
def timeline : Nat → Nat × Option Nat
  | 0 => (c.firstPoll, (c.ending 0 c.firstPoll).map (·.1))
  | k + 1 =>
    let before := timeline k
    let now := before.2.elim (before.1 + c.stagger) (min (before.1 + c.stagger))
    (now, Option.map₂ max before.2 ((c.ending (k + 1) now).map (·.1)))

/-- When the attempt of an index is started. -/
def startAt (k : Nat) : Nat := (c.timeline k).1

/-- When none of the attempts up to an index is running any more, if that is ever so. -/
def idleAt (k : Nat) : Option Nat := (c.timeline k).2

/-- What the attempt of an index gives on the timeline, and when. -/
def endingAt (k : Nat) : Option (Nat × Except ε α) := c.ending k (c.startAt k)

variable {c : Contest ι α ε}

theorem startAt_succ (k : Nat) :
    c.startAt (k + 1) =
      (c.idleAt k).elim (c.startAt k + c.stagger) (min (c.startAt k + c.stagger)) := rfl

theorem idleAt_succ (k : Nat) :
    c.idleAt (k + 1) = Option.map₂ max (c.idleAt k) ((c.endingAt (k + 1)).map (·.1)) := rfl

/-- An attempt does not end before it is started. -/
theorem le_ending {k now t : Nat} {r : Except ε α} (h : c.ending k now = some (t, r)) :
    now ≤ t := by
  obtain ⟨item, -, h⟩ := Option.bind_eq_some_iff.1 h
  obtain ⟨fate, -, h⟩ := Option.map_eq_some_iff.1 h
  exact (Nat.le_add_right now fate.1).trans_eq (Prod.ext_iff.1 h).1

/-- Where no attempt is running any more all have ended. -/
theorem le_idleAt {k t j : Nat} (h : c.idleAt k = some t) (hj : j ≤ k) :
    ∃ e ∈ c.endingAt j, e.1 ≤ t := by
  induction k generalizing t with
  | zero =>
    obtain ⟨e, he, rfl⟩ := Option.map_eq_some_iff.1 h
    exact ⟨e, Nat.le_zero.1 hj ▸ he, le_rfl⟩
  | succ k ih =>
    rw [idleAt_succ, Option.map₂_eq_some_iff] at h
    obtain ⟨a, b, ha, hb, rfl⟩ := h
    obtain hj | rfl := Nat.le_succ_iff.1 hj
    · obtain ⟨e, he, hle⟩ := ih ha hj
      exact ⟨e, he, hle.trans (le_max_left _ _)⟩
    · obtain ⟨e, he, rfl⟩ := Option.map_eq_some_iff.1 hb
      exact ⟨e, he, le_max_right _ _⟩

/-- Where all attempts have ended the last one of them was the moment when none was running. -/
theorem exists_idleAt {k : Nat} (h : ∀ j ≤ k, (c.endingAt j).isSome) :
    ∃ t, c.idleAt k = some t ∧
      ∃ j ≤ k, ∃ e ∈ c.endingAt j, e.1 = t := by
  induction k with
  | zero =>
    obtain ⟨e, he⟩ := Option.isSome_iff_exists.1 (h 0 le_rfl)
    exact ⟨e.1, Option.map_eq_some_iff.2 ⟨e, he, rfl⟩, 0, le_rfl, e, he, rfl⟩
  | succ k ih =>
    obtain ⟨t, ht, j, hj, e, he, heq⟩ := ih fun j hj => h j (hj.trans (Nat.le_succ k))
    obtain ⟨e', he'⟩ := Option.isSome_iff_exists.1 (h (k + 1) le_rfl)
    refine ⟨max t e'.1, ?_, ?_⟩
    · rw [idleAt_succ, ht, he']
      rfl
    · obtain hle | hle := le_total t e'.1
      · exact ⟨k + 1, le_rfl, e', he', (max_eq_right hle).symm⟩
      · exact ⟨j, hj.trans (Nat.le_succ k), e, he, heq.trans (max_eq_left hle).symm⟩

/-- The moment when none is running: all have ended by then, and one of them just now. -/
theorem idleAt_eq {k now : Nat}
    (hall : ∀ j ≤ k, ∃ e ∈ c.endingAt j, e.1 ≤ now)
    (hone : ∃ j ≤ k, ∃ e ∈ c.endingAt j, e.1 = now) :
    c.idleAt k = some now := by
  obtain ⟨t, ht, i, hi, e, he, rfl⟩ := exists_idleAt fun j hj => by
    obtain ⟨e, he, -⟩ := hall j hj
    exact Option.isSome_iff_exists.2 ⟨e, he⟩
  obtain ⟨j, hj, d, hd, rfl⟩ := hone
  obtain ⟨d', hd', hge⟩ := le_idleAt ht hj
  obtain ⟨e', he', hle⟩ := hall i hi
  cases Option.mem_unique hd hd'
  cases Option.mem_unique he he'
  rw [ht, le_antisymm hle hge]

/-- An attempt is not started before the one before it. -/
theorem startAt_le_succ (k : Nat) :
    c.startAt k ≤ c.startAt (k + 1) := by
  rw [startAt_succ]
  cases hidle : c.idleAt k with
  | none => exact Nat.le_add_right _ _
  | some t =>
    obtain ⟨e, he, hle⟩ := le_idleAt hidle le_rfl
    exact le_min (Nat.le_add_right _ _) ((le_ending (r := e.2) he).trans hle)

theorem startAt_mono {j k : Nat} (h : j ≤ k) :
    c.startAt j ≤ c.startAt k :=
  monotone_nat_of_le_succ startAt_le_succ h

end

/-! ## What holds between two rounds -/

section
variable {ι α ε : Type} {c : Contest ι α ε} {now : Nat} {s : State ι α ε}

/-- During a poll: the first attempts of the timeline were started when it says, each of them is
running and does not end before now, or failed; the timer says when the next one is started; and if
none is running then one of them ended just now. -/
structure Inv (c : Contest ι α ε) (now : Nat) (s : State ι α ε) : Prop where
  count : s.starts.length ≤ c.items.length
  starts : s.starts = (List.range s.starts.length).map fun k => (k, c.startAt k)
  pending : s.pending = c.items.zipIdx.drop s.starts.length
  ids : (s.running.map (·.idx) ++ s.errors.map (·.1)).Perm (List.range s.starts.length)
  running : ∀ f ∈ s.running, f.ending = c.endingAt f.idx ∧ ∀ e ∈ f.ending, now ≤ e.1
  errors : ∀ x ∈ s.errors, ∃ t ≤ now, c.endingAt x.1 = some (t, .error x.2)
  started : ∀ k < s.starts.length, c.startAt k ≤ now
  timer : ∀ k, s.starts.length = k + 1 → s.timer = some (c.startAt k + c.stagger) ∧
    (s.pending ≠ [] → now ≤ c.startAt k + c.stagger)
  first : s.starts.length = 0 → now = c.firstPoll
  idle : 0 < s.starts.length → s.running = [] →
    ∃ j < s.starts.length, ∃ e ∈ c.endingAt j, e.1 = now

/-- An attempt that was started is running or failed. -/
theorem Inv.cases (h : c.Inv now s) {k : Nat} (hk : k < s.starts.length) :
    (∃ f ∈ s.running, f.idx = k) ∨ ∃ x ∈ s.errors, x.1 = k := by
  have hmem := h.ids.mem_iff.2 (List.mem_range.2 hk)
  rw [List.mem_append, List.mem_map, List.mem_map] at hmem
  exact hmem

theorem Inv.idx_lt (h : c.Inv now s) {f : Running α ε} (hf : f ∈ s.running) :
    f.idx < s.starts.length :=
  List.mem_range.1 (h.ids.mem_iff.1 (List.mem_append_left _ (List.mem_map_of_mem hf)))

/-- While an attempt is running, the moment when none is has not passed. -/
theorem Inv.le_idleAt (h : c.Inv now s) {k t : Nat} (hk : s.starts.length = k + 1)
    (hrunning : s.running ≠ []) (hidle : c.idleAt k = some t) : now ≤ t := by
  obtain ⟨f, hf⟩ := List.exists_mem_of_ne_nil _ hrunning
  have hlt := h.idx_lt hf
  obtain ⟨e, he, hle⟩ := Contest.le_idleAt hidle (j := f.idx) (by omega)
  obtain ⟨heq, hge⟩ := h.running f hf
  exact (hge e (heq ▸ he)).trans hle

/-- Where no attempt is running, this is the moment. -/
theorem Inv.idleAt_eq (h : c.Inv now s) {k : Nat} (hk : s.starts.length = k + 1)
    (hrunning : s.running = []) : c.idleAt k = some now := by
  refine Contest.idleAt_eq (fun j hj => ?_) ?_
  · obtain ⟨f, hf, -⟩ | ⟨x, hx, rfl⟩ := h.cases (k := j) (by omega)
    · rw [hrunning] at hf
      exact absurd hf List.not_mem_nil
    · obtain ⟨t, ht, he⟩ := h.errors x hx
      exact ⟨_, he, ht⟩
  · obtain ⟨j, hj, e, he, heq⟩ := h.idle (by omega) hrunning
    exact ⟨j, by omega, e, he, heq⟩

/-- No attempt is started late. -/
theorem Inv.le_startAt (h : c.Inv now s) (hpending : s.pending ≠ []) :
    now ≤ c.startAt s.starts.length := by
  cases hlen : s.starts.length with
  | zero => exact (h.first hlen).le
  | succ k =>
    have htimer := (h.timer k hlen).2 hpending
    rw [startAt_succ]
    by_cases hrunning : s.running = []
    · rw [h.idleAt_eq hlen hrunning]
      exact le_min htimer le_rfl
    · cases hidle : c.idleAt k with
      | none => exact htimer
      | some t => exact le_min htimer (h.le_idleAt hlen hrunning hidle)

/-- An attempt is started when no other is running. -/
theorem Inv.startAt_le_of_idle (h : c.Inv now s) (hrunning : s.running = []) :
    c.startAt s.starts.length ≤ now := by
  cases hlen : s.starts.length with
  | zero => exact (h.first hlen).ge
  | succ k =>
    rw [startAt_succ, h.idleAt_eq hlen hrunning]
    exact min_le_right _ _

/-- An attempt is started when the timer of the one before it is over. -/
theorem Inv.startAt_le_of_timer (h : c.Inv now s) (htimer : ∀ t, s.timer = some t → t ≤ now)
    (hlen : 0 < s.starts.length) : c.startAt s.starts.length ≤ now := by
  obtain ⟨k, hk⟩ := Nat.exists_eq_succ_of_ne_zero hlen.ne'
  rw [hk, startAt_succ]
  have hdue := htimer _ (h.timer k hk).1
  cases c.idleAt k with
  | none => exact hdue
  | some t => exact (min_le_left _ _).trans hdue

/-- Where the timer waits and an attempt is running, the next one is not started yet. -/
theorem Inv.lt_startAt (h : c.Inv now s) (hrunning : s.running ≠ [])
    (hends : ∀ f ∈ s.running, ∀ e ∈ f.ending, now < e.1) {t : Nat} (htimer : s.timer = some t)
    (hlt : now < t) : now < c.startAt s.starts.length := by
  obtain ⟨f, hf⟩ := List.exists_mem_of_ne_nil _ hrunning
  have hpos := h.idx_lt hf
  obtain ⟨k, hk⟩ := Nat.exists_eq_succ_of_ne_zero (Nat.ne_zero_of_lt hpos)
  have hdue : now < c.startAt k + c.stagger := by
    rw [(h.timer k hk).1] at htimer
    exact hlt.trans_eq (Option.some.inj htimer).symm
  rw [hk, startAt_succ]
  cases hidle : c.idleAt k with
  | none => exact hdue
  | some t' =>
    obtain ⟨e, he, hle⟩ := Contest.le_idleAt hidle (j := f.idx) (by omega)
    exact lt_min hdue ((hends f hf e ((h.running f hf).1 ▸ he)).trans_le hle)

/-! ### Starting -/

/-- Starting the next attempt on time. -/
theorem Inv.start (h : c.Inv now s) {item : ι} {idx : Nat} {pending : List (ι × Nat)}
    (hpending : s.pending = (item, idx) :: pending) (hnow : now = c.startAt s.starts.length) :
    c.Inv now (c.start now s item idx pending) := by
  have hdrop : c.items.zipIdx.drop s.starts.length = (item, idx) :: pending :=
    h.pending.symm.trans hpending
  have hget : c.items.zipIdx[s.starts.length]? = some (item, idx) := by
    rw [← Nat.add_zero s.starts.length, ← List.getElem?_drop, hdrop, List.getElem?_cons_zero]
  obtain ⟨hitem, hidx⟩ : c.items[s.starts.length]? = some item ∧ s.starts.length = idx := by
    rw [List.getElem?_zipIdx, Option.map_eq_some_iff] at hget
    obtain ⟨x, hx, heq⟩ := hget
    rw [Prod.mk.injEq, Nat.zero_add] at heq
    exact ⟨heq.1 ▸ hx, heq.2⟩
  subst hidx
  have hlt : s.starts.length < c.items.length := (List.getElem?_eq_some_iff.1 hitem).1
  have hlen : (c.start now s item s.starts.length pending).starts.length =
      s.starts.length + 1 := List.length_append
  have hending : (c.attempt s.starts.length item now).map (fun fate => (now + fate.1, fate.2)) =
      c.endingAt s.starts.length := by
    rw [endingAt, ending, hitem, ← hnow]
    rfl
  refine ⟨?_, ?_, ?_, ?_, fun f hf => ?_, h.errors, fun k hk => ?_, fun k hk => ?_, fun hk => ?_,
    fun _ hnil => ?_⟩
  · omega
  · rw [hlen, List.range_succ, List.map_append, ← h.starts, List.map_singleton, ← hnow]
    rfl
  · rw [hlen, ← List.tail_drop, hdrop]
    rfl
  · rw [hlen, List.range_succ]
    refine List.Perm.trans ?_ (h.ids.append_right _)
    rw [Contest.start, List.map_append, List.append_assoc, List.append_assoc]
    exact List.Perm.append_left _ List.perm_append_comm
  · obtain hf | hf := List.mem_append.1 hf
    · exact h.running f hf
    · rw [List.mem_singleton.1 hf]
      refine ⟨hending, fun e he => ?_⟩
      obtain ⟨fate, -, rfl⟩ := Option.map_eq_some_iff.1 he
      exact Nat.le_add_right _ _
  · rw [hlen] at hk
    obtain hk | rfl := Nat.lt_succ_iff_lt_or_eq.1 hk
    · exact h.started k hk
    · exact hnow.ge
  · rw [hlen] at hk
    rw [← Nat.succ.inj hk, ← hnow]
    exact ⟨rfl, fun _ => Nat.le_add_right _ _⟩
  · rw [hlen] at hk
    exact absurd hk (Nat.succ_ne_zero _)
  · exact absurd hnil (List.append_ne_nil_of_right_ne_nil _ (List.cons_ne_nil _ _))

/-- What the start judgement does. Where it starts none, then all have been started, or an attempt
is running and the timer wakes the race when the next one is due. -/
theorem Inv.startDue (h : c.Inv now s) :
    ((c.startDue now s).2 = true ∧ c.Inv now (c.startDue now s).1 ∧
      (c.startDue now s).1.running ≠ [] ∧
      (c.startDue now s).1.pending.length + 1 = s.pending.length) ∨
    ((c.startDue now s).2 = false ∧
      (c.startDue now s).1 = { s with wakes := (c.startDue now s).1.wakes } ∧
      (s.pending = [] ∨ s.running ≠ [] ∧
        ∃ t ∈ (c.startDue now s).1.wakes, s.timer = some t ∧ now < t)) := by
  unfold Contest.startDue
  split
  · next hnil => exact .inr ⟨rfl, rfl, .inl hnil⟩
  · next item idx pending hpending =>
    have hne : s.pending ≠ [] := by simp [hpending]
    have hstart : c.startAt s.starts.length ≤ now →
        c.Inv now (c.start now s item idx pending) ∧
          (c.start now s item idx pending).running ≠ [] ∧
          (c.start now s item idx pending).pending.length + 1 = s.pending.length := fun hle =>
      ⟨h.start hpending (le_antisymm (h.le_startAt hne) hle), by simp [Contest.start],
        by rw [hpending, List.length_cons]; rfl⟩
    split
    · next hidle =>
      exact .inl ⟨rfl, hstart (h.startAt_le_of_idle (List.isEmpty_iff.1 hidle))⟩
    · next hrunning =>
      rw [List.isEmpty_iff] at hrunning
      obtain ⟨f, hf⟩ := List.exists_mem_of_ne_nil _ hrunning
      have hpos := Nat.zero_lt_of_lt (h.idx_lt hf)
      split
      · next htimer =>
        exact .inl ⟨rfl, hstart (h.startAt_le_of_timer (by simp [htimer]) hpos)⟩
      · next t htimer =>
        split
        · next hle =>
          refine .inl ⟨rfl, hstart (h.startAt_le_of_timer (fun t' ht' => ?_) hpos)⟩
          rw [htimer] at ht'
          exact Option.some.inj ht' ▸ hle
        · next hlt =>
          exact .inr ⟨rfl, rfl, .inr ⟨hrunning, t, List.mem_singleton_self t, htimer,
            Nat.lt_of_not_le hlt⟩⟩

/-! ### Polling -/

section
variable {f : Running α ε}

theorem ask_eq_stays (h : f.ask now = .stays) : ∀ e ∈ f.ending, now < e.1 := by
  intro e he
  obtain ⟨t, r⟩ := e
  rw [Running.ask, Option.mem_def.1 he] at h
  dsimp only at h
  by_cases ht : t ≤ now
  · rw [if_pos ht] at h
    cases r <;> cases h
  · exact Nat.lt_of_not_le ht

theorem ask_eq_dropped {x : Nat × ε} (h : f.ask now = .dropped x) :
    ∃ t ≤ now, f.ending = some (t, .error x.2) ∧ f.idx = x.1 := by
  cases he : f.ending with
  | none => simp [Running.ask, he] at h
  | some e =>
    obtain ⟨t, r⟩ := e
    rw [Running.ask, he] at h
    dsimp only at h
    by_cases ht : t ≤ now
    · rw [if_pos ht] at h
      cases r with
      | ok v => cases h
      | error e =>
        cases h
        exact ⟨t, ht, rfl, rfl⟩
    · rw [if_neg ht] at h
      cases h

/-- The errors carry the indices of the attempts that failed. -/
theorem idx_of_dropped {removed : List (Running α ε)} {gone : List (Nat × ε)}
    (h : removed.map (Running.ask now) = gone.map .dropped) :
    removed.map (·.idx) = gone.map (·.1) := by
  induction removed generalizing gone with
  | nil =>
    rw [List.map_nil] at h
    rw [List.map_eq_nil_iff.1 h.symm]
    rfl
  | cons f removed ih =>
    cases gone with
    | nil => cases h
    | cons x gone =>
      rw [List.map_cons, List.map_cons, List.cons.injEq] at h
      obtain ⟨-, -, -, hfx⟩ := ask_eq_dropped h.1
      rw [List.map_cons, List.map_cons, hfx, ih h.2]

theorem ask_eq_ends {x : Nat × α} (h : f.ask now = .ends x) :
    ∃ t ≤ now, f.ending = some (t, .ok x.2) ∧ f.idx = x.1 := by
  cases he : f.ending with
  | none => simp [Running.ask, he] at h
  | some e =>
    obtain ⟨t, r⟩ := e
    rw [Running.ask, he] at h
    dsimp only at h
    by_cases ht : t ≤ now
    · rw [if_pos ht] at h
      cases r with
      | error e => cases h
      | ok v =>
        cases h
        exact ⟨t, ht, rfl, rfl⟩
    · rw [if_neg ht] at h
      cases h

end

/-- What the started attempts give when one of them gives a value: no other one gave one earlier. -/
structure Won (c : Contest ι α ε) (now count i : Nat) (v : α) : Prop where
  started : i < count
  ending : c.endingAt i = some (now, .ok v)
  earliest : ∀ j < count, ∀ t w, c.endingAt j = some (t, .ok w) → now ≤ t

/-- All were started and failed; their errors, in their order. -/
structure Lost (c : Contest ι α ε) (now count : Nat) (errors : List ε) : Prop where
  all : count = c.items.length
  length : errors.length = count
  failed : ∀ k < count, ∃ t ≤ now, ∃ e, errors[k]? = some e ∧ c.endingAt k = some (t, .error e)

/-- An attempt that gives a value does so now at the earliest. -/
theorem Inv.le_ok (h : c.Inv now s) {j t : Nat} {w : α} (hj : j < s.starts.length)
    (he : c.endingAt j = some (t, .ok w)) : now ≤ t := by
  obtain ⟨f, hf, rfl⟩ | ⟨x, hx, rfl⟩ := h.cases hj
  · obtain ⟨heq, hge⟩ := h.running f hf
    exact hge _ (heq.trans he)
  · obtain ⟨t', -, he'⟩ := h.errors x hx
    rw [he] at he'
    cases he'

/-- A value ends the race. -/
theorem Inv.won (h : c.Inv now s) {left : Nat} {x : Nat × α} (hleft : s.running.length ≤ left)
    (hsweep : sweep (Running.ask now) left 0 s.running s.errors [] = .inl x) :
    c.Won now s.starts.length x.1 x.2 := by
  obtain ⟨f, hf, hask⟩ := sweep_eq_inl [] hleft hsweep
  obtain ⟨t, ht, he, hidx⟩ := ask_eq_ends hask
  obtain ⟨heq, hge⟩ := h.running f hf
  have hnow : t = now := le_antisymm ht (hge _ he)
  rw [heq, hidx, hnow] at he
  exact ⟨hidx ▸ h.idx_lt hf, he, fun j hj t w hw => h.le_ok hj hw⟩

/-- The state after a sweep that no value ended. -/
def swept (s : State ι α ε) (running : List (Running α ε)) (errors : List (Nat × ε))
    (asked : List (Running α ε)) : State ι α ε :=
  { s with
    running, errors
    wakes := s.wakes ++ asked.filterMap fun f => f.ending.map (·.1) }

/-- A sweep that no value ends leaves the attempts that end later, and every one of them wakes the
race when it does. -/
theorem Inv.sweep (h : c.Inv now s) {left : Nat} {running asked : List (Running α ε)}
    {errors : List (Nat × ε)} (hleft : s.running.length ≤ left)
    (hsweep : Sweep.sweep (Running.ask now) left 0 s.running s.errors [] =
      .inr (running, errors, asked)) :
    c.Inv now (swept s running errors asked) ∧ (∀ f ∈ running, ∀ e ∈ f.ending, now < e.1) ∧
      asked = running := by
  obtain ⟨kept, removed, gone, hperm, hrunning, hasked, herrors, hkept, hremoved⟩ :=
    sweep_eq_inr [] hleft hsweep
  rw [List.nil_append] at hrunning hasked
  subst hrunning herrors
  obtain rfl := hasked.symm
  have hgone : ∀ x ∈ gone, ∃ f ∈ s.running, f.ask now = .dropped x := fun x hx => by
    have hmem : Sweep.Answer.dropped x ∈ removed.map (Running.ask now) :=
      hremoved ▸ List.mem_map_of_mem hx
    obtain ⟨f, hf, hask⟩ := List.mem_map.1 hmem
    exact ⟨f, hperm.mem_iff.1 (List.mem_append_right _ hf), hask⟩
  have hidx : removed.map (·.idx) = gone.map (·.1) := idx_of_dropped hremoved
  have hsub : ∀ f ∈ running, f ∈ s.running := fun f hf =>
    hperm.mem_iff.1 (List.mem_append_left _ hf)
  refine ⟨⟨h.count, h.starts, h.pending, ?_, fun f hf => h.running f (hsub f hf), fun x hx => ?_,
    h.started, h.timer, h.first, fun hpos hnil => ?_⟩, fun f hf => ask_eq_stays (hkept f hf), rfl⟩
  · refine List.Perm.trans ?_ h.ids
    have hids := hperm.map (·.idx)
    rw [List.map_append, hidx] at hids
    rw [swept, List.map_append]
    refine List.Perm.trans ?_ (hids.append_right _)
    rw [List.append_assoc]
    exact List.Perm.append_left _ List.perm_append_comm
  · obtain hx | hx := List.mem_append.1 hx
    · exact h.errors x hx
    · obtain ⟨f, hf, hask⟩ := hgone x hx
      obtain ⟨t, ht, he, hfx⟩ := ask_eq_dropped hask
      exact ⟨t, ht, by rw [← hfx, ← (h.running f hf).1, he]⟩
  · by_cases hidle : s.running = []
    · exact h.idle hpos hidle
    · have hnil' : running = [] := hnil
      rw [hnil', List.nil_append] at hperm
      obtain ⟨f, hf⟩ := List.exists_mem_of_ne_nil _ hidle
      have hask : f.ask now ∈ gone.map Sweep.Answer.dropped :=
        hremoved ▸ List.mem_map_of_mem (hperm.mem_iff.2 hf)
      obtain ⟨x, -, hx⟩ := List.mem_map.1 hask
      obtain ⟨t, ht, he, -⟩ := ask_eq_dropped hx.symm
      obtain ⟨heq, hge⟩ := h.running f hf
      exact ⟨f.idx, h.idx_lt hf, _, heq ▸ he, le_antisymm ht (hge _ he)⟩

/-! ### Deciding -/

/-- All attempts failed: their errors are sorted by index. -/
theorem Inv.lost (h : c.Inv now s) (hrunning : s.running = []) (hpending : s.pending = []) :
    c.Lost now s.starts.length (sortErrors s.errors) := by
  have hall : s.starts.length = c.items.length := by
    have hlen := congrArg List.length h.pending
    rw [hpending, List.length_drop, List.length_zipIdx, List.length_nil] at hlen
    have hcount := h.count
    omega
  have hids := h.ids
  rw [hrunning, List.map_nil, List.nil_append] at hids
  let sorted := s.errors.mergeSort fun a b => decide (a.1 ≤ b.1)
  have hperm : sorted.Perm s.errors := List.mergeSort_perm _ _
  have hpairwise : (sorted.map (·.1)).Pairwise (· ≤ ·) := by
    have hle : sorted.Pairwise fun a b => decide (a.1 ≤ b.1) = true :=
      List.pairwise_mergeSort (fun a b c hab hbc => by
        rw [decide_eq_true_iff] at hab hbc ⊢
        exact hab.trans hbc) (fun a b => by simpa using le_total a.1 b.1) s.errors
    exact List.pairwise_map.2 (hle.imp fun hab => of_decide_eq_true hab)
  have hsorted : sorted.map (·.1) = List.range s.starts.length :=
    List.Perm.eq_of_pairwise (fun a b _ _ hab hba => Nat.le_antisymm hab hba) hpairwise
      List.pairwise_le_range ((hperm.map _).trans hids)
  have hlength : sorted.length = s.starts.length := by
    rw [← List.length_map (·.1), hsorted, List.length_range]
  refine ⟨hall, (List.length_map _).trans hlength, fun k hk => ?_⟩
  have hx : ∃ x, sorted[k]? = some x := ⟨_, List.getElem?_eq_getElem (hlength ▸ hk)⟩
  obtain ⟨x, hx⟩ := hx
  have hkx : x.1 = k := by
    have hget := congrArg (·[k]?) hsorted
    rw [List.getElem?_map, hx, List.getElem?_range hk] at hget
    exact Option.some.inj hget
  obtain ⟨t, ht, he⟩ := h.errors x (hperm.mem_iff.1 (List.mem_of_getElem? hx))
  refine ⟨t, ht, x.2, ?_, hkx ▸ he⟩
  rw [sortErrors, List.getElem?_map]
  exact congrArg (Option.map (·.2)) hx

/-- Between two polls some attempt is running, none ends before the next poll, and every running
attempt and the timer, if it matters, wake the race. -/
structure Waits (now : Nat) (s : State ι α ε) : Prop where
  running : s.running ≠ []
  ends : ∀ f ∈ s.running, ∀ e ∈ f.ending, now < e.1 ∧ e.1 ∈ s.wakes
  timer : s.pending ≠ [] → ∃ t ∈ s.wakes, s.timer = some t ∧ now < t

theorem Inv.of_wakes (h : c.Inv now s) (wakes : List Nat) : c.Inv now { s with wakes := wakes } :=
  ⟨h.count, h.starts, h.pending, h.ids, h.running, h.errors, h.started, h.timer, h.first, h.idle⟩

/-- What a round does: it ends the race, or waits, or the next round has less to do. -/
theorem Inv.iteration (h : c.Inv now s) :
    c.Inv now (c.iteration now s).1 ∧
      ((c.iteration now s).2 = .continues ∧ budget (c.iteration now s).1 < budget s ∨
      (c.iteration now s).2 = .pending ∧ Waits now (c.iteration now s).1 ∨
      (∃ x, (c.iteration now s).2 = .ready (.ok x) ∧
        c.Won now (c.iteration now s).1.starts.length x.1 x.2) ∨
      ∃ errors, (c.iteration now s).2 = .ready (.error errors) ∧
        c.Lost now (c.iteration now s).1.starts.length errors) := by
  have hstart := h.startDue
  unfold Contest.iteration
  generalize c.startDue now s = begun at hstart ⊢
  obtain ⟨s', startedNow⟩ := begun
  dsimp only at hstart ⊢
  have hinv : c.Inv now s' := by
    obtain ⟨-, hinv, -, -⟩ | ⟨-, heq, -⟩ := hstart
    · exact hinv
    · rw [heq]
      exact h.of_wakes _
  cases hsweep : Sweep.sweep (Running.ask now) s'.running.length 0 s'.running s'.errors [] with
  | inl x => exact ⟨hinv, .inr (.inr (.inl ⟨x, rfl, hinv.won le_rfl hsweep⟩))⟩
  | inr left =>
    obtain ⟨running, errors, asked⟩ := left
    obtain ⟨hswept, hends, rfl⟩ := hinv.sweep le_rfl hsweep
    dsimp only
    split
    · next hover =>
      rw [Bool.and_eq_true, List.isEmpty_iff, List.isEmpty_iff] at hover
      exact ⟨hswept, .inr (.inr (.inr ⟨_, rfl, hswept.lost hover.1 hover.2⟩))⟩
    · next hover =>
      rw [Bool.and_eq_true, List.isEmpty_iff, List.isEmpty_iff] at hover
      split
      · next hagain =>
        refine ⟨hswept, .inl ⟨rfl, ?_⟩⟩
        obtain ⟨-, -, -, hlen⟩ | ⟨rfl, heq, hdue⟩ := hstart
        · simp only [budget]
          split <;> omega
        · rw [Bool.false_or, List.isEmpty_iff] at hagain
          have hpending : s'.pending = s.pending := by rw [heq]
          have hne : s.pending ≠ [] := fun hnil => hover ⟨hagain, hpending.trans hnil⟩
          have hrunning := (hdue.resolve_left hne).1
          have hfull : s.running.isEmpty = false := by
            rw [Bool.eq_false_iff, ne_eq, List.isEmpty_iff]
            exact hrunning
          simp only [budget, hagain, hpending, hfull, List.isEmpty_nil, if_true]
          exact Nat.lt_succ_self _
      · next hwait =>
        rw [Bool.or_eq_true, not_or, List.isEmpty_iff] at hwait
        refine ⟨hswept, .inr (.inl ⟨rfl, hwait.2, fun f hf e he => ⟨hends f hf e he, ?_⟩,
          fun hne => ?_⟩)⟩
        · exact List.mem_append_right _ (List.mem_filterMap.2
            ⟨f, hf, Option.map_eq_some_iff.2 ⟨e, he, rfl⟩⟩)
        · obtain ⟨rfl, -⟩ | ⟨-, heq, hdue⟩ := hstart
          · exact absurd rfl hwait.1
          · have hpending : s'.pending = s.pending := by rw [heq]
            have htimer : s'.timer = s.timer := by rw [heq]
            obtain ⟨-, t, ht, hs, hlt⟩ := hdue.resolve_left (hpending ▸ hne)
            exact ⟨t, List.mem_append_left _ ht, htimer.trans hs, hlt⟩

/-- What a poll does: its rounds come to an end, and it ends the race or waits. -/
theorem Inv.rounds (h : c.Inv now s) {fuel : Nat} (hfuel : budget s < fuel) :
    ∃ s' result, c.rounds now fuel s = some (s', result) ∧ c.Inv now s' ∧
      (result = none ∧ Waits now s' ∨
      (∃ x, result = some (.ok x) ∧ c.Won now s'.starts.length x.1 x.2) ∨
      ∃ errors, result = some (.error errors) ∧ c.Lost now s'.starts.length errors) := by
  induction fuel generalizing s with
  | zero => exact absurd hfuel (Nat.not_lt_zero _)
  | succ fuel ih =>
    obtain ⟨hinv, hcases⟩ := h.iteration
    unfold Contest.rounds
    generalize c.iteration now s = round at hinv hcases ⊢
    obtain ⟨s', verdict⟩ := round
    dsimp only at hinv hcases
    obtain ⟨rfl, hlt⟩ | ⟨rfl, hwaits⟩ | ⟨x, rfl, hwon⟩ | ⟨errors, rfl, hlost⟩ := hcases
    · exact ih hinv (by omega)
    · exact ⟨s', none, rfl, hinv, .inl ⟨rfl, hwaits⟩⟩
    · exact ⟨s', _, rfl, hinv, .inr (.inl ⟨x, rfl, hwon⟩)⟩
    · exact ⟨s', _, rfl, hinv, .inr (.inr ⟨errors, rfl, hlost⟩)⟩

/-- What holds when the race is polled again. -/
theorem Inv.later (h : c.Inv now s) (hwaits : Waits now s) {later : Nat} (hle : now ≤ later)
    (hwakes : ∀ t ∈ s.wakes, later ≤ t) : c.Inv later s := by
  obtain ⟨f, hf⟩ := List.exists_mem_of_ne_nil _ hwaits.running
  have hpos := h.idx_lt hf
  refine ⟨h.count, h.starts, h.pending, h.ids, fun f hf => ⟨(h.running f hf).1, fun e he => ?_⟩,
    fun x hx => ?_, fun k hk => (h.started k hk).trans hle, fun k hk => ⟨(h.timer k hk).1, ?_⟩,
    fun hzero => ?_, fun _ hnil => absurd hnil hwaits.running⟩
  · exact hwakes _ (hwaits.ends f hf e he).2
  · obtain ⟨t, ht, he⟩ := h.errors x hx
    exact ⟨t, ht.trans hle, he⟩
  · intro hne
    obtain ⟨t, ht, htimer, -⟩ := hwaits.timer hne
    rw [(h.timer k hk).1] at htimer
    exact (hwakes t ht).trans_eq (Option.some.inj htimer).symm
  · omega

end

/-! ## Runs -/

section
variable {ι α ε : Type} {c : Contest ι α ε} {s : Polls ι α ε}

/-- What holds between two polls. -/
structure RunInv (c : Contest ι α ε) (s : Polls ι α ε) : Prop where
  inv : c.Inv s.now s.state
  waits : s.result = none → Waits s.now s.state
  won : ∀ x, s.result = some (.ok x) → c.Won s.now s.state.starts.length x.1 x.2
  lost : ∀ errors, s.result = some (.error errors) → c.Lost s.now s.state.starts.length errors

/-- What a poll does, if it comes on time. -/
theorem runInv_step {now : Nat} (hresult : s.result = none) (h : c.Inv now s.state) :
    c.RunInv (c.step s now) ∧ (c.step s now).now = now := by
  obtain ⟨s', result, hpoll, hinv, hcases⟩ := h.rounds (Nat.lt_succ_self _)
  have hstep : c.step s now = ⟨s', now, result⟩ := by
    rw [step, hresult, poll, hpoll]
  rw [hstep]
  refine ⟨?_, rfl⟩
  obtain ⟨rfl, hwaits⟩ | ⟨x, rfl, hwon⟩ | ⟨errors, rfl, hlost⟩ := hcases
  · exact ⟨hinv, fun _ => hwaits, nofun, nofun⟩
  · refine ⟨hinv, nofun, fun y hy => ?_, nofun⟩
    cases hy
    exact hwon
  · refine ⟨hinv, nofun, nofun, fun es hes => ?_⟩
    cases hes
    exact hlost

theorem inv_init (c : Contest ι α ε) : c.Inv c.firstPoll c.init where
  count := Nat.zero_le _
  starts := rfl
  pending := rfl
  ids := .nil
  running := fun _ hf => absurd hf List.not_mem_nil
  errors := fun _ hx => absurd hx List.not_mem_nil
  started := fun _ hk => absurd hk (Nat.not_lt_zero _)
  timer := fun k hk => absurd hk (Nat.succ_ne_zero k).symm
  first := fun _ => rfl
  idle := fun hpos => absurd hpos (Nat.lt_irrefl 0)

theorem runInv_first (c : Contest ι α ε) : c.RunInv c.first :=
  (runInv_step (s := ⟨c.init, c.firstPoll, none⟩) rfl c.inv_init).1

theorem RunInv.step (h : c.RunInv s) {now : Nat} (hp : Punctual s now) :
    c.RunInv (c.step s now) := by
  cases hresult : s.result with
  | none => exact (runInv_step hresult (h.inv.later (h.waits hresult) hp.1 hp.2)).1
  | some r =>
    have hstep : c.step s now = s := by rw [Contest.step, hresult]
    rwa [hstep]

/-- A race that is over is not polled any more. -/
theorem run_of_result (h : s.result.isSome) (ts : List Nat) : run c.step s ts = s :=
  invariant (I := (· = s)) rfl (fun s' now hs => by
    obtain ⟨r, hr⟩ := Option.isSome_iff_exists.1 h
    rw [hs, Contest.step, hr]) ts

/-- What is due is started. -/
theorem RunInv.due (h : c.RunInv s) {k : Nat} (hk : k < c.items.length)
    (hdue : c.startAt k < s.now ∨ s.result = none ∧ c.startAt k ≤ s.now) :
    k < s.state.starts.length := by
  by_contra hge
  have hmono := c.startAt_mono (Nat.le_of_not_lt hge)
  have hne : s.state.pending ≠ [] := by
    rw [h.inv.pending, ne_eq, List.drop_eq_nil_iff, List.length_zipIdx]
    omega
  obtain hlt | ⟨hnone, hle⟩ := hdue
  · have hge' := h.inv.le_startAt hne
    omega
  · have hwaits := h.waits hnone
    obtain ⟨t, -, htimer, hlt⟩ := hwaits.timer hne
    have hlater := h.inv.lt_startAt hwaits.running
      (fun f hf e he => (hwaits.ends f hf e he).1) htimer hlt
    omega

/-- When the next attempt is started: at the earlier of two moments, some time after the attempt
before it and the one when all attempts before it have ended. -/
structure EarlierOf (c : Contest ι α ε) (k : Nat) : Prop where
  stagger : c.startAt (k + 1) ≤ c.startAt k + c.stagger
  idle : ∀ t, (∀ j ≤ k, ∃ e ∈ c.endingAt j, e.1 ≤ t) → c.startAt (k + 1) ≤ t
  one : c.startAt (k + 1) = c.startAt k + c.stagger ∨
    ∀ j ≤ k, ∃ e ∈ c.endingAt j, e.1 ≤ c.startAt (k + 1)

theorem earlierOf (c : Contest ι α ε) (k : Nat) : c.EarlierOf k := by
  refine ⟨?_, fun t hall => ?_, ?_⟩
  · rw [startAt_succ]
    cases c.idleAt k with
    | none => exact le_rfl
    | some t => exact min_le_left _ _
  · obtain ⟨t', ht', j, hj, e, he, rfl⟩ := exists_idleAt fun j hj => by
      obtain ⟨e, he, -⟩ := hall j hj
      exact Option.isSome_iff_exists.2 ⟨e, he⟩
    obtain ⟨e', he', hle⟩ := hall j hj
    cases Option.mem_unique he he'
    rw [startAt_succ, ht']
    exact (min_le_right _ _).trans hle
  · rw [startAt_succ]
    cases hidle : c.idleAt k with
    | none => exact .inl rfl
    | some t =>
      obtain hle | hle := le_total (c.startAt k + c.stagger) t
      · exact .inl (min_eq_left hle)
      · refine .inr fun j hj => ?_
        obtain ⟨e, he, hle'⟩ := le_idleAt hidle hj
        exact ⟨e, he, hle'.trans_eq (min_eq_right hle).symm⟩

/-- **The staggered race.** Polled on time, the race has started the first attempts of the timeline,
in their order and when the timeline says, and every one that is due. Its result is a value that a
started attempt gives just then, and no started attempt gave one earlier; and where a started
attempt gives one earliest of all, then when that time has come the race has ended at it with a
value given at it. It ends in errors only where all attempts were started and failed, with the error
of each in the order of the items. Until it has ended every attempt that is running, and the timer
where one is left to start, wakes it; once it has ended nothing is started any more. -/
theorem race_staggered (c : Contest ι α ε) {ts : List Nat}
    (h : Along c.step Punctual c.first ts) :
    let s := run c.step c.first ts
    let count := s.state.starts.length
    (count ≤ c.items.length ∧ s.state.starts = (List.range count).map (fun k => (k, c.startAt k)) ∧
      c.startAt 0 = c.firstPoll ∧ (∀ k, c.EarlierOf k) ∧ (∀ k < count, c.startAt k ≤ s.now) ∧
      ∀ k < c.items.length, c.startAt k < s.now ∨ s.result = none ∧ c.startAt k ≤ s.now →
        k < count) ∧
    (∀ i v, s.result = some (.ok (i, v)) → c.Won s.now count i v) ∧
    (∀ i v t, i < count → c.endingAt i = some (t, .ok v) →
      (∀ j < count, ∀ t' w, c.endingAt j = some (t', .ok w) → t ≤ t') → t ≤ s.now →
        ∃ i' v', s.result = some (.ok (i', v')) ∧ s.now = t ∧
          c.endingAt i' = some (t, .ok v')) ∧
    (∀ errors, s.result = some (.error errors) → c.Lost s.now count errors) ∧
    (s.result = none → Waits s.now s.state) ∧
    (s.result.isSome → ∀ ts', run c.step s ts' = s) := by
  intro s count
  have hinv : c.RunInv s := run_invariant (runInv_first c) (fun _ _ hs hp => hs.step hp) h
  refine ⟨⟨hinv.inv.count, hinv.inv.starts, rfl, c.earlierOf, hinv.inv.started,
    fun k hk hdue => hinv.due hk hdue⟩, fun i v hr => hinv.won (i, v) hr, ?_, hinv.lost,
    hinv.waits, fun hr ts' => run_of_result hr ts'⟩
  intro i v t hi hv hearliest ht
  have hge := hinv.inv.le_ok hi hv
  have hnow : s.now = t := le_antisymm hge ht
  cases hresult : s.result with
  | none =>
    obtain ⟨f, hf, rfl⟩ | ⟨x, hx, rfl⟩ := hinv.inv.cases hi
    · have hends := (hinv.waits hresult).ends f hf
      rw [(hinv.inv.running f hf).1] at hends
      exact absurd (hends _ hv).1 (Nat.not_lt.2 ht)
    · obtain ⟨t', -, he⟩ := hinv.inv.errors x hx
      rw [hv] at he
      cases he
  | some r =>
    cases r with
    | ok x => exact ⟨x.1, x.2, rfl, hnow, hnow ▸ (hinv.won x hresult).ending⟩
    | error errors =>
      obtain ⟨t', -, e, -, he⟩ := (hinv.lost errors hresult).failed i hi
      rw [hv] at he
      cases he

end

end Contest

/-! ### A tie -/

/-- Two attempts that give a value at the same time. -/
def tie : Contest Unit Nat Unit where
  items := [(), ()]
  stagger := 200
  attempt := fun k _ _ => if k = 0 then some (500, .ok 10) else some (300, .ok 11)
  firstPoll := 0

theorem tie_punctual : Along tie.step Punctual tie.first [200, 500] :=
  ⟨⟨by decide, by decide⟩, ⟨by decide, by decide⟩, trivial⟩

/-- Of a tie only one value is the result. -/
theorem tie_one_winner :
    let s := run tie.step tie.first [200, 500]
    Along tie.step Punctual tie.first [200, 500] ∧ s.state.starts = [(0, 0), (1, 200)] ∧
      s.result = some (.ok (0, 10)) ∧ s.result ≠ some (.ok (1, 11)) ∧
      tie.endingAt 1 = some (500, .ok 11) ∧
      ∀ j < 2, j ≠ 1 → ∀ t w, tie.endingAt j = some (t, .ok w) → 500 ≤ t := by
  refine ⟨tie_punctual, rfl, rfl, ?_, rfl, fun j hj hne t w he => ?_⟩
  · rw [show (run tie.step tie.first [200, 500]).result = some (.ok (0, 10)) from rfl]
    intro heq
    cases heq
  · obtain rfl : j = 0 := by omega
    rw [show tie.endingAt 0 = some (500, .ok 10) from rfl] at he
    cases he
    exact le_rfl

/-- The first one wins the tie. -/
theorem race_staggered_tie : tie.Won 500 2 0 10 :=
  (Contest.race_staggered tie tie_punctual).2.1 0 10 rfl

end MatStack.Race
