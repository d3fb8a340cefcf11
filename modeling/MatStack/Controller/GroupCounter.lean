import Mathlib.Data.List.Pairwise
import MatStack.Lib.Machine
import MatStack.Lib.Text

/-!
# The persisted group data counter

`PersistedGroupCounter` hands out the message counters of groupcast sends, which are AEAD nonces
under keys several processes share. It persists ahead of use: the file always holds a ceiling, and
a value is handed out only below it. A history is a run of processes over one file: each loads it,
takes values, jumps the window, and dies at any point, and each write of the file may fail with or
without having replaced it. `CounterSystem.Ahead` is the invariant that ties the counter in memory,
its ceiling and the file together; it holds as long as no ceiling leaves the range of `u32`, and
with it the values handed out over the whole history increase (`handedOut_increasing`). The
arithmetic wraps, and near the end of the range a reload starts low again (`reload_reuses`).
-/

namespace MatStack

open Machine

/-- The kinds of input/output error the counter tells apart. -/
inductive IoErrorKind where
  | wouldBlock
  | invalidData
  | other
deriving Repr, DecidableEq

/-- An input/output error. -/
structure IoError where
  kind : IoErrorKind
  message : String
deriving Repr, DecidableEq

/-- The counter file: its text, or why there is none. -/
inductive CounterFile where
  | absent
  | unreadable (e : IoError)
  | text (s : List Char)
deriving Repr, DecidableEq

/-- How an atomic replacement of the file ends. A write that reports an error, or whose process
dies inside it, may or may not have replaced the file; it never leaves a part of it. -/
inductive Replace where
  | done
  | failed (e : IoError) (replaced : Bool)
deriving Repr, DecidableEq

/-- Persist-ahead window. -/
def counterEpoch : UInt32 := 4096

/-- The value the file holds: 0 for a missing file, an error for a text that is no `u32`. -/
def CounterFile.value : CounterFile → Except IoError UInt32
  | .absent => .ok 0
  | .unreadable e => .error e
  | .text s =>
    match Text.parseUnsigned 32 (Text.trim s) with
    | some n => .ok (UInt32.ofNat n)
    | none => .error { kind := .invalidData, message := "corrupt group counter file" }

/-- The text written for a ceiling. -/
def CounterFile.ofCeiling (ceiling : UInt32) : CounterFile :=
  .text (Nat.toDigits 10 ceiling.toNat ++ ['\n'])

/-- Global group data counter with persist-ahead storage. -/
structure PersistedGroupCounter where
  next : UInt32
  ceiling : UInt32
deriving Repr, DecidableEq

namespace PersistedGroupCounter

/-- Atomic write of a new ceiling; the counter takes it over only when the write succeeds. -/
def persist (c : PersistedGroupCounter) (ceiling : UInt32) (file : CounterFile) (w : Replace) :
    Except IoError Unit × PersistedGroupCounter × CounterFile :=
  match w with
  | .done => (.ok (), { c with ceiling }, .ofCeiling ceiling)
  | .failed e replaced => (.error e, c, if replaced then .ofCeiling ceiling else file)

/-- Starts an epoch above both the file and the other controller's counter, and persists the next
ceiling before returning. `locked` says that another process holds the lock file. -/
def load (locked : Bool) (file : CounterFile) (chipToolGdc : UInt32) (w : Replace) :
    Except IoError PersistedGroupCounter × CounterFile :=
  if locked then
    (.error {
      kind := .wouldBlock
      message := "group counter is locked by another process (matd running?)" }, file)
  else
    match file.value with
    | .error e => (.error e, file)
    | .ok persisted =>
      let start := max persisted chipToolGdc + counterEpoch
      let c : PersistedGroupCounter := { next := start, ceiling := start }
      match c.persist (start + counterEpoch) file w with
      | (.ok (), c, file) => (.ok c, file)
      | (.error e, _, file) => (.error e, file)

/-- The counter to send with. Crossing the persisted ceiling persists the next window first. -/
def takeNext (c : PersistedGroupCounter) (file : CounterFile) (w : Replace) :
    Except IoError UInt32 × PersistedGroupCounter × CounterFile :=
  if c.next = c.ceiling then
    match c.persist (c.ceiling + counterEpoch) file w with
    | (.ok (), c, file) => (.ok c.next, { c with next := c.next + 1 }, file)
    | (.error e, c, file) => (.error e, c, file)
  else
    (.ok c.next, { c with next := c.next + 1 }, file)

/-- Jumps the window forward as a restart would; reports the next value before and after. -/
def jump (c : PersistedGroupCounter) (file : CounterFile) (w : Replace) :
    Except IoError (UInt32 × UInt32) × PersistedGroupCounter × CounterFile :=
  let target := c.ceiling + counterEpoch
  match c.persist (target + counterEpoch) file w with
  | (.ok (), c', file) => (.ok (c.next, target), { c' with next := target }, file)
  | (.error e, c, file) => (.error e, c, file)

end PersistedGroupCounter

/-! ## Histories of one counter file -/

/-- One counter file, the process that holds its lock, and the values handed out so far. -/
structure CounterSystem where
  file : CounterFile
  live : Option PersistedGroupCounter
  handedOut : List UInt32
deriving Repr, DecidableEq

/-- What processes do to the file. -/
inductive CounterEvent where
  | load (chipToolGdc : UInt32) (w : Replace)
  | next (w : Replace)
  | jump (w : Replace)
  | die
deriving Repr, DecidableEq

namespace CounterSystem

/-- A file nobody has locked yet. -/
def start (file : CounterFile) : CounterSystem := { file, live := none, handedOut := [] }

/-- One step of a history. A call that returns an error hands nothing out; a process that fails to
load exits and gives the lock back. -/
def step (s : CounterSystem) : CounterEvent → CounterSystem
  | .load gdc w =>
    match PersistedGroupCounter.load s.live.isSome s.file gdc w with
    | (.ok c, file) => { s with file, live := some c }
    | (.error _, file) => { s with file }
  | .next w =>
    match s.live with
    | none => s
    | some c =>
      match c.takeNext s.file w with
      | (.ok v, c, file) => { file, live := some c, handedOut := s.handedOut ++ [v] }
      | (.error _, c, file) => { s with file, live := some c }
  | .jump w =>
    match s.live with
    | none => s
    | some c =>
      match c.jump s.file w with
      | (_, c, file) => { s with file, live := some c }
  | .die => { s with live := none }

/-- Every ceiling the step reserves stays inside `u32`. -/
def InRange (s : CounterSystem) : CounterEvent → Prop
  | .load gdc _ => s.live = none → ∀ n ∈ s.file.value.toOption,
      (max n gdc).toNat + 2 * counterEpoch.toNat < 2 ^ 32
  | .next _ => ∀ c ∈ s.live, c.next = c.ceiling → c.ceiling.toNat + counterEpoch.toNat < 2 ^ 32
  | .jump _ => ∀ c ∈ s.live, c.ceiling.toNat + 2 * counterEpoch.toNat < 2 ^ 32
  | .die => True

instance (s : CounterSystem) : ∀ e, Decidable (s.InRange e)
  | .load gdc _ =>
    have : Decidable (∀ n ∈ s.file.value.toOption,
        (max n gdc).toNat + 2 * counterEpoch.toNat < 2 ^ 32) := Option.decidableForallMem _
    inferInstanceAs (Decidable (_ → _))
  | .next _ => Option.decidableForallMem _
  | .jump _ => Option.decidableForallMem _
  | .die => inferInstanceAs (Decidable True)

/-- What the counter promises about a history. -/
structure Sound (s : CounterSystem) : Prop where
  /-- The values handed out increase. -/
  increasing : s.handedOut.Pairwise (· < ·)
  /-- No value is handed out twice. -/
  nodup : s.handedOut.Nodup
  /-- The file holds a ceiling strictly above every value handed out. -/
  persisted : ∀ v ∈ s.handedOut, ∃ d, s.file.value = .ok d ∧ v < d

/-! ## The invariant -/

/-- The file is ahead of everything handed out, and of the ceiling of the process that is running;
that process is itself ahead of everything handed out. -/
structure Ahead (s : CounterSystem) : Prop where
  increasing : s.handedOut.Pairwise (· < ·)
  persisted : ∀ v ∈ s.handedOut, ∃ d, s.file.value = .ok d ∧ v < d
  live : ∀ c, s.live = some c →
    c.next ≤ c.ceiling ∧ (∃ d, s.file.value = .ok d ∧ c.ceiling ≤ d) ∧
      ∀ v ∈ s.handedOut, v < c.next

/-- A written ceiling reads back. -/
@[simp] theorem value_ofCeiling (n : UInt32) : (CounterFile.ofCeiling n).value = .ok n := by
  simp [CounterFile.ofCeiling, CounterFile.value,
    Text.parseUnsigned_trim_toDigits n.toNat_lt]

/-- Adding an epoch inside the range adds its value. -/
theorem toNat_add_epoch {n : UInt32} (h : n.toNat + counterEpoch.toNat < 2 ^ 32) :
    (n + counterEpoch).toNat = n.toNat + counterEpoch.toNat := by
  rw [UInt32.toNat_add, Nat.mod_eq_of_lt h]

/-- Adding an epoch inside the range goes up. -/
theorem lt_add_epoch {n : UInt32} (h : n.toNat + counterEpoch.toNat < 2 ^ 32) :
    n < n + counterEpoch := by
  have : 0 < counterEpoch.toNat := by decide
  rw [UInt32.lt_iff_toNat_lt, toNat_add_epoch h]
  omega

/-- The greater of two values is at least the first. -/
theorem le_max_left' (n m : UInt32) : n ≤ max n m := by
  change n ≤ if n ≤ m then m else n
  split
  · assumption
  · exact UInt32.le_refl n

/-- A value below another has a successor that is at most it. -/
theorem add_one_le {n m : UInt32} (h : n < m) : n < n + 1 ∧ n + 1 ≤ m := by
  rw [UInt32.lt_iff_toNat_lt] at h
  have hm := m.toNat_lt
  rw [UInt32.lt_iff_toNat_lt, UInt32.le_iff_toNat_le, UInt32.toNat_add,
    Nat.mod_eq_of_lt (by rw [UInt32.toNat_one]; omega), UInt32.toNat_one]
  omega

namespace Ahead

/-- A history that has not begun. -/
theorem start (file : CounterFile) : Ahead (CounterSystem.start file) :=
  ⟨.nil, fun _ hv => absurd hv List.not_mem_nil, fun _ hc => absurd hc (by simp [CounterSystem.start])⟩

/-- A process that dies takes nothing back. -/
theorem die {s : CounterSystem} (h : Ahead s) : Ahead (s.step .die) :=
  ⟨h.increasing, h.persisted, fun _ hc => by cases hc⟩

/-- Replacing the file by a higher ceiling, or leaving it, keeps a running process ahead. -/
theorem replace {s : CounterSystem} (h : Ahead s) {c : PersistedGroupCounter} (hc : s.live = some c)
    {ceiling : UInt32} (hle : c.ceiling ≤ ceiling) (replaced : Bool) :
    Ahead { s with
      file := if replaced then .ofCeiling ceiling else s.file
      live := some c } := by
  obtain ⟨hn, hd, hv⟩ := h.live c hc
  cases replaced with
  | false => exact ⟨h.increasing, h.persisted, fun _ he => by cases he; exact ⟨hn, hd, hv⟩⟩
  | true =>
    have hlt : ∀ v ∈ s.handedOut, v < ceiling :=
      fun v hm => UInt32.lt_of_lt_of_le (hv v hm) (UInt32.le_trans hn hle)
    refine ⟨h.increasing, fun v hm => ⟨ceiling, by simp, hlt v hm⟩, fun _ he => ?_⟩
    cases he
    exact ⟨hn, ⟨ceiling, by simp, hle⟩, hv⟩

/-- A process that has moved up below a ceiling the file holds is ahead. -/
theorem advance {s : CounterSystem} (h : Ahead s) {c k : PersistedGroupCounter}
    (hc : s.live = some c) (hnext : c.next ≤ k.next) (hle : k.next ≤ k.ceiling) :
    Ahead { s with file := .ofCeiling k.ceiling, live := some k } := by
  obtain ⟨-, -, hv⟩ := h.live c hc
  have hv' : ∀ v ∈ s.handedOut, v < k.next := fun v hm => UInt32.lt_of_lt_of_le (hv v hm) hnext
  refine ⟨h.increasing, fun v hm => ⟨k.ceiling, by simp, UInt32.lt_of_lt_of_le (hv' v hm) hle⟩, ?_⟩
  intro _ he
  cases he
  exact ⟨hle, ⟨k.ceiling, by simp, UInt32.le_refl _⟩, hv'⟩

/-- Handing out a value below the ceiling keeps the process ahead. -/
theorem handOut {s : CounterSystem} (h : Ahead s) {c : PersistedGroupCounter}
    (hc : s.live = some c) (hlt : c.next < c.ceiling) :
    Ahead { s with
      live := some { c with next := c.next + 1 }
      handedOut := s.handedOut ++ [c.next] } := by
  obtain ⟨-, ⟨d, hd, hcd⟩, hv⟩ := h.live c hc
  obtain ⟨hsucc, hle⟩ := add_one_le hlt
  refine ⟨?_, fun v hm => ?_, fun c' he => ?_⟩
  · rw [List.pairwise_append]
    exact ⟨h.increasing, List.pairwise_singleton .., fun a ha b hb => by
      rw [List.mem_singleton.1 hb]; exact hv a ha⟩
  · rcases List.mem_append.1 hm with hm | hm
    · exact h.persisted v hm
    · rw [List.mem_singleton.1 hm]
      exact ⟨d, hd, UInt32.lt_of_lt_of_le hlt hcd⟩
  · cases he
    refine ⟨hle, ⟨d, hd, hcd⟩, fun v hm => ?_⟩
    rcases List.mem_append.1 hm with hm | hm
    · exact UInt32.lt_trans (hv v hm) hsucc
    · rw [List.mem_singleton.1 hm]; exact hsucc

/-- Loading starts an epoch above the file, hence above everything handed out. -/
theorem load {s : CounterSystem} (h : Ahead s) {gdc : UInt32} {w : Replace}
    (hr : s.InRange (.load gdc w)) : Ahead (s.step (.load gdc w)) := by
  cases hl : s.live with
  | some c =>
    simp only [CounterSystem.step, PersistedGroupCounter.load, hl, Option.isSome_some, if_true]
    exact ⟨h.increasing, h.persisted, fun c' he => h.live c' (hl.trans he)⟩
  | none =>
    cases hval : s.file.value with
    | error err =>
      simp only [CounterSystem.step, PersistedGroupCounter.load, hl, hval, Option.isSome_none,
        Bool.false_eq_true, if_false]
      exact ⟨h.increasing, h.persisted, fun _ he => by cases he⟩
    | ok n =>
      have hrange := hr hl n (by rw [hval]; rfl)
      have hstart := lt_add_epoch (n := max n gdc) (by omega)
      have hceil := lt_add_epoch (n := max n gdc + counterEpoch)
        (by rw [toNat_add_epoch (by omega)]; omega)
      have hv : ∀ v ∈ s.handedOut, v < max n gdc + counterEpoch := fun v hm => by
        obtain ⟨d, hd, hlt⟩ := h.persisted v hm
        rw [hval] at hd
        cases hd
        exact UInt32.lt_trans (UInt32.lt_of_lt_of_le hlt (le_max_left' ..)) hstart
      have hp : ∀ v ∈ s.handedOut, ∃ d,
          (CounterFile.ofCeiling (max n gdc + counterEpoch + counterEpoch)).value = .ok d ∧ v < d :=
        fun v hm => ⟨_, value_ofCeiling _, UInt32.lt_trans (hv v hm) hceil⟩
      cases w with
      | done =>
        simp only [CounterSystem.step, PersistedGroupCounter.load, PersistedGroupCounter.persist,
          hl, hval, Option.isSome_none, Bool.false_eq_true, if_false]
        refine ⟨h.increasing, hp, fun _ he => ?_⟩
        obtain rfl := Option.some.inj he
        exact ⟨UInt32.le_of_lt hceil, ⟨_, value_ofCeiling _, UInt32.le_refl _⟩, hv⟩
      | failed err replaced =>
        simp only [CounterSystem.step, PersistedGroupCounter.load, PersistedGroupCounter.persist,
          hl, hval, Option.isSome_none, Bool.false_eq_true, if_false]
        cases replaced with
        | false => exact ⟨h.increasing, h.persisted, fun _ he => by cases he⟩
        | true => exact ⟨h.increasing, hp, fun _ he => by cases he⟩

/-- Taking a value reserves the next window first when it has to. -/
theorem next {s : CounterSystem} (h : Ahead s) {w : Replace} (hr : s.InRange (.next w)) :
    Ahead (s.step (.next w)) := by
  cases hl : s.live with
  | none => simpa [step, hl] using h
  | some c =>
    by_cases heq : c.next = c.ceiling
    · have hlt := lt_add_epoch (hr c hl heq)
      cases w with
      | done =>
        simp only [step, hl, PersistedGroupCounter.takeNext, heq, if_true,
          PersistedGroupCounter.persist]
        have := (h.advance (k := { c with ceiling := c.ceiling + counterEpoch }) hl (UInt32.le_refl _)
          (by simp only [heq]; exact UInt32.le_of_lt hlt)).handOut rfl (by simp only [heq]; exact hlt)
        simpa only [heq] using this
      | failed e replaced =>
        simp only [step, hl, PersistedGroupCounter.takeNext, heq, if_true,
          PersistedGroupCounter.persist]
        exact h.replace hl (UInt32.le_of_lt hlt) replaced
    · have hlt := UInt32.lt_of_le_of_ne (h.live c hl).1 heq
      simp only [step, hl, PersistedGroupCounter.takeNext, heq, if_false]
      exact h.handOut hl hlt

/-- A jump moves to the end of an epoch above the ceiling. -/
theorem jump {s : CounterSystem} (h : Ahead s) {w : Replace} (hr : s.InRange (.jump w)) :
    Ahead (s.step (.jump w)) := by
  cases hl : s.live with
  | none => simpa [step, hl] using h
  | some c =>
    have hrange := hr c hl
    have hlt := lt_add_epoch (n := c.ceiling) (by omega)
    have hlt' := lt_add_epoch (n := c.ceiling + counterEpoch)
      (by rw [toNat_add_epoch (by omega)]; omega)
    cases w with
    | done =>
      simp only [step, hl, PersistedGroupCounter.jump, PersistedGroupCounter.persist]
      exact h.advance (k := ⟨c.ceiling + counterEpoch, c.ceiling + counterEpoch + counterEpoch⟩) hl
        (UInt32.le_trans (h.live c hl).1 (UInt32.le_of_lt hlt)) (UInt32.le_of_lt hlt')
    | failed e replaced =>
      simp only [step, hl, PersistedGroupCounter.jump, PersistedGroupCounter.persist]
      exact h.replace hl (UInt32.le_of_lt (UInt32.lt_trans hlt hlt')) replaced

/-- **One step** that stays in range keeps the counter ahead. -/
theorem step {s : CounterSystem} {e : CounterEvent} (h : Ahead s) (hr : s.InRange e) :
    Ahead (s.step e) := by
  cases e with
  | load gdc w => exact h.load hr
  | next w => exact h.next hr
  | jump w => exact h.jump hr
  | die => exact h.die

/-- A counter that is ahead keeps its promises. -/
theorem sound {s : CounterSystem} (h : Ahead s) : Sound s :=
  ⟨h.increasing, h.increasing.imp UInt32.ne_of_lt, h.persisted⟩

end Ahead

/-- **The values handed out over a history increase**, each below a ceiling on disk, as long as no
step of the history reserves a ceiling past the end of `u32`. -/
theorem handedOut_increasing {file : CounterFile} {es : List CounterEvent}
    (h : Along step InRange (start file) es) : Sound (run step (start file) es) :=
  (run_invariant (Ahead.start file) (fun _ _ hs hr => hs.step hr) h).sound

/-- Two processes, the second after a crash of the first, starting from an empty directory. -/
theorem handedOut_increasing_two_loads :
    Sound (run step (start .absent)
      [.load 7 .done, .next .done, .jump .done, .next .done, .die, .load 0 .done, .next .done]) :=
  handedOut_increasing (by decide)

/-- Two processes that each start from the other controller's counter at the end of the range
wrap to the same value: the reload hands out 4095 again. -/
theorem reload_reuses : ¬ ∀ file es, Sound (run step (start file) es) := fun h => by
  have hs := (h .absent [.load 0xffffffff .done, .next .done, .die, .load 0xffffffff .done,
    .next .done]).nodup
  revert hs
  decide

end CounterSystem

end MatStack
