import Mathlib.Data.List.Basic
import Mathlib.Tactic.Basic
import MatStack.Lib.Machine
import MatStack.Lib.SlidingWindow

/-!
# The replay window over received message counters

`RxWindow` keeps the greatest counter received and a bitmap of the 32 counters below it. What the
window is for is `RxWindow.Remembers`: the counters it refuses. A step adds the presented counter
to that set and, with one exception, takes nothing out of it: a jump of exactly 32 clears the
bitmap while the old maximum, now at distance 32, is still inside the window. So a sequence is
replay free exactly when it never presents a maximum again after such a jump
(`RxWindow.acceptsAtMostOnce_iff`).
-/

namespace MatStack

open Machine SlidingWindow

/-- Sliding replay-protection window (width 32) over received counters. -/
structure RxWindow where
  /-- The greatest counter received. -/
  max : UInt32
  /-- Bit `i` set = counter `max - 1 - i` already seen. -/
  bitmap : UInt32
  /-- No counter has been received. -/
  empty : Bool
deriving Repr, DecidableEq

namespace RxWindow

/-- The window of a fresh session. -/
def new : RxWindow := { max := 0, bitmap := 0, empty := true }

/-- `true` (and the counter is committed) if the counter is fresh. -/
def checkAndCommit (w : RxWindow) (counter : UInt32) : Bool × RxWindow :=
  if w.empty then
    (true, { max := counter, bitmap := 0, empty := false })
  else if counter > w.max then
    let delta := counter - w.max
    let bitmap : UInt32 := if delta ≥ 32 then 0 else (w.bitmap <<< delta) ||| (1 <<< (delta - 1))
    (true, { w with max := counter, bitmap })
  else if counter = w.max then
    (false, w)
  else
    let offset := w.max - counter -- at least 1
    if offset > 32 then
      (false, w)
    else
      let bit : UInt32 := 1 <<< (offset - 1)
      if w.bitmap &&& bit ≠ 0 then (false, w) else (true, { w with bitmap := w.bitmap ||| bit })

/-- Whether the next counter is accepted. -/
def accepts (w : RxWindow) (counter : UInt32) : Bool := (w.checkAndCommit counter).1

/-- The window after one more counter. -/
def commit (w : RxWindow) (counter : UInt32) : RxWindow := (w.checkAndCommit counter).2

/-- The window after a sequence of counters. -/
def feed (w : RxWindow) (counters : List UInt32) : RxWindow := run commit w counters

@[simp] theorem feed_nil (w : RxWindow) : w.feed [] = w := rfl

@[simp] theorem feed_cons (w : RxWindow) (c : UInt32) (cs : List UInt32) :
    w.feed (c :: cs) = (w.commit c).feed cs := rfl

@[simp] theorem feed_append (w : RxWindow) (cs ds : List UInt32) :
    w.feed (cs ++ ds) = (w.feed cs).feed ds := run_append ..

/-! ## What the window refuses -/

/-- How far a counter lies below the maximum. -/
def distance (w : RxWindow) (counter : UInt32) : Nat := w.max.toNat - counter.toNat

/-- The counters the window refuses: the maximum, and below it those out of the window or with
their bit set. -/
def Remembers (w : RxWindow) (counter : UInt32) : Prop :=
  w.empty = false ∧ counter.toNat ≤ w.max.toNat ∧
    (counter = w.max ∨ 32 < w.distance counter ∨ Seen w.bitmap.toBitVec (w.distance counter))

/-- The one step that takes a counter out of `Remembers`: a jump of exactly 32 from it. -/
def Forgets (w : RxWindow) (jump counter : UInt32) : Prop :=
  counter = w.max ∧ jump.toNat = counter.toNat + 32

/-- The distance of a counter below the maximum is the source's `offset`. -/
theorem toNat_offset {w : RxWindow} {c : UInt32} (h : c.toNat ≤ w.max.toNat) :
    (w.max - c).toNat = w.distance c :=
  UInt32.toNat_sub_of_le _ _ (UInt32.le_iff_toNat_le.2 h)

/-- The bitmap after a forward step: empty after a jump of 32 or more, and otherwise the old
maximum together with the old bits, `delta` further away. -/
theorem seen_forward {w : RxWindow} {c : UInt32} (h : w.max.toNat < c.toNat) {o : Nat} :
    Seen (if c - w.max ≥ 32 then 0
        else (w.bitmap <<< (c - w.max)) ||| (1 <<< (c - w.max - 1)) : UInt32).toBitVec o ↔
      o ≤ 32 ∧ c.toNat < w.max.toNat + 32 ∧ (o = c.toNat - w.max.toNat ∨
        c.toNat - w.max.toNat < o ∧ Seen w.bitmap.toBitVec (o - (c.toNat - w.max.toNat))) := by
  have hd : (c - w.max).toNat = c.toNat - w.max.toNat :=
    UInt32.toNat_sub_of_le _ _ (UInt32.le_iff_toNat_le.2 h.le)
  have h32 : (32 : UInt32) ≤ c - w.max ↔ 32 ≤ c.toNat - w.max.toNat := by
    rw [UInt32.le_iff_toNat_le, hd]
    rfl
  split
  · rename_i hge
    have := h32.1 hge
    exact ⟨fun hs => absurd hs (not_seen_zero o), fun hs => absurd hs.2.1 (by omega)⟩
  · rename_i hlt
    have hlt : c.toNat - w.max.toNat < 32 := Nat.lt_of_not_le (mt h32.2 hlt)
    rw [UInt32.toBitVec_or, toBitVec_shiftLeft_lt _ _ (hd ▸ hlt),
      toBitVec_bit (by omega) (by omega), hd]
    have hs := seen_advance (b := w.bitmap.toBitVec) (d := c.toNat - w.max.toNat) (o := o) (by omega)
    rw [advance] at hs
    rw [hs]
    exact and_congr_right fun _ => (and_iff_right (by omega)).symm

/-- The source's test of the bit at `offset` reads the bit of the counter's distance. -/
theorem bit_ne_zero_iff {w : RxWindow} {c : UInt32} (h : c.toNat < w.max.toNat)
    (h32 : w.distance c ≤ 32) :
    w.bitmap &&& (1 <<< (w.max - c - 1)) ≠ 0 ↔ Seen w.bitmap.toBitVec (w.distance c) := by
  have hd := toNat_offset h.le
  have hpos : 0 < w.distance c := Nat.sub_pos_of_lt h
  rw [← and_mask_ne_zero hpos, ← hd, ← toBitVec_bit (by omega) (by omega), ne_eq,
    ← UInt32.toBitVec_inj, UInt32.toBitVec_and]
  rfl

/-- Setting the bit at `offset` records the counter's distance and no other. -/
theorem seen_setBit {w : RxWindow} {c : UInt32} (h : c.toNat < w.max.toNat)
    (h32 : w.distance c ≤ 32) {o : Nat} :
    Seen (w.bitmap ||| (1 <<< (w.max - c - 1))).toBitVec o ↔
      Seen w.bitmap.toBitVec o ∨ o = w.distance c := by
  have hd := toNat_offset h.le
  have hpos : 0 < w.distance c := Nat.sub_pos_of_lt h
  have hs := seen_mark (b := w.bitmap.toBitVec) (o := o) hpos
  rw [mark] at hs
  rw [UInt32.toBitVec_or, toBitVec_bit (by omega) (by omega), hd, hs]
  exact or_congr_right ⟨fun h => h.1, fun h => ⟨h, by omega⟩⟩

/-! ## One call

`checkAndCommit` is described once, by its four outcomes; everything below argues from them.
-/

/-- The first counter is accepted and becomes the maximum. -/
theorem checkAndCommit_of_empty {w : RxWindow} (he : w.empty = true) (c : UInt32) :
    w.checkAndCommit c = (true, { max := c, bitmap := 0, empty := false }) := by
  simp [checkAndCommit, he]

/-- A counter above the maximum is accepted and becomes the maximum. -/
theorem checkAndCommit_of_gt {w : RxWindow} {c : UInt32} (he : w.empty = false)
    (h : w.max.toNat < c.toNat) :
    w.checkAndCommit c = (true, { w with
      max := c
      bitmap := if c - w.max ≥ 32 then 0
        else (w.bitmap <<< (c - w.max)) ||| (1 <<< (c - w.max - 1)) }) := by
  have : w.max < c := UInt32.lt_iff_toNat_lt.2 h
  simp [checkAndCommit, he, this]

/-- A remembered counter is refused and changes nothing. -/
theorem checkAndCommit_of_remembers {w : RxWindow} {c : UInt32} (h : w.Remembers c) :
    w.checkAndCommit c = (false, w) := by
  obtain ⟨he, hle, hc⟩ := h
  have hgt : ¬ w.max < c := fun hlt => absurd (UInt32.lt_iff_toNat_lt.1 hlt) (by omega)
  by_cases heq : c = w.max
  · simp [checkAndCommit, he, heq]
  have hlt : c.toNat < w.max.toNat := Nat.lt_of_le_of_ne hle (mt UInt32.toNat_inj.1 heq)
  have h32 : (32 : UInt32) < w.max - c ↔ 32 < w.distance c := by
    rw [UInt32.lt_iff_toNat_lt, toNat_offset hle]
    rfl
  by_cases hfar : 32 < w.distance c
  · simp [checkAndCommit, he, hgt, heq, h32.2 hfar]
  · have hseen := (hc.resolve_left heq).resolve_left hfar
    have hbit := (bit_ne_zero_iff hlt (by omega)).2 hseen
    simp [checkAndCommit, he, hgt, heq, hbit]

/-- A counter below the maximum that is not remembered is accepted and its bit is set. -/
theorem checkAndCommit_of_below {w : RxWindow} {c : UInt32} (he : w.empty = false)
    (hle : c.toNat ≤ w.max.toNat) (h : ¬ w.Remembers c) :
    c.toNat < w.max.toNat ∧ w.distance c ≤ 32 ∧
      w.checkAndCommit c = (true, { w with bitmap := w.bitmap ||| (1 <<< (w.max - c - 1)) }) := by
  have hc : ¬ (c = w.max ∨ 32 < w.distance c ∨ Seen w.bitmap.toBitVec (w.distance c)) :=
    fun hc => h ⟨he, hle, hc⟩
  obtain ⟨heq, hfar, hseen⟩ : c ≠ w.max ∧ w.distance c ≤ 32 ∧
      ¬ Seen w.bitmap.toBitVec (w.distance c) := by simpa using hc
  have hlt : c.toNat < w.max.toNat := Nat.lt_of_le_of_ne hle (mt UInt32.toNat_inj.1 heq)
  have hgt : ¬ w.max < c := fun hlt => absurd (UInt32.lt_iff_toNat_lt.1 hlt) (by omega)
  have h32 : ¬ (32 : UInt32) < w.max - c := by
    rw [UInt32.lt_iff_toNat_lt, toNat_offset hle]
    exact Nat.not_lt.2 hfar
  have hbit := not_not.1 (mt (bit_ne_zero_iff hlt hfar).1 hseen)
  exact ⟨hlt, hfar, by simp [checkAndCommit, he, hgt, heq, h32, hbit]⟩

/-- **The window refuses exactly what it remembers.** -/
theorem accepts_iff (w : RxWindow) (c : UInt32) : w.accepts c = true ↔ ¬ w.Remembers c := by
  constructor
  · intro h hr
    simp [accepts, checkAndCommit_of_remembers hr] at h
  · intro h
    rcases Bool.eq_false_or_eq_true w.empty with he | he
    · rw [accepts, checkAndCommit_of_empty he]
    rcases Nat.lt_or_ge w.max.toNat c.toNat with hgt | hle
    · rw [accepts, checkAndCommit_of_gt he hgt]
    · rw [accepts, (checkAndCommit_of_below he hle h).2.2]

/-- A counter is remembered once it has been presented. -/
theorem remembers_commit_self (w : RxWindow) (c : UInt32) : (w.commit c).Remembers c := by
  rcases Bool.eq_false_or_eq_true w.empty with he | he
  · rw [commit, checkAndCommit_of_empty he]
    exact ⟨rfl, le_rfl, Or.inl rfl⟩
  rcases Nat.lt_or_ge w.max.toNat c.toNat with hgt | hle
  · rw [commit, checkAndCommit_of_gt he hgt]
    exact ⟨he, le_rfl, Or.inl rfl⟩
  by_cases hr : w.Remembers c
  · rw [commit, checkAndCommit_of_remembers hr]
    exact hr
  · obtain ⟨hlt, h32, e⟩ := checkAndCommit_of_below he hle hr
    rw [commit, e]
    exact ⟨he, hle, Or.inr (Or.inr ((seen_setBit hlt h32).2 (Or.inr rfl)))⟩

/-- **A step forgets nothing** but the maximum it jumps 32 away from. -/
theorem Remembers.commit {w : RxWindow} {c x : UInt32} (h : w.Remembers x)
    (hf : ¬ w.Forgets c x) : (w.commit c).Remembers x := by
  obtain ⟨he, hle, hx⟩ := h
  rcases Nat.lt_or_ge w.max.toNat c.toNat with hgt | hcle
  · rw [RxWindow.commit, checkAndCommit_of_gt he hgt]
    refine ⟨he, by simp only; omega, Or.inr ?_⟩
    simp only [distance]
    by_cases hfar : 32 < c.toNat - x.toNat
    · exact Or.inl hfar
    refine Or.inr ((seen_forward hgt).2 ⟨by omega, ?_, ?_⟩)
    · rcases hx with rfl | hx | hx
      · exact Nat.lt_of_le_of_ne (by omega) fun h => hf ⟨rfl, h⟩
      · simp only [distance] at hx; omega
      · have := hx.1
        simp only [distance] at this
        omega
    · rcases hx with rfl | hx | hx
      · exact Or.inl rfl
      · simp only [distance] at hx; omega
      · have := hx.1
        simp only [distance] at this hx
        refine Or.inr ⟨by omega, ?_⟩
        rwa [show c.toNat - x.toNat - (c.toNat - w.max.toNat) = w.max.toNat - x.toNat by omega]
  · by_cases hr : w.Remembers c
    · rw [RxWindow.commit, checkAndCommit_of_remembers hr]
      exact ⟨he, hle, hx⟩
    · obtain ⟨hlt, h32, e⟩ := checkAndCommit_of_below he hcle hr
      rw [RxWindow.commit, e]
      refine ⟨he, hle, hx.imp_right (Or.imp_right fun hs => ?_)⟩
      exact (seen_setBit hlt h32).2 (Or.inl hs)

/-- The jump of exactly 32 does forget the old maximum. -/
theorem Forgets.not_remembers {w : RxWindow} {c x : UInt32} (he : w.empty = false)
    (hf : w.Forgets c x) : ¬ (w.commit c).Remembers x := by
  obtain ⟨rfl, hc⟩ := hf
  have hgt : w.max.toNat < c.toNat := by omega
  rw [commit, checkAndCommit_of_gt he hgt]
  rintro ⟨-, -, heq | hfar | hseen⟩
  · exact absurd (congrArg UInt32.toNat heq) (by simp only; omega)
  · simp only [distance] at hfar
    omega
  · have := ((seen_forward hgt).1 hseen).2.1
    omega

/-- A counter below the maximum and not remembered stays so until it, or something above the
maximum, is presented. -/
theorem not_remembers_commit {w : RxWindow} {c x : UInt32} (he : w.empty = false)
    (hx : x.toNat ≤ w.max.toNat) (hr : ¬ w.Remembers x) (hc : c.toNat ≤ w.max.toNat) (hne : c ≠ x) :
    (w.commit c).max = w.max ∧ (w.commit c).empty = false ∧ ¬ (w.commit c).Remembers x := by
  by_cases hrc : w.Remembers c
  · rw [commit, checkAndCommit_of_remembers hrc]
    exact ⟨rfl, he, hr⟩
  obtain ⟨hlt, h32, e⟩ := checkAndCommit_of_below he hc hrc
  rw [commit, e]
  refine ⟨rfl, he, ?_⟩
  rintro ⟨-, -, heq | hfar | hseen⟩
  · exact hr ⟨he, hx, Or.inl heq⟩
  · exact hr ⟨he, hx, Or.inr (Or.inl hfar)⟩
  · rcases (seen_setBit hlt h32).1 hseen with hs | hd
    · exact hr ⟨he, hx, Or.inr (Or.inr hs)⟩
    · refine hne (UInt32.toNat_inj.1 ?_)
      simp only [distance] at hd
      omega

/-! ## Sequences of counters -/

/-- After at least one counter the window holds the greatest of them. -/
theorem max_feed {cs : List UInt32} (hne : cs ≠ []) :
    (new.feed cs).empty = false ∧ (new.feed cs).max ∈ cs ∧
      ∀ x ∈ cs, x.toNat ≤ (new.feed cs).max.toNat := by
  induction cs using List.reverseRecOn with
  | nil => exact absurd rfl hne
  | append_singleton cs c ih =>
    simp only [feed_append, feed_cons, feed_nil]
    rcases eq_or_ne cs [] with rfl | hcs
    · have e : new.commit c = { max := c, bitmap := 0, empty := false } := by
        rw [commit, checkAndCommit_of_empty rfl]
      simp [e]
    obtain ⟨he, hmem, hmax⟩ := ih hcs
    rcases Nat.lt_or_ge (new.feed cs).max.toNat c.toNat with hgt | hle
    · rw [commit, checkAndCommit_of_gt he hgt]
      refine ⟨he, by simp, fun x hx => ?_⟩
      rcases List.mem_append.1 hx with hx | hx
      · exact (hmax x hx).trans hgt.le
      · rw [List.mem_singleton.1 hx]
    · have e : ((new.feed cs).commit c).max = (new.feed cs).max ∧
          ((new.feed cs).commit c).empty = false := by
        by_cases hr : (new.feed cs).Remembers c
        · rw [commit, checkAndCommit_of_remembers hr]
          exact ⟨rfl, he⟩
        · rw [commit, (checkAndCommit_of_below he hle hr).2.2]
          exact ⟨rfl, he⟩
      rw [e.1, e.2]
      refine ⟨rfl, by simp [hmem], fun x hx => ?_⟩
      rcases List.mem_append.1 hx with hx | hx
      · exact hmax x hx
      · rw [List.mem_singleton.1 hx]; exact hle

/-- The greatest counter of a sequence is the window's maximum after it. -/
theorem max_feed_eq {cs : List UInt32} {m : UInt32} (hm : m ∈ cs)
    (hmax : ∀ x ∈ cs, x.toNat ≤ m.toNat) : (new.feed cs).max = m := by
  obtain ⟨-, hmem, hle⟩ := max_feed (List.ne_nil_of_mem hm)
  exact UInt32.toNat_inj.1 (le_antisymm (hmax _ hmem) (hle _ hm))

/-- A remembered counter stays remembered as long as no step forgets it. -/
theorem Remembers.feed {x : UInt32} {cs : List UInt32} {w : RxWindow} (h : w.Remembers x)
    (hf : ∀ pre c post, cs = pre ++ c :: post → ¬ (w.feed pre).Forgets c x) :
    (w.feed cs).Remembers x :=
  run_invariant (I := fun w : RxWindow => w.Remembers x)
    (G := fun (w : RxWindow) c => ¬ w.Forgets c x) h (fun _ _ hr hn => hr.commit hn)
    (along_iff.2 hf)

/-- A forgotten counter stays so while neither it nor anything above the maximum is presented. -/
theorem not_remembers_feed {x : UInt32} {cs : List UInt32} : ∀ {w : RxWindow}, w.empty = false →
    x.toNat ≤ w.max.toNat → ¬ w.Remembers x → (∀ c ∈ cs, c.toNat ≤ w.max.toNat) → x ∉ cs →
    ¬ (w.feed cs).Remembers x := by
  induction cs with
  | nil => exact fun _ _ hr _ _ => hr
  | cons c cs ih =>
    intro w he hx hr hle hmem
    obtain ⟨hc, hcs⟩ := List.forall_mem_cons.1 hle
    obtain ⟨hne, hmem⟩ := not_or.1 (mt List.mem_cons.2 hmem)
    obtain ⟨hm, he', hr'⟩ := not_remembers_commit he hx hr hc (Ne.symm hne)
    rw [feed_cons]
    exact ih he' (by rwa [hm]) hr' (by rwa [hm]) hmem

/-- No counter of the sequence is accepted at two of its places. -/
def AcceptsAtMostOnce (counters : List UInt32) : Prop :=
  ∀ pre c mid post, counters = pre ++ c :: (mid ++ c :: post) →
    (new.feed pre).accepts c = true → (new.feed (pre ++ c :: mid)).accepts c = false

/-- The sequence presents its greatest counter so far, then jumps exactly 32 above it, and then
presents it again before anything above the jump. -/
def ReplaysForgottenMax (counters : List UInt32) : Prop :=
  ∃ pre m jump mid post, counters = pre ++ jump :: (mid ++ m :: post) ∧
    (m ∈ pre ∧ ∀ x ∈ pre, x.toNat ≤ m.toNat) ∧ jump.toNat = m.toNat + 32 ∧
    ∀ x ∈ mid, x.toNat ≤ jump.toNat

/-- A counter accepted twice was the maximum of a jump of 32 in between. -/
theorem replaysForgottenMax_of_accepts {pre mid : List UInt32} {c : UInt32}
    (h : (new.feed (pre ++ c :: mid)).accepts c = true) (post : List UInt32) :
    ReplaysForgottenMax (pre ++ c :: (mid ++ c :: post)) := by
  rw [accepts_iff, feed_append, feed_cons] at h
  obtain ⟨p, j, q, rfl, hf⟩ : ∃ p j q, mid = p ++ j :: q ∧
      (((new.feed pre).commit c).feed p).Forgets j c := by
    by_contra hno
    push Not at hno
    exact h ((remembers_commit_self _ c).feed hno)
  have e : ((new.feed pre).commit c).feed p = new.feed (pre ++ c :: p) := by simp
  rw [e] at hf
  have hmax := (max_feed (show pre ++ c :: p ≠ [] by simp)).2.2
  rw [← hf.1] at hmax
  refine ⟨pre ++ c :: p, c, j, q, post, by simp, ⟨by simp, hmax⟩, hf.2, fun x hx => ?_⟩
  -- anything above the jump would have pushed `c` out of the window
  by_contra hgt
  have hcs : pre ++ c :: (p ++ j :: q) ≠ [] := by simp
  have hw := max_feed hcs
  refine h ⟨?_, ?_, Or.inr (Or.inl ?_)⟩
  · rw [← feed_cons, ← feed_append]; exact hw.1
  · rw [← feed_cons, ← feed_append]; exact hw.2.2 c (by simp)
  · rw [← feed_cons, ← feed_append, distance]
    have := hw.2.2 x (by simp [hx])
    have := hf.2
    omega

/-- A maximum presented again after a jump of 32 is accepted again. -/
theorem ReplaysForgottenMax.not_acceptsAtMostOnce {counters : List UInt32}
    (h : ReplaysForgottenMax counters) : ¬ AcceptsAtMostOnce counters := by
  obtain ⟨pre, m, jump, mid, post, rfl, ⟨hm, hmax⟩, hj, hmid⟩ := h
  obtain ⟨a, b, rfl, hma⟩ := List.eq_append_cons_of_mem hm
  -- up to the first time `m` comes back
  obtain ⟨q, r, hq, hmq, hqmid⟩ : ∃ q r, mid ++ m :: post = q ++ m :: r ∧ m ∉ q ∧
      ∀ x ∈ q, x.toNat ≤ jump.toNat := by
    by_cases hmem : m ∈ mid
    · obtain ⟨q, r, rfl, hmq⟩ := List.eq_append_cons_of_mem hmem
      exact ⟨q, r ++ m :: post, by simp, hmq, fun x hx => hmid x (by simp [hx])⟩
    · exact ⟨mid, post, rfl, hmem, hmid⟩
  intro hall
  -- the first `m` is accepted: everything before it is smaller
  have hfirst : (new.feed a).accepts m = true := by
    rw [accepts_iff]
    rintro ⟨he, hle, -⟩
    rcases eq_or_ne a [] with rfl | hne
    · exact absurd he (by decide)
    · obtain ⟨-, hmem, -⟩ := max_feed hne
      have hge := hmax _ (List.mem_append_left _ hmem)
      exact hma (UInt32.toNat_inj.1 (le_antisymm hle hge) ▸ hmem)
  have hlast := hall a m (b ++ jump :: q) r (by rw [hq]; simp) hfirst
  have hpre := max_feed_eq hm hmax
  have he := (max_feed (List.ne_nil_of_mem hm)).1
  have hcommit : ((new.feed (a ++ m :: b)).commit jump).max = jump ∧
      ((new.feed (a ++ m :: b)).commit jump).empty = false := by
    rw [commit, checkAndCommit_of_gt he (by rw [hpre]; omega)]
    exact ⟨rfl, he⟩
  have hforgot := Forgets.not_remembers (x := m) he ⟨hpre.symm, hj⟩
  have hstill := not_remembers_feed hcommit.2 (by rw [hcommit.1]; omega) hforgot
    (by rw [hcommit.1]; exact hqmid) hmq
  rw [← accepts_iff, ← feed_cons, ← feed_append] at hstill
  rw [show a ++ m :: (b ++ jump :: q) = a ++ m :: b ++ jump :: q by simp] at hlast
  rw [hstill] at hlast
  exact absurd hlast (by decide)

/-- **A sequence is free of replays exactly when it never presents a maximum again after a jump
of 32 from it.** -/
theorem acceptsAtMostOnce_iff (counters : List UInt32) :
    AcceptsAtMostOnce counters ↔ ¬ ReplaysForgottenMax counters := by
  refine ⟨fun h hr => hr.not_acceptsAtMostOnce h, fun h pre c mid post hcs _ => ?_⟩
  by_contra hacc
  rw [Bool.not_eq_false] at hacc
  exact h (hcs ▸ replaysForgottenMax_of_accepts hacc post)

/-- 100 is accepted, 132 jumps 32 above it, and 100 is accepted again. -/
theorem replay_after_jump_32 : ¬ ∀ counters, AcceptsAtMostOnce counters := fun h =>
  absurd (h [100, 132, 100] [] 100 [132] [] rfl (by decide)) (by decide)

end RxWindow

end MatStack
