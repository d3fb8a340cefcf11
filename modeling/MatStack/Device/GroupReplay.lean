import MatStack.Lib.Machine
import MatStack.Lib.OwnedRows
import MatStack.Lib.SlidingWindow

/-!
# Replays of group messages

The counters of group messages are compared modulo 2³²: what lies less than half the range ahead of
the greatest counter is new, what lies up to 32 behind it is accepted once, by a bitmap, and the
rest is refused. `behind` is the distance on the circle, and `advance` how far the maximum has come
in all. A counter that was accepted is refused until the maximum has come around the circle, but for
one case: a jump of exactly 32 clears the bitmap, and the maximum it leaves is still inside the
window.
-/

namespace MatStack

open Machine SlidingWindow

/-- Entries a guard can hold. -/
def replayTableCapacity : Nat := 64

def replayWindow : UInt32 := 32

/-- The counters of one source on one fabric: the greatest, and bit `i` for `max - (i + 1)`. -/
structure ReplayWindow where
  max : UInt32
  window : UInt32
deriving Repr, DecidableEq

namespace ReplayWindow

/-- `true` (and the counter is recorded) if the counter is fresh. -/
def accept (w : ReplayWindow) (counter : UInt32) : Bool × ReplayWindow :=
  if counter = w.max then (false, w)
  else
    let ahead := counter - w.max
    if ahead < (1 : UInt32) <<< 31 then
      let window : UInt32 :=
        if ahead ≥ replayWindow then 0 else (w.window <<< ahead) ||| (1 <<< (ahead - 1))
      (true, { max := counter, window })
    else
      let behind := w.max - counter
      if behind > replayWindow then (false, w)
      else
        let bit : UInt32 := 1 <<< (behind - 1)
        if w.window &&& bit ≠ 0 then (false, w) else (true, { w with window := w.window ||| bit })

/-- Whether the next counter is accepted. -/
def accepts (w : ReplayWindow) (counter : UInt32) : Bool := (w.accept counter).1

/-- The window after one more counter. -/
def commit (w : ReplayWindow) (counter : UInt32) : ReplayWindow := (w.accept counter).2

/-- The window after a sequence of counters. -/
def feed (w : ReplayWindow) (counters : List UInt32) : ReplayWindow := run commit w counters

@[simp] theorem feed_nil (w : ReplayWindow) : w.feed [] = w := rfl

@[simp] theorem feed_cons (w : ReplayWindow) (c : UInt32) (cs : List UInt32) :
    w.feed (c :: cs) = (w.commit c).feed cs := rfl

/-! ## Distances on the circle -/

/-- How far a counter lies behind the maximum. -/
def behind (w : ReplayWindow) (counter : UInt32) : Nat := (w.max - counter).toNat

/-- How far the maximum comes with a counter. -/
def advance (w : ReplayWindow) : List UInt32 → Nat
  | [] => 0
  | c :: cs => ((w.commit c).max - w.max).toNat + (w.commit c).advance cs

section
variable {w : ReplayWindow} {c x : UInt32}

theorem behind_lt (w : ReplayWindow) (c : UInt32) : w.behind c < 2 ^ 32 := (w.max - c).toNat_lt

theorem behind_eq_zero : w.behind c = 0 ↔ c = w.max := by
  rw [behind, UInt32.toNat_sub, ← UInt32.toNat_inj]
  have := c.toNat_lt
  have := w.max.toNat_lt
  omega

/-- Around the circle, ahead and behind make up its length. -/
theorem toNat_ahead (h : c ≠ w.max) : (c - w.max).toNat = 2 ^ 32 - w.behind c := by
  have hpos := Nat.pos_of_ne_zero (mt behind_eq_zero.1 h)
  rw [behind, UInt32.toNat_sub] at hpos ⊢
  rw [UInt32.toNat_sub]
  have := c.toNat_lt
  have := w.max.toNat_lt
  omega

theorem ahead_lt_iff (h : c ≠ w.max) : c - w.max < (1 : UInt32) <<< 31 ↔ 2 ^ 31 < w.behind c := by
  have e : ((1 : UInt32) <<< 31).toNat = 2 ^ 31 := rfl
  have hlt := w.behind_lt c
  have hpos := Nat.pos_of_ne_zero (mt behind_eq_zero.1 h)
  rw [UInt32.lt_iff_toNat_lt, e, toNat_ahead h]
  omega

theorem behind_gt_iff : w.max - c > replayWindow ↔ 32 < w.behind c := UInt32.lt_iff_toNat_lt

/-- A counter falls behind as the maximum comes forward. -/
theorem behind_commit (w : ReplayWindow) (c x : UInt32) :
    (w.commit c).behind x = (w.behind x + ((w.commit c).max - w.max).toNat) % 2 ^ 32 := by
  rw [behind, behind, UInt32.toNat_sub, UInt32.toNat_sub, UInt32.toNat_sub]
  have := x.toNat_lt
  have := w.max.toNat_lt
  have := (w.commit c).max.toNat_lt
  omega

theorem behind_feed (w : ReplayWindow) (cs : List UInt32) (x : UInt32) :
    (w.feed cs).behind x = (w.behind x + w.advance cs) % 2 ^ 32 := by
  induction cs generalizing w with
  | nil => exact (Nat.mod_eq_of_lt (w.behind_lt x)).symm
  | cons c cs ih =>
    rw [feed_cons, ih, behind_commit, advance]
    omega

theorem advance_append (w : ReplayWindow) (cs ds : List UInt32) :
    w.advance (cs ++ ds) = w.advance cs + (w.feed cs).advance ds := by
  induction cs generalizing w with
  | nil => simp [advance]
  | cons c cs ih => rw [List.cons_append, advance, ih, advance, feed_cons, Nat.add_assoc]

/-! ## One call -/

/-- The counters the window refuses: the maximum, and behind it those out of the window or with
their bit set. -/
def Remembers (w : ReplayWindow) (c : UInt32) : Prop :=
  w.behind c ≤ 2 ^ 31 ∧ (w.behind c = 0 ∨ 32 < w.behind c ∨ Seen w.window.toBitVec (w.behind c))

/-- The test of the bit of a counter inside the window. -/
theorem bit_ne_zero_iff (h₀ : 0 < w.behind c) (h : w.behind c ≤ 32) :
    w.window &&& (1 <<< (w.max - c - 1)) ≠ 0 ↔ Seen w.window.toBitVec (w.behind c) := by
  rw [← and_mask_ne_zero h₀, behind, ← toBitVec_bit h₀ h, ne_eq, ← UInt32.toBitVec_inj,
    UInt32.toBitVec_and]
  rfl

/-- A counter ahead is accepted and becomes the maximum. -/
theorem accept_of_ahead (h : 2 ^ 31 < w.behind c) :
    w.accept c = (true, { max := c, window := if c - w.max ≥ replayWindow then 0
      else (w.window <<< (c - w.max)) ||| (1 <<< (c - w.max - 1)) }) := by
  have hne : c ≠ w.max := fun he => by
    rw [behind_eq_zero.2 he] at h
    omega
  rw [accept, if_neg hne]
  exact if_pos ((ahead_lt_iff hne).2 h)

/-- A remembered counter is refused and changes nothing. -/
theorem accept_of_remembers (h : w.Remembers c) : w.accept c = (false, w) := by
  obtain ⟨hle, h₀ | h⟩ := h
  · rw [accept, if_pos (behind_eq_zero.1 h₀)]
  by_cases hne : c = w.max
  · rw [accept, if_pos hne]
  have hahead : ¬c - w.max < (1 : UInt32) <<< 31 := fun hlt =>
    absurd ((ahead_lt_iff hne).1 hlt) (Nat.not_lt.2 hle)
  have hpos := Nat.pos_of_ne_zero (mt behind_eq_zero.1 hne)
  rw [accept, if_neg hne]
  dsimp only
  rw [if_neg hahead]
  by_cases hfar : 32 < w.behind c
  · rw [if_pos (behind_gt_iff.2 hfar)]
  · have hbit := (bit_ne_zero_iff hpos (Nat.le_of_not_lt hfar)).2 (h.resolve_left hfar)
    rw [if_neg (mt behind_gt_iff.1 hfar), if_pos hbit]

/-- A counter behind that is not remembered is accepted and its bit is set. -/
theorem accept_of_behind (hle : w.behind c ≤ 2 ^ 31) (h : ¬w.Remembers c) :
    0 < w.behind c ∧ w.behind c ≤ 32 ∧
      w.accept c = (true, { w with window := w.window ||| (1 <<< (w.max - c - 1)) }) := by
  obtain ⟨h₀, hfar, hseen⟩ : w.behind c ≠ 0 ∧ w.behind c ≤ 32 ∧
      ¬Seen w.window.toBitVec (w.behind c) := by
    simpa using fun hc => h ⟨hle, hc⟩
  have hpos := Nat.pos_of_ne_zero h₀
  have hne : c ≠ w.max := mt behind_eq_zero.2 h₀
  have hahead : ¬c - w.max < (1 : UInt32) <<< 31 := fun hlt =>
    absurd ((ahead_lt_iff hne).1 hlt) (Nat.not_lt.2 hle)
  have hbit := mt (bit_ne_zero_iff hpos hfar).1 hseen
  refine ⟨hpos, hfar, ?_⟩
  rw [accept, if_neg hne]
  dsimp only
  rw [if_neg hahead, if_neg (mt behind_gt_iff.1 (Nat.not_lt.2 hfar)), if_neg hbit]

/-- **The window refuses exactly what it remembers.** -/
theorem accepts_iff (w : ReplayWindow) (c : UInt32) : w.accepts c = true ↔ ¬w.Remembers c := by
  constructor
  · intro h hr
    rw [accepts, accept_of_remembers hr] at h
    cases h
  · intro h
    rcases Nat.lt_or_ge (2 ^ 31) (w.behind c) with hahead | hle
    · rw [accepts, accept_of_ahead hahead]
    · rw [accepts, (accept_of_behind hle h).2.2]

/-- The bitmap after a step ahead: empty after a jump of 32 or more, and otherwise the old maximum
with the old bits, that much further behind. -/
theorem seen_ahead (h : 2 ^ 31 < w.behind c) {o : Nat} :
    Seen (if c - w.max ≥ replayWindow then 0
        else (w.window <<< (c - w.max)) ||| (1 <<< (c - w.max - 1)) : UInt32).toBitVec o ↔
      o ≤ 32 ∧ (c - w.max).toNat < 32 ∧ (o = (c - w.max).toNat ∨
        (c - w.max).toNat < o ∧ Seen w.window.toBitVec (o - (c - w.max).toNat)) := by
  have hne : c ≠ w.max := fun he => by
    rw [behind_eq_zero.2 he] at h
    omega
  have hpos : 0 < (c - w.max).toNat := by
    have := w.behind_lt c
    rw [toNat_ahead hne]
    omega
  have h32 : c - w.max ≥ replayWindow ↔ 32 ≤ (c - w.max).toNat := UInt32.le_iff_toNat_le
  split
  · next hge =>
    exact ⟨fun hs => absurd hs (not_seen_zero o), fun hs => absurd hs.2.1 (Nat.not_lt.2 (h32.1 hge))⟩
  · next hlt =>
    have hlt : (c - w.max).toNat < 32 := Nat.lt_of_not_le (mt h32.2 hlt)
    rw [UInt32.toBitVec_or, toBitVec_shiftLeft_lt _ _ hlt, toBitVec_bit hpos hlt.le]
    have hs := seen_advance (b := w.window.toBitVec) (o := o) hpos
    rw [SlidingWindow.advance] at hs
    rw [hs]
    exact and_congr_right fun _ => (and_iff_right hlt).symm

/-- Setting a bit records its counter and no other. -/
theorem seen_setBit (h₀ : 0 < w.behind c) (h : w.behind c ≤ 32) {o : Nat} :
    Seen (w.window ||| (1 <<< (w.max - c - 1))).toBitVec o ↔
      Seen w.window.toBitVec o ∨ o = w.behind c := by
  have hs := seen_mark (b := w.window.toBitVec) (o := o) h₀
  rw [mark] at hs
  rw [UInt32.toBitVec_or, toBitVec_bit h₀ h, ← behind, hs]
  exact or_congr_right ⟨fun h => h.1, fun h' => ⟨h', by omega⟩⟩

/-- A counter is remembered once it has been presented, in the window or at its end. -/
theorem remembers_commit_self (h : w.accepts c = true) :
    (w.commit c).Remembers c ∧ (w.commit c).behind c ≤ 32 := by
  have hr := (accepts_iff w c).1 h
  rcases Nat.lt_or_ge (2 ^ 31) (w.behind c) with hahead | hle
  · have h₀ : (w.commit c).behind c = 0 := by
      rw [behind_eq_zero, commit, accept_of_ahead hahead]
    exact ⟨⟨by omega, .inl h₀⟩, by omega⟩
  · obtain ⟨hpos, h32, e⟩ := accept_of_behind hle hr
    rw [commit, e]
    exact ⟨⟨hle, .inr (.inr ((seen_setBit hpos h32).2 (.inr rfl)))⟩, h32⟩

/-- **A step forgets nothing** before the maximum has come half around, but the maximum it jumps 32
away from. -/
theorem Remembers.commit (h : w.Remembers x)
    (hadv : w.behind x + ((w.commit c).max - w.max).toNat ≤ 2 ^ 31)
    (hjump : ¬(w.behind x = 0 ∧ ((w.commit c).max - w.max).toNat = 32)) :
    (w.commit c).Remembers x := by
  have hbehind := behind_commit w c x
  rw [Nat.mod_eq_of_lt (by omega)] at hbehind
  rcases Nat.lt_or_ge (2 ^ 31) (w.behind c) with hahead | hle
  · have hmax : (w.commit c).max = c := by rw [ReplayWindow.commit, accept_of_ahead hahead]
    rw [hmax] at hbehind hadv hjump
    refine ⟨by omega, .inr ?_⟩
    by_cases hfar : 32 < (w.commit c).behind x
    · exact .inl hfar
    refine .inr ?_
    rw [hbehind] at hfar ⊢
    rw [ReplayWindow.commit, accept_of_ahead hahead, seen_ahead hahead]
    obtain ⟨-, h₀ | hx | hx⟩ := h
    · exact ⟨by omega, by omega, .inl (by omega)⟩
    · omega
    · have := hx.1
      exact ⟨by omega, by omega, .inr ⟨by omega, by rwa [Nat.add_sub_cancel]⟩⟩
  · by_cases hr : w.Remembers c
    · rwa [ReplayWindow.commit, accept_of_remembers hr]
    · obtain ⟨hpos, h32, e⟩ := accept_of_behind hle hr
      rw [ReplayWindow.commit, e]
      exact ⟨h.1, h.2.imp_right (Or.imp_right fun hs => (seen_setBit hpos h32).2 (.inl hs))⟩

/-- The maximum stays, or moves ahead to the counter by less than half the range. -/
theorem max_commit (w : ReplayWindow) (c : UInt32) :
    (w.commit c).max = w.max ∨
      ((w.commit c).max = c ∧ 0 < (c - w.max).toNat ∧ (c - w.max).toNat < 2 ^ 31) := by
  rcases Nat.lt_or_ge (2 ^ 31) (w.behind c) with hahead | hle
  · have hne : c ≠ w.max := fun he => by
      rw [behind_eq_zero.2 he] at hahead
      omega
    have hlt := w.behind_lt c
    refine .inr ⟨by rw [commit, accept_of_ahead hahead], ?_⟩
    rw [toNat_ahead hne]
    omega
  · by_cases hr : w.Remembers c
    · rw [commit, accept_of_remembers hr]
      exact .inl rfl
    · rw [commit, (accept_of_behind hle hr).2.2]
      exact .inl rfl

/-! ## Sequences of counters -/

@[simp] theorem feed_append (w : ReplayWindow) (cs ds : List UInt32) :
    w.feed (cs ++ ds) = (w.feed cs).feed ds := run_append ..

/-- The sequence jumps exactly 32 ahead of the maximum `x`, and stays there. -/
def JumpsFrom (w : ReplayWindow) (x : UInt32) (cs : List UInt32) : Prop :=
  ∃ pre post, cs = pre ++ (x + 32) :: post ∧ (w.feed pre).max = x ∧ (w.feed cs).max = x + 32 ∧
    (w.feed (pre ++ [x + 32])).advance post = 0

theorem JumpsFrom.behind {cs : List UInt32} (h : w.JumpsFrom x cs) : (w.feed cs).behind x = 32 := by
  obtain ⟨-, -, -, -, hmax, -⟩ := h
  rw [ReplayWindow.behind, hmax, UInt32.toNat_sub, UInt32.toNat_add]
  have := x.toNat_lt
  have e : (32 : UInt32).toNat = 32 := rfl
  omega

/-- Until the maximum has come half around, a remembered counter stays so, unless it is the maximum
that a jump of 32 leaves behind. -/
theorem Remembers.feed {cs : List UInt32} (h : w.Remembers x)
    (hadv : w.behind x + w.advance cs ≤ 2 ^ 31) :
    (w.feed cs).Remembers x ∨ w.JumpsFrom x cs := by
  induction cs using List.reverseRecOn with
  | nil => exact .inl h
  | append_singleton cs c ih =>
    have hsum := advance_append w cs [c]
    simp only [ReplayWindow.advance, Nat.add_zero] at hsum
    rw [hsum] at hadv
    have hbehind := behind_feed w cs x
    rw [Nat.mod_eq_of_lt (by omega)] at hbehind
    rw [feed_append, feed_cons, feed_nil]
    obtain hr | hj := ih (by omega)
    · by_cases hjump : (w.feed cs).behind x = 0 ∧
          (((w.feed cs).commit c).max - (w.feed cs).max).toNat = 32
      · -- the jump itself
        obtain rfl : x = (w.feed cs).max := behind_eq_zero.1 hjump.1
        obtain hmax | ⟨hmax, -, -⟩ := max_commit (w.feed cs) c
        · rw [hmax, UInt32.sub_self] at hjump
          exact absurd hjump.2 (by decide)
        · have hc : c = (w.feed cs).max + 32 := by
            rw [hmax] at hjump
            rw [← UInt32.toNat_inj, ← UInt32.sub_add_cancel c (w.feed cs).max, UInt32.add_comm,
              UInt32.toNat_add, hjump.2, UInt32.toNat_add]
            rfl
          refine .inr ⟨cs, [], by rw [hc], rfl, ?_, rfl⟩
          rw [feed_append, feed_cons, feed_nil, hmax, hc]
      · exact .inl (hr.commit (by omega) hjump)
    · by_cases hstay : ((w.feed cs).commit c).max = (w.feed cs).max
      · obtain ⟨pre, post, rfl, hpre, hmax, hpost⟩ := hj
        have hstay' := congrArg (fun m => (m - (w.feed (pre ++ (x + 32) :: post)).max).toNat) hstay
        refine .inr ⟨pre, post ++ [c], by simp, hpre, ?_, ?_⟩
        · rw [feed_append, feed_cons, feed_nil, hstay, hmax]
        · rw [advance_append, hpost, ← feed_append, List.append_assoc, List.singleton_append]
          simpa [ReplayWindow.advance] using hstay'
      · have hpos : 0 < (((w.feed cs).commit c).max - (w.feed cs).max).toNat := by
          refine Nat.pos_of_ne_zero fun h₀ => hstay ?_
          rw [← UInt32.sub_add_cancel ((w.feed cs).commit c).max (w.feed cs).max,
            UInt32.toNat_inj.1 (h₀.trans UInt32.toNat_zero.symm), UInt32.zero_add]
        have h32 := hj.behind
        have hnow := behind_commit (w.feed cs) c x
        rw [Nat.mod_eq_of_lt (by omega)] at hnow
        exact .inl ⟨by omega, .inr (.inl (by omega))⟩

/-- A counter that is accepted again was left behind by a jump of 32, or the maximum has come
around. -/
theorem accepts_again {cs : List UInt32} (h : w.Remembers x) (hx : w.behind x ≤ 32)
    (hagain : (w.feed cs).accepts x = true) :
    w.JumpsFrom x cs ∨ 2 ^ 32 ≤ w.advance (cs ++ [x]) + 32 := by
  by_cases hadv : w.behind x + w.advance cs ≤ 2 ^ 31
  · exact .inl ((h.feed hadv).resolve_left ((accepts_iff _ _).1 hagain))
  · refine .inr ?_
    have hbehind := behind_feed w cs x
    rw [advance_append]
    by_cases hround : w.behind x + w.advance cs < 2 ^ 32
    · -- the counter is ahead again
      rw [Nat.mod_eq_of_lt hround] at hbehind
      have hahead : 2 ^ 31 < (w.feed cs).behind x := by omega
      have hne : x ≠ (w.feed cs).max := fun he => by
        rw [behind_eq_zero.2 he] at hahead
        omega
      rw [ReplayWindow.advance, ReplayWindow.advance, commit, accept_of_ahead hahead]
      dsimp only
      rw [toNat_ahead hne]
      omega
    · omega

end

end ReplayWindow

/-! ## The guard -/

/-- The windows of the sources, oldest first. -/
structure GroupReplayGuard where
  seen : List ((UInt8 × UInt64) × ReplayWindow)
deriving Repr, DecidableEq

/-- An authenticated counter: the fabric, the source node and the counter. -/
abbrev GroupCounterEvent := (UInt8 × UInt64) × UInt32

namespace GroupReplayGuard

def new : GroupReplayGuard := ⟨[]⟩

/-- The window of a source. -/
def window? (g : GroupReplayGuard) (key : UInt8 × UInt64) : Option ReplayWindow :=
  (g.seen.find? (·.1 == key)).map (·.2)

/-- `true` (and the counter is recorded) if the counter of the source is fresh. A source not seen
before is trusted with its first counter; a full table gives up its oldest source. -/
def accept (g : GroupReplayGuard) (key : UInt8 × UInt64) (counter : UInt32) :
    Bool × GroupReplayGuard :=
  match g.window? key with
  | some w =>
    ((w.accept counter).1,
      ⟨(OwnedRows.modifyFirst? (·.1 == key) (fun e => (e.1, (e.2.accept counter).2)) g.seen).getD
        g.seen⟩)
  | none =>
    let seen := if g.seen.length ≥ replayTableCapacity then g.seen.tail else g.seen
    (true, ⟨seen ++ [(key, ⟨counter, 0⟩)]⟩)

/-- Whether the next counter of a source is accepted. -/
def accepts (g : GroupReplayGuard) (e : GroupCounterEvent) : Bool := (g.accept e.1 e.2).1

/-- The guard after one more counter. -/
def commit (g : GroupReplayGuard) (e : GroupCounterEvent) : GroupReplayGuard := (g.accept e.1 e.2).2

/-- The counters of a source among the events. -/
def countersOf (key : UInt8 × UInt64) (es : List GroupCounterEvent) : List UInt32 :=
  (es.filter (·.1 == key)).map (·.2)

/-- The source keeps its window over the events. -/
def Keeps (g : GroupReplayGuard) (key : UInt8 × UInt64) (es : List GroupCounterEvent) : Prop :=
  Along commit (fun g e => ((g.commit e).window? key).isSome = true) g es

section
variable {g : GroupReplayGuard} {key : UInt8 × UInt64} {e : GroupCounterEvent} {w : ReplayWindow}

/-- A source that has a window goes on with it. -/
theorem window?_commit_self (h : g.window? e.1 = some w) :
    g.accepts e = w.accepts e.2 ∧ (g.commit e).window? e.1 = some (w.commit e.2) := by
  have hacc : g.accept e.1 e.2 = ((w.accept e.2).1,
      ⟨(OwnedRows.modifyFirst? (·.1 == e.1) (fun r => (r.1, (r.2.accept e.2).2)) g.seen).getD
        g.seen⟩) := by
    rw [accept, h]
  refine ⟨by rw [accepts, hacc, ReplayWindow.accepts], ?_⟩
  rw [commit, hacc, window?]
  obtain ⟨r, hr, rfl⟩ := Option.map_eq_some_iff.1 h
  have hself := @OwnedRows.find?_modifyFirst?_self _ (·.1 == e.1) g.seen
    (fun r => (r.1, (r.2.accept e.2).2)) fun _ => rfl
  rw [hr] at hself
  obtain ⟨seen, hseen, hfind⟩ := Option.map_eq_some_iff.1 hself
  rw [hseen, Option.getD_some, hfind]
  rfl

/-- A source without a window starts one. -/
theorem window?_commit_new (h : g.window? e.1 = none) :
    g.accepts e = true ∧ (g.commit e).window? e.1 = some ⟨e.2, 0⟩ := by
  have hnone : g.seen.find? (·.1 == e.1) = none := Option.map_eq_none_iff.1 h
  have htail : g.seen.tail.find? (·.1 == e.1) = none := by
    rw [List.find?_eq_none] at hnone ⊢
    exact fun r hr => hnone r (List.mem_of_mem_tail hr)
  refine ⟨by rw [accepts, accept, h], ?_⟩
  rw [commit, accept, h]
  dsimp only [window?]
  rw [List.find?_append]
  split
  · rw [htail]
    simp
  · rw [hnone]
    simp

/-- The table has one window for a source. -/
def Distinct (g : GroupReplayGuard) : Prop := (g.seen.map (·.1)).Nodup

theorem Distinct.commit (h : g.Distinct) (e : GroupCounterEvent) : (g.commit e).Distinct := by
  unfold Distinct at h ⊢
  cases hw : g.window? e.1 with
  | some w =>
    rw [GroupReplayGuard.commit, accept, hw]
    dsimp only
    cases hm : OwnedRows.modifyFirst? (·.1 == e.1) (fun r => (r.1, (r.2.accept e.2).2)) g.seen with
    | none => exact h
    | some seen =>
      rw [Option.getD_some, OwnedRows.map_modifyFirst? (·.1) hm fun _ => rfl]
      exact h
  | none =>
    have hnot : e.1 ∉ g.seen.map (·.1) := by
      intro hmem
      obtain ⟨r, hr, hre⟩ := List.mem_map.1 hmem
      exact List.find?_eq_none.1 (Option.map_eq_none_iff.1 hw) r hr (beq_iff_eq.2 hre)
    have hsub : ((if g.seen.length ≥ replayTableCapacity then g.seen.tail else g.seen).map
        (·.1)).Sublist (g.seen.map (·.1)) := by
      split
      · exact (List.tail_sublist _).map _
      · exact List.Sublist.refl _
    rw [GroupReplayGuard.commit, accept, hw]
    dsimp only
    rw [List.map_append, List.map_singleton, ← List.concat_eq_append, List.nodup_concat]
    exact ⟨fun hmem => hnot (hsub.subset hmem), hsub.nodup h⟩

theorem distinct_run (es : List GroupCounterEvent) : (run commit new es).Distinct :=
  invariant (I := Distinct) (s := new) List.nodup_nil (fun _ e h => h.commit e) es

/-- Other sources keep their windows, but for the one that is evicted. -/
theorem window?_commit_of_ne (hg : g.Distinct) (h : e.1 ≠ key)
    (hs : ((g.commit e).window? key).isSome = true) :
    (g.commit e).window? key = g.window? key := by
  cases hw : g.window? e.1 with
  | some w =>
    rw [commit, accept, hw, window?, window?]
    refine congrArg (Option.map _) ?_
    dsimp only
    cases hm : OwnedRows.modifyFirst? (·.1 == e.1) (fun r => (r.1, (r.2.accept e.2).2)) g.seen with
    | none => rfl
    | some seen =>
      rw [Option.getD_some]
      refine OwnedRows.find?_modifyFirst?_of_not (fun r hr => ?_) ?_ hm
      · rw [beq_iff_eq] at hr
        simpa [hr] using h
      · intro r
        rfl
  | none =>
    have hlast : ([(e.1, ⟨e.2, 0⟩)] : List ((UInt8 × UInt64) × ReplayWindow)).find? (·.1 == key) =
        none := by simpa using h
    rw [commit, accept, hw] at hs ⊢
    dsimp only [window?] at hs ⊢
    rw [List.find?_append, hlast, Option.or_none] at hs ⊢
    refine congrArg (Option.map _) ?_
    split at hs
    · next hfull =>
      rw [if_pos hfull]
      -- the oldest source is given up, and no other window is its own
      unfold Distinct at hg
      cases hseen : g.seen with
      | nil => rfl
      | cons r seen =>
        rw [hseen, List.tail_cons, Option.isSome_map, List.find?_isSome] at hs
        obtain ⟨r', hr', hkey⟩ := hs
        rw [hseen, List.map_cons, List.nodup_cons] at hg
        have hne : ¬(r.1 == key) = true := fun hr => hg.1 (List.mem_map.2
          ⟨r', hr', (beq_iff_eq.1 hkey).trans (beq_iff_eq.1 hr).symm⟩)
        rw [List.tail_cons, List.find?_cons, Bool.eq_false_iff.2 hne]
    · next hroom => rw [if_neg hroom]

/-- The window of a source that keeps it takes the counters of the source alone. -/
theorem window?_run (hg : g.Distinct) (hw : g.window? key = some w) {es : List GroupCounterEvent}
    (hk : g.Keeps key es) : (run commit g es).window? key = some (w.feed (countersOf key es)) := by
  induction es generalizing g w with
  | nil => exact hw
  | cons e es ih =>
    obtain ⟨he, hes⟩ := along_cons.1 hk
    rw [run_cons, countersOf, List.filter_cons]
    by_cases hkey : e.1 = key
    · subst hkey
      rw [if_pos (beq_self_eq_true _), List.map_cons, ReplayWindow.feed_cons]
      exact ih (hg.commit e) (window?_commit_self hw).2 hes
    · rw [if_neg (by simpa using hkey)]
      exact ih (hg.commit e) ((window?_commit_of_ne hg hkey he).trans hw) hes

/-- An accepted counter is in the window of its source afterwards. -/
theorem exists_window_of_accepts (h : g.accepts e = true) :
    ∃ w, (g.commit e).window? e.1 = some w ∧ w.Remembers e.2 ∧ w.behind e.2 ≤ 32 := by
  cases hw : g.window? e.1 with
  | some w =>
    obtain ⟨hacc, hnext⟩ := window?_commit_self hw
    exact ⟨w.commit e.2, hnext, ReplayWindow.remembers_commit_self (hacc.symm.trans h)⟩
  | none =>
    have h₀ : (⟨e.2, 0⟩ : ReplayWindow).behind e.2 = 0 := ReplayWindow.behind_eq_zero.2 rfl
    exact ⟨⟨e.2, 0⟩, (window?_commit_new hw).2, ⟨by omega, .inl h₀⟩, by omega⟩

end

/-! ## Replays -/

/-- **Replays.** After any history, while the source keeps its window, a counter that was accepted
is accepted again only if it was the maximum, the maximum then jumped exactly 32 ahead and has
stayed there since, or if the maximum has come forward by the whole circle but 32. A counter moves
the maximum forward by less than half the range or not at all, and each counter ahead of the
maximum by less than half the range is accepted and becomes the maximum. -/
theorem group_replays (es : List GroupCounterEvent) (key : UInt8 × UInt64) (c : UInt32) :
    ((run commit new es).accepts (key, c) = true →
      ∃ w, ((run commit new es).commit (key, c)).window? key = some w ∧
        ∀ mid, ((run commit new es).commit (key, c)).Keeps key mid →
          (run commit ((run commit new es).commit (key, c)) mid).accepts (key, c) = true →
          w.JumpsFrom c (countersOf key mid) ∨
            2 ^ 32 ≤ w.advance (countersOf key mid ++ [c]) + 32) ∧
    ∀ w, (run commit new es).window? key = some w →
      ∃ w', ((run commit new es).commit (key, c)).window? key = some w' ∧
        (w'.max = w.max ∨
          w'.max = c ∧ 0 < (c - w.max).toNat ∧ (c - w.max).toNat < 2 ^ 31) ∧
        (0 < (c - w.max).toNat → (c - w.max).toNat < 2 ^ 31 →
          (run commit new es).accepts (key, c) = true ∧ w'.max = c) := by
  have hg := distinct_run es
  constructor
  · intro hacc
    obtain ⟨w, hw, hr, hbehind⟩ := exists_window_of_accepts hacc
    refine ⟨w, hw, fun mid hkeeps hagain => ?_⟩
    have hmid := window?_run (hg.commit (key, c)) hw hkeeps
    have hself := (window?_commit_self (e := (key, c)) hmid).1
    exact ReplayWindow.accepts_again hr hbehind (hself.symm.trans hagain)
  · intro w hw
    obtain ⟨hacc, hnext⟩ := window?_commit_self (e := (key, c)) hw
    refine ⟨w.commit c, hnext, ReplayWindow.max_commit w c, fun hpos hlt => ?_⟩
    have hahead : 2 ^ 31 < w.behind c := by
      have hne : c ≠ w.max := fun he => by
        rw [he, UInt32.sub_self] at hpos
        exact absurd hpos (by decide)
      have := ReplayWindow.toNat_ahead hne
      omega
    rw [hacc, ReplayWindow.accepts, ReplayWindow.commit, ReplayWindow.accept_of_ahead hahead]
    exact ⟨rfl, rfl⟩

/-- After the jump from 100 to 132, 100 is accepted again, also when 131 has come in between. -/
theorem group_replays_jump :
    ReplayWindow.JumpsFrom ⟨100, 0⟩ 100 [132, 131] ∨
      2 ^ 32 ≤ ReplayWindow.advance ⟨100, 0⟩ [132, 131, 100] + 32 := by
  obtain ⟨w, hw, hagain⟩ := (group_replays [] (1, 7) 100).1 rfl
  have he : (⟨100, 0⟩ : ReplayWindow) = w := Option.some.inj hw
  rw [he]
  exact hagain [((1, 7), 132), ((1, 7), 131)] ⟨rfl, rfl, trivial⟩ (by decide)

/-- Each counter is ahead by less than half the range, 0 is accepted twice and no jump is by 32;
and 100 is accepted twice, the second time after 131 has come in between. -/
theorem accepts_replays :
    Along ReplayWindow.commit
        (fun w c => (c - w.max).toNat < 2 ^ 31 ∧ c - w.max ≠ 32 ∧ w.accepts c = true)
        ⟨0, 0⟩ [0x7fffffff, 0xfffffffe, 0] ∧
      (new.commit ((1, 7), 0)).window? (1, 7) = some ⟨0, 0⟩ ∧
      Along commit (fun g e => g.accepts e = true) new
        [((1, 7), 100), ((1, 7), 132), ((1, 7), 131), ((1, 7), 100)] := by
  decide

end GroupReplayGuard

end MatStack
