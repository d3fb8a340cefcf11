import Mathlib.Algebra.Field.ZMod
import Mathlib.Algebra.Module.Basic
import Mathlib.Tactic.NormNum.Prime
import MatStack.Controller.SecureChannel
import MatStack.Lib.Checked
import MatStack.Lib.LittleEndian
import MatStack.Lib.Pratt

/-!
# SPAKE2+

The two parties of a PASE handshake compute points of the curve P-256 from a share that the peer
sent, and encode them into the transcript. The encoder of points expects 65 bytes; the identity has
one. The share is checked not to be the identity, but the points that are encoded are multiples of
its difference from a multiple of a fixed point, which a peer that knows `w0` makes the identity. So
a party returns exactly when that does not happen (`parties_return`).

The group and its encoding are parameters: the points are a vector space over the scalars, since
their number is prime, and only the identity is not encoded in 65 bytes.
-/

namespace MatStack

/-- The curve, with uncompressed SEC1 as the encoding. -/
structure P256 (K V : Type) [Field K] [AddCommGroup V] [Module K V] where
  generator : V
  /-- The point that SEC1 bytes stand for, compressed or not; the identity is one. -/
  fromSec1 : Bytes → Option V
  toSec1 : V → Bytes
  scalarBytes : K → Fixed 32
  toSec1_identity : toSec1 0 = [0]
  toSec1_point : ∀ p ≠ 0, (toSec1 p).length = 65

/-- SHA-256, HKDF to 32 bytes and HMAC. -/
structure PakeHash where
  sha256 : Bytes → Fixed 32
  hkdf : Bytes → Bytes → Fixed 32
  hmac : Bytes → Bytes → Fixed 32

namespace Spake2p

def spakeM : Bytes :=
  [0x02, 0x88, 0x6e, 0x2f, 0x97, 0xac, 0xe4, 0x6e, 0x55, 0xba, 0x9d, 0xd7, 0x24, 0x25, 0x79, 0xf2,
    0x99, 0x3b, 0x64, 0xe1, 0x6e, 0xf3, 0xdc, 0xab, 0x95, 0xaf, 0xd4, 0x97, 0x33, 0x3d, 0x8f, 0xa1,
    0x2f]

def spakeN : Bytes :=
  [0x03, 0xd8, 0xbb, 0xd6, 0xc6, 0x39, 0xc6, 0x29, 0x37, 0xb0, 0x4d, 0x99, 0x7f, 0x38, 0xc3, 0x77,
    0x07, 0x19, 0xc6, 0x29, 0xd7, 0x01, 0x4d, 0x49, 0xa2, 0x4b, 0x4f, 0x98, 0xba, 0xa1, 0x29, 0x2b,
    0x49]

inductive SpakeError where
  | badPoint
  | identity
deriving Repr, DecidableEq

/-- How a party ends without a value. -/
inductive Stop where
  | err (e : SpakeError)
  | panic
deriving Repr, DecidableEq

/-- The result of a fallible step, which the caller expects to be one. -/
def expect {ε α : Type} (x : Except ε α) : Except Stop α := x.mapError fun _ => .panic

/-- The result of a fallible step, whose error is the caller's. -/
def orErr {α : Type} (x : Except SpakeError α) : Except Stop α := x.mapError .err

/-- What a prover has at the end. -/
structure PakeShared where
  cA : Fixed 32
  expectedCB : Fixed 32
  kE : Bytes

/-- What a verifier has at the end. -/
structure PakeVerifierShared where
  cB : Fixed 32
  expectedCA : Fixed 32
  kE : Bytes

structure Prover (K : Type) where
  w0 : K
  w1 : K
  x : K

structure Verifier (K V : Type) where
  w0 : K
  l : V
  y : K

/-- An element of the transcript: its length and its bytes. -/
def ttElem (bytes : Bytes) : Bytes := LittleEndian.encode 8 bytes.length ++ bytes

def splitHash (h : PakeHash) (tt : Bytes) : Bytes × Bytes :=
  ((h.sha256 tt).1.take 16, (h.sha256 tt).1.drop 16)

def confirmationKeys (h : PakeHash) (kA : Bytes) : Bytes × Bytes :=
  let kc := (h.hkdf kA "ConfirmationKeys".toUTF8.toList).1
  (kc.take 16, kc.drop 16)

section
variable {K V : Type} [Field K] [AddCommGroup V] [Module K V] [DecidableEq V] (c : P256 K V)
  (h : PakeHash)

def decodePoint (bytes : Bytes) : Except SpakeError V :=
  match c.fromSec1 bytes with
  | none => .error .badPoint
  | some p => if p = 0 then .error .identity else .ok p

def encodePoint (p : V) : Except Stop (Fixed 65) :=
  match Fixed.ofBytes? 65 (c.toSec1 p) with
  | some bytes => .ok bytes
  | none => .error .panic

def buildTranscript (context idP idV pA pB : Bytes) (z v : V) (w0 : K) : Except Stop Bytes := do
  let m ← expect (decodePoint c spakeM)
  let n ← expect (decodePoint c spakeN)
  let tt := ttElem context ++ ttElem idP ++ ttElem idV
  let tt := tt ++ ttElem (← encodePoint c m).1
  let tt := tt ++ ttElem (← encodePoint c n).1 ++ ttElem pA ++ ttElem pB
  let tt := tt ++ ttElem (← encodePoint c z).1
  let tt := tt ++ ttElem (← encodePoint c v).1
  return tt ++ ttElem (c.scalarBytes w0).1

/-- The prover's share. -/
def Prover.pA (self : Prover K) : Except Stop (Fixed 65) := do
  let m ← expect (decodePoint c spakeM)
  encodePoint c (self.x • c.generator + self.w0 • m)

def Prover.transcript (self : Prover K) (pB context idP idV : Bytes) : Except Stop Bytes := do
  let pBPoint ← orErr (decodePoint c pB)
  let n ← expect (decodePoint c spakeN)
  let t := pBPoint - self.w0 • n
  let pA ← self.pA c
  buildTranscript c context idP idV pA.1 pB (self.x • t) (self.w1 • t) self.w0

def Prover.finish (self : Prover K) (pB context idP idV : Bytes) : Except Stop PakeShared := do
  let tt ← self.transcript c pB context idP idV
  let (kA, kE) := splitHash h tt
  let (kcA, kcB) := confirmationKeys h kA
  let pA ← self.pA c
  return ⟨h.hmac kcA pB, h.hmac kcB pA.1, kE⟩

/-- The verifier's share. -/
def Verifier.pB (self : Verifier K V) : Except Stop (Fixed 65) := do
  let n ← expect (decodePoint c spakeN)
  encodePoint c (self.y • c.generator + self.w0 • n)

def Verifier.finish (self : Verifier K V) (pA context idP idV : Bytes) :
    Except Stop PakeVerifierShared := do
  let pAPoint ← orErr (decodePoint c pA)
  let m ← expect (decodePoint c spakeM)
  let z := self.y • (pAPoint - self.w0 • m)
  let v := self.y • self.l
  let pB ← self.pB c
  let tt ← buildTranscript c context idP idV pA pB.1 z v self.w0
  let (kA, kE) := splitHash h tt
  let (kcA, kcB) := confirmationKeys h kA
  return ⟨h.hmac kcB pA, h.hmac kcA pB.1, kE⟩

end

/-! ## When a party returns -/

section
variable {K V : Type} [Field K] [AddCommGroup V] [Module K V] [DecidableEq V] {c : P256 K V}
  {m n p z v : V} {bytes context idP idV pA pB : Bytes} {w0 : K}

theorem expect_ok {ε α : Type} (a : α) : expect (.ok a : Except ε α) = .ok a := rfl

theorem decodePoint_ne (h : decodePoint c bytes = .ok p) : p ≠ 0 := by
  unfold decodePoint at h
  split at h
  · cases h
  · split at h
    · cases h
    · next hp =>
      cases h
      exact hp

omit [DecidableEq V] in
theorem encodePoint_of_ne (hp : p ≠ 0) : ∃ b, encodePoint c p = .ok b := by
  unfold encodePoint Fixed.ofBytes?
  rw [dif_pos (c.toSec1_point p hp)]
  exact ⟨_, rfl⟩

omit [DecidableEq V] in
theorem encodePoint_zero : encodePoint c 0 = .error .panic := by
  unfold encodePoint Fixed.ofBytes?
  rw [c.toSec1_identity]
  rfl

section
variable (hm : decodePoint c spakeM = .ok m) (hn : decodePoint c spakeN = .ok n)
include hm hn

theorem buildTranscript_ok (hz : z ≠ 0) (hv : v ≠ 0) :
    ∃ tt, buildTranscript c context idP idV pA pB z v w0 = .ok tt := by
  obtain ⟨bm, hbm⟩ := encodePoint_of_ne (c := c) (decodePoint_ne hm)
  obtain ⟨bn, hbn⟩ := encodePoint_of_ne (c := c) (decodePoint_ne hn)
  obtain ⟨bz, hbz⟩ := encodePoint_of_ne (c := c) hz
  obtain ⟨bv, hbv⟩ := encodePoint_of_ne (c := c) hv
  simp only [buildTranscript, hm, hn, expect_ok, Checked.ok_bind, hbm, hbn, hbz, hbv]
  exact ⟨_, rfl⟩

theorem buildTranscript_panics (h : z = 0 ∨ v = 0) :
    buildTranscript c context idP idV pA pB z v w0 = .error .panic := by
  obtain ⟨bm, hbm⟩ := encodePoint_of_ne (c := c) (decodePoint_ne hm)
  obtain ⟨bn, hbn⟩ := encodePoint_of_ne (c := c) (decodePoint_ne hn)
  simp only [buildTranscript, hm, hn, expect_ok, Checked.ok_bind, hbm, hbn]
  by_cases hz : z = 0
  · rw [hz, encodePoint_zero]
    rfl
  · obtain ⟨bz, hbz⟩ := encodePoint_of_ne (c := c) hz
    rw [hbz, h.resolve_left hz, encodePoint_zero]
    rfl

/-- A prover returns, unless the peer's share is the one that hides the identity, or its own secrets
are. -/
theorem Prover.finish_returns (self : Prover K) (h : PakeHash) (pB context idP idV : Bytes) :
    self.finish c h pB context idP idV ≠ .error .panic ↔ ∀ p, decodePoint c pB = .ok p →
      self.x • c.generator + self.w0 • m ≠ 0 ∧ self.x ≠ 0 ∧ self.w1 ≠ 0 ∧ p ≠ self.w0 • n := by
  cases hp : decodePoint c pB with
  | error e =>
    refine iff_of_true ?_ (by rintro p ⟨⟩)
    rw [finish, transcript, hp]
    rintro ⟨⟩
  | ok p =>
    have hshare : self.pA c = encodePoint c (self.x • c.generator + self.w0 • m) := by
      rw [Prover.pA, hm]
      rfl
    have htt : self.transcript c pB context idP idV = self.pA c >>= fun pA =>
        buildTranscript c context idP idV pA.1 pB (self.x • (p - self.w0 • n))
          (self.w1 • (p - self.w0 • n)) self.w0 := by
      rw [transcript, hp, hn]
      rfl
    have hdiff : p - self.w0 • n = 0 ↔ p = self.w0 • n := sub_eq_zero
    rw [finish, htt, hshare]
    by_cases hzero : self.x • c.generator + self.w0 • m = 0
    · rw [hzero, encodePoint_zero]
      exact iff_of_false (fun h => h rfl) fun h => (h p rfl).1 rfl
    · obtain ⟨bA, hbA⟩ := encodePoint_of_ne (c := c) hzero
      rw [hbA, Checked.ok_bind]
      by_cases hpoints : self.x • (p - self.w0 • n) = 0 ∨ self.w1 • (p - self.w0 • n) = 0
      · rw [buildTranscript_panics hm hn hpoints]
        refine iff_of_false (fun h => h rfl) fun h => ?_
        obtain ⟨-, hx, hw1, hne⟩ := h p rfl
        rw [smul_eq_zero, smul_eq_zero, hdiff] at hpoints
        rcases hpoints with (hx' | hp') | hw' | hp'
        · exact hx hx'
        · exact hne hp'
        · exact hw1 hw'
        · exact hne hp'
      · obtain ⟨hz, hv⟩ := not_or.1 hpoints
        obtain ⟨tt, htt⟩ : ∃ tt, buildTranscript c context idP idV bA.1 pB _ _ self.w0 = .ok tt :=
          buildTranscript_ok hm hn hz hv
        rw [htt]
        refine iff_of_true (by rintro ⟨⟩) fun p' hp' => ?_
        cases hp'
        rw [smul_eq_zero, not_or, hdiff] at hz hv
        exact ⟨hzero, hz.1, hv.1, hz.2⟩

theorem Verifier.finish_returns (self : Verifier K V) (h : PakeHash) (pA context idP idV : Bytes) :
    self.finish c h pA context idP idV ≠ .error .panic ↔ ∀ p, decodePoint c pA = .ok p →
      self.y • c.generator + self.w0 • n ≠ 0 ∧ self.y ≠ 0 ∧ self.l ≠ 0 ∧ p ≠ self.w0 • m := by
  cases hp : decodePoint c pA with
  | error e =>
    refine iff_of_true ?_ (by rintro p ⟨⟩)
    rw [finish, hp]
    rintro ⟨⟩
  | ok p =>
    have hshare : self.pB c = encodePoint c (self.y • c.generator + self.w0 • n) := by
      rw [Verifier.pB, hn]
      rfl
    have hdiff : p - self.w0 • m = 0 ↔ p = self.w0 • m := sub_eq_zero
    rw [finish, hp, hm, hshare]
    by_cases hzero : self.y • c.generator + self.w0 • n = 0
    · rw [hzero, encodePoint_zero]
      exact iff_of_false (fun h => h rfl) fun h => (h p rfl).1 rfl
    · obtain ⟨bB, hbB⟩ := encodePoint_of_ne (c := c) hzero
      rw [hbB]
      show (buildTranscript c context idP idV pA bB.1 (self.y • (p - self.w0 • m)) (self.y • self.l)
        self.w0 >>= _) ≠ _ ↔ _
      by_cases hpoints : self.y • (p - self.w0 • m) = 0 ∨ self.y • self.l = 0
      · rw [buildTranscript_panics hm hn hpoints]
        refine iff_of_false (fun h => h rfl) fun h => ?_
        obtain ⟨-, hy, hl, hne⟩ := h p rfl
        rw [smul_eq_zero, smul_eq_zero, hdiff] at hpoints
        rcases hpoints with (hy' | hp') | hy' | hl'
        · exact hy hy'
        · exact hne hp'
        · exact hy hy'
        · exact hl hl'
      · obtain ⟨hz, hv⟩ := not_or.1 hpoints
        obtain ⟨tt, htt⟩ : ∃ tt, buildTranscript c context idP idV pA bB.1 _ _ self.w0 = .ok tt :=
          buildTranscript_ok hm hn hz hv
        rw [htt]
        refine iff_of_true (by rintro ⟨⟩) fun p' hp' => ?_
        cases hp'
        rw [smul_eq_zero, not_or, hdiff] at hz
        rw [smul_eq_zero, not_or] at hv
        exact ⟨hzero, hz.1, hv.2, hz.2⟩

end

/-- **No panic.** For every secrets and every bytes that come as the peer's share, a party returns
exactly when, the share being a point, neither its own share, nor its secrets, nor the peer's point
without the multiple of the fixed point is the identity. -/
theorem parties_return (c : P256 K V) (h : PakeHash) (hm : decodePoint c spakeM = .ok m)
    (hn : decodePoint c spakeN = .ok n) :
    (∀ (self : Prover K) (pB context idP idV : Bytes),
      self.finish c h pB context idP idV ≠ .error .panic ↔ ∀ p, decodePoint c pB = .ok p →
        self.x • c.generator + self.w0 • m ≠ 0 ∧ self.x ≠ 0 ∧ self.w1 ≠ 0 ∧ p ≠ self.w0 • n) ∧
    ∀ (self : Verifier K V) (pA context idP idV : Bytes),
      self.finish c h pA context idP idV ≠ .error .panic ↔ ∀ p, decodePoint c pA = .ok p →
        self.y • c.generator + self.w0 • n ≠ 0 ∧ self.y ≠ 0 ∧ self.l ≠ 0 ∧ p ≠ self.w0 • m :=
  ⟨fun self => self.finish_returns hm hn h, fun self => self.finish_returns hm hn h⟩

end

/-! ## A share that hides the identity -/

namespace SampleCurve

/-- The number of points of the curve. -/
def curveOrder : Nat :=
  115792089210356248762697446949407573529996955224135760342422259061068512044369

set_option maxRecDepth 20000 in
/-- The number of points is prime. -/
theorem prime_curveOrder : curveOrder.Prime := by
  have h₁ : Nat.Prime 187019741 :=
    Pratt.prime_of_factors _ 2 6 32 [2, 5, 9350987]
      (by norm_num) (by decide) (by decide) (by decide) (by decide)
  have h₂ : Nat.Prime 311245691 :=
    Pratt.prime_of_factors _ 2 6 32 [2, 5, 7, 17, 29, 311]
      (by norm_num) (by decide) (by decide) (by decide) (by decide)
  have h₃ : Nat.Prime 622491383 :=
    Pratt.prime_of_factors _ 5 6 32 [2, 311245691]
      (List.forall_mem_cons.2 ⟨Nat.prime_two, List.forall_mem_singleton.2 h₂⟩)
      (by decide) (by decide) (by decide) (by decide)
  have h₄ : Nat.Prime 1002328039319 :=
    Pratt.prime_of_factors _ 19 6 64 [2, 126241, 3969899]
      (by norm_num) (by decide) (by decide) (by decide) (by decide)
  have h₅ : Nat.Prime 191039911 :=
    Pratt.prime_of_factors _ 3 6 32 [2, 3, 5, 41, 155317]
      (by norm_num) (by decide) (by decide) (by decide) (by decide)
  have h₆ : Nat.Prime 208150935158385979 :=
    Pratt.prime_of_factors _ 2 6 64 ([2, 3, 11, 43, 127, 3023] ++ [191039911])
      (List.forall_mem_append.2 ⟨by norm_num, List.forall_mem_singleton.2 h₅⟩)
      (by decide) (by decide) (by decide) (by decide)
  have h₇ : Nat.Prime 2624747550333869278416773953 :=
    Pratt.prime_of_factors _ 7 6 128 ([2, 3, 1297, 16879] ++ [208150935158385979])
      (List.forall_mem_append.2 ⟨by norm_num, List.forall_mem_singleton.2 h₆⟩)
      (by decide) (by decide) (by decide) (by decide)
  exact Pratt.prime_of_factors _ 7 6 256
    ([2, 3, 71, 131, 373, 3407, 17449, 38189] ++
      [187019741, 622491383, 1002328039319, 2624747550333869278416773953])
    (List.forall_mem_append.2 ⟨by norm_num, List.forall_mem_cons.2 ⟨h₁, List.forall_mem_cons.2
      ⟨h₃, List.forall_mem_cons.2 ⟨h₄, List.forall_mem_singleton.2 h₇⟩⟩⟩⟩)
    (by decide) (by decide) (by decide) (by decide)

instance : Fact curveOrder.Prime := ⟨prime_curveOrder⟩

abbrev Scalar := ZMod curveOrder

/-- The point `M`, uncompressed. -/
def mBytes : Bytes :=
  [0x04, 0x88, 0x6e, 0x2f, 0x97, 0xac, 0xe4, 0x6e, 0x55, 0xba, 0x9d, 0xd7, 0x24, 0x25, 0x79, 0xf2,
    0x99, 0x3b, 0x64, 0xe1, 0x6e, 0xf3, 0xdc, 0xab, 0x95, 0xaf, 0xd4, 0x97, 0x33, 0x3d, 0x8f, 0xa1,
    0x2f, 0x5f, 0xf3, 0x55, 0x16, 0x3e, 0x43, 0xce, 0x22, 0x4e, 0x0b, 0x0e, 0x65, 0xff, 0x02, 0xac,
    0x8e, 0x5c, 0x7b, 0xe0, 0x94, 0x19, 0xc7, 0x85, 0xe0, 0xca, 0x54, 0x7d, 0x55, 0xa1, 0x2e, 0x2d,
    0x20]

/-- The point `N`, uncompressed. -/
def nBytes : Bytes :=
  [0x04, 0xd8, 0xbb, 0xd6, 0xc6, 0x39, 0xc6, 0x29, 0x37, 0xb0, 0x4d, 0x99, 0x7f, 0x38, 0xc3, 0x77,
    0x07, 0x19, 0xc6, 0x29, 0xd7, 0x01, 0x4d, 0x49, 0xa2, 0x4b, 0x4f, 0x98, 0xba, 0xa1, 0x29, 0x2b,
    0x49, 0x07, 0xd6, 0x0a, 0xa6, 0xbf, 0xad, 0xe4, 0x50, 0x08, 0xa6, 0x36, 0x33, 0x7f, 0x51, 0x68,
    0xc6, 0x4d, 0x9b, 0xd3, 0x60, 0x34, 0x80, 0x8c, 0xd5, 0x64, 0x49, 0x0b, 0x1e, 0x65, 0x6e, 0xdb,
    0xe7]

/-- The sum of the generator and `M`. -/
def generatorPlusM : Bytes :=
  [0x04, 0xe4, 0x4f, 0xe6, 0xf0, 0x5e, 0xba, 0xbd, 0x96, 0xd5, 0xdc, 0x6e, 0x15, 0x1d, 0xba, 0xe5,
    0x9d, 0x63, 0x75, 0x29, 0x17, 0x4e, 0x7e, 0x0c, 0x1e, 0x5f, 0xf2, 0x62, 0x1b, 0xa9, 0xb1, 0xb6,
    0x76, 0xb6, 0xa1, 0xa7, 0x4a, 0x03, 0xf0, 0x7f, 0x33, 0x9b, 0x78, 0x90, 0xf7, 0x7c, 0xb6, 0xbd,
    0x92, 0xbe, 0x5a, 0xc4, 0xe9, 0x70, 0x93, 0x44, 0x43, 0xd5, 0x9e, 0x1d, 0x44, 0x8f, 0x44, 0x76,
    0x6f]

/-- The sum of the generator and `N`. -/
def generatorPlusN : Bytes :=
  [0x04, 0x62, 0xad, 0xad, 0x78, 0xae, 0xd6, 0xde, 0x7d, 0x91, 0x19, 0x03, 0x37, 0x49, 0xef, 0x9e,
    0xe3, 0xa5, 0x75, 0x3c, 0xe6, 0x12, 0x56, 0x7e, 0xc0, 0x56, 0x25, 0xeb, 0xa3, 0x1c, 0x58, 0xc1,
    0xb1, 0xed, 0x77, 0xc1, 0x47, 0xef, 0x26, 0x52, 0x8f, 0xce, 0x41, 0xf6, 0x7e, 0xce, 0x43, 0xa6,
    0xb4, 0xcf, 0x68, 0x03, 0x2d, 0xe4, 0x4a, 0xfd, 0x28, 0xb5, 0x03, 0xb2, 0x3d, 0x72, 0x9d, 0xfa,
    0x6e]

/-- The group as multiples of the generator, `M` and `N` being two of them, with the bytes of the
points that are encoded below. -/
def curve : P256 Scalar Scalar where
  generator := 1
  fromSec1 bytes := if bytes = spakeM then some 2 else if bytes = spakeN then some 5 else none
  toSec1 p :=
    if p = 0 then [0] else if p = 2 then mBytes else if p = 5 then nBytes
    else if p = 3 then generatorPlusM else if p = 6 then generatorPlusN
    else 0x04 :: List.replicate 64 0
  scalarBytes k := ⟨(LittleEndian.encode 32 k.val).reverse, by simp⟩
  toSec1_identity := if_pos rfl
  toSec1_point p hp := by
    rw [if_neg hp]
    split_ifs <;> rfl

/-- The hash functions, to which the runs below do not come. -/
def noHash : PakeHash where
  sha256 _ := ⟨List.replicate 32 0, rfl⟩
  hkdf _ _ := ⟨List.replicate 32 0, rfl⟩
  hmac _ _ := ⟨List.replicate 32 0, rfl⟩

theorem decodePoint_spakeM : decodePoint curve spakeM = .ok 2 := by
  have h : curve.fromSec1 spakeM = some 2 := by
    unfold curve
    dsimp only
    rw [if_pos rfl]
  rw [decodePoint, h]
  exact if_neg (by decide)

theorem decodePoint_spakeN : decodePoint curve spakeN = .ok 5 := by
  have h : curve.fromSec1 spakeN = some 5 := by
    unfold curve
    dsimp only
    rw [if_neg (by decide), if_pos rfl]
  rw [decodePoint, h]
  exact if_neg (by decide)

end SampleCurve

open SampleCurve in
/-- **The identity is encoded.** With `w0` one, the fixed points themselves are shares that hide the
identity. -/
theorem identity_share_panics :
    (¬ ∀ (self : Prover Scalar) (pB context idP idV : Bytes),
      self.finish curve noHash pB context idP idV ≠ .error .panic) ∧
    ¬ ∀ (self : Verifier Scalar Scalar) (pA context idP idV : Bytes),
      self.finish curve noHash pA context idP idV ≠ .error .panic := by
  refine ⟨fun h => ?_, fun h => ?_⟩
  · have hp := h ⟨1, 1, 1⟩ spakeN [] [] []
    rw [Prover.finish_returns decodePoint_spakeM decodePoint_spakeN] at hp
    exact (hp 5 decodePoint_spakeN).2.2.2 (one_smul Scalar 5).symm
  · have hv := h ⟨1, 1, 1⟩ spakeM [] [] []
    rw [Verifier.finish_returns decodePoint_spakeM decodePoint_spakeN] at hv
    exact (hv 2 decodePoint_spakeM).2.2.2 (one_smul Scalar 2).symm

open SampleCurve in
theorem parties_return_sample :
    (⟨1, 1, 1⟩ : Prover Scalar).finish curve noHash spakeN [] [] [] = .error .panic := by
  by_contra hne
  have hp := ((parties_return curve noHash decodePoint_spakeM decodePoint_spakeN).1
    ⟨1, 1, 1⟩ spakeN [] [] []).1 hne
  exact (hp 5 decodePoint_spakeN).2.2.2 (one_smul Scalar 5).symm

end Spake2p

end MatStack
