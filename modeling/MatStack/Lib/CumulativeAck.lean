import Mathlib.Data.List.Basic
import Mathlib.Data.List.Range
import MatStack.Lib.Machine

/-!
# Cumulative acknowledgement

One end of a reliable, ordered link numbers the packets it sends `0, 1, 2, …` and receives packets
its peer numbers `1, 2, 3, …`; on the wire every number is reduced modulo `M`. An acknowledgement
names the last packet it covers and covers everything before it. A `Ledger` counts, without any
wrapping, what has been sent, acknowledged by the peer, received, and acknowledged to the peer; it
is a function of the traffic alone. `Ledger.Allows` is what the two ends owe each other under a
window `w`: numbers in order, nothing sent into a full window, acknowledgements of packets that were
received and not acknowledged before, and in the other direction acknowledgements that name a packet
outstanding or just acknowledged (or, before the first, the number that precedes `0`). An end that
keeps wrapping counters conforms when its traffic is allowed along the way.
-/

namespace CumulativeAck

/-- A packet crossing the link, with its number and the acknowledgement it carries. -/
inductive Traffic where
  | sent (seq : Nat) (ack : Option Nat)
  | received (seq : Nat) (ack : Option Nat)
deriving Repr, DecidableEq

/-- The counts of one end. -/
structure Ledger where
  /-- Packets sent. -/
  sent : Nat
  /-- Packets sent that the peer has acknowledged. -/
  acked : Nat
  /-- Packets received. -/
  received : Nat
  /-- Packets received that have been acknowledged to the peer. -/
  acknowledged : Nat
deriving Repr, DecidableEq

namespace Ledger

section
variable (M w : Nat)

/-- A link before its first packet. -/
def empty : Ledger := { sent := 0, acked := 0, received := 0, acknowledged := 0 }

/-- Packets sent and not acknowledged. -/
def outstanding (l : Ledger) : Nat := l.sent - l.acked

/-- The number `a` names the last of the first `n` packets, which is outstanding or the last one
acknowledged. -/
def Names (l : Ledger) (a n : Nat) : Prop :=
  0 < n ∧ l.acked ≤ n ∧ n ≤ l.sent ∧ (n - 1) % M = a

instance (l : Ledger) (a n : Nat) : Decidable (l.Names M a n) :=
  inferInstanceAs (Decidable (_ ∧ _))

/-- How many packets are acknowledged after an acknowledgement of `a`; a number that names nothing
acknowledges nothing. -/
def ackedBy (l : Ledger) (a : Nat) : Nat :=
  ((List.range (l.sent + 1)).find? fun n => l.Names M a n).getD l.acked

/-- The counts after one more packet. -/
def next (l : Ledger) : Traffic → Ledger
  | .sent _ ack => { l with
      sent := l.sent + 1
      acknowledged := if ack.isSome then l.received else l.acknowledged }
  | .received _ ack => { l with
      received := l.received + 1
      acked := (ack.map (l.ackedBy M)).getD l.acked }

/-- What may cross the link next. -/
def Allows (l : Ledger) : Traffic → Prop
  | .sent seq ack =>
    seq = l.sent % M ∧ l.outstanding < w ∧
      ∀ a ∈ ack, l.acknowledged < l.received ∧ a = l.received % M
  | .received seq ack =>
    seq = (l.received + 1) % M ∧
      ∀ a ∈ ack, (∃ n, l.Names M a n) ∨ (l.acked = 0 ∧ a + 1 = M)

/-- The counts after some traffic. -/
def of (ts : List Traffic) : Ledger := Machine.run (next M) empty ts

/-- How often the `k`-th packet of the peer is acknowledged in the traffic that follows. -/
def ackCount (k : Nat) : Ledger → List Traffic → Nat
  | _, [] => 0
  | l, t :: ts =>
    (match t with
      | .sent _ (some _) => if l.acknowledged < k ∧ k ≤ l.received then 1 else 0
      | _ => 0) + ackCount k (l.next M t) ts

end

section
variable {M w : Nat} {l : Ledger}

/-- Inside a window smaller than the modulus a number names at most one packet. -/
theorem Names.unique {a n m : Nat} (hn : l.Names M a n) (hm : l.Names M a m)
    (hw : l.sent < l.acked + M) : n = m := by
  wlog hle : n ≤ m generalizing n m
  · exact (this hm hn (by omega)).symm
  obtain ⟨hn0, hna, hns, hn⟩ := hn
  obtain ⟨hm0, hma, hms, hm⟩ := hm
  have hmod : (m - 1 - (n - 1)) % M = 0 := Nat.sub_mod_eq_zero_of_mod_eq (hm.trans hn.symm)
  rw [Nat.mod_eq_of_lt (by omega)] at hmod
  omega

/-- An acknowledgement that names a packet acknowledges exactly up to it. -/
theorem Names.ackedBy {a n : Nat} (hn : l.Names M a n) (hw : l.sent < l.acked + M) :
    l.ackedBy M a = n := by
  have hsome : ((List.range (l.sent + 1)).find? fun n => l.Names M a n).isSome := by
    rw [List.find?_isSome]
    exact ⟨n, List.mem_range.2 (by have := hn.2.2.1; omega), by simpa using hn⟩
  obtain ⟨m, hm⟩ := Option.isSome_iff_exists.1 hsome
  have hnm : l.Names M a m := by simpa using List.find?_some hm
  rw [Ledger.ackedBy, hm, Option.getD_some]
  exact hnm.unique hn hw

/-- A number that names nothing acknowledges nothing. -/
theorem ackedBy_of_not_names {a : Nat} (h : ∀ n, ¬ l.Names M a n) : l.ackedBy M a = l.acked := by
  have : (List.range (l.sent + 1)).find? (fun n => l.Names M a n) = none := by
    rw [List.find?_eq_none]
    exact fun n _ => by simpa using h n
  rw [Ledger.ackedBy, this, Option.getD_none]

/-- An acknowledgement never goes back and never passes what was sent. -/
theorem ackedBy_bounds (h : l.acked ≤ l.sent) (a : Nat) :
    l.acked ≤ l.ackedBy M a ∧ l.ackedBy M a ≤ l.sent := by
  cases hf : (List.range (l.sent + 1)).find? (fun n => l.Names M a n) with
  | none => simp [Ledger.ackedBy, hf, h]
  | some n =>
    have hn : l.Names M a n := by simpa using List.find?_some hf
    simp only [Ledger.ackedBy, hf, Option.getD_some]
    exact ⟨hn.2.1, hn.2.2.1⟩

/-- The counts are consistent and the window is respected. -/
structure Consistent (w : Nat) (l : Ledger) : Prop where
  acked_le : l.acked ≤ l.sent
  window : l.outstanding ≤ w
  acknowledged_le : l.acknowledged ≤ l.received

/-- A link before its first packet is consistent. -/
theorem Consistent.empty : Consistent w empty := ⟨le_rfl, Nat.zero_le _, le_rfl⟩

/-- **One packet** that is allowed keeps the counts consistent. -/
theorem Consistent.next {t : Traffic} (h : Consistent w l) (ht : l.Allows M w t) :
    Consistent w (l.next M t) := by
  obtain ⟨ha, hw, hr⟩ := h
  cases t with
  | sent seq ack =>
    obtain ⟨-, hlt, -⟩ := ht
    simp only [outstanding] at hlt
    refine ⟨Nat.le_succ_of_le ha, by simp only [Ledger.next, outstanding]; omega, ?_⟩
    simp only [Ledger.next]
    split <;> omega
  | received seq ack =>
    simp only [outstanding] at hw
    have hb : l.acked ≤ (ack.map (l.ackedBy M)).getD l.acked ∧
        (ack.map (l.ackedBy M)).getD l.acked ≤ l.sent := by
      cases ack with
      | none => exact ⟨le_rfl, ha⟩
      | some a => exact ackedBy_bounds ha a
    refine ⟨hb.2, ?_, Nat.le_succ_of_le hr⟩
    simp only [Ledger.next, outstanding]
    omega

/-- **Conforming traffic** keeps the counts consistent. -/
theorem Consistent.of {ts : List Traffic}
    (h : Machine.Along (Ledger.next M) (Allows M w) Ledger.empty ts) :
    Consistent w (Ledger.of M ts) :=
  Machine.run_invariant Consistent.empty (fun _ _ hl ht => hl.next ht) h

/-- What has been acknowledged is not acknowledged again. -/
theorem ackCount_eq_zero {k : Nat} {ts : List Traffic} :
    ∀ {l : Ledger}, l.acknowledged ≤ l.received → k ≤ l.acknowledged → ackCount M k l ts = 0 := by
  induction ts with
  | nil => exact fun _ _ => rfl
  | cons t ts ih =>
    intro l hl hk
    cases t with
    | sent seq ack =>
      cases ack with
      | none => simpa [ackCount] using ih (l := l.next M (.sent seq none)) hl hk
      | some a =>
        have := ih (l := l.next M (.sent seq (some a))) (by simp [Ledger.next])
          (by simp [Ledger.next]; omega)
        simp only [ackCount, this, Nat.add_zero, ite_eq_right_iff]
        omega
    | received seq ack =>
      simpa [ackCount] using ih (l := l.next M (.received seq ack))
        (by simp [Ledger.next]; omega) hk

/-- **Every packet of the peer is acknowledged at most once.** -/
theorem ackCount_le_one {k : Nat} {ts : List Traffic} :
    ∀ {l : Ledger}, l.acknowledged ≤ l.received → ackCount M k l ts ≤ 1 := by
  induction ts with
  | nil => exact fun _ => Nat.zero_le _
  | cons t ts ih =>
    intro l hl
    cases t with
    | sent seq ack =>
      cases ack with
      | none => simpa [ackCount] using ih (l := l.next M (.sent seq none)) hl
      | some a =>
        have hl' : (l.next M (.sent seq (some a))).acknowledged ≤
            (l.next M (.sent seq (some a))).received := by simp [Ledger.next]
        simp only [ackCount]
        split
        · rename_i hk
          rw [ackCount_eq_zero hl' (by simp [Ledger.next]; omega)]
        · rw [Nat.zero_add]
          exact ih hl'
    | received seq ack =>
      simpa [ackCount] using ih (l := l.next M (.received seq ack)) (by simp [Ledger.next]; omega)

/-- **Only packets that were received are acknowledged.** -/
theorem le_received_of_ackCount {k : Nat} {ts : List Traffic} :
    ∀ {l : Ledger}, 0 < ackCount M k l ts → k ≤ (Machine.run (Ledger.next M) l ts).received := by
  have hmono : ∀ (ts : List Traffic) (l : Ledger),
      l.received ≤ (Machine.run (Ledger.next M) l ts).received := by
    intro ts
    induction ts with
    | nil => exact fun _ => le_rfl
    | cons t ts ih =>
      refine fun l => le_trans ?_ (ih (l.next M t))
      cases t <;> simp [Ledger.next]
  induction ts with
  | nil => exact fun h => absurd h (lt_irrefl 0)
  | cons t ts ih =>
    intro l h
    rw [Machine.run_cons]
    rcases Nat.eq_zero_or_pos (ackCount M k (l.next M t) ts) with hz | hpos
    · simp only [ackCount, hz, Nat.add_zero] at h
      split at h
      · split at h
        · rename_i hk
          refine le_trans hk.2 (le_trans ?_ (hmono ts _))
          simp [Ledger.next]
        · exact absurd h (lt_irrefl 0)
      · exact absurd h (lt_irrefl 0)
    · exact ih hpos

end

end Ledger

end CumulativeAck
