import MatStack.Controller.Tlv
import MatStack.Lib.OwnedRows
import Mathlib.Data.List.Nodup

/-!
# The table of fabrics

The fabrics a device is commissioned onto, each under its index. Every change saves the whole table;
whether a save succeeds is up to the environment. `insert` takes a fabric that could not be saved
out again, `remove` does not put one back.
-/

namespace MatStack

/-- One installed fabric. -/
structure FabricEntry where
  fabricIndex : UInt8
  rootTlv : Bytes
  nocTlv : Bytes
  icacTlv : Option Bytes
  opPrivateKey : Fixed 32
  ipkOperational : Fixed 16
  nodeId : UInt64
  fabricId : UInt64
  rootPublicKey : Fixed 65
  adminSubject : UInt64
  adminVendorId : UInt16
  label : String
deriving DecidableEq

/-- What a save of the table comes to. -/
abbrev SaveResult := Except String Unit

/-- The table. -/
structure FabricStore where
  entries : List FabricEntry
deriving DecidableEq

namespace FabricStore

def new : FabricStore := ⟨[]⟩

/-- The index the next `insert` uses: one above the greatest, modulo 256 as a release build adds
them. A debug build panics instead when `nextOverflows`. -/
def nextFabricIndex (s : FabricStore) : UInt8 :=
  match (s.entries.map (·.fabricIndex.toNat)).max? with
  | none => 1
  | some m => UInt8.ofNat (m + 1)

/-- The sum in `nextFabricIndex` leaves eight bits. -/
def nextOverflows (s : FabricStore) : Bool := s.entries.any (·.fabricIndex == 255)

def find? (s : FabricStore) (fabricIndex : UInt8) : Option FabricEntry :=
  s.entries.find? (·.fabricIndex == fabricIndex)

def insert (s : FabricStore) (save : SaveResult) (entry : FabricEntry) :
    Except String Unit × FabricStore :=
  match save with
  | .ok () => (.ok (), ⟨s.entries ++ [entry]⟩)
  | .error e => (.error e, s)

/-- Removes the fabric at an index, and says whether there was one. -/
def remove (s : FabricStore) (save : SaveResult) (fabricIndex : UInt8) :
    Except String Bool × FabricStore :=
  if s.entries.any (·.fabricIndex == fabricIndex) then
    (save.map fun _ => true, ⟨s.entries.eraseP (·.fabricIndex == fabricIndex)⟩)
  else (.ok false, s)

/-- Labels the fabric at an index, and says whether there is one. -/
def updateLabel (s : FabricStore) (save : SaveResult) (fabricIndex : UInt8) (label : String) :
    Except String Bool × FabricStore :=
  match OwnedRows.modifyFirst? (·.fabricIndex == fabricIndex) (fun e => { e with label })
      s.entries with
  | none => (.ok false, s)
  | some entries => (save.map fun _ => true, ⟨entries⟩)

/-! ## Indices -/

/-- The indices in use. -/
def indices (s : FabricStore) : List UInt8 := s.entries.map (·.fabricIndex)

variable {s : FabricStore} {save : SaveResult} {e : FabricEntry} {i j : UInt8}

theorem nextOverflows_iff : s.nextOverflows ↔ 255 ∈ s.indices := by
  simp [nextOverflows, indices]

theorem find?_eq_some_index (h : s.find? i = some e) : e.fabricIndex = i := by
  simpa using List.find?_some h

theorem mem_indices_of_find? (h : s.find? i = some e) : i ∈ s.indices := by
  rw [← find?_eq_some_index h]
  exact List.mem_map_of_mem (List.mem_of_find?_eq_some h)

theorem find?_eq_none : s.find? i = none ↔ i ∉ s.indices := by
  simp [find?, indices]

/-- Short of an overflow, the next index lies above every index in use. -/
theorem lt_nextFabricIndex (h : 255 ∉ s.indices) (hi : i ∈ s.indices) :
    i.toNat < s.nextFabricIndex.toNat := by
  obtain ⟨e, he, rfl⟩ := List.mem_map.1 hi
  have hmem : e.fabricIndex.toNat ∈ s.entries.map (·.fabricIndex.toNat) :=
    List.mem_map_of_mem (f := fun e : FabricEntry => e.fabricIndex.toNat) he
  unfold nextFabricIndex
  cases hm : (s.entries.map (·.fabricIndex.toNat)).max? with
  | none =>
    rw [List.max?_eq_none_iff.1 hm] at hmem
    cases hmem
  | some m =>
    obtain ⟨hmax, hle⟩ := List.max?_eq_some_iff.1 hm
    obtain ⟨e', he', rfl⟩ := List.mem_map.1 hmax
    have hne : e'.fabricIndex ≠ 255 := fun h' => h (h' ▸ List.mem_map_of_mem he')
    have hlt : e'.fabricIndex.toNat < 255 := by
      have := e'.fabricIndex.toNat_lt
      have : e'.fabricIndex.toNat ≠ 255 := fun h' => hne (UInt8.toNat_inj.1 h')
      omega
    have := hle _ hmem
    rw [UInt8.toNat_ofNat']
    omega

/-- The next index is the successor of an index in use, or 1. -/
theorem nextFabricIndex_cases (s : FabricStore) :
    s.nextFabricIndex = 1 ∨ ∃ i ∈ s.indices, s.nextFabricIndex = i + 1 := by
  unfold nextFabricIndex
  cases hm : (s.entries.map (·.fabricIndex.toNat)).max? with
  | none => exact .inl rfl
  | some m =>
    obtain ⟨e, he, rfl⟩ := List.mem_map.1 (List.max?_eq_some_iff.1 hm).1
    refine .inr ⟨e.fabricIndex, List.mem_map_of_mem he, ?_⟩
    dsimp only
    rw [UInt8.ofNat_add, UInt8.ofNat_toNat]
    rfl

theorem nextFabricIndex_singleton (e : FabricEntry) :
    (⟨[e]⟩ : FabricStore).nextFabricIndex = e.fabricIndex + 1 := by
  change UInt8.ofNat (e.fabricIndex.toNat + 1) = _
  rw [UInt8.ofNat_add, UInt8.ofNat_toNat]
  rfl

/-- The index after 255 is the one of no fabric. -/
theorem nextFabricIndex_of_mem_255 (h : 255 ∈ s.indices) : s.nextFabricIndex = 0 := by
  obtain ⟨e, he, he255⟩ := List.mem_map.1 h
  have hmem : 255 ∈ s.entries.map (·.fabricIndex.toNat) :=
    List.mem_map.2 ⟨e, he, congrArg UInt8.toNat he255⟩
  unfold nextFabricIndex
  cases hm : (s.entries.map (·.fabricIndex.toNat)).max? with
  | none =>
    rw [List.max?_eq_none_iff.1 hm] at hmem
    cases hmem
  | some m =>
    obtain ⟨hmax, hle⟩ := List.max?_eq_some_iff.1 hm
    obtain ⟨e', -, rfl⟩ := List.mem_map.1 hmax
    have hge := hle _ hmem
    have hlt := e'.fabricIndex.toNat_lt
    have : e'.fabricIndex.toNat = 255 := by omega
    rw [this]
    rfl

/-- Short of an overflow, the next index is not in use. -/
theorem nextFabricIndex_not_mem (h : 255 ∉ s.indices) : s.nextFabricIndex ∉ s.indices :=
  fun hi => Nat.lt_irrefl _ (lt_nextFabricIndex h hi)

/-- Short of an overflow, the next index is not the one of no fabric. -/
theorem nextFabricIndex_ne_zero (h : 255 ∉ s.indices) : s.nextFabricIndex ≠ 0 := by
  obtain h' | ⟨i, hi, h'⟩ := s.nextFabricIndex_cases
  · rw [h']
    decide
  · intro h₀
    have := lt_nextFabricIndex h hi
    rw [h₀] at this
    exact Nat.not_lt_zero _ this

/-! ## Changes -/

theorem remove_snd (s : FabricStore) (save : SaveResult) (i : UInt8) :
    (s.remove save i).2 = ⟨s.entries.eraseP (·.fabricIndex == i)⟩ := by
  unfold remove
  split
  · rfl
  · next h =>
    rw [List.eraseP_of_forall_not]
    simpa using h

/-- With distinct indices, a removal drops every entry of the index. -/
theorem remove_entries (h : s.indices.Nodup) (save : SaveResult) (i : UInt8) :
    (s.remove save i).2.entries = s.entries.filter (·.fabricIndex != i) := by
  rw [remove_snd]
  obtain ⟨entries⟩ := s
  change (entries.map (·.fabricIndex)).Nodup at h
  dsimp only
  induction entries with
  | nil => rfl
  | cons e entries ih =>
    rw [List.map_cons, List.nodup_cons] at h
    by_cases he : e.fabricIndex = i
    · have hrest : ∀ e' ∈ entries, (e'.fabricIndex != i) = true := fun e' he' =>
        bne_iff_ne.2 fun h' => h.1 (List.mem_map.2 ⟨e', he', h'.trans he.symm⟩)
      rw [List.eraseP_cons_of_pos (by simpa using he), List.filter_cons_of_neg (by simpa using he),
        List.filter_eq_self.2 hrest]
    · rw [List.eraseP_cons_of_neg (by simpa using he), List.filter_cons_of_pos (by simpa using he),
        ih h.2]

/-- With distinct indices, the index that is removed is free. -/
theorem remove_not_mem (h : s.indices.Nodup) : i ∉ (s.remove save i).2.indices := by
  rw [indices, remove_entries h]
  simp

/-- A removal leaves the other indices. -/
theorem mem_remove_indices (h : j ≠ i) : j ∈ (s.remove save i).2.indices ↔ j ∈ s.indices := by
  rw [remove_snd, indices, indices, List.mem_map, List.mem_map]
  refine exists_congr fun e => and_congr_left fun he => List.mem_eraseP_of_neg ?_
  rw [he, beq_iff_eq]
  exact h

theorem remove_indices_sublist : ((s.remove save i).2.indices).Sublist s.indices := by
  rw [remove_snd]
  exact List.Sublist.map _ List.eraseP_sublist

/-- A fabric is found at an index exactly when its removal drops one. -/
theorem remove_of_find? (h : s.find? i = some e) :
    s.remove save i = (save.map fun _ => true, ⟨s.entries.eraseP (·.fabricIndex == i)⟩) := by
  have : s.entries.any (·.fabricIndex == i) := by
    rw [List.any_eq_true]
    exact ⟨e, List.mem_of_find?_eq_some h, beq_iff_eq.2 (find?_eq_some_index h)⟩
  rw [remove, if_pos this]

theorem insert_ok (h : (s.insert save e).1.isOk = true) :
    (s.insert save e).2 = ⟨s.entries ++ [e]⟩ := by
  cases save with
  | error => cases h
  | ok => rfl

theorem insert_error (h : (s.insert save e).1.isOk = false) : (s.insert save e).2 = s := by
  cases save with
  | error => rfl
  | ok => cases h

theorem updateLabel_snd (s : FabricStore) (save : SaveResult) (i : UInt8) (label : String) :
    (s.updateLabel save i label).2 = (s.updateLabel (.ok ()) i label).2 := by
  unfold updateLabel
  split <;> rfl

/-- A label changes no index. -/
theorem updateLabel_indices {label : String} :
    (s.updateLabel save i label).2.indices = s.indices := by
  unfold updateLabel
  split
  · rfl
  · next entries h => exact OwnedRows.map_modifyFirst? _ h fun _ => rfl

end FabricStore

end MatStack
