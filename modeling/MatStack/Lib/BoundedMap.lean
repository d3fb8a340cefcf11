import Mathlib.Data.Finset.Card
import Mathlib.Data.Finset.Dedup
import Mathlib.Data.List.AList

/-!
# Maps with a bounded number of keys

A map that never holds more than a fixed number of keys: a known key is always updated and a new one
is refused while the map is full. `lookup_insert_of_room` and `insert_of_full` are the two outcomes,
and `room_of_card_le` is how a bound on all the keys that may ever come makes room for each of them.
-/

universe u v

/-- A map of at most `cap` keys. -/
structure BoundedMap (κ : Type u) (β : Type v) [DecidableEq κ] (cap : Nat) where
  map : AList (fun _ : κ => β)
  length_le : map.keys.length ≤ cap

namespace BoundedMap

section
variable {κ : Type u} {β : Type v} [DecidableEq κ] {cap : Nat}

def empty : BoundedMap κ β cap := ⟨∅, Nat.zero_le _⟩

def lookup (m : BoundedMap κ β cap) (k : κ) : Option β := m.map.lookup k

def keys (m : BoundedMap κ β cap) : List κ := m.map.keys

def entries (m : BoundedMap κ β cap) : List (κ × β) := m.map.entries.map fun e => (e.1, e.2)

/-- The key is known, or a new one is taken. -/
def HasRoom (m : BoundedMap κ β cap) (k : κ) : Prop := k ∈ m.keys ∨ m.keys.length < cap

instance (m : BoundedMap κ β cap) (k : κ) : Decidable (m.HasRoom k) :=
  inferInstanceAs (Decidable (_ ∨ _))

/-- Puts a value at a key, where there is room for it. -/
def insert (m : BoundedMap κ β cap) (k : κ) (v : β) : BoundedMap κ β cap :=
  if h : m.HasRoom k then
    { map := m.map.insert k v
      length_le := by
        rw [AList.keys_insert, List.length_cons]
        rcases h with h | h
        · have hlen : (m.map.keys.erase k).length = m.map.keys.length - 1 :=
            List.length_erase_of_mem h
          have hpos : 0 < m.map.keys.length := List.length_pos_of_mem h
          have := m.length_le
          omega
        · exact Nat.lt_of_le_of_lt List.length_erase_le h }
  else m

variable {m : BoundedMap κ β cap} {k k' : κ} {v : β}

@[simp] theorem lookup_empty : (empty : BoundedMap κ β cap).lookup k = none := rfl

theorem mem_keys : k ∈ m.keys ↔ ∃ v, m.lookup k = some v := by
  rw [keys, ← AList.mem_keys, ← AList.lookup_isSome, Option.isSome_iff_exists]
  rfl

theorem lookup_eq_none : m.lookup k = none ↔ k ∉ m.keys := AList.lookup_eq_none

theorem nodup_keys (m : BoundedMap κ β cap) : m.keys.Nodup := m.map.keys_nodup

theorem mem_entries : (k, v) ∈ m.entries ↔ m.lookup k = some v := by
  rw [entries, List.mem_map, lookup, ← Option.mem_def, AList.mem_lookup_iff]
  constructor
  · rintro ⟨⟨k', v'⟩, hmem, he⟩
    cases he
    exact hmem
  · intro h
    exact ⟨⟨k, v⟩, h, rfl⟩

/-- Where there is room, the value is found again. -/
theorem lookup_insert_of_room (h : m.HasRoom k) : (m.insert k v).lookup k = some v := by
  rw [insert, dif_pos h]
  exact AList.lookup_insert _

/-- A full map keeps its keys. -/
theorem insert_of_full (h : ¬ m.HasRoom k) : m.insert k v = m := dif_neg h

/-- Other keys do not change. -/
theorem lookup_insert_ne (h : k' ≠ k) : (m.insert k v).lookup k' = m.lookup k' := by
  unfold insert
  split
  · exact AList.lookup_insert_ne h
  · rfl

/-- What is found at the key is the value, or the map was full. -/
theorem lookup_insert_cases :
    (m.insert k v).lookup k = some v ∨ m.insert k v = m ∧ m.lookup k = none := by
  by_cases h : m.HasRoom k
  · exact Or.inl (lookup_insert_of_room h)
  · exact Or.inr ⟨insert_of_full h, lookup_eq_none.2 fun hk => h (Or.inl hk)⟩

theorem mem_keys_insert (h : k' ∈ (m.insert k v).keys) : k' = k ∨ k' ∈ m.keys := by
  unfold insert at h
  split at h
  · rw [keys, ← AList.mem_keys, AList.mem_insert] at h
    exact h.imp_right AList.mem_keys.1
  · exact Or.inr h

theorem keys_subset_insert (h : k' ∈ m.keys) : k' ∈ (m.insert k v).keys := by
  unfold insert
  split
  · rw [keys, ← AList.mem_keys, AList.mem_insert]
    exact Or.inr (AList.mem_keys.2 h)
  · exact h

/-- A new key comes first. -/
theorem keys_insert_of_new (hk : k ∉ m.keys) (hlt : m.keys.length < cap) :
    (m.insert k v).keys = k :: m.keys := by
  rw [insert, dif_pos (show m.HasRoom k from Or.inr hlt), keys, AList.keys_insert]
  exact congrArg (k :: ·) (List.erase_of_not_mem hk)

/-- A full map stays full, of the same keys. -/
theorem insert_full (h : m.keys.length = cap) :
    (m.insert k v).keys.length = cap ∧ ∀ x ∈ (m.insert k v).keys, x ∈ m.keys := by
  by_cases hroom : m.HasRoom k
  · have hk : k ∈ m.keys := hroom.resolve_right fun hlt => Nat.lt_irrefl _ (h ▸ hlt)
    constructor
    · have hsub : m.keys ⊆ (m.insert k v).keys := fun x hx => keys_subset_insert hx
      have hlen := (m.nodup_keys.subperm hsub).length_le
      exact Nat.le_antisymm (m.insert k v).length_le (Nat.le_trans (Nat.le_of_eq h.symm) hlen)
    · intro x hx
      rcases mem_keys_insert hx with rfl | hx
      · exact hk
      · exact hx
  · rw [insert_of_full hroom]
    exact ⟨h, fun x hx => hx⟩

/-- **Room.** A key is taken as long as all keys, and it, are among `cap` many. -/
theorem room_of_card_le {s : Finset κ} (hs : s.card ≤ cap) (hm : ∀ x ∈ m.keys, x ∈ s) (hk : k ∈ s) :
    m.HasRoom k := by
  by_contra h
  simp only [HasRoom, not_or, not_lt] at h
  have hsub : Insert.insert k m.keys.toFinset ⊆ s := by
    intro x hx
    rcases Finset.mem_insert.1 hx with rfl | hx
    · exact hk
    · exact hm x (List.mem_toFinset.1 hx)
  have hcard := Finset.card_le_card hsub
  rw [Finset.card_insert_of_notMem (fun hk => h.1 (List.mem_toFinset.1 hk)),
    List.toFinset_card_of_nodup m.nodup_keys] at hcard
  omega

end

end BoundedMap
