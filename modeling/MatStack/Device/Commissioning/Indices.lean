import MatStack.Device.Commissioning.SampleChain

/-!
# Fabric indices

Indices are handed out as the greatest one in use plus one, so they grow for as long as the newest
fabric is never removed. Up to 254 all is well; a fabric installed while 254 is in use takes 255,
and the next sum leaves eight bits.
-/

namespace MatStack

/-- The indices of a table are those of fabrics and distinct, the table holds no more fabrics than
the device supports, and the next index exists. -/
structure FabricStore.IndicesOk (s : FabricStore) : Prop where
  bounds : ∀ i ∈ s.indices, 1 ≤ i.toNat ∧ i.toNat ≤ 254
  nodup : s.indices.Nodup
  room : s.entries.length ≤ supportedFabrics.toNat
  next : s.nextOverflows = false

namespace FabricStore.IndicesOk

variable {s s' : FabricStore}

theorem new : FabricStore.new.IndicesOk := ⟨nofun, List.nodup_nil, Nat.zero_le _, rfl⟩

theorem not_mem_255 (h : s.IndicesOk) : 255 ∉ s.indices := fun h' =>
  absurd (h.bounds 255 h').2 (by decide)

/-- Fewer indices are no worse. -/
theorem sublist (h : s.IndicesOk) (hs : s'.indices.Sublist s.indices) : s'.IndicesOk where
  bounds i hi := h.bounds i (hs.subset hi)
  nodup := h.nodup.sublist hs
  room := by
    have := hs.length_le
    rw [indices, indices, List.length_map, List.length_map] at this
    exact Nat.le_trans this h.room
  next := by
    rw [Bool.eq_false_iff]
    exact fun hn => h.not_mem_255 (hs.subset (nextOverflows_iff.1 hn))

/-- Below 254 there is an index for one more fabric. -/
theorem append {entry : FabricEntry} (h : s.IndicesOk) (hroom : s.entries.length < supportedFabrics.toNat)
    (hidx : entry.fabricIndex = s.nextFabricIndex) (h254 : 254 ∉ s.indices)
    (hs : s'.indices = s.indices ++ [entry.fabricIndex]) : s'.IndicesOk := by
  have hlt : entry.fabricIndex.toNat ≤ 254 := by
    rw [hidx]
    obtain h₁ | ⟨i, hi, h₁⟩ := s.nextFabricIndex_cases
    · rw [h₁]
      decide
    · have hb := (h.bounds i hi).2
      have hne : i.toNat ≠ 254 := fun h' => by
        have : i = 254 := UInt8.toNat_inj.1 h'
        exact h254 (this ▸ hi)
      rw [h₁, UInt8.toNat_add]
      simp only [UInt8.toNat_one]
      omega
  have hbounds : ∀ i ∈ s'.indices, 1 ≤ i.toNat ∧ i.toNat ≤ 254 := by
    intro i hi
    rw [hs, List.mem_append, List.mem_singleton] at hi
    obtain hi | rfl := hi
    · exact h.bounds i hi
    · have h₀ := nextFabricIndex_ne_zero h.not_mem_255
      rw [← hidx] at h₀
      exact ⟨Nat.pos_of_ne_zero fun h' => h₀ (UInt8.toNat_inj.1 h'), hlt⟩
  refine ⟨hbounds, ?_, ?_, ?_⟩
  · rw [hs, List.nodup_append]
    refine ⟨h.nodup, List.nodup_singleton _, fun i hi j hj => ?_⟩
    rw [List.mem_singleton.1 hj, hidx]
    exact fun h' => nextFabricIndex_not_mem h.not_mem_255 (h' ▸ hi)
  · have : s'.indices.length = s.indices.length + 1 := by rw [hs, List.length_append]; rfl
    rw [indices, indices, List.length_map, List.length_map] at this
    omega
  · rw [Bool.eq_false_iff]
    exact fun hn => absurd (hbounds 255 (nextOverflows_iff.1 hn)).2 (by decide)

end FabricStore.IndicesOk

namespace CommissioningServer

variable {c : Crypto} {s : Inner} {e : ServerEvent}

/-- A step keeps the indices right, unless it installs a fabric while 254 is in use. -/
theorem indicesOk_step (h : s.store.IndicesOk)
    (hg : (installs c s e).isSome → 254 ∉ s.store.indices) : (step c s e).store.IndicesOk := by
  rw [step_tables]
  cases hi : installs c s e with
  | none =>
    refine h.sublist (FabricChange.apply_indices_sublist _ fun entry hc => ?_)
    rw [change_eq_install.1 hc] at hi
    cases hi
  | some entry =>
    obtain ⟨-, hroom, hidx, -⟩ := installs_eq_some hi
    rw [change_eq_install.2 hi]
    exact h.append hroom hidx (hg (by rw [hi]; rfl)) FabricChange.apply_install_indices

/-- An installation while 254 is in use spoils them. -/
theorem not_indicesOk_step (h : s.store.IndicesOk) (hi : (installs c s e).isSome)
    (h254 : 254 ∈ s.store.indices) : ¬(step c s e).store.IndicesOk := by
  obtain ⟨entry, hi⟩ := Option.isSome_iff_exists.1 hi
  have hidx := (installs_eq_some hi).2.2.1
  have hlt := FabricStore.lt_nextFabricIndex h.not_mem_255 h254
  intro h'
  have hmem : entry.fabricIndex ∈ (step c s e).store.indices := by
    rw [step_tables, change_eq_install.2 hi, FabricChange.apply_install_indices]
    exact List.mem_append_right _ (List.mem_singleton_self _)
  have := (h'.bounds _ hmem).2
  rw [hidx] at this
  exact absurd hlt (Nat.not_lt.2 this)

/-- **Fabric indices.** Over a run from an empty table, every state has right indices exactly when
no fabric is installed while 254 is in use. -/
theorem indicesOk_iff (c : Crypto) (dev : DevAttestation) (es : List ServerEvent) :
    (∀ pre post, es = pre ++ post →
      (Machine.run (step c) (.new dev) pre).store.IndicesOk) ↔
    Machine.Along (step c) (fun s e => (installs c s e).isSome → 254 ∉ s.store.indices)
      (.new dev) es := by
  constructor
  · intro h
    refine Machine.along_iff.2 fun pre e post hes hi h254 => ?_
    have hpre := h pre (e :: post) hes
    have hpost := h (pre ++ [e]) post (by rw [hes, List.append_assoc, List.singleton_append])
    rw [Machine.run_append, Machine.run_cons, Machine.run_nil] at hpost
    exact not_indicesOk_step hpre hi h254 hpost
  · rintro h pre post rfl
    exact Machine.run_invariant (I := fun s : Inner => s.store.IndicesOk) FabricStore.IndicesOk.new
      (fun s e hs hg => indicesOk_step hs hg) (Machine.along_append.1 h).1

/-! ### Two hundred and fifty-four removals -/

section
open SampleChain

/-- Commissions the next fabric and removes the one at `k`. -/
def cycle (k : UInt8) : List ServerEvent :=
  arm 0 :: (commission 0 ++ [complete 0, remove 0 k])

/-- The server is at rest and holds one fabric. -/
structure HoldsOnly (k : UInt8) (t : FabricTables) : Prop where
  store : t.store = ⟨[entry k]⟩
  uncommitted : t.uncommittedFabricIndex = none
  failSafe : t.failSafe = .default

/-- A cycle moves the one fabric to the next index. -/
theorem HoldsOnly.cycle {k : UInt8} {s : Inner} (h : HoldsOnly k s.toFabricTables) :
    HoldsOnly (k + 1) (Machine.run (step crypto) s (cycle k)).toFabricTables := by
  have hnext : s.store.nextFabricIndex = k + 1 := by
    rw [h.store, FabricStore.nextFabricIndex_singleton]
    rfl
  have ht := run_arm_commission 0 h.uncommitted (by rw [h.failSafe]; rfl)
    (by rw [h.store]; exact (by decide : 1 < 5))
  rw [hnext] at ht
  rw [CommissioningServer.cycle, ← List.cons_append, Machine.run_append]
  generalize Machine.run (step crypto) s (arm 0 :: commission 0) = s₁ at ht
  rw [Machine.run_cons, Machine.run_cons, Machine.run_nil]
  have hstore : s₁.store = ⟨[entry k, entry (k + 1)]⟩ := by
    rw [ht, FabricTables.installFabric, h.store]
    rfl
  have hc := step_complete_tables s₁ 0
  generalize step crypto s₁ (complete 0) = s₂ at hc
  have hfind : (s₂.store.find? k).isSome := by
    rw [hc, FabricChange.apply, hstore]
    simp [FabricStore.find?, entry]
  rw [step_remove_tables hfind, hc]
  refine ⟨?_, rfl, rfl⟩
  change (s₁.store.remove (.ok ()) k).2 = _
  rw [FabricStore.remove_snd, hstore]
  simp [entry]

/-- The first fabric, and then one cycle after the other. -/
def cycles : Nat → List ServerEvent
  | 0 => arm 0 :: (commission 0 ++ [complete 0])
  | n + 1 => cycles n ++ cycle (UInt8.ofNat (n + 1))

theorem holdsOnly_cycles (dev : DevAttestation) (n : Nat) :
    HoldsOnly (UInt8.ofNat (n + 1)) (Machine.run (step crypto) (.new dev) (cycles n)).toFabricTables := by
  induction n with
  | zero =>
    have ht := run_arm_commission (s := .new dev) 0 rfl rfl
      (by exact (by decide : 0 < 5))
    rw [cycles, ← List.cons_append, Machine.run_append, Machine.run_cons, Machine.run_nil,
      step_complete_tables, ht]
    exact ⟨rfl, rfl, rfl⟩
  | succ n ih =>
    rw [cycles, Machine.run_append, UInt8.ofNat_add]
    exact ih.cycle

/-- **Overflow.** After two hundred and fifty-four removals the one fabric left has the index 255,
and the next sum overflows. -/
theorem overflows_after_254_removals :
    ¬(Machine.run (step crypto) (.new dev) (cycles 254)).store.IndicesOk := by
  intro h
  have hstore := (holdsOnly_cycles dev 254).store
  rw [hstore] at h
  exact absurd (h.bounds 255 (List.mem_singleton_self _)).2 (by decide)

end

end CommissioningServer

end MatStack
