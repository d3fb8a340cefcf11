import MatStack.Device.Commissioning.Confirmation
import MatStack.Device.OperationalIdentity

/-!
# Identities over runs

`AddNOC` admits whatever chain verifies, also one of a fabric that is already installed, and the
table then holds two entries of one identity. Along runs in which every installation brings a new
identity, and an index that is not in use, the installed fabrics are told apart in every state; any
other installation spoils that. Next to the commands of the server a run has the writes of rows to
the three shared tables, which other clusters make.
-/

namespace MatStack

/-- What happens to the state that the clusters share. -/
inductive SharedEvent where
  | server (e : ServerEvent)
  | rows (acl : AclStore) (keys : GroupKeyStore) (membership : GroupMembershipStore)

namespace SharedState

open MatStack.Inner

/-- One event. -/
def step (c : Crypto) (s : Inner) : SharedEvent → Inner
  | .server e => CommissioningServer.step c s e
  | .rows acl keys membership =>
    { s with aclStore := acl, groupKeyStore := keys, groupMembershipStore := membership }

/-- What an event does to the tables. -/
def change (c : Crypto) (s : Inner) : SharedEvent → FabricChange
  | .server e => CommissioningServer.change c s e
  | .rows acl keys membership => .rows acl keys membership

/-- The fabric an event installs. -/
def installs (c : Crypto) (s : Inner) : SharedEvent → Option FabricEntry
  | .server e => CommissioningServer.installs c s e
  | .rows .. => none

/-- What the event installs has an identity and an index that no installed fabric has. -/
def BringsNew (c : Crypto) (s : Inner) (e : SharedEvent) : Prop :=
  ∀ entry, installs c s e = some entry →
    entry.identity ∉ s.store.identities ∧ entry.fabricIndex ∉ s.store.indices

/-- Identities and indices are distinct. -/
def ToldApart (s : Inner) : Prop := s.store.identities.Nodup ∧ s.store.indices.Nodup

section
variable {h : Hashes} {c : Crypto} {random : Fixed 32} {s : Inner} {e : SharedEvent}
  {entry : FabricEntry}

theorem step_tables (c : Crypto) (s : Inner) (e : SharedEvent) :
    (step c s e).toFabricTables = (change c s e).apply s.toFabricTables := by
  cases e with
  | server e => exact CommissioningServer.step_tables c s e
  | rows => rfl

theorem change_eq_install : change c s e = .install entry ↔ installs c s e = some entry := by
  cases e with
  | server e => exact CommissioningServer.change_eq_install
  | rows => exact ⟨nofun, nofun⟩

/-- Only an installation adds an identity. -/
theorem apply_identities_sublist {t : FabricTables} (ch : FabricChange)
    (hne : ∀ entry, ch ≠ .install entry) :
    (ch.apply t).store.identities.Sublist t.store.identities := by
  cases ch with
  | keep | extend | complete | rows => exact List.Sublist.refl _
  | install entry => exact absurd rfl (hne entry)
  | relabel fabricIndex label =>
    rw [FabricChange.apply, FabricStore.updateLabel_identities]
  | remove fabricIndex => exact FabricStore.remove_identities_sublist
  | reset deadline =>
    rw [FabricChange.apply, FabricTables.rollbackUncommittedFabric]
    cases t.uncommittedFabricIndex with
    | none => exact List.Sublist.refl _
    | some i => exact FabricStore.remove_identities_sublist

/-- The table after an installation. -/
theorem step_entries (hi : installs c s e = some entry) :
    (step c s e).store.entries = s.store.entries ++ [entry] := by
  rw [step_tables, change_eq_install.2 hi]
  rfl

theorem toldApart_step (hs : ToldApart s) (hnew : BringsNew c s e) : ToldApart (step c s e) := by
  cases hi : installs c s e with
  | none =>
    have hne : ∀ entry, change c s e ≠ .install entry := fun entry hc => by
      rw [change_eq_install.1 hc] at hi
      cases hi
    rw [ToldApart, step_tables]
    exact ⟨hs.1.sublist (apply_identities_sublist _ hne),
      hs.2.sublist (FabricChange.apply_indices_sublist _ hne)⟩
  | some entry =>
    obtain ⟨hidentity, hindex⟩ := hnew entry hi
    have hconcat : ∀ {α : Type} (f : FabricEntry → α), f entry ∉ s.store.entries.map f →
        (s.store.entries.map f).Nodup → ((step c s e).store.entries.map f).Nodup := by
      intro α f hf hn
      rw [step_entries hi, List.map_append, List.map_singleton, ← List.concat_eq_append]
      exact hn.concat hf
    exact ⟨hconcat _ hidentity hs.1, hconcat _ hindex hs.2⟩

/-- An installation that brings nothing new spoils the identities. -/
theorem bringsNew_of_distinct (hs : ToldApart s)
    (hd : Distinct h c random (step c s e).toFabricTables) : BringsNew c s e := by
  intro entry hi
  constructor
  · intro hmem
    have hid := hd.identities
    rw [FabricStore.identities, step_entries hi, List.map_append, List.nodup_append] at hid
    exact hid.2.2 _ hmem _ (List.mem_singleton_self _) rfl
  · intro hmem
    exact not_distinct_of_index hs.2 hmem (step_entries hi) hd

/-- A run of the server alone. -/
theorem run_server (es : List ServerEvent) :
    Machine.run (step c) s (es.map .server) = Machine.run (CommissioningServer.step c) s es := by
  rw [Machine.run, Machine.run, List.foldl_map]
  rfl

end

/-! ### One fabric, commissioned once and twice -/

section
open SampleChain CommissioningServer Mdns

theorem zeros_length : (List.replicate 32 (0 : UInt8)).length = 32 := List.length_replicate

/-- The keyed hash of the sample's destination message; the rest is left blank. -/
def hashes : Hashes where
  sha256 := fun _ => ⟨List.replicate 32 0, zeros_length⟩
  hmac := fun _ _ =>
    ⟨[223, 166, 253, 87, 20, 58, 40, 168, 103, 148, 132, 6, 188, 218, 192, 81, 114, 48, 107, 116, 183,
      39, 149, 44, 9, 133, 186, 152, 47, 171, 165, 161], by decide⟩
  hkdf := fun _ _ _ n => ⟨List.replicate n 0, List.length_replicate⟩
  pbkdf2 := fun _ _ _ n => ⟨List.replicate n 0, List.length_replicate⟩

/-- The random number of the sample's handshake. -/
def noRandom : Fixed 32 := ⟨List.replicate 32 0, zeros_length⟩

/-- Commissions the sample fabric. -/
def once : List ServerEvent := arm 0 :: (commission 0 ++ [complete 0])

/-- Tables with no fabric but one have no collisions. -/
theorem collisionFree_of_le_one {t : FabricTables} {e : FabricEntry}
    (hkeys : t.groupKeyStore = .new) (h : t.store.entries = [] ∨ t.store.entries = [e]) :
    CollisionFree hashes crypto noRandom t := by
  have hmem : ∀ e' ∈ t.store.entries, e' = e := by
    rcases h with h | h <;> simp [h]
  have hcand : ∀ f ∈ t.candidates crypto, f = e := by
    rcases h with h | h <;>
      simp [FabricTables.candidates, expandIpkCandidates, h, hkeys, GroupKeyStore.ipkKeyset,
        GroupKeyStore.findKeyset, GroupKeyStore.new]
  constructor
  · intro e he e' he' _
    rw [hmem e he, hmem e' he']
  · intro f hf f' hf' _
    rw [hcand f hf, hcand f' hf']

/-- No command of the server writes key sets. -/
theorem keys_of_server (hkeys : s.groupKeyStore = .new) (es : List ServerEvent) :
    (Machine.run (CommissioningServer.step c) s es).groupKeyStore = .new := by
  refine Machine.invariant (I := fun s : Inner => s.groupKeyStore = .new) hkeys
    (fun s e hs => ?_) es
  have hpurge : ∀ i, GroupKeyStore.new.purgeFabric i = .new := fun i => rfl
  have hrows : ∀ acl keys membership, CommissioningServer.change c s e ≠ .rows acl keys membership := by
    cases e with
    | command env cluster command fieldsTlv ctx => exact fun _ _ _ => commandChange_ne_rows _ _
    | expireFailSafe env =>
      intro acl keys membership
      unfold CommissioningServer.change expireChange
      grind
  rw [CommissioningServer.step_tables]
  cases hch : CommissioningServer.change c s e with
  | keep | extend | complete | install | relabel => exact hs
  | rows acl keys membership => exact absurd hch (hrows acl keys membership)
  | remove i =>
    change s.groupKeyStore.purgeFabric i = _
    rw [hs, hpurge]
  | reset deadline =>
    rw [FabricChange.apply, FabricTables.rollbackUncommittedFabric]
    cases s.uncommittedFabricIndex with
    | none => exact hs
    | some i =>
      change s.groupKeyStore.purgeFabric i = _
      rw [hs, hpurge]

/-- What a server at rest has after a commissioning. -/
theorem run_once {s : Inner} (hu : s.uncommittedFabricIndex = none)
    (ha : s.failSafe.isArmed 0 = false) (hroom : s.store.entries.length < 5) :
    (Machine.run (CommissioningServer.step crypto) s once).toFabricTables =
      FabricChange.complete.apply ({ s.toFabricTables with failSafe := .arm 0 60 }.installFabric
        (entry s.store.nextFabricIndex)) := by
  rw [once, ← List.cons_append, Machine.run_append, Machine.run_cons, Machine.run_nil,
    step_complete_tables, run_arm_commission 0 hu ha hroom]

theorem entries_prepare {pre : List ServerEvent} (hpre : pre <+: arm 0 :: stages 0) :
    (Machine.run (CommissioningServer.step crypto) (.new dev) pre).store.entries = [] := by
  have h : (Machine.run (CommissioningServer.step crypto) (.new dev) pre).store.indices = [] :=
    (along_timely_of_empty rfl fun e he s => installs_prepare e (hpre.subset he)).2
  exact List.map_eq_nil_iff.1 h

theorem entries_commission :
    (Machine.run (CommissioningServer.step crypto) (.new dev)
      ((arm 0 :: stages 0) ++ [addNoc 0])).store.entries = [entry 1] := by
  have hcommission : (arm 0 :: stages 0) ++ [addNoc 0] = arm 0 :: commission 0 := rfl
  rw [hcommission, run_arm_commission (s := .new dev) 0 rfl rfl (by exact (by decide : 0 < 5))]
  rfl

/-- Until its end the commissioning installs one fabric. -/
theorem entries_once {pre post : List ServerEvent} (h : once = pre ++ post) :
    (Machine.run (CommissioningServer.step crypto) (.new dev) pre).store.entries = [] ∨
      (Machine.run (CommissioningServer.step crypto) (.new dev) pre).store.entries = [entry 1] := by
  have hpre : pre <+: ((arm 0 :: stages 0) ++ [addNoc 0]) ++ [complete 0] := ⟨post, h.symm⟩
  rcases List.prefix_concat_iff.1 hpre with rfl | hpre
  · have hstore : ∀ s : Inner, (CommissioningServer.step crypto s (complete 0)).store = s.store :=
      fun s => by rw [step_complete_tables]; rfl
    rw [Machine.run_append, Machine.run_cons, Machine.run_nil, hstore]
    exact .inr entries_commission
  rcases List.prefix_concat_iff.1 hpre with rfl | hpre
  · exact .inr entries_commission
  · exact .inl (entries_prepare hpre)

/-- One commissioning brings a new identity. -/
theorem bringsNew_once : Machine.Along (step crypto) (BringsNew crypto) (.new dev)
    (once.map .server) := by
  have hnone : ∀ {s : Inner} {e : ServerEvent}, CommissioningServer.installs crypto s e = none →
      BringsNew crypto s (.server e) := fun h entry hi => by
    rw [installs, h] at hi
    cases hi
  refine Machine.along_iff.2 fun pre e post hes => ?_
  obtain ⟨pre, post, honce, rfl, hpost⟩ := List.map_eq_append_iff.1 hes
  obtain ⟨e, post, rfl, rfl, -⟩ := List.map_eq_cons_iff.1 hpost
  rw [run_server]
  have hpre : pre ++ [e] <+: ((arm 0 :: stages 0) ++ [addNoc 0]) ++ [complete 0] :=
    ⟨post, by rw [List.append_assoc]; exact honce.symm⟩
  rcases List.prefix_concat_iff.1 hpre with hlast | hpre
  · obtain ⟨-, he⟩ := List.append_inj' hlast rfl
    obtain rfl := (List.cons.inj he).1
    exact hnone rfl
  rcases List.prefix_concat_iff.1 hpre with hlast | hpre
  · have hempty := entries_prepare (List.prefix_refl (arm 0 :: stages 0))
    rw [← (List.append_inj' hlast rfl).1] at hempty
    intro entry _
    rw [FabricStore.identities, FabricStore.indices, hempty]
    exact ⟨List.not_mem_nil, List.not_mem_nil⟩
  · refine hnone (installs_prepare e (hpre.subset ?_))
    exact List.mem_append_right _ (List.mem_singleton_self e)

end

end SharedState

end MatStack
