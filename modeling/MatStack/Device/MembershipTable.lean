import Mathlib.Data.List.Nodup
import Mathlib.Data.List.Perm.Basic
import MatStack.Device.GroupRx
import MatStack.Lib.Machine

/-!
# The group membership table

The memberships of all endpoints stand in one table. Its rows are distinct and no endpoint has more
of them than fit, in every state that comes of a table with these properties (`sound_run`); the
table is read from a file without a check of them. The three ways to read it give one relation in
every state (`OneRelation`).
-/

namespace MatStack

open Machine

namespace GroupMembershipStore

variable {s : GroupMembershipStore} {f : UInt8} {g e : UInt16}

/-! ## Runs -/

/-- What was read of the file; a file that cannot be read is an empty table. -/
def withPersist (loaded : Except String (List GroupMember)) : GroupMembershipStore :=
  match loaded with
  | .ok members => ⟨members⟩
  | .error _ => ⟨[]⟩

/-- A call that changes the table. -/
inductive Call where
  | add (fabricIndex : UInt8) (groupId endpoint : UInt16)
  | remove (fabricIndex : UInt8) (groupId endpoint : UInt16)
  | removeAll (fabricIndex : UInt8) (endpoint : UInt16)
  | purgeFabric (fabricIndex : UInt8)
  | retainEndpoints (live : List UInt16)

def step (s : GroupMembershipStore) : Call → GroupMembershipStore
  | .add f g e => (s.add f g e).2
  | .remove f g e => (s.remove f g e).2
  | .removeAll f e => s.removeAll f e
  | .purgeFabric f => s.purgeFabric f
  | .retainEndpoints live => s.retainEndpoints live

/-! ## The invariant -/

/-- The rows are distinct, and no endpoint has more of them than fit. -/
structure Sound (s : GroupMembershipStore) : Prop where
  nodup : s.members.Nodup
  room : ∀ endpoint, s.countForEndpoint endpoint ≤ groupTableCapacity

/-- Fewer rows. -/
theorem Sound.filter (h : s.Sound) (p : GroupMember → Bool) : Sound ⟨s.members.filter p⟩ := by
  refine ⟨h.nodup.filter p, fun endpoint => Nat.le_trans ?_ (h.room endpoint)⟩
  exact (List.filter_sublist.filter _).length_le

/-- One more row where there is room. -/
theorem Sound.add (h : s.Sound) (f : UInt8) (g e : UInt16) : (s.add f g e).2.Sound := by
  unfold GroupMembershipStore.add
  dsimp only
  split
  · exact h
  next hnew =>
  split
  · exact h
  next hroom =>
  rw [List.contains_iff_mem] at hnew
  refine ⟨?_, fun endpoint => ?_⟩
  · rw [List.nodup_append]
    refine ⟨h.nodup, List.nodup_singleton _, fun m hm m' hm' => ?_⟩
    rw [List.mem_singleton.1 hm']
    exact fun heq => hnew (heq ▸ hm)
  · rw [countForEndpoint, List.filter_append, List.length_append, ← countForEndpoint]
    by_cases he : e = endpoint
    · subst he
      have hone : ([⟨f, g, e⟩] : List GroupMember).filter (·.endpoint == e) = [⟨f, g, e⟩] := by simp
      rw [hone, List.length_singleton]
      exact Nat.lt_of_not_le hroom
    · have hnone : ([⟨f, g, e⟩] : List GroupMember).filter (·.endpoint == endpoint) = [] := by
        simpa using he
      rw [hnone]
      exact h.room endpoint

theorem Sound.step (h : s.Sound) (call : Call) : (s.step call).Sound := by
  cases call with
  | add f g e => exact h.add f g e
  | remove f g e => exact h.filter _
  | removeAll f e => exact h.filter _
  | purgeFabric f => exact h.filter _
  | retainEndpoints live => exact h.filter _

/-- **Every call keeps the table sound.** -/
theorem sound_run (h : s.Sound) (calls : List Call) : (run step s calls).Sound :=
  invariant (I := Sound) h (fun _ call hs => hs.step call) calls

/-! ## Refusals -/

/-- **An endpoint is refused a membership** only if it is full, and then nothing is changed. -/
theorem add_error {status : UInt8} (h : (s.add f g e).1 = .error status) :
    status = statusResourceExhausted ∧ groupTableCapacity ≤ s.countForEndpoint e ∧
      s.contains f g e = false ∧ (s.add f g e).2 = s := by
  unfold GroupMembershipStore.add at h ⊢
  dsimp only at h ⊢
  split at h
  · cases h
  next hnew =>
  split at h
  · next hfull =>
    cases h
    rw [if_neg hnew, if_pos hfull]
    exact ⟨rfl, hfull, Bool.eq_false_iff.2 hnew, rfl⟩
  · cases h

/-! ## The readings -/

theorem mem_groupsFor : g ∈ s.groupsFor f e ↔ s.contains f g e = true := by
  rw [groupsFor, contains, List.contains_iff_mem, List.mem_map]
  constructor
  · rintro ⟨m, hm, rfl⟩
    obtain ⟨hm, hp⟩ := List.mem_filter.1 hm
    rw [Bool.and_eq_true, beq_iff_eq, beq_iff_eq] at hp
    rwa [← hp.1, ← hp.2]
  · intro hm
    exact ⟨_, List.mem_filter.2 ⟨hm, by simp⟩, rfl⟩

theorem mem_foldl_groups {rows : List GroupMember} {out : List (UInt8 × UInt16)} :
    (f, g) ∈ rows.foldl (fun out m =>
      if out.contains (m.fabricIndex, m.groupId) then out
      else out ++ [(m.fabricIndex, m.groupId)]) out ↔
      (f, g) ∈ out ∨ ∃ m ∈ rows, m.fabricIndex = f ∧ m.groupId = g := by
  induction rows generalizing out with
  | nil => simp
  | cons m rows ih =>
    rw [List.foldl_cons, ih, List.exists_mem_cons_iff]
    split
    · next hmem =>
      refine ⟨Or.imp_right .inr, ?_⟩
      rintro (hout | ⟨rfl, rfl⟩ | hrows)
      · exact .inl hout
      · exact .inl (List.contains_iff_mem.1 hmem)
      · exact .inr hrows
    · rw [List.mem_append, List.mem_singleton, Prod.mk.injEq, or_assoc, eq_comm (a := f),
        eq_comm (a := g)]

theorem nodup_foldl_groups {rows : List GroupMember} {out : List (UInt8 × UInt16)}
    (h : out.Nodup) : (rows.foldl (fun out m =>
      if out.contains (m.fabricIndex, m.groupId) then out
      else out ++ [(m.fabricIndex, m.groupId)]) out).Nodup := by
  induction rows generalizing out with
  | nil => exact h
  | cons m rows ih =>
    rw [List.foldl_cons]
    split
    · exact ih h
    · next hnew =>
      rw [List.contains_iff_mem] at hnew
      refine ih (List.nodup_append.2 ⟨h, List.nodup_singleton _, fun p hp q hq => ?_⟩)
      rw [List.mem_singleton.1 hq]
      exact fun heq => hnew (heq ▸ hp)

theorem mem_groupsByFabric : (f, g) ∈ s.groupsByFabric ↔ ∃ e, s.contains f g e = true := by
  rw [groupsByFabric, mem_foldl_groups]
  simp only [List.not_mem_nil, false_or, contains, List.contains_iff_mem]
  constructor
  · rintro ⟨⟨f, g, e⟩, hm, rfl, rfl⟩
    exact ⟨e, hm⟩
  · rintro ⟨e, hm⟩
    exact ⟨_, hm, rfl, rfl⟩

/-- The rows that the `GroupTable` attribute shows: the endpoints of each group. -/
def tableRows (s : GroupMembershipStore) : List GroupMember :=
  s.groupsByFabric.flatMap fun fg => (s.endpointsFor fg.1 fg.2).map (⟨fg.1, fg.2, ·⟩)

/-- What a command, a datagram and a reader of the attribute find is one relation. -/
structure OneRelation (s : GroupMembershipStore) : Prop where
  command : ∀ f g e, g ∈ s.groupsFor f e ↔ s.contains f g e = true
  receive : ∀ f g e, e ∈ s.endpointsFor f g ↔ s.contains f g e = true
  groups : ∀ f g, (f, g) ∈ s.groupsByFabric ↔ ∃ e, s.contains f g e = true
  table : s.tableRows.Perm s.members

theorem nodup_endpointsFor (h : s.Sound) : (s.endpointsFor f g).Nodup := by
  refine List.Nodup.map_on (fun m hm m' hm' heq => ?_) (h.nodup.filter _)
  have hp := (List.mem_filter.1 hm).2
  have hp' := (List.mem_filter.1 hm').2
  rw [Bool.and_eq_true, beq_iff_eq, beq_iff_eq] at hp hp'
  cases m
  cases m'
  simp_all

theorem mem_tableRows {m : GroupMember} : m ∈ s.tableRows ↔ m ∈ s.members := by
  rw [tableRows, List.mem_flatMap]
  constructor
  · rintro ⟨⟨f, g⟩, -, hm⟩
    obtain ⟨e, he, rfl⟩ := List.mem_map.1 hm
    exact List.contains_iff_mem.1 (mem_endpointsFor.1 he)
  · intro hm
    have hcontains : s.contains m.fabricIndex m.groupId m.endpoint = true :=
      List.contains_iff_mem.2 hm
    exact ⟨(m.fabricIndex, m.groupId), mem_groupsByFabric.2 ⟨_, hcontains⟩,
      List.mem_map.2 ⟨m.endpoint, mem_endpointsFor.2 hcontains, rfl⟩⟩

theorem nodup_tableRows (h : s.Sound) : s.tableRows.Nodup := by
  rw [tableRows, List.nodup_flatMap]
  refine ⟨fun fg _ => (nodup_endpointsFor h).map fun e e' heq => (GroupMember.mk.inj heq).2.2,
    (nodup_foldl_groups List.nodup_nil).imp fun {fg fg'} hne m hm hm' => hne ?_⟩
  obtain ⟨e, -, rfl⟩ := List.mem_map.1 hm
  obtain ⟨e', -, heq⟩ := List.mem_map.1 hm'
  have hinj := GroupMember.mk.inj heq
  exact Prod.ext hinj.1.symm hinj.2.1.symm

theorem Sound.oneRelation (h : s.Sound) : s.OneRelation where
  command _ _ _ := mem_groupsFor
  receive _ _ _ := mem_endpointsFor
  groups _ _ := mem_groupsByFabric
  table := (List.perm_ext_iff_of_nodup (nodup_tableRows h) h.nodup).2 fun _ => mem_tableRows

/-- A file that gives one endpoint seventeen groups. -/
def crowded : List GroupMember := (List.range 17).map fun g => ⟨1, UInt16.ofNat g, 2⟩

end GroupMembershipStore

end MatStack
