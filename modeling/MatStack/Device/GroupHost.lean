import MatStack.Device.GroupRx
import MatStack.Device.Ownership

/-!
# Group messages over the life of a fabric

The receiver of group messages next to the node: sessions change the fabrics and their tables, and
datagrams ask the replay guard. The guard knows a source by the index of its fabric and is told
nothing when a fabric leaves, so that windows outlive fabrics. A fabric is heard from scratch when
the guard has no window for its index at its installation, and only then.
-/

namespace MatStack

open Machine

/-- A node, the replay guard of its receiver, and, for the statements only, the sources that were
heard on each fabric since it was installed. -/
structure GroupHost (σ : Type) where
  node : Node σ
  replay : GroupReplayGuard
  heard : List (UInt8 × UInt64)

inductive GroupHostEvent where
  | session (e : NodeEvent)
  | groupDatagram (env : Env) (buf : Bytes)

/-- A source is met for the first time: any counter is accepted, and starts its window. -/
def GroupReplayGuard.FirstContact (g : GroupReplayGuard) (key : UInt8 × UInt64) : Prop :=
  ∀ counter, g.accepts (key, counter) = true ∧
    (g.commit (key, counter)).window? key = some ⟨counter, 0⟩

theorem GroupReplayGuard.firstContact_iff {g : GroupReplayGuard} {key : UInt8 × UInt64} :
    g.FirstContact key ↔ g.window? key = none := by
  constructor
  · intro h
    cases hw : g.window? key with
    | none => rfl
    | some w =>
      have hmax : w.Remembers w.max := by
        have h₀ : w.behind w.max = 0 := ReplayWindow.behind_eq_zero.2 rfl
        exact ⟨by omega, .inl h₀⟩
      have hself := (window?_commit_self (e := (key, w.max)) hw).1
      rw [(h w.max).1] at hself
      exact absurd hmax ((ReplayWindow.accepts_iff w w.max).1 hself.symm)
  · intro h counter
    exact window?_commit_new (e := (key, counter)) h

/-- A source without a window has none after another was heard. -/
theorem GroupReplayGuard.window?_commit_none {g : GroupReplayGuard} (hg : g.Distinct)
    {e : GroupCounterEvent} {key : UInt8 × UInt64} (hne : e.1 ≠ key) (h : g.window? key = none) :
    (g.commit e).window? key = none := by
  by_contra hsome
  have heq := window?_commit_of_ne hg hne (Option.isSome_iff_ne_none.2 hsome)
  exact hsome (heq.trans h)

namespace GroupHost

variable {σ : Type}

/-- What the receiver looks up. -/
def deps (n : Node σ) : GroupRxDeps :=
  ⟨n.inner.store.entries, n.inner.groupKeyStore, n.inner.groupMembershipStore⟩

/-- The sources still counted as heard: a new fabric has none. -/
def forget (heard : List (UInt8 × UInt64)) : FabricChange → List (UInt8 × UInt64)
  | .install entry => heard.filter (·.1 != entry.fabricIndex)
  | _ => heard

/-- The context of the commands of a batch. -/
def batchCtx (batch : GroupInvokeBatch) : InvokeCtx :=
  ⟨⟨List.replicate 16 0, length_noChallenge⟩, batch.fabricIndex, .group batch.groupId⟩

/-- The commands of a batch as events of the node. -/
def batchEvents (env : Env) (batch : GroupInvokeBatch) : List NodeEvent :=
  (Node.groupDispatches batch.endpoints batch.invokes).map fun d =>
    .invoke env d.1 d.2.cluster d.2.command d.2.fieldsTlv (batchCtx batch)

section
variable (layout : DeviceLayout) (c : GroupCrypto) (o : OtherClusters σ)

/-- One event of the node. -/
def stepNode (s : Node σ × List (UInt8 × UInt64)) (e : NodeEvent) :
    Node σ × List (UInt8 × UInt64) :=
  (Node.step layout c.toCrypto o s.1 e, forget s.2 (Node.change layout c.toCrypto s.1 e))

/-- The sources heard once the guard was asked. -/
def hear (h : GroupHost σ) (buf : Bytes) : List (UInt8 × UInt64) :=
  match authenticateGroup c buf (deps h.node) with
  | .ok (opened, _) => h.heard ++ [(opened.fabricIndex, opened.source)]
  | .error _ => h.heard

/-- One event: a session's, or a datagram, whose commands are run if it makes a batch. -/
def step (h : GroupHost σ) : GroupHostEvent → GroupHost σ
  | .session e =>
    let (node, heard) := stepNode layout c o (h.node, h.heard) e
    ⟨node, h.replay, heard⟩
  | .groupDatagram env buf =>
    match classifyGroupDatagram c buf (deps h.node) h.replay with
    | (.error _, replay) => ⟨h.node, replay, hear c h buf⟩
    | (.ok batch, replay) =>
      let (node, heard) := run (stepNode layout c o) (h.node, hear c h buf) (batchEvents env batch)
      ⟨node, replay, heard⟩

/-- The commands of a batch are the group request of the node. -/
theorem run_batchEvents_node (n : Node σ) (heard : List (UInt8 × UInt64)) (env : Env)
    (batch : GroupInvokeBatch) :
    (run (stepNode layout c o) (n, heard) (batchEvents env batch)).1 =
      (Node.handleGroupInvoke layout c.toCrypto o n env batch.endpoints batch.invokes
        (batchCtx batch)).2 := by
  rw [Node.handleGroupInvoke_eq_run, batchEvents]
  exact (List.foldl_hom Prod.fst fun _ _ => rfl).symm

/-- An event of the node installs fabrics only under indices that the guard has no window for. -/
def InstallsFresh (g : GroupReplayGuard) (s : Node σ × List (UInt8 × UInt64)) (e : NodeEvent) :
    Prop :=
  ∀ entry, Node.change layout c.toCrypto s.1 e = .install entry →
    ∀ source, g.window? (entry.fabricIndex, source) = none

/-- The same of an event of the receiver. -/
def Clean (h : GroupHost σ) : GroupHostEvent → Prop
  | .session e => InstallsFresh layout c h.replay (h.node, h.heard) e
  | .groupDatagram env buf =>
    ∀ batch, (classifyGroupDatagram c buf (deps h.node) h.replay).1 = .ok batch →
      Along (stepNode layout c o)
        (InstallsFresh layout c (classifyGroupDatagram c buf (deps h.node) h.replay).2)
        (h.node, hear c h buf) (batchEvents env batch)

end

/-- The guard has no window for a source of an installed fabric that was not heard since. -/
def Fresh (g : GroupReplayGuard) (s : Node σ × List (UInt8 × UInt64)) : Prop :=
  ∀ i ∈ s.1.inner.store.indices, ∀ source, (i, source) ∉ s.2 → g.window? (i, source) = none

/-- Every source of an installed fabric that was not heard since is met for the first time. -/
def FirstContacts (h : GroupHost σ) : Prop :=
  ∀ i ∈ h.node.inner.store.indices, ∀ source, (i, source) ∉ h.heard →
    h.replay.FirstContact (i, source)

theorem firstContacts_iff {h : GroupHost σ} :
    FirstContacts h ↔ Fresh h.replay (h.node, h.heard) := by
  unfold FirstContacts Fresh
  simp only [GroupReplayGuard.firstContact_iff]

section
variable {layout : DeviceLayout} {c : GroupCrypto} {o : OtherClusters σ} {g : GroupReplayGuard}
  {s : Node σ × List (UInt8 × UInt64)} {h : GroupHost σ}

theorem forget_of_not_install {heard : List (UInt8 × UInt64)} {ch : FabricChange} {i : UInt8}
    {source : UInt64} (hi : ∀ entry, ch = .install entry → entry.fabricIndex ≠ i)
    (hnot : (i, source) ∉ forget heard ch) : (i, source) ∉ heard := by
  cases ch with
  | install entry =>
    intro hmem
    refine hnot (List.mem_filter.2 ⟨hmem, ?_⟩)
    simpa using (hi entry rfl).symm
  | keep | extend | reset | complete | relabel | remove | rows => exact hnot

theorem fresh_stepNode {e : NodeEvent} (hf : Fresh g s) (hc : InstallsFresh layout c g s e) :
    Fresh g (stepNode layout c o s e) := by
  intro i hi source hnot
  by_cases hinst : ∃ entry, Node.change layout c.toCrypto s.1 e = .install entry ∧
      entry.fabricIndex = i
  · obtain ⟨entry, hentry, rfl⟩ := hinst
    exact hc entry hentry source
  · have hne : ∀ entry, Node.change layout c.toCrypto s.1 e = .install entry →
        entry.fabricIndex ≠ i := fun entry hentry hi => hinst ⟨entry, hentry, hi⟩
    refine hf i ?_ source (forget_of_not_install hne hnot)
    have htables := @Node.step_tables _ layout c.toCrypto o s.1 e
    rw [stepNode, congrArg FabricTables.store htables] at hi
    exact FabricChange.mem_indices_of_apply hne hi

theorem fresh_run {es : List NodeEvent} (hf : Fresh g s)
    (hc : Along (stepNode layout c o) (InstallsFresh layout c g) s es) :
    Fresh g (run (stepNode layout c o) s es) :=
  run_invariant (I := Fresh g) hf (fun _ _ hs he => fresh_stepNode hs he) hc

/-! ## Runs -/

/-- What is kept: the guard has one window for a source, and none for one that was not heard. -/
structure Sound (h : GroupHost σ) : Prop where
  distinct : h.replay.Distinct
  fresh : Fresh h.replay (h.node, h.heard)

/-- The guard after a datagram, against those heard with it. -/
theorem Sound.hear (hs : Sound h) (buf : Bytes) :
    (classifyGroupDatagram c buf (deps h.node) h.replay).2.Distinct ∧
      Fresh (classifyGroupDatagram c buf (deps h.node) h.replay).2 (h.node, hear c h buf) := by
  rw [classifyGroupDatagram_snd, GroupHost.hear]
  cases authenticateGroup c buf (deps h.node) with
  | error drop => exact ⟨hs.distinct, hs.fresh⟩
  | ok r =>
    refine ⟨hs.distinct.commit _, fun i hi source hnot => ?_⟩
    have hne : ((r.1.fabricIndex, r.1.source), r.1.counter).1 ≠ (i, source) := by
      intro hkey
      exact hnot (List.mem_append_right _ (List.mem_singleton.2 hkey.symm))
    exact GroupReplayGuard.window?_commit_none hs.distinct hne
      (hs.fresh i hi source fun hmem => hnot (List.mem_append_left _ hmem))

theorem Sound.step {e : GroupHostEvent} (hs : Sound h) (hc : Clean layout c o h e) :
    Sound (step layout c o h e) := by
  cases e with
  | session e => exact ⟨hs.distinct, fresh_stepNode hs.fresh hc⟩
  | groupDatagram env buf =>
    obtain ⟨hdistinct, hfresh⟩ := hs.hear (c := c) buf
    rw [GroupHost.step]
    dsimp only [Clean] at hc
    cases hclass : classifyGroupDatagram c buf (deps h.node) h.replay with
    | mk result replay =>
      rw [hclass] at hdistinct hfresh hc
      cases result with
      | error drop => exact ⟨hdistinct, hfresh⟩
      | ok batch => exact ⟨hdistinct, fresh_run hfresh (hc batch rfl)⟩

theorem sound_run (n : Node σ) {es : List GroupHostEvent}
    (hc : Along (GroupHost.step layout c o) (Clean layout c o) ⟨n, .new, []⟩ es) :
    Sound (run (GroupHost.step layout c o) ⟨n, .new, []⟩ es) :=
  run_invariant (I := Sound) ⟨List.nodup_nil, fun _ _ _ _ => rfl⟩ (fun _ _ hs he => hs.step he) hc

/-- A fabric that a session installs where the guard has a window is not heard from scratch. -/
theorem not_firstContacts_step {e : NodeEvent} {entry : FabricEntry} {source : UInt64}
    (hentry : Node.change layout c.toCrypto h.node e = .install entry)
    (hw : h.replay.window? (entry.fabricIndex, source) ≠ none) :
    ¬FirstContacts (GroupHost.step layout c o h (.session e)) := by
  intro hfirst
  have hnot : (entry.fabricIndex, source) ∉ forget h.heard (.install entry) := by
    rw [forget, List.mem_filter]
    simp
  have htables := @Node.step_tables _ layout c.toCrypto o h.node e
  refine hw (firstContacts_iff.1 hfirst entry.fabricIndex ?_ source ?_)
  · change entry.fabricIndex ∈ (Node.step layout c.toCrypto o h.node e).inner.store.indices
    rw [congrArg FabricTables.store htables, hentry, FabricChange.apply_install_indices]
    exact List.mem_append_right _ (List.mem_singleton_self _)
  · change _ ∉ forget h.heard (Node.change layout c.toCrypto h.node e)
    rw [hentry]
    exact hnot

/-- **First contact.** Over every run that installs fabrics only under indices the guard has no
window for, a datagram that passes the other checks, of a source not heard since its fabric was
installed, is accepted whatever its counter and starts a window of its own. A session that installs
a fabric under another index leaves a source for which it is not so. -/
theorem firstContact_of_clean (layout : DeviceLayout) (c : GroupCrypto) (o : OtherClusters σ)
    (n : Node σ) (es : List GroupHostEvent) :
    (Along (GroupHost.step layout c o) (Clean layout c o) ⟨n, .new, []⟩ es →
      FirstContacts (run (GroupHost.step layout c o) ⟨n, .new, []⟩ es) ∧
      ∀ h, h = run (GroupHost.step layout c o) ⟨n, .new, []⟩ es →
        ∀ buf opened endpoints, authenticateGroup c buf (deps h.node) = .ok (opened, endpoints) →
          (opened.fabricIndex, opened.source) ∉ h.heard →
          (classifyGroupDatagram c buf (deps h.node) h.replay).1 ≠ .error .replay ∧
          (classifyGroupDatagram c buf (deps h.node) h.replay).2.window?
            (opened.fabricIndex, opened.source) = some ⟨opened.counter, 0⟩) ∧
    ∀ h, h = run (GroupHost.step layout c o) ⟨n, .new, []⟩ es → ∀ e entry source,
      Node.change layout c.toCrypto h.node e = .install entry →
      h.replay.window? (entry.fabricIndex, source) ≠ none →
      ¬FirstContacts (run (GroupHost.step layout c o) ⟨n, .new, []⟩ (es ++ [.session e])) := by
  constructor
  · intro hc
    have hfirst := firstContacts_iff.2 (sound_run n hc).fresh
    refine ⟨hfirst, ?_⟩
    rintro h rfl buf opened endpoints hauth hnot
    obtain ⟨⟨ks, f, dg, header, hd⟩, -⟩ := (authenticateGroup_eq_ok hauth).1
    have hi := List.mem_map_of_mem (f := FabricEntry.fabricIndex) hd.fabric_mem
    rw [hd.fabric_index] at hi
    obtain ⟨hacc, hwindow⟩ := hfirst _ hi opened.source hnot opened.counter
    refine ⟨classify_ne_replay hauth hacc, ?_⟩
    rw [classifyGroupDatagram_snd, hauth]
    exact hwindow
  · rintro h rfl e entry source hentry hw
    rw [run_append]
    exact not_firstContacts_step hentry hw

end

/-! ### A fabric installed where another one was heard -/

section Sample

open SampleChain Node

/-- A device with a lamp that has started with the earlier fabric and its group. -/
def earlierNode : Node Unit :=
  { Node.new dev 0 () with
    inner := { Inner.new dev with
      store := ⟨[SampleGroup.earlierFabric]⟩
      aclStore := AclStore.new.addCaseAdmin 1 adminSubject
      groupKeyStore := (SampleGroup.deps SampleGroup.earlierFabric).gkStore
      groupMembershipStore := (SampleGroup.deps SampleGroup.earlierFabric).membership } }

/-- The administrator of fabric 1 removes it. -/
def removeEarlier : NodeEvent :=
  .invoke (env 1) 0 clusterOperationalCredentials cmdRemoveFabric (removeFields 1) (ctx 1)

/-- The fabric of the chain is installed and complete. -/
def installChain : List NodeEvent := (arm 2 :: commission 2 ++ [complete 2]).map .ofServer

/-- Its administrator writes a key set, maps group 1 to it and makes the lamp a member. -/
def groupChain : List NodeEvent :=
  [.invoke (env 3) 0 clusterGroupKeyManagement cmdKeySetWrite
      ([0x15, 0x35, 0x00, 0x24, 0x00, 0x01, 0x24, 0x01, 0x00, 0x30, 0x02, 0x10] ++ ipkEpoch.1 ++
        [0x18, 0x18]) (ctx 1),
    .write ⟨some 0, some clusterGroupKeyManagement, some attrGroupKeyMap,
      [0x15, 0x24, 0x01, 0x01, 0x24, 0x02, 0x01, 0x18], true⟩ (ctx 1),
    .invoke (env 3) 2 clusterGroups cmdAddGroup (encodeStruct (·.putUint (.context 0) 1)) (ctx 1)]

/-- One fabric for the other. -/
def exchange : List GroupHostEvent :=
  (removeEarlier :: installChain ++ groupChain).map .session

/-- The device after the exchange, having heard some datagrams before. -/
def exchanged (before : List GroupHostEvent) : GroupHost Unit :=
  run (step lamp SampleGroup.crypto idle) ⟨earlierNode, .new, []⟩ (before ++ exchange)

/-- Counter 1000 of node 7 of the earlier fabric. -/
def earlierDatagram : GroupHostEvent :=
  .groupDatagram (env 0) (SampleGroup.earlierHeader ++ SampleGroup.earlierSealed)

/-- Counter 5 of node 7 of the fabric of the chain. -/
def chainDatagram : Bytes := SampleGroup.chainHeader ++ SampleGroup.chainSealed

def openedChain : OpenedGroup where
  fabricIndex := 1
  keysetId := 1
  source := 7
  groupId := 1
  counter := 5
  proto := ⟨true, false, none, 8, 1, 1, none⟩
  payload := SampleGroup.toggle.drop 6

/-- Sessions alone keep a guard empty, and an empty guard is clean for every fabric. -/
theorem clean_sessions {layout : DeviceLayout} {c : GroupCrypto} {o : OtherClusters σ}
    {h : GroupHost σ} (hg : h.replay = .new) (es : List NodeEvent) :
    Along (step layout c o) (Clean layout c o) h (es.map .session) := by
  induction es generalizing h with
  | nil => trivial
  | cons e es ih =>
    refine ⟨fun entry _ source => ?_, ih hg⟩
    rw [hg]
    rfl

theorem firstContact_exchanged :
    authenticateGroup SampleGroup.crypto chainDatagram (deps (exchanged []).node) =
        .ok (openedChain, [2]) ∧
      (classifyGroupDatagram SampleGroup.crypto chainDatagram (deps (exchanged []).node)
        (exchanged []).replay).1 ≠ .error .replay := by
  obtain ⟨hauth, hheard⟩ :
      authenticateGroup SampleGroup.crypto chainDatagram (deps (exchanged []).node) =
        .ok (openedChain, [2]) ∧
      (1, 7) ∉ (exchanged []).heard := by
    decide +kernel
  have hclean : Along (step lamp SampleGroup.crypto idle) (Clean lamp SampleGroup.crypto idle)
      ⟨earlierNode, .new, []⟩ exchange := clean_sessions rfl _
  exact ⟨hauth, (((firstContact_of_clean lamp SampleGroup.crypto idle earlierNode exchange).1
    hclean).2 (exchanged []) rfl chainDatagram openedChain [2] hauth hheard).1⟩

/-- The first datagram of a fabric is dropped as a replay after one of the fabric that was installed
there before, of a node with the same id. -/
theorem firstContact_stale_window :
    (exchanged [earlierDatagram]).heard = [] ∧
      authenticateGroup SampleGroup.crypto chainDatagram (deps (exchanged [earlierDatagram]).node) =
        .ok (openedChain, [2]) ∧
      (classifyGroupDatagram SampleGroup.crypto chainDatagram
        (deps (exchanged [earlierDatagram]).node) (exchanged [earlierDatagram]).replay).1 =
        .error .replay := by
  decide +kernel

end Sample

end GroupHost

end MatStack
