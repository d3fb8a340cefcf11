import MatStack.Controller.RotationReads

/-!
# No node is locked out by a rotation

A node takes a session with the key in use before a rotation, while its key set holds the current
and the next key, and after the commit, since no rotation is committed before every node on its list
took the next key. A node that is left out of a rotation is one epoch behind: it takes the previous
key, unless it was handed the key that is now in use before the rotation was committed without it,
or was caught up since; then it takes the key in use.
-/

namespace MatStack

open Program Machine

section
variable (env : RotateEnv) (f : FabricIdentity) (i : UInt8)

/-- The node takes sessions with the key. -/
def RotationSite.Accepts (s : RotationSite) (nodeId : UInt64) (ipk : Fixed 16) : Prop :=
  ((s.nodes nodeId).select env.crypto f nodeId ipk).isSome

instance (s : RotationSite) (nodeId : UInt64) (ipk : Fixed 16) :
    Decidable (s.Accepts env f nodeId ipk) :=
  inferInstanceAs (Decidable (Option.isSome _ = true))

/-- Nodes were handed the keys of two epochs; all else is as it was. -/
structure HandedOut (a b : Fixed 16) (s s' : RotationSite) : Prop where
  text : s'.text = s.text
  listed : s'.listed = s.listed
  committed : s'.committed = s.committed
  nodes : ∀ n, s'.nodes n = s.nodes n ∨
    s'.Accepts env f n (deriveOn env f a) ∧
      s'.Accepts env f n (deriveOn env f b)

/-- The key that the controller sets up sessions with. -/
def RotationSite.InUse (s : RotationSite) (k : Fixed 16) : Prop :=
  readIpkOperational env.store i s.text = .ok k

/-- What is promised of the nodes that took the key in use at first. -/
structure Served (took : UInt64 → Prop) (s : RotationSite) : Prop where
  store : SoundStore env.store (f.cfid env) i s.text
  recorded : s.committed ≠ [] → Recorded env.store (f.cfid env) i s.text
  /-- One on the list of every rotation takes the key in use. -/
  listed : ∀ n, took n → (∀ l ∈ s.committed, n ∈ l) →
    ∃ k, s.InUse env i k ∧ s.Accepts env f n k
  /-- One that was left out of the last only takes the previous key or the one in use. -/
  leftOut : ∀ n ls l, took n → s.committed = ls ++ [l] → (∀ l ∈ ls, n ∈ l) → n ∉ l →
    (∃ k, s.InUse env i k ∧ s.Accepts env f n k) ∨
      ∃ prev, readMatIpkEpochSlot env.store i s.text .prev = .ok (some prev) ∧
        s.Accepts env f n (deriveOn env f prev)

end

section
variable {env : RotateEnv} {f : FabricIdentity} {i : UInt8} {s s' s'' s₀ : RotationSite}
  {a b cur next k : Fixed 16} {n nodeId : UInt64} {took : UInt64 → Prop}

/-! ## Handing out keys -/

/-- A device derives the same key. -/
theorem deriveOn_eq (epoch : Fixed 16) : deriveOn env f epoch =
    env.crypto.deriveIpkOperational epoch
      (env.crypto.compressedFabricId f.rootPublicKey f.fabricId) := by
  rw [deriveOn, env.derives]
  rfl

theorem RotationSite.Accepts.of_nodes (h : s.Accepts env f n k)
    (hn : s'.nodes n = s.nodes n) : s'.Accepts env f n k := by
  rw [Accepts, hn]
  exact h

theorem HandedOut.refl (a b : Fixed 16) (s : RotationSite) :
    HandedOut env f a b s s := ⟨rfl, rfl, rfl, fun _ => .inl rfl⟩

theorem HandedOut.trans (h : HandedOut env f a b s s')
    (h' : HandedOut env f a b s' s'') :
    HandedOut env f a b s s'' where
  text := h'.text.trans h.text
  listed := h'.listed.trans h.listed
  committed := h'.committed.trans h.committed
  nodes n := by
    rcases h'.nodes n with hn' | hn'
    · exact (h.nodes n).imp hn'.trans fun hn => ⟨hn.1.of_nodes hn', hn.2.of_nodes hn'⟩
    · exact .inr hn'

/-- A node that took one of the keys still does. -/
theorem HandedOut.accepts (h : HandedOut env f a b s s')
    (hk : k = deriveOn env f a ∨ k = deriveOn env f b)
    (hn : s.Accepts env f n k) : s'.Accepts env f n k := by
  rcases h.nodes n with hsame | ⟨ha, hb⟩
  · exact hn.of_nodes hsame
  · rcases hk with rfl | rfl
    · exact ha
    · exact hb

theorem establish_eq_ok {delivery : Delivery} {ipk : Fixed 16} {conn : NodeConn}
    (h : s.establish env f delivery ipk nodeId = .ok conn) :
    ∃ c, (s.nodes nodeId).select env.crypto f nodeId ipk = some c ∧
      conn = ⟨nodeId, c.fabricIndex⟩ := by
  unfold RotationSite.establish at h
  cases delivery with
  | lost e | replyLost e => cases h
  | delivered =>
    dsimp only at h
    split at h
    · next c hc =>
      cases h
      exact ⟨c, hc, rfl⟩
    · cases h

/-- The two epochs of a hand-out. -/
def epochPair (a b : Fixed 16) : Epochs := ⟨[(a, 1), (b, 2)], List.cons_ne_nil _ _⟩

/-- Over a session, a node takes both keys. -/
theorem written_epochPair {ipk : Fixed 16} {c : FabricEntry}
    (h : (s.nodes nodeId).select env.crypto f nodeId ipk = some c) :
    (s.written ⟨nodeId, c.fabricIndex⟩
      (encodeKeySetWriteFieldsMulti ipkKeySetId (epochPair a b).1)).1 = .ok () ∧
    HandedOut env f a b s (s.written ⟨nodeId, c.fabricIndex⟩
      (encodeKeySetWriteFieldsMulti ipkKeySetId (epochPair a b).1)).2 ∧
    (s.written ⟨nodeId, c.fabricIndex⟩
      (encodeKeySetWriteFieldsMulti ipkKeySetId (epochPair a b).1)).2.Accepts env f
        nodeId (deriveOn env f b) := by
  have hinc : Increasing (epochPair a b).1 := List.pairwise_pair.2 (by decide : (1 : UInt64) < 2)
  have hlen : (epochPair a b).1.length ≤ 3 := by
    show 2 ≤ 3
    decide
  have hdecode := decodeKeySetWriteFields_encode ipkKeySetId hlen hinc
  have hok := ((s.nodes nodeId).groupKeys.upsertKeysetEpochs_ipk c.fabricIndex (epochPair a b)).1
  have hwrite : GroupKeyManagementHandler.keySetWrite (s.nodes nodeId).groupKeys
      (encodeKeySetWriteFieldsMulti ipkKeySetId (epochPair a b).1) c.fabricIndex =
        (.status statusSuccess, ((s.nodes nodeId).groupKeys.upsertKeysetEpochs c.fabricIndex
          ipkKeySetId (epochPair a b)).2) := by
    rw [GroupKeyManagementHandler.keySetWrite, hdecode]
    dsimp only
    rcases hup : (s.nodes nodeId).groupKeys.upsertKeysetEpochs c.fabricIndex ipkKeySetId
      (epochPair a b) with ⟨r, store⟩
    rw [hup] at hok
    obtain rfl : r = .ok () := hok
    rfl
  have hwritten : s.written ⟨nodeId, c.fabricIndex⟩
      (encodeKeySetWriteFieldsMulti ipkKeySetId (epochPair a b).1) =
        (.ok (), { s with nodes := Function.update s.nodes nodeId { s.nodes nodeId with
          groupKeys := ((s.nodes nodeId).groupKeys.upsertKeysetEpochs c.fabricIndex ipkKeySetId
            (epochPair a b)).2 } }) := by
    rw [RotationSite.written, hwrite]
    rfl
  have htakes : ∀ e ∈ (epochPair a b).1.take 3, RotationSite.Accepts env f
      { s with nodes := Function.update s.nodes nodeId { s.nodes nodeId with
        groupKeys := ((s.nodes nodeId).groupKeys.upsertKeysetEpochs c.fabricIndex ipkKeySetId
          (epochPair a b)).2 } } nodeId (deriveOn env f e.1) := by
    intro e he
    rw [RotationSite.Accepts]
    dsimp only
    rw [Function.update_self]
    rw [deriveOn_eq]
    exact IpkNode.select_upsert h he
  have ha := htakes (a, 1) (by simp [epochPair])
  have hb := htakes (b, 2) (by simp [epochPair])
  rw [hwritten]
  refine ⟨rfl, ⟨rfl, rfl, rfl, fun m => ?_⟩, hb⟩
  rcases eq_or_ne m nodeId with rfl | hm
  · exact .inr ⟨ha, hb⟩
  · exact .inl (Function.update_of_ne hm _ _)

theorem keeps_oneNode (verifyWith : Fixed 16) (h : HandedOut env f a b s₀ s) :
    Keeps (RotationSite.serve env f i) (fun _ _ => True)
      (HandedOut env f a b s₀)
      (oneNode (deriveOn env f a) verifyWith [(a, 1), (b, 2)] nodeId).run
      (fun r s' => HandedOut env f a b s₀ s' ∧
        (r = .ok () → s'.Accepts env f nodeId verifyWith)) s := by
  refine keeps_askedBind.2 fun d _ => ⟨h, ?_⟩
  dsimp only [RotationSite.serve]
  cases hest : s.establish env f d.delivery
      (deriveOn env f a) nodeId with
  | error e => exact ⟨h, nofun⟩
  | ok conn =>
    obtain ⟨c, hc, rfl⟩ := establish_eq_ok hest
    obtain ⟨hok, hout, -⟩ := @written_epochPair env f s a b nodeId _ c hc
    have hverify : ∀ s', HandedOut env f a b s₀ s' →
        Keeps (RotationSite.serve env f i) (fun _ _ => True)
          (HandedOut env f a b s₀)
          (do
            let _ ← asked (.establish verifyWith nodeId)
              fun r : Except ConnError NodeConn => r.mapError .verifyCase
            pure () : ExceptT StepError (Program RotateQuestion RotateAnswer) Unit).run
          (fun r s' => HandedOut env f a b s₀ s' ∧
            (r = .ok () → s'.Accepts env f nodeId verifyWith)) s' := by
      intro s' h'
      refine keeps_askedBind.2 fun d _ => ⟨h', ?_⟩
      dsimp only [RotationSite.serve]
      cases hest' : s'.establish env f d.delivery verifyWith nodeId with
      | error e => exact ⟨h', nofun⟩
      | ok conn =>
        obtain ⟨c', hc', -⟩ := establish_eq_ok hest'
        refine ⟨h', fun _ => ?_⟩
        rw [RotationSite.Accepts, hc']
        rfl
    dsimp only [Except.mapError, Ends]
    refine keeps_askedBind.2 fun d _ => ?_
    dsimp only [RotationSite.serve, RotationSite.keySetWrite]
    cases d.delivery with
    | lost e => exact ⟨h, h, nofun⟩
    | replyLost e => exact ⟨h.trans hout, h.trans hout, nofun⟩
    | delivered =>
      refine ⟨h.trans hout, ?_⟩
      dsimp only
      rw [show encodeKeySetWriteFieldsMulti ipkKeySetId [(a, 1), (b, 2)] =
        encodeKeySetWriteFieldsMulti ipkKeySetId (epochPair a b).1 from rfl, hok]
      exact hverify _ (h.trans hout)

/-- Every node that is reported without an error takes the second key. -/
theorem keeps_distribute (nodeIds : List UInt64) :
    Keeps (RotationSite.serve env f i) (fun _ _ => True)
      (HandedOut env f a b s)
      (distribute (deriveOn env f a) (deriveOn env f b)
        [(a, 1), (b, 2)] nodeIds)
      (fun outcomes s' => HandedOut env f a b s s' ∧
        outcomes.map (·.nodeId) = nodeIds ∧ ∀ o ∈ outcomes, o.error = none →
          s'.Accepts env f o.nodeId (deriveOn env f b)) s := by
  induction nodeIds generalizing s with
  | nil => exact ⟨.refl a b s, rfl, List.forall_mem_nil _⟩
  | cons n ns ih =>
    refine keeps_bind.2 ((keeps_oneNode _ (.refl a b s)).mono ?_)
    rintro r s' ⟨hs', htakes⟩
    refine keeps_bind.2 (((ih (s := s')).imp (fun _ _ hi => hi) fun _ => hs'.trans).mono ?_)
    rintro rest s'' ⟨hs'', hids, hrest⟩
    refine ⟨hs'.trans hs'', by rw [List.map_cons, hids],
      List.forall_mem_cons.2 ⟨fun hok => ?_, hrest⟩⟩
    cases r with
    | error e => cases hok
    | ok _ => exact hs''.accepts (.inr rfl) (htakes rfl)

/-! ## The programs -/

theorem Served.handedOut (h : Served env f i took s)
    (hs' : HandedOut env f a b s s')
    (hk : s.InUse env i (deriveOn env f a) ∨
      s.InUse env i (deriveOn env f b)) :
    Served env f i took s' := by
  have hinUse : ∀ k, s.InUse env i k → s'.InUse env i k := by
    intro k h
    rw [RotationSite.InUse, hs'.text]
    exact h
  have hkey : ∀ k, s.InUse env i k →
      k = deriveOn env f a ∨ k = deriveOn env f b := by
    intro k h
    exact hk.imp (fun h' => Except.ok.inj (h.symm.trans h')) fun h' =>
      Except.ok.inj (h.symm.trans h')
  have htakes : ∀ n, (∃ k, s.InUse env i k ∧ s.Accepts env f n k) →
      ∃ k, s'.InUse env i k ∧ s'.Accepts env f n k := by
    rintro n ⟨k, h, hn⟩
    exact ⟨k, hinUse k h, hs'.accepts (hkey k h) hn⟩
  refine ⟨hs'.text ▸ h.store, fun hc => hs'.text ▸ h.recorded (hs'.committed ▸ hc),
    fun n hn hl => htakes n (h.listed n hn (hs'.committed ▸ hl)), ?_⟩
  intro n ls l htook hcommitted hls hl
  rcases h.leftOut n ls l htook (hs'.committed ▸ hcommitted) hls hl with hn | ⟨prev, hprev, hn⟩
  · exact .inl (htakes n hn)
  · rcases hs'.nodes n with hsame | ⟨ha, hb⟩
    · exact .inr ⟨prev, hs'.text ▸ hprev, hn.of_nodes hsame⟩
    · exact .inl (hk.elim (fun h => ⟨_, hinUse _ h, ha⟩) fun h => ⟨_, hinUse _ h, hb⟩)

theorem Served.sameKeys {text : List Char} (h : Served env f i took s)
    (hsame : SameKeys env.store (f.cfid env) i s.text text) :
    Served env f i took { s with text } := by
  have htakes : ∀ n, (∃ k, s.InUse env i k ∧ s.Accepts env f n k) →
      ∃ k, RotationSite.InUse env i { s with text } k ∧
        RotationSite.Accepts env f { s with text } n k := by
    rintro _ ⟨k, h, hn⟩
    exact ⟨k, hsame.operational k h, hn⟩
  refine ⟨hsame.sound, fun hc => hsame.recorded (h.recorded hc),
    fun n hn hl => htakes n (h.listed n hn hl), fun n ls l htook hcommitted hls hl => ?_⟩
  refine (h.leftOut n ls l htook hcommitted hls hl).imp (htakes n) ?_
  rintro ⟨prev, hprev, hn⟩
  exact ⟨prev, hsame.prev prev hprev, hn⟩

/-- A commit after every node on the list took the next key. -/
theorem Served.commit {text : List Char} {file : FileAccess}
    (h : Served env f i took s)
    (hcur : s.InUse env i (deriveOn env f cur))
    (hlisted : ∀ m ∈ s.listed,
      s.Accepts env f m (deriveOn env f next))
    (hcall : commitIpkRotation env.store i file s.text (f.cfid env) cur next =
      (.ok true, text)) :
    Served env f i took
      { s with text, committed := s.committed ++ [s.listed] } := by
  obtain ⟨hsound, hcurrent, hinUse, hprev⟩ := h.store.commit hcall
  refine ⟨hsound, fun _ => ⟨next, hcurrent, hinUse⟩, fun n _ hl => ?_,
    fun n ls l htook hcommitted hls hl => ?_⟩
  · exact ⟨_, hinUse, hlisted n (hl s.listed (by simp))⟩
  · obtain ⟨rfl, hlast⟩ := List.append_inj' hcommitted rfl
    obtain ⟨k, hk, hn⟩ := h.listed n htook hls
    obtain rfl := Except.ok.inj (hcur.symm.trans hk)
    exact .inr ⟨cur, hprev, hn⟩

/-- The program keeps what is promised of the node. -/
abbrev Kept (env : RotateEnv) (f : FabricIdentity) (i : UInt8) (took : UInt64 → Prop) {α : Type}
    (p : RotateProgram α) (post : α → RotationSite → Prop) (s : RotationSite) : Prop :=
  Keeps (RotationSite.serve env f i) (fun _ _ => True)
    (Served env f i took) p post s

theorem readText_eq_ok {α : Type} {file : FileAccess} {x : Except KvsError α} {v : α}
    (h : readText file x = .ok v) : x = .ok v := by
  unfold readText at h
  split at h
  · cases h
  · cases x with
    | error e => cases h
    | ok v' =>
      cases h
      rfl

/-- The current epoch key derives the key in use. -/
theorem kept_resolveIpkEpoch {ipk : Fixed 16} (h : Served env f i took s)
    (hipk : s.InUse env i ipk) :
    Kept env f i took (resolveIpkEpoch (deriveOn env f) ipk).run
      (fun r s' => Served env f i took s' ∧ s'.listed = s.listed ∧
        ∀ cur, r = .ok cur → s'.InUse env i (deriveOn env f cur)) s := by
  refine keeps_askedBind.2 fun d _ => ⟨h, ?_⟩
  dsimp only [RotationSite.serve]
  cases readText d.file (readMatIpkEpochSlot env.store i s.text .current) with
  | error e => exact ⟨h, rfl, nofun⟩
  | ok found =>
    dsimp only [Except.mapError, Ends]
    cases found with
    | some epoch =>
      dsimp only
      split
      · exact ⟨h, rfl, nofun⟩
      · next hne =>
        refine ⟨h, rfl, fun cur hr => ?_⟩
        cases hr
        rw [not_not.1 hne]
        exact hipk
    | none =>
      dsimp only
      split
      · exact ⟨h, rfl, nofun⟩
      · next hne =>
        rw [← not_not.1 hne] at hipk
        refine keeps_askedBind.2 fun d _ => ?_
        dsimp only [RotationSite.serve]
        have hsame : SameKeys env.store (f.cfid env) i s.text
            (writeMatIpkEpoch env.store i d.file s.text chipToolDefaultIpkEpoch).2 :=
          h.store.adopt hipk
        have hserved := h.sameKeys hsame
        refine ⟨hserved, ?_⟩
        cases (writeMatIpkEpoch env.store i d.file s.text chipToolDefaultIpkEpoch).1 with
        | error e => exact ⟨hserved, rfl, nofun⟩
        | ok b =>
          refine ⟨hserved, rfl, fun cur hr => ?_⟩
          cases hr
          exact hsame.operational _ hipk

/-- Making a key pending leaves the key in use. -/
theorem kept_nextEpoch (h : Served env f i took s) :
    Kept env f i took (nextEpoch cur).run
      (fun _ s' => Served env f i took s' ∧ s'.listed = s.listed ∧
        ∀ k, s.InUse env i k → s'.InUse env i k) s := by
  refine keeps_askedBind.2 fun d _ => ⟨h, ?_⟩
  dsimp only [RotationSite.serve]
  cases readText d.file (readMatIpkEpochSlot env.store i s.text .next) with
  | error e => exact ⟨h, rfl, fun _ hk => hk⟩
  | ok found =>
    dsimp only [Except.mapError, Ends]
    cases found with
    | some epoch => exact ⟨h, rfl, fun _ hk => hk⟩
    | none =>
      refine keeps_askedBind.2 fun d _ => ⟨h, ?_⟩
      dsimp only [RotationSite.serve]
      cases d.drawn.find? (· ≠ cur) with
      | none => exact ⟨h, rfl, fun _ hk => hk⟩
      | some next =>
        dsimp only [Option.elim, Ends]
        refine keeps_askedBind.2 fun d _ => ?_
        dsimp only [RotationSite.serve]
        have hsame : SameKeys env.store (f.cfid env) i s.text
            (beginIpkRotation env.store i d.file s.text next).2 := h.store.begin
        have hserved := h.sameKeys hsame
        refine ⟨hserved, ?_⟩
        cases (beginIpkRotation env.store i d.file s.text next).1 with
        | error e => exact ⟨hserved, rfl, hsame.operational⟩
        | ok b => exact ⟨hserved, rfl, hsame.operational⟩

theorem kept_makeEstablisher (h : Served env f i took s) (epoch : Fixed 16) :
    Kept env f i took
      (makeEstablisher (deriveOn env f) epoch).run
      (fun r s' => s' = s ∧ ∀ k, r = .ok k → k = deriveOn env f epoch) s := by
  refine keeps_asked.2 fun d _ => ⟨h, rfl, fun k hk => ?_⟩
  split at hk
  · cases hk
    rfl
  · cases hk

theorem kept_rotate {nodeIds : List UInt64} (h : Served env f i took s)
    (hcur : s.InUse env i (deriveOn env f cur)) (hlisted : s.listed = nodeIds) :
    Kept env f i took
      (rotate (deriveOn env f) cur nodeIds).run (fun _ _ => True) s := by
  refine keeps_bindExcept.2 ((kept_nextEpoch h).mono ?_)
  rintro (e | next) s₁ ⟨h₁, hlisted₁, hinUse₁⟩
  · trivial
  have hcur₁ := hinUse₁ _ hcur
  refine keeps_bindExcept.2 ((kept_makeEstablisher h₁ cur).mono ?_)
  rintro (e | estCur) s₂ ⟨rfl, hestCur⟩
  · trivial
  obtain rfl := hestCur _ rfl
  refine keeps_bindExcept.2 ((kept_makeEstablisher h₁ next).mono ?_)
  rintro (e | estNext) s₃ ⟨rfl, hestNext⟩
  · trivial
  obtain rfl := hestNext _ rfl
  refine keeps_bindExcept.2 (keeps_lifted.2 (((keeps_distribute nodeIds).imp (fun _ _ hi => hi)
    fun _ hs => h₁.handedOut hs (.inl hcur₁)).mono ?_))
  rintro nodes s₄ ⟨hout, hids, htakes⟩
  have h₄ := h₁.handedOut hout (.inl hcur₁)
  have hcur₄ : s₄.InUse env i (deriveOn env f cur) := by
    rw [RotationSite.InUse, hout.text]
    exact hcur₁
  dsimp only [Ends]
  split
  · trivial
  · next hall =>
    refine keeps_askedBind.2 fun d _ => ?_
    dsimp only [RotationSite.serve]
    have hlisted₄ : ∀ m ∈ s₄.listed,
        s₄.Accepts env f m (deriveOn env f next) := by
      intro m hm
      rw [hout.listed, hlisted₁, hlisted, ← hids] at hm
      obtain ⟨o, ho, rfl⟩ := List.mem_map.1 hm
      refine htakes o ho (Option.not_isSome_iff_eq_none.1 fun hsome => hall ?_)
      exact List.any_eq_true.2 ⟨o, ho, hsome⟩
    cases hcall : commitIpkRotation env.store i d.file s₄.text (f.cfid env) cur next with
    | mk r text =>
      by_cases hr : r = .ok true
      · rw [hr] at hcall ⊢
        rw [if_pos rfl]
        exact ⟨h₄.commit hcur₄ hlisted₄ hcall, trivial⟩
      · have htext : text = s₄.text := by
          have := commitIpkRotation_of_ne (by rw [hcall]; exact hr)
          rwa [hcall] at this
        rw [if_neg hr, htext]
        refine ⟨h₄, ?_⟩
        cases r with
        | error e => trivial
        | ok b => trivial

theorem kept_catchUp {nodeIds : List UInt64} (h : Served env f i took s)
    (hcur : s.InUse env i (deriveOn env f cur)) :
    Kept env f i took
      (catchUp (deriveOn env f) cur nodeIds).run (fun _ _ => True) s := by
  refine keeps_askedBind.2 fun d _ => ⟨h, ?_⟩
  dsimp only [RotationSite.serve]
  cases readText d.file (readMatIpkEpochSlot env.store i s.text .prev) with
  | error e => trivial
  | ok found =>
    dsimp only [Except.mapError, Ends]
    cases found with
    | none => trivial
    | some prev =>
      refine keeps_askedBind.2 fun d _ => ⟨h, ?_⟩
      dsimp only [RotationSite.serve]
      cases readText d.file (readMatIpkEpochSlot env.store i s.text .next) with
      | error e => trivial
      | ok pending =>
        dsimp only [Except.mapError, Ends]
        split
        · trivial
        · refine keeps_bindExcept.2 ((kept_makeEstablisher h prev).mono ?_)
          rintro (e | estPrev) s₁ ⟨rfl, hestPrev⟩
          · trivial
          obtain rfl := hestPrev _ rfl
          refine keeps_bindExcept.2 ((kept_makeEstablisher h cur).mono ?_)
          rintro (e | estCur) s₂ ⟨rfl, hestCur⟩
          · trivial
          obtain rfl := hestCur _ rfl
          refine keeps_bindExcept.2 (keeps_lifted.2 (((keeps_distribute nodeIds).imp
            (fun _ _ hi => hi) fun _ hs => h.handedOut hs (.inr hcur)).mono ?_))
          intro nodes s' _
          trivial

theorem kept_abortOnly (h : Served env f i took s) :
    Kept env f i took abortOnly.run (fun _ _ => True) s := by
  refine keeps_askedBind.2 fun d _ => ?_
  dsimp only [RotationSite.serve]
  refine ⟨h.sameKeys h.store.abort, ?_⟩
  cases (abortIpkRotation env.store i d.file s.text).1 with
  | error e => trivial
  | ok b => trivial

/-- **One command.** What is promised of a node is kept at every step of a command. -/
theorem kept_rotateIpk {p : RotateIpkParams} (h : Served env f i took s)
    (hlisted : s.listed = p.nodeIds) :
    Kept env f i took (rotateIpk (deriveOn env f) p).run
      (fun _ _ => True) s := by
  unfold rotateIpk
  split
  · exact kept_abortOnly h
  · refine keeps_askedBind.2 fun d _ => ⟨h, ?_⟩
    dsimp only [RotationSite.serve]
    cases hread : readText d.file (readIpkOperational env.store i s.text) with
    | error e => trivial
    | ok ipk =>
      dsimp only [Except.mapError, Ends]
      refine keeps_bindExcept.2 ((kept_resolveIpkEpoch h (readText_eq_ok hread)).mono ?_)
      rintro (e | cur) s₁ ⟨h₁, hlisted₁, hinUse₁⟩
      · trivial
      · dsimp only [Ends]
        split
        · exact kept_rotate h₁ (hinUse₁ cur rfl) (hlisted₁.trans hlisted)
        · exact kept_catchUp h₁ (hinUse₁ cur rfl)

/-! ## Catching up -/

/-- Nothing fails but what other nodes do. -/
def Favours (n : UInt64) : RotateQuestion → Decision → Prop
  | .establish _ nodeId, d => nodeId = n → d.delivery = .delivered
  | .keySetWrite conn _, d => conn.nodeId = n → d.delivery = .delivered
  | .opScopeId, d => d.interface = true
  | _, d => d.file = .ok

theorem establish_delivered {ipk : Fixed 16} (h : s.Accepts env f n ipk) :
    ∃ c, (s.nodes n).select env.crypto f n ipk = some c ∧
      s.establish env f .delivered ipk n = .ok ⟨n, c.fabricIndex⟩ := by
  obtain ⟨c, hc⟩ := Option.isSome_iff_exists.1 h
  refine ⟨c, hc, ?_⟩
  rw [RotationSite.establish, hc]

/-- A node that takes the first key and is reached takes both, and is reported without an error. -/
theorem keeps_oneNode_reached
    (hn : s.Accepts env f n (deriveOn env f a)) :
    Keeps (RotationSite.serve env f i) (Favours n)
      (HandedOut env f a b s)
      (oneNode (deriveOn env f a) (deriveOn env f b)
        [(a, 1), (b, 2)] n).run
      (fun r s' => HandedOut env f a b s s' ∧ r = .ok ()) s := by
  obtain ⟨c, hc, hest⟩ := establish_delivered hn
  obtain ⟨hok, hout, htakes⟩ := @written_epochPair env f s a b n _ c hc
  obtain ⟨c', -, hest'⟩ := establish_delivered htakes
  refine keeps_askedBind.2 fun d hd => ⟨.refl a b s, ?_⟩
  dsimp only [RotationSite.serve]
  rw [hd rfl, hest]
  dsimp only [Except.mapError, Ends]
  refine keeps_askedBind.2 fun d hd => ?_
  dsimp only [RotationSite.serve]
  rw [hd rfl]
  dsimp only [RotationSite.keySetWrite]
  rw [show encodeKeySetWriteFieldsMulti ipkKeySetId [(a, 1), (b, 2)] =
    encodeKeySetWriteFieldsMulti ipkKeySetId (epochPair a b).1 from rfl, hok]
  refine ⟨hout, ?_⟩
  dsimp only [Except.mapError, Ends]
  refine keeps_askedBind.2 fun d hd => ⟨hout, ?_⟩
  dsimp only [RotationSite.serve]
  rw [hd rfl, hest']
  exact ⟨hout, rfl⟩

theorem keeps_distribute_reached (nodeIds : List UInt64)
    (hn : s.Accepts env f n (deriveOn env f a)) :
    Keeps (RotationSite.serve env f i) (Favours n)
      (HandedOut env f a b s)
      (distribute (deriveOn env f a) (deriveOn env f b)
        [(a, 1), (b, 2)] nodeIds)
      (fun outcomes _ => outcomes.map (·.nodeId) = nodeIds ∧
        ∀ o ∈ outcomes, o.nodeId = n → o.error = none) s := by
  induction nodeIds generalizing s with
  | nil => exact ⟨rfl, List.forall_mem_nil _⟩
  | cons m ns ih =>
    have hone : Keeps (RotationSite.serve env f i) (Favours n)
        (HandedOut env f a b s)
        (oneNode (deriveOn env f a) (deriveOn env f b)
          [(a, 1), (b, 2)] m).run
        (fun r s' => HandedOut env f a b s s' ∧ (m = n → r = .ok ())) s := by
      rcases eq_or_ne m n with rfl | hm
      · exact (keeps_oneNode_reached hn).mono fun r s' hr => ⟨hr.1, fun _ => hr.2⟩
      · exact ((keeps_oneNode _ (.refl a b s)).imp (fun _ _ _ => trivial) fun _ hi => hi).mono
          fun r s' hr => ⟨hr.1, fun he => absurd he hm⟩
    refine keeps_bind.2 (hone.mono ?_)
    rintro r s' ⟨hs', hr⟩
    have hn' := hs'.accepts (.inl rfl) hn
    refine keeps_bind.2 (((ih hn').imp (fun _ _ hi => hi) fun _ => hs'.trans).mono ?_)
    rintro rest s'' ⟨hids, hrest⟩
    refine ⟨by rw [List.map_cons, hids], List.forall_mem_cons.2 ⟨fun hm => ?_, hrest⟩⟩
    rw [hr hm]

theorem readText_ok {α : Type} (v : α) : readText .ok (.ok v) = .ok v := rfl

theorem keeps_makeEstablisher_favoured (epoch : Fixed 16) :
    Keeps (RotationSite.serve env f i) (Favours n) (fun _ => True)
      (makeEstablisher (deriveOn env f) epoch).run
      (fun r s' => s' = s ∧ r = .ok (deriveOn env f epoch)) s := by
  refine keeps_asked.2 fun d hd => ⟨trivial, rfl, ?_⟩
  have hfound : d.interface = true := hd
  exact if_pos hfound

/-- What a catch-up that is begun reports of a node which it reaches. -/
theorem keeps_catchUp_reached {nodeIds : List UInt64} {prev : Fixed 16}
    (hprev : readMatIpkEpochSlot env.store i s.text .prev = .ok (some prev))
    (hnext : readMatIpkEpochSlot env.store i s.text .next = .ok none)
    (hn : s.Accepts env f n (deriveOn env f prev)) :
    Keeps (RotationSite.serve env f i) (Favours n) (fun _ => True)
      (catchUp (deriveOn env f) cur nodeIds).run
      (fun r _ => ∃ outcome, r = .ok outcome ∧ outcome.nodes.map (·.nodeId) = nodeIds ∧
        ∀ o ∈ outcome.nodes, o.nodeId = n → o.error = none) s := by
  refine keeps_askedBind.2 fun d hd => ⟨trivial, ?_⟩
  dsimp only [RotationSite.serve]
  rw [hd, hprev, readText_ok]
  dsimp only [Except.mapError, Ends]
  refine keeps_askedBind.2 fun d hd => ⟨trivial, ?_⟩
  dsimp only [RotationSite.serve]
  rw [hd, hnext, readText_ok]
  dsimp only [Except.mapError, Ends]
  rw [if_neg (show ¬(none : Option (Fixed 16)).isSome = true from Bool.false_ne_true)]
  refine keeps_bindExcept.2 ((keeps_makeEstablisher_favoured prev).mono ?_)
  rintro r s₁ ⟨rfl, rfl⟩
  refine keeps_bindExcept.2 ((keeps_makeEstablisher_favoured cur).mono ?_)
  rintro r s₂ ⟨rfl, rfl⟩
  refine keeps_bindExcept.2 (keeps_lifted.2 (((keeps_distribute_reached nodeIds hn).imp
    (fun _ _ hi => hi) fun _ _ => trivial).mono ?_))
  rintro nodes s₃ ⟨hids, hall⟩
  exact ⟨_, rfl, hids, hall⟩

/-- **Catching up.** With no rotation pending, a command that catches up a node which takes the
previous key and is reached reports no error for it. -/
theorem keeps_rotateIpk_reached {nodeIds : List UInt64} {prev : Fixed 16}
    (hrecorded : Recorded env.store (f.cfid env) i s.text)
    (hprev : readMatIpkEpochSlot env.store i s.text .prev = .ok (some prev))
    (hnext : readMatIpkEpochSlot env.store i s.text .next = .ok none)
    (hn : s.Accepts env f n (deriveOn env f prev)) :
    Keeps (RotationSite.serve env f i) (Favours n) (fun _ => True)
      (rotateIpk (deriveOn env f) ⟨nodeIds, .catchUp⟩).run
      (fun r _ => ∃ outcome, r = .ok outcome ∧ outcome.nodes.map (·.nodeId) = nodeIds ∧
        ∀ o ∈ outcome.nodes, o.nodeId = n → o.error = none) s := by
  obtain ⟨cur, hcur, hread⟩ := hrecorded
  unfold rotateIpk
  rw [if_neg (show RotateMode.catchUp ≠ .abort by decide)]
  refine keeps_askedBind.2 fun d hd => ⟨trivial, ?_⟩
  dsimp only [RotationSite.serve]
  rw [hd, hread, readText_ok]
  dsimp only [Except.mapError, Ends]
  refine keeps_bindExcept.2 (keeps_askedBind.2 fun d hd => ⟨trivial, ?_⟩)
  dsimp only [RotationSite.serve]
  rw [hd, hcur, readText_ok]
  dsimp only [Except.mapError, Ends]
  rw [if_neg (show ¬(deriveOn env f cur ≠
    env.store.deriveIpkOperational cur (f.cfid env)) from not_not.2 rfl)]
  have hcatchUp := @keeps_catchUp_reached env f i s cur n nodeIds prev hprev hnext hn
  exact hcatchUp

/-! ## Runs -/

/-- A command that catches the node up succeeds for it, where nothing fails but what other nodes do.
-/
def CatchesUp (env : RotateEnv) (f : FabricIdentity) (i : UInt8) (n : UInt64) (s : RotationSite) :
    Prop :=
  ∀ nodeIds ds r s', Along (Program.next (RotationSite.serve env f i))
      (Decided (Favours n))
      ((rotateIpk (deriveOn env f) ⟨nodeIds, .catchUp⟩).run, s) ds →
    run (Program.next (RotationSite.serve env f i))
      ((rotateIpk (deriveOn env f) ⟨nodeIds, .catchUp⟩).run, s) ds = (done r, s') →
    ∃ outcome, r = .ok outcome ∧ outcome.nodes.map (·.nodeId) = nodeIds ∧
      ∀ o ∈ outcome.nodes, o.nodeId = n → o.error = none

/-- What the commands leave of a site. -/
structure NotLockedOut (env : RotateEnv) (f : FabricIdentity) (i : UInt8) (s s' : RotationSite) :
    Prop where
  /-- A node that took the key in use and is on the list of every rotation takes the key in use. -/
  listed : ∀ n k, s.InUse env i k → s.Accepts env f n k →
    (∀ l ∈ s'.committed, n ∈ l) →
    ∃ k', s'.InUse env i k' ∧ s'.Accepts env f n k'
  /-- One that was left out of the last rotation only takes the key in use, or it takes the previous
  key; a command then catches it up, unless a rotation is pending. -/
  leftOut : ∀ n k ls l, s.InUse env i k → s.Accepts env f n k →
    s'.committed = ls ++ [l] → (∀ l ∈ ls, n ∈ l) → n ∉ l →
    (∃ k', s'.InUse env i k' ∧ s'.Accepts env f n k') ∨
      ∃ prev, readMatIpkEpochSlot env.store i s'.text .prev = .ok (some prev) ∧
        s'.Accepts env f n (deriveOn env f prev) ∧
        (readMatIpkEpochSlot env.store i s'.text .next = .ok none →
          CatchesUp env f i n s')
  /-- The store has one line for a pending key at most. -/
  pending : ∃ t, KvsTxn.openText s'.text = .ok t ∧
    (t.body.filter (isLineOf (matIpkEpochSlotKey i .next))).length ≤ 1

/-- **No node is locked out.** Whatever commands do, one after the other and each as far as it gets,
a node that is on the list of every committed rotation takes the key in use. -/
theorem notLockedOut (hstore : SoundStore env.store (f.cfid env) i s.text)
    (hcommitted : s.committed = []) (es : List (SystemEvent RotateIpkParams Decision)) :
    NotLockedOut env f i s
      (run (rotationStep env f i) ⟨s, none⟩ es).state := by
  have hstart : Served env f i
      (fun n => ∃ k, s.InUse env i k ∧ s.Accepts env f n k) s := by
    refine ⟨hstore, fun h => absurd hcommitted h, fun n hn _ => hn, fun n ls l _ h => ?_⟩
    rw [hcommitted] at h
    cases ls <;> cases h
  have hserved : Served env f i
      (fun n => ∃ k, s.InUse env i k ∧ s.Accepts env f n k)
      (run (rotationStep env f i) ⟨s, none⟩ es).state := by
    refine System.invariant_of_keeps hstart (fun p t ht => ?_) es
    have henter : Served env f i _ (t.enter p) :=
      ⟨ht.store, ht.recorded, ht.listed, ht.leftOut⟩
    exact ⟨henter, kept_rotateIpk henter rfl⟩
  refine ⟨fun n k hk hn => hserved.listed n ⟨k, hk, hn⟩,
    fun n k ls l hk hn hcommitted' hls hl => ?_, hserved.store.pending⟩
  refine (hserved.leftOut n ls l ⟨k, hk, hn⟩ hcommitted' hls hl).imp_right ?_
  rintro ⟨prev, hprev, hn'⟩
  refine ⟨prev, hprev, hn', fun hnext nodeIds ds r s' hds hrun => ?_⟩
  have hne : ls ++ [l] ≠ [] := List.append_ne_nil_of_right_ne_nil _ (List.cons_ne_nil _ _)
  have hrecorded := hserved.recorded (hcommitted'.trans_ne hne)
  exact ((keeps_rotateIpk_reached hrecorded hprev hnext hn').run trivial hds).2 r s' hrun

end

/-! ## Sample runs -/

def repeated (n : Nat) (b : UInt8) : Fixed n := ⟨List.replicate n b, List.length_replicate⟩

def sampleCrypto : Crypto where
  verifySignedBy _ _ := .ok ()
  signEcdsaP256 _ _ := repeated 64 0
  ephPubBytes _ := repeated 65 0
  generateCsr _ := []
  compressedFabricId _ _ := sampleCfid 2
  deriveIpkOperational := sampleRotationEnv.deriveIpkOperational

def sampleRotateEnv : RotateEnv := ⟨sampleRotationEnv, sampleCrypto, rfl⟩

def sampleIdentity : FabricIdentity := ⟨repeated 65 4, 1⟩

/-- Every node as it is after it was commissioned. -/
def sampleNode (nodeId : UInt64) : IpkNode :=
  ⟨[⟨1, [], [], none, repeated 32 1, sampleCurrentOperational, nodeId, 1,
    sampleIdentity.rootPublicKey, 1, 0xFFF1, ""⟩], .new⟩

def sampleSite : RotationSite :=
  ⟨sampleStore "[Default]" [sampleCurrentOperational] [], sampleNode, [], []⟩

/-- Answers where nothing fails; `fresh` is the key that is drawn. -/
def sampleAnswers (count : Nat) (fresh : UInt8) : List (SystemEvent RotateIpkParams Decision) :=
  List.replicate count (.served ⟨.ok, [sampleEpoch fresh], true, .delivered⟩)

/-- A rotation is committed without node 2, which is caught up; the next rotation dies when node 2
has its key. -/
def sampleCommands : List (SystemEvent RotateIpkParams Decision) :=
  .start ⟨[1], .rotate⟩ :: sampleAnswers 11 0x0E ++ .start ⟨[2], .catchUp⟩ :: sampleAnswers 9 0 ++
    .start ⟨[2], .rotate⟩ :: sampleAnswers 10 0x11 ++ [.crash]

/-- The site after the commands. -/
def sampleEnd (es : List (SystemEvent RotateIpkParams Decision)) :
    System RotateQuestion RotateAnswer RotationSite (Except RotateError RotateOutcome) :=
  run (rotationStep sampleRotateEnv sampleIdentity 2) ⟨sampleSite, none⟩ es

theorem notLockedOut_sampleCommands : NotLockedOut sampleRotateEnv sampleIdentity 2 sampleSite
    (sampleEnd sampleCommands).state :=
  notLockedOut ⟨none, sound_sampleStore⟩ rfl sampleCommands

/-- Node 2, which only the one committed rotation left out, no longer takes the previous key; a
command that is to catch it up, after the rotation that died is taken back, is refused. -/
theorem previous_not_kept :
    ¬(∀ es n k ls l, sampleSite.InUse sampleRotateEnv 2 k →
        sampleSite.Accepts sampleRotateEnv sampleIdentity n k →
        (sampleEnd es).state.committed = ls ++ [l] → (∀ l ∈ ls, n ∈ l) → n ∉ l →
        ∃ prev, readMatIpkEpochSlot sampleRotationEnv 2 (sampleEnd es).state.text .prev =
            .ok (some prev) ∧
          (sampleEnd es).state.Accepts sampleRotateEnv sampleIdentity n
            (deriveOn sampleRotateEnv sampleIdentity prev)) ∧
      (sampleEnd (sampleCommands ++ .start ⟨[], .abort⟩ :: sampleAnswers 1 0 ++
        .start ⟨[2], .catchUp⟩ :: sampleAnswers 7 0)).process.bind (·.result?) =
          some (.ok ⟨.catchUpIncomplete, [⟨2, some (.establish .refused)⟩]⟩) := by
  obtain ⟨hinUse, hcommitted, hprev, hselect, hresult⟩ :
      readIpkOperational sampleRotationEnv 2 sampleSite.text = .ok sampleCurrentOperational ∧
      (sampleEnd sampleCommands).state.committed = [[1]] ∧
      readMatIpkEpochSlot sampleRotationEnv 2 (sampleEnd sampleCommands).state.text .prev =
        .ok (some (sampleEpoch 0x0C)) ∧
      ((sampleEnd sampleCommands).state.nodes 2).select sampleRotateEnv.crypto sampleIdentity 2
        sampleCurrentOperational = none ∧
      (sampleEnd (sampleCommands ++ .start ⟨[], .abort⟩ :: sampleAnswers 1 0 ++
        .start ⟨[2], .catchUp⟩ :: sampleAnswers 7 0)).process.bind (·.result?) =
          some (.ok ⟨.catchUpIncomplete, [⟨2, some (.establish .refused)⟩]⟩) := by
    decide +kernel
  refine ⟨fun h => ?_, hresult⟩
  obtain ⟨prev, hprev', htakes⟩ := h sampleCommands 2 sampleCurrentOperational [] [1] hinUse
    (by decide) hcommitted (List.forall_mem_nil _) (by decide)
  obtain rfl := Option.some.inj (Except.ok.inj (hprev.symm.trans hprev'))
  rw [RotationSite.Accepts, show deriveOn sampleRotateEnv sampleIdentity
    (sampleEpoch 0x0C) = sampleCurrentOperational from by decide, hselect] at htakes
  cases htakes

end MatStack
