import MatStack.Controller.Dnssd.CacheRuns

/-!
# New nodes are found

An instance whose service record is fresh, and whose host has an address, is in the cache as soon as
a datagram names one of them: `Live`. The maps of services and of addresses never free a name, so
this holds along a run as long as all the names that were ever heard of fit into them (`Roomy`), and
`forged_hosts_fill` is a run in which it does not.
-/

namespace MatStack.Dnssd

open Machine

/-! ## Room for the names of a datagram -/

/-- The instances that a datagram has a service record of. -/
def serviceNames (rs : List Record) : List Name :=
  (rs.filter fun r => isOperational r.name && (srvOf r.name.lower r).isSome).map (·.name.lower)

/-- The hosts that a datagram has an address of. -/
def hostNames (rs : List Record) : List Name :=
  (rs.filter fun r => (aaaaOf r.name.lower r).isSome).map (·.name.lower)

section
variable {fold : OperationalFold} {now : Instant} {rs rs' : List Record} {r : Record}
  {inst host : Name} {v : UInt16 × Name × UInt32} {addr : Ipv6Addr}

theorem name_of_srvOf (h : (srvOf inst r).isSome) : r.name.lower = inst := by
  by_contra hne
  rw [srvOf_of_name_ne hne] at h
  cases h

theorem name_of_aaaaOf (h : (aaaaOf host r).isSome) : r.name.lower = host := by
  by_contra hne
  rw [aaaaOf_of_name_ne hne] at h
  cases h

theorem mem_serviceNames (hr : r ∈ rs) (h : (srvOf inst r).isSome) (hop : operationalSuffix <:+ r.name) :
    inst ∈ serviceNames rs := by
  have hname := name_of_srvOf h
  refine List.mem_map.2 ⟨r, List.mem_filter.2 ⟨hr, ?_⟩, hname⟩
  rw [hname, h, isOperational_iff.2 hop]
  rfl

theorem mem_hostNames (hr : r ∈ rs) (h : (aaaaOf host r).isSome) : host ∈ hostNames rs := by
  have hname := name_of_aaaaOf h
  refine List.mem_map.2 ⟨r, List.mem_filter.2 ⟨hr, ?_⟩, hname⟩
  rw [hname, h]

/-- Every service of the datagram finds room, after any of its records. -/
theorem srv_room
    (hcard : (fold.srv.keys ++ serviceNames rs).toFinset.card ≤ maxFoldEntries) (hpre : rs' <+: rs)
    (hi : inst ∈ serviceNames rs) : (foldRecords now fold rs').1.srv.HasRoom inst := by
  refine BoundedMap.room_of_card_le hcard (fun k hk => ?_)
    (List.mem_toFinset.2 (List.mem_append_right _ hi))
  obtain ⟨v, hv⟩ := BoundedMap.mem_keys.1 hk
  rw [List.mem_toFinset, List.mem_append]
  rcases srv_lookup_cases now fold rs' k with hsame | hsaid
  · exact Or.inl (BoundedMap.mem_keys.2 ⟨v, hsame.symm.trans hv⟩)
  · obtain ⟨r, hr, hs, hop⟩ := hsaid.2
    exact Or.inr (mem_serviceNames (hpre.subset hr) hs hop)

/-- Every host of the datagram finds room, after any of its records. -/
theorem addrs_room
    (hcard : (fold.addrs.keys ++ hostNames rs).toFinset.card ≤ maxFoldEntries) (hpre : rs' <+: rs)
    (hi : host ∈ hostNames rs) : (foldRecords now fold rs').1.addrs.HasRoom host := by
  refine BoundedMap.room_of_card_le hcard (fun k hk => ?_)
    (List.mem_toFinset.2 (List.mem_append_right _ hi))
  rw [List.mem_toFinset, List.mem_append]
  refine (mem_addrs_keys hk).imp_right fun ⟨r, hr, hs⟩ => ?_
  exact mem_hostNames (hpre.subset hr) hs

/-- A service that finds room is known. -/
theorem srv_learned (hcard : (fold.srv.keys ++ serviceNames rs).toFinset.card ≤ maxFoldEntries)
    (h : ∃ r ∈ rs, (srvOf inst r).isSome ∧ operationalSuffix <:+ r.name) :
    inst ∈ (foldRecords now fold rs).1.srv.keys := by
  revert h
  refine foldRecords_induct (motive := fun rs' fold' _ =>
    (∃ r ∈ rs', (srvOf inst r).isSome ∧ operationalSuffix <:+ r.name) → inst ∈ fold'.srv.keys)
    (by rintro ⟨_, ⟨⟩, -⟩) ?_
  rintro rs' r fold' touched' hpre hspec ih ⟨x, hx, hs, hop⟩
  have hmem : x ∈ rs := hpre.subset hx
  have hold : x ∈ rs' → inst ∈ (foldRecords now fold rs').1.srv.keys := fun h => ih ⟨x, h, hs, hop⟩
  rw [List.mem_append, List.mem_singleton] at hx
  cases hspec with
  | srv port target hr hop' hroom =>
    rcases hx with hx | rfl
    · exact BoundedMap.keys_subset_insert (hold hx)
    · rw [← name_of_srvOf hs]
      exact BoundedMap.mem_keys.2 ⟨_, BoundedMap.lookup_insert_of_room hroom⟩
  | txt strings hr =>
    refine hold (hx.resolve_right ?_)
    rintro rfl
    rw [srvOf, hr] at hs
    cases hs
  | aaaa addr _ hr =>
    refine hold (hx.resolve_right ?_)
    rintro rfl
    rw [srvOf, hr] at hs
    cases hs
  | silent hsrv htxt haaaa =>
    refine hold (hx.resolve_right ?_)
    rintro rfl
    cases hr : x.rdata with
    | srv port target =>
      refine hsrv port target hr ⟨hop, ?_⟩
      rw [name_of_srvOf hs]
      exact srv_room hcard ((List.prefix_append rs' [x]).trans hpre) (mem_serviceNames hmem hs hop)
    | _ =>
      rw [srvOf, hr] at hs
      cases hs

/-- A host that finds room is known. -/
theorem addrs_learned (hcard : (fold.addrs.keys ++ hostNames rs).toFinset.card ≤ maxFoldEntries)
    (h : ∃ r ∈ rs, (aaaaOf host r).isSome) : host ∈ (foldRecords now fold rs).1.addrs.keys := by
  revert h
  refine foldRecords_induct (motive := fun rs' fold' _ =>
    (∃ r ∈ rs', (aaaaOf host r).isSome) → host ∈ fold'.addrs.keys) (by rintro ⟨_, ⟨⟩, -⟩) ?_
  rintro rs' r fold' touched' hpre hspec ih ⟨x, hx, hs⟩
  have hmem : x ∈ rs := hpre.subset hx
  have hold : x ∈ rs' → host ∈ (foldRecords now fold rs').1.addrs.keys := fun h => ih ⟨x, h, hs⟩
  rw [List.mem_append, List.mem_singleton] at hx
  cases hspec with
  | aaaa addr _ hr =>
    rcases hx with hx | rfl
    · exact BoundedMap.keys_subset_insert (hold hx)
    · rw [← name_of_aaaaOf hs]
      refine BoundedMap.mem_keys.2 ⟨_, BoundedMap.lookup_insert_of_room ?_⟩
      rw [name_of_aaaaOf hs]
      exact addrs_room hcard ((List.prefix_append rs' [x]).trans hpre) (mem_hostNames hmem hs)
  | srv port target hr =>
    refine hold (hx.resolve_right ?_)
    rintro rfl
    rw [aaaaOf, hr] at hs
    cases hs
  | txt strings hr =>
    refine hold (hx.resolve_right ?_)
    rintro rfl
    rw [aaaaOf, hr] at hs
    cases hs
  | silent hsrv htxt haaaa =>
    refine hold (hx.resolve_right ?_)
    rintro rfl
    cases hr : x.rdata with
    | aaaa addr => exact haaaa addr hr
    | _ =>
      rw [aaaaOf, hr] at hs
      cases hs

end

namespace Listener

/-! ## Liveness -/

/-- The instances in the cache that are fresh. -/
def unexpired (l : Listener) (t : Instant) : List Name :=
  l.cache.keys.filter fun inst => (l.cache.get inst t).isSome

/-- What a datagram must make possible: an instance with a service record that has not expired, and
an address of its target, is found once the datagram has one of the two, unless as many others as
there may be are in the cache and fresh. -/
def Live (l : Listener) (d : Datagram) : Prop :=
  ∀ (inst : Name) s port target ttl addr x t, operationalSuffix <:+ inst →
    lastSrv inst.lower (l.step d).history = some (s, port, target, ttl) →
    lastAaaa target addr (l.step d).history = some x →
    (∃ r ∈ d.records, (srvOf inst.lower r).isSome ∨ (aaaaOf target r).isSome) →
    (l.step d).clock ≤ t → t < s + ttl.toNat * 1000 →
    (((l.step d).unexpired t).filter (· ≠ inst.lower)).length < maxCache →
    ∃ node, (l.step d).cache.get inst t = some node ∧ node.port = port ∧ node.addresses ≠ []

/-- There is room for all the services and hosts of the datagram, beside all that were ever known,
and its service types are in small letters. -/
def Roomy (l : Listener) (d : Datagram) : Prop :=
  (l.fold.srv.keys ++ serviceNames d.records).toFinset.card ≤ maxFoldEntries ∧
    (l.fold.addrs.keys ++ hostNames d.records).toFinset.card ≤ maxFoldEntries ∧
    ∀ r ∈ d.records, Spelled r

/-- Everything that was heard of is known. -/
structure Learned (l : Listener) : Prop where
  srv : ∀ inst x, operationalSuffix <:+ inst → lastSrv inst l.history = some x →
    inst ∈ l.fold.srv.keys
  addrs : ∀ host addr x, lastAaaa host addr l.history = some x → host ∈ l.fold.addrs.keys

section
variable {l : Listener} {d : Datagram} {es : List Datagram}

/-- A service record of the datagram is spelled as it should be. -/
theorem Roomy.spelled (h : Roomy l d) {r : Record} {inst : Name} (hr : r ∈ d.records)
    (hs : (srvOf inst r).isSome) (hop : operationalSuffix <:+ inst) : operationalSuffix <:+ r.name := by
  have hname := name_of_srvOf hs
  exact h.2.2 r hr (by rwa [hname]) (by rwa [hname])

theorem learned_start : Learned start := by
  constructor
  · rintro _ _ _ ⟨⟩
  · rintro _ _ _ ⟨⟩

/-- What a datagram says is learned. -/
theorem Learned.step (h : Learned l) (hroom : Roomy l d) : Learned (l.step d) where
  srv := by
    intro inst x hop hx
    rw [step_history] at hx
    by_cases hsaid : ∃ r ∈ d.records, (srvOf inst r).isSome
    · obtain ⟨r, hr, hs⟩ := hsaid
      exact srv_learned hroom.1 ⟨r, hr, hs, hroom.spelled hr hs hop⟩
    · rw [lastSrv_stamp_silent fun r hr => by simpa using fun hs => hsaid ⟨r, hr, hs⟩] at hx
      exact srv_keys_subset (h.srv inst x hop hx)
  addrs := by
    intro host addr x hx
    rw [step_history] at hx
    by_cases hsaid : ∃ r ∈ d.records, (aaaaOf host r).isSome
    · exact addrs_learned hroom.2.1 hsaid
    · rw [lastAaaa_stamp_silent fun r hr => by simpa using fun hs => hsaid ⟨r, hr, hs⟩] at hx
      exact addrs_keys_subset (h.addrs host addr x hx)

/-- A datagram with an instance's service record, or an address of its target, touches it. -/
theorem Roomy.touched (h : Roomy l d) {inst target : Name} {port : UInt16} {ttl : UInt32}
    (hop : operationalSuffix <:+ inst)
    (hlook : (l.step d).fold.srv.lookup inst = some (port, target, ttl))
    (hd : ∃ r ∈ d.records, (srvOf inst r).isSome ∨ (aaaaOf target r).isSome) :
    inst ∈ (foldRecords (l.now d) l.fold d.records).2 := by
  by_contra hnot
  have hservice : ∀ rs' r, rs' ++ [r] <+: d.records → (srvOf inst r).isSome →
      (foldRecords (l.now d) l.fold rs').1.srv.HasRoom inst := by
    intro rs' r hpre hs
    have hr : r ∈ d.records := hpre.subset (List.mem_append_right _ (List.mem_singleton_self r))
    exact srv_room h.1 ((List.prefix_append rs' [r]).trans hpre)
      (mem_serviceNames hr hs (h.spelled hr hs hop))
  obtain ⟨hsame, hall⟩ := untouched hservice h.2.2 hop hnot
  obtain ⟨r, hr, hs | hs⟩ := hd
  · rw [(hall r hr).1] at hs
    cases hs
  · rw [(hall r hr).2 port target ttl (hsame.symm.trans hlook)] at hs
    cases hs

/-- **One datagram** is live where there is room. -/
theorem Learned.live (hl : Learned l) (hk : Kept l) (hroom : Roomy l d) : Live l d := by
  intro inst s port target ttl addr x t hop hsrv haddr hd hclock ht _
  have hk' := hk.step hroom.2.2
  have hl' := hl.step hroom
  have hop := suffix_lower hop
  obtain ⟨v, hlook⟩ := BoundedMap.mem_keys.1 (hl'.srv _ _ hop hsrv)
  obtain ⟨L, hL⟩ := BoundedMap.mem_keys.1 (hl'.addrs _ _ _ haddr)
  obtain ⟨s', hs'⟩ := hk'.recalls.srv _ _ hlook
  rw [hsrv] at hs'
  cases hs'
  have hne : L ≠ [] := hk'.recalls.nonempty _ _ hL
  have hentry := (hk.lookup_step d inst.lower).1
  rw [if_pos (hroom.touched hop hlook hd), completed_of_lookup hlook hL hne] at hentry
  have hpast : s ≤ (l.step d).clock := hk'.past.lastSrv hsrv
  have hlt : t < l.now d + ttl.toNat * 1000 :=
    Nat.lt_of_lt_of_le ht (Nat.add_le_add_right hpast _)
  refine ⟨.fromParts port (sortAddresses L) (((l.step d).fold.txt.lookup inst.lower).getD []), ?_, rfl, ?_⟩
  · rw [OperationalCache.get, hentry, Option.map_some, Option.some_or, freshEntry,
      Option.filter_some, if_pos (by simpa using hlt)]
    rfl
  · intro he
    obtain ⟨y, hy⟩ := List.exists_mem_of_ne_nil L hne
    have hmem := mem_sortAddresses.2 (List.mem_map_of_mem (f := (·.1)) hy)
    rw [show sortAddresses L = [] from he] at hmem
    cases hmem

/-- **Liveness.** Along a run whose names all find room, every datagram is live. -/
theorem live_of_roomy (h : Along step Roomy start es) :
    ∀ pre d post, es = pre ++ d :: post → Live (run step start pre) d := by
  rintro pre d post rfl
  obtain ⟨hpre, hd, -⟩ := along_append.1 h
  have hinv : Kept (run step start pre) ∧ Learned (run step start pre) :=
    run_invariant (I := fun l => Kept l ∧ Learned l) ⟨kept_start, learned_start⟩
      (fun l d hl hroom => ⟨hl.1.step hroom.2.2, hl.2.step hroom⟩) hpre
  exact hinv.2.live hinv.1 hd

end

/-! ### A full map of hosts -/

section
variable {l : Listener} {d : Datagram} {host : Name}

/-- **A full map never learns a host**, whatever is received. -/
theorem full_refuses (hfull : l.fold.addrs.keys.length = maxFoldEntries)
    (hhost : host ∉ l.fold.addrs.keys) (es : List Datagram) :
    (run step l es).fold.addrs.keys.length = maxFoldEntries ∧
      host ∉ (run step l es).fold.addrs.keys := by
  have hstep : ∀ (l : Listener) (d : Datagram),
      l.fold.addrs.keys.length = maxFoldEntries ∧ host ∉ l.fold.addrs.keys →
      (l.step d).fold.addrs.keys.length = maxFoldEntries ∧ host ∉ (l.step d).fold.addrs.keys := by
    intro l d h
    refine foldRecords_induct (motive := fun _ fold' _ =>
      fold'.addrs.keys.length = maxFoldEntries ∧ host ∉ fold'.addrs.keys) h ?_
    intro rs' r fold' touched' hpre hspec ih
    cases hspec with
    | aaaa =>
      obtain ⟨hlen, hsub⟩ := BoundedMap.insert_full ih.1
      exact ⟨hlen, fun hmem => ih.2 (hsub host hmem)⟩
    | _ => exact ih
  exact invariant (I := fun l : Listener => l.fold.addrs.keys.length = maxFoldEntries ∧
    host ∉ l.fold.addrs.keys) ⟨hfull, hhost⟩ hstep es

/-- A host that is not known completes no instance. -/
theorem Kept.lookup_of_unknown_host (hk : Kept l) {inst : Name} {port : UInt16} {target : Name}
    {ttl : UInt32} (hlook : (l.step d).fold.srv.lookup inst = some (port, target, ttl))
    (hhost : target ∉ (l.step d).fold.addrs.keys) :
    (l.step d).cache.lookup inst = l.cache.lookup inst := by
  have hnone : completed (l.step d).fold inst = none := by
    rw [completed, hlook]
    dsimp only
    rw [BoundedMap.lookup_eq_none.2 hhost]
  rw [(hk.lookup_step d inst).1, hnone, Option.map_none, ite_self, Option.none_or]

/-- Some order. -/
def asListed : IterationOrder := ⟨id, fun _ => .refl _⟩

def zeroAddr : Ipv6Addr := ⟨List.replicate 16 0, rfl⟩

/-- A host that nobody has, one for each number. -/
def forgedHost (i : Nat) : Name := List.replicate i 'h'

/-- An address of such a host. -/
def forged (i : Nat) : Datagram := ⟨1000, [⟨forgedHost i, .aaaa zeroAddr, 120, false⟩], asListed⟩

theorem forgedHost_lower (i : Nat) : (forgedHost i).lower = forgedHost i := by
  rw [forgedHost, Name.lower, List.map_replicate]
  rfl

/-- Forged hosts fill the map. -/
theorem forged_hosts_fill {n : Nat} (hn : n ≤ maxFoldEntries) :
    (run step start ((List.range n).map forged)).fold.addrs.keys =
        ((List.range n).map forgedHost).reverse ∧
      (run step start ((List.range n).map forged)).fold.srv.keys = [] := by
  induction n with
  | zero => exact ⟨rfl, rfl⟩
  | succ n ih =>
    obtain ⟨hkeys, hsrv⟩ := ih (Nat.le_of_succ_le hn)
    rw [List.range_succ, List.map_append, List.map_append, List.map_singleton, List.map_singleton,
      run_append, List.reverse_append]
    generalize run step start ((List.range n).map forged) = l at hkeys hsrv ⊢
    refine ⟨?_, hsrv⟩
    show (l.fold.learn ⟨forgedHost n, .aaaa zeroAddr, 120, false⟩ zeroAddr _).addrs.keys = _
    rw [OperationalFold.learn, forgedHost_lower, BoundedMap.keys_insert_of_new, hkeys]
    · rfl
    · rw [hkeys, List.mem_reverse, List.mem_map]
      rintro ⟨i, hi, he⟩
      have hlen := congrArg List.length he
      rw [forgedHost, forgedHost, List.length_replicate, List.length_replicate] at hlen
      have hlt := List.mem_range.1 hi
      omega
    · rw [hkeys, List.length_reverse, List.length_map, List.length_range]
      exact hn

def lateInstance : Name := '1' :: operationalSuffix

/-- A new node. -/
def late : Datagram :=
  ⟨1000, [⟨lateInstance, .srv 5540 "node".toList, 120, false⟩,
    ⟨"node".toList, .aaaa zeroAddr, 120, false⟩], asListed⟩

theorem late_history (l : Listener) :
    lastSrv lateInstance.lower (l.step late).history =
        some (l.now late, 5540, "node".toList, 120) ∧
      lastAaaa "node".toList zeroAddr (l.step late).history = some (l.now late, 120) := by
  have htwo : (l.step late).history = l.history ++
      [(l.now late, ⟨lateInstance, .srv 5540 "node".toList, 120, false⟩)] ++
      [(l.now late, ⟨"node".toList, .aaaa zeroAddr, 120, false⟩)] := by
    rw [List.append_assoc]
    rfl
  rw [htwo, lastSrv_concat, lastSrv_concat, lastAaaa_concat]
  exact ⟨rfl, rfl⟩

theorem late_spelled : ∀ r ∈ late.records, Spelled r := by
  intro r hr hs _
  simp only [late, List.mem_cons, List.not_mem_nil, or_false] at hr
  rcases hr with rfl | rfl
  · exact List.suffix_cons _ _
  · cases hs

theorem live_of_roomy_late : ∃ node,
    (start.step late).cache.get lateInstance 1000 = some node ∧ node.port = 5540 ∧
      node.addresses ≠ [] := by
  have hroomy : Roomy start late := ⟨by decide, by decide +kernel, late_spelled⟩
  have hlive := @live_of_roomy [late] ⟨hroomy, trivial⟩ [] late [] rfl
  exact hlive lateInstance 1000 5540 "node".toList 120 zeroAddr (1000, 120) 1000
    (List.suffix_cons _ _) (late_history start).1 (late_history start).2
    ⟨_, List.mem_cons_self, Or.inl (by decide)⟩ (Nat.le_refl _) (by decide)
    (by decide)

/-- A new node is not found once 256 hosts that do not exist have been announced. -/
theorem late_node_never_found : ¬ ∀ es d, Live (run step start es) d := by
  intro h
  have hlive := h ((List.range maxFoldEntries).map forged) late
  obtain ⟨hkeys, hsrv⟩ := forged_hosts_fill (Nat.le_refl maxFoldEntries)
  have hspelled : ∀ d ∈ (List.range maxFoldEntries).map forged, ∀ r ∈ d.records, Spelled r := by
    intro d hd r hr
    obtain ⟨i, -, rfl⟩ := List.mem_map.1 hd
    cases List.mem_singleton.1 hr
    rintro ⟨⟩
  have hkept : Kept (run step start ((List.range maxFoldEntries).map forged)) := by
    refine run_invariant (G := fun _ d => ∀ r ∈ d.records, Spelled r) kept_start
      (fun l d hl => hl.step) (along_iff.2 fun pre d post he => hspelled d ?_)
    rw [he]
    exact List.mem_append_right _ List.mem_cons_self
  generalize run step start ((List.range maxFoldEntries).map forged) = l at hlive hkeys hsrv hkept
  have hfull : l.fold.addrs.keys.length = maxFoldEntries := by
    rw [hkeys, List.length_reverse, List.length_map, List.length_range]
  have hhost : "node".toList ∉ l.fold.addrs.keys := by
    rw [hkeys, List.mem_reverse, List.mem_map]
    rintro ⟨i, -, he⟩
    have hmem : 'n' ∈ forgedHost i := by
      rw [he]
      decide
    exact absurd (List.eq_of_mem_replicate hmem) (by decide)
  have hnone : l.cache.lookup lateInstance.lower = none := by
    rw [BoundedMap.lookup_eq_none]
    intro hk
    have hmem := hkept.cached _ hk
    rw [hsrv] at hmem
    cases hmem
  have hsaid := late_history l
  have hlook : (l.step late).fold.srv.lookup lateInstance.lower =
      some (5540, "node".toList, 120) := by
    have hcard : (l.fold.srv.keys ++ serviceNames late.records).toFinset.card ≤ maxFoldEntries := by
      rw [hsrv]
      decide
    have hkey : lateInstance.lower ∈ (l.step late).fold.srv.keys :=
      srv_learned hcard ⟨_, List.mem_cons_self, by decide, List.suffix_cons _ _⟩
    obtain ⟨v, hv⟩ := BoundedMap.mem_keys.1 hkey
    obtain ⟨t, ht⟩ := (hkept.step late_spelled).recalls.srv _ _ hv
    rw [hsaid.1] at ht
    cases ht
    exact hv
  have halone : ((l.step late).unexpired (l.now late)).filter (· ≠ lateInstance.lower) = [] := by
    rw [List.filter_eq_nil_iff]
    intro k hk
    obtain ⟨v, hv⟩ := BoundedMap.mem_keys.1
      ((hkept.lookup_step late k).2 k (List.mem_of_mem_filter hk))
    rcases srv_lookup_cases (l.now late) l.fold late.records k with hsame | ⟨-, r, hr, hs, -⟩
    · have hmem := BoundedMap.mem_keys.2 ⟨v, hsame.symm.trans hv⟩
      rw [hsrv] at hmem
      cases hmem
    · simp only [late, List.mem_cons, List.not_mem_nil, or_false] at hr
      rcases hr with rfl | rfl
      · simp [← name_of_srvOf hs]
      · cases hs
  obtain ⟨node, hget, -⟩ := hlive lateInstance (l.now late) 5540 "node".toList 120 zeroAddr
    (l.now late, 120) (l.now late) (List.suffix_cons _ _) hsaid.1 hsaid.2
    ⟨_, List.mem_cons_self, Or.inl (by decide)⟩ (Nat.le_refl _)
    (Nat.lt_add_of_pos_right (by decide)) (halone ▸ Nat.zero_lt_succ _)
  rw [OperationalCache.get, hkept.lookup_of_unknown_host hlook (full_refuses hfull hhost [late]).2,
    hnone] at hget
  cases hget

end

end Listener

end MatStack.Dnssd
