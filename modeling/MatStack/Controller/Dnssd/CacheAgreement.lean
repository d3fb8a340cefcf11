import MatStack.Controller.Dnssd.CacheLiveness
import MatStack.Controller.Dnssd.Resolve

/-!
# The cache and the resolver say the same

What a sequence of records announces of an instance is its last service record, its last text, and
the addresses of its target. As long as the records fit into their maps, the listener's maps hold
just that (`Complete`, with `Recalls`), and so does a query of the resolver (`Tracks`), so both know
the same node as soon as there is one.
-/

namespace MatStack.Dnssd

open Machine

/-! ## What is announced -/

/-- What the history said last in the text of an instance. -/
def lastTxt (inst : Name) (hs : List (Instant × Record)) : Option (List Bytes) :=
  hs.reverse.findSome? fun x => txtOf inst x.2

/-- The host and the address of a record. -/
def addressOf (r : Record) : Option (Name × Ipv6Addr) :=
  match r.rdata with
  | .aaaa addr => some (r.name.lower, addr)
  | _ => none

/-- All addresses that were announced. -/
def announced (hs : List (Instant × Record)) : List (Name × Ipv6Addr) :=
  hs.filterMap fun x => addressOf x.2

/-- The addresses that may be those of an instance: of its target if that is known. -/
def candidates (inst : Name) (hs : List (Instant × Record)) : List (Name × Ipv6Addr) :=
  (announced hs).filter fun p => (lastSrv inst hs).all fun x => p.1 == x.2.2.1

/-- The instances that a list of records has a text of. -/
def textNames (rs : List Record) : List Name :=
  (rs.filter fun r => isOperational r.name && (txtOf r.name.lower r).isSome).map (·.name.lower)

section
variable {hs : List (Instant × Record)} {t now : Instant} {r : Record} {inst host : Name}
  {addr : Ipv6Addr}

theorem lastTxt_concat :
    lastTxt inst (hs ++ [(t, r)]) = (txtOf inst r).or (lastTxt inst hs) := by
  rw [lastTxt, List.reverse_append, List.findSome?_append]
  congr 1
  cases h : txtOf inst r <;> simp [h]

theorem announced_concat :
    announced (hs ++ [(t, r)]) = announced hs ++ (addressOf r).toList := by
  rw [announced, List.filterMap_append]
  congr 1

theorem addressOf_eq : addressOf r = some (host, addr) ↔ aaaaOf host r = some addr := by
  cases hr : r.rdata with
  | aaaa a =>
    rw [addressOf, aaaaOf, hr]
    by_cases he : r.name.lower = host
    · simp [he]
    · simp [he]
  | _ =>
    rw [addressOf, aaaaOf, hr]
    simp

theorem mem_announced : (host, addr) ∈ announced hs ↔ ∃ x ∈ hs, aaaaOf host x.2 = some addr := by
  simp only [announced, List.mem_filterMap, addressOf_eq]

theorem mem_announced_of_lastAaaa {x : Instant × UInt32} (h : lastAaaa host addr hs = some x) :
    (host, addr) ∈ announced hs := by
  obtain ⟨r, hr, ha, -⟩ := lastAaaa_mem h
  exact mem_announced.2 ⟨(x.1, r), hr, ha⟩

theorem lastAaaa_of_mem_announced (h : (host, addr) ∈ announced hs) :
    ∃ x, lastAaaa host addr hs = some x := by
  obtain ⟨y, hy, ha⟩ := mem_announced.1 h
  have hsome : (lastAaaa host addr hs).isSome := by
    rw [lastAaaa, List.findSome?_isSome_iff]
    refine ⟨y, List.mem_reverse.2 hy, ?_⟩
    rw [if_pos ha]
    rfl
  exact Option.isSome_iff_exists.1 hsome

theorem txtOf_of_name_ne (h : r.name.lower ≠ inst) : txtOf inst r = none := by
  unfold txtOf
  split
  · rw [if_neg h]
  · rfl

theorem name_of_txtOf (h : (txtOf inst r).isSome) : r.name.lower = inst := by
  by_contra hne
  rw [txtOf_of_name_ne hne] at h
  cases h

theorem mem_textNames {rs : List Record} (hr : r ∈ rs) (h : (txtOf inst r).isSome)
    (hop : operationalSuffix <:+ r.name) : inst ∈ textNames rs := by
  have hname := name_of_txtOf h
  refine List.mem_map.2 ⟨r, List.mem_filter.2 ⟨hr, ?_⟩, hname⟩
  rw [hname, h, isOperational_iff.2 hop]
  rfl

end

/-! ## Records that fit -/

/-- A condition on every item of a list and those before it. -/
def Throughout {α : Type*} (C : List α → α → Prop) (l : List α) : Prop :=
  Along (fun pre x => pre ++ [x]) C [] l

theorem run_snoc {α : Type*} {pre l : List α} : run (fun pre x => pre ++ [x]) pre l = pre ++ l := by
  induction l generalizing pre with
  | nil => exact (List.append_nil pre).symm
  | cons x l ih => rw [run_cons, ih, List.append_assoc, List.singleton_append]

theorem throughout_append {α : Type*} {C : List α → α → Prop} {l m : List α} :
    Throughout C (l ++ m) ↔ Throughout C l ∧ Along (fun pre x => pre ++ [x]) C l m := by
  rw [Throughout, along_append, run_snoc, List.nil_append, Throughout]

/-- A record that fits: it says no goodbye, finds room for its name and its address on both sides,
and flushes no address. -/
structure Fits (inst : Name) (hs : List (Instant × Record)) (x : Instant × Record) : Prop where
  ttl : x.2.ttl ≠ 0
  services : (serviceNames ((hs ++ [x]).map (·.2))).toFinset.card ≤ maxFoldEntries
  texts : (textNames ((hs ++ [x]).map (·.2))).toFinset.card ≤ maxFoldEntries
  hosts : (hostNames ((hs ++ [x]).map (·.2))).toFinset.card ≤ maxFoldEntries
  addresses : ∀ host, ((announced (hs ++ [x])).filter (·.1 = host)).toFinset.card ≤ maxAddrsPerHost
  candidates : (candidates inst (hs ++ [x])).toFinset.card ≤ maxAaaa
  flush : x.2.cacheFlush = true → ∀ addr y, lastAaaa x.2.name.lower addr hs = some y →
    x.1 - y.1 ≤ cacheFlushGrace

/-- A record that both sides take alike: its service type is in small letters, and it does not move
the instance to another host whose addresses were announced before. -/
structure Alike (inst : Name) (hs : List (Instant × Record)) (x : Instant × Record) : Prop where
  spelled : (srvOf x.2.name.lower x.2).isSome ∨ (txtOf x.2.name.lower x.2).isSome →
    operationalSuffix <:+ x.2.name.lower → operationalSuffix <:+ x.2.name
  settled : ∀ v y, srvOf inst x.2 = some v → lastSrv inst hs = some y → v.2.1 ≠ y.2.2.1 →
    ∀ addr, (v.2.1, addr) ∉ announced hs

/-! ## The listener -/

/-- What was said last is in the maps. -/
structure Complete (fold : OperationalFold) (hs : List (Instant × Record)) : Prop where
  srv : ∀ inst x, operationalSuffix <:+ inst → lastSrv inst hs = some x → inst ∈ fold.srv.keys
  txt : ∀ inst, operationalSuffix <:+ inst → fold.txt.lookup inst = lastTxt inst hs
  addrs : ∀ host addr, (host, addr) ∈ announced hs → ∃ l, fold.addrs.lookup host = some l ∧
    addr ∈ l.map (·.1)
  srvNames : ∀ k ∈ fold.srv.keys, k ∈ serviceNames (hs.map (·.2))
  txtNames : ∀ k ∈ fold.txt.keys, k ∈ textNames (hs.map (·.2))
  hostNames : ∀ k ∈ fold.addrs.keys, k ∈ hostNames (hs.map (·.2))

section
variable {fold fold' : OperationalFold} {touched touched' : List Name}
  {hs : List (Instant × Record)} {now : Instant} {r : Record} {inst host : Name}
  {l : List (Ipv6Addr × Instant)} {flush : Bool} {addr a : Ipv6Addr}

/-- With room and without a flush, every address stays. -/
theorem learnAddress_keeps (hflush : flush = true → ∀ x ∈ l, now - x.2 ≤ cacheFlushGrace)
    (hlen : l.length < maxAddrsPerHost ∨ addr ∈ l.map (·.1)) (ha : a ∈ l.map (·.1)) :
    a ∈ (learnAddress l flush addr now).map (·.1) := by
  have hkept : (if flush then l.filter fun x => now - x.2 ≤ cacheFlushGrace else l) = l := by
    split
    · next hf => exact List.filter_eq_self.2 fun x hx => by simpa using hflush hf x hx
    · rfl
  unfold learnAddress
  rw [hkept]
  dsimp only
  split
  · rwa [map_fst_seeAgain]
  · next hany =>
    have hroom : l.length < maxAddrsPerHost := by
      refine hlen.resolve_right fun hmem => hany ?_
      obtain ⟨x, hx, rfl⟩ := List.mem_map.1 hmem
      exact List.any_eq_true.2 ⟨x, hx, beq_self_eq_true _⟩
    rw [if_neg (Nat.not_le.2 hroom), List.map_append]
    exact List.mem_append_left _ ha

/-- The new address has room. -/
theorem Recalls.address_room (h : Recalls fold hs) (hl : fold.addrs.lookup host = some l)
    (hr : aaaaOf host r = some addr)
    (hcard : ((announced (hs ++ [(now, r)])).filter (·.1 = host)).toFinset.card ≤ maxAddrsPerHost) :
    l.length < maxAddrsPerHost ∨ addr ∈ l.map (·.1) := by
  by_contra hnot
  rw [not_or] at hnot
  have hnodup : ((addr :: l.map (·.1)).map (Prod.mk host)).Nodup :=
    (List.nodup_cons.2 ⟨hnot.2, h.nodup _ _ hl⟩).map (Prod.mk_right_injective host)
  have hsub : (addr :: l.map (·.1)).map (Prod.mk host) ⊆
      (announced (hs ++ [(now, r)])).filter (·.1 = host) := by
    intro p hp
    obtain ⟨b, hb, rfl⟩ := List.mem_map.1 hp
    refine List.mem_filter.2 ⟨?_, by simp⟩
    rw [announced_concat, List.mem_append]
    rcases List.mem_cons.1 hb with rfl | hb
    · refine Or.inr ?_
      rw [addressOf_eq.2 hr]
      exact List.mem_singleton_self _
    · obtain ⟨x, hx, rfl⟩ := List.mem_map.1 hb
      obtain ⟨ttl, hlast⟩ := (h.seen _ _ hl x hx).1
      exact Or.inl (mem_announced_of_lastAaaa hlast)
  have hle := (List.toFinset_card_of_nodup hnodup).symm.le.trans
    (Finset.card_le_card fun p hp => List.mem_toFinset.2 (hsub (List.mem_toFinset.1 hp)))
  rw [List.length_map, List.length_cons, List.length_map] at hle
  omega

/-- What was known of the services stays, and no other names come. -/
theorem serviceNames_concat {k : Name} (h : k ∈ serviceNames (hs.map (·.2))) :
    k ∈ serviceNames ((hs ++ [(now, r)]).map (·.2)) := by
  rw [List.map_append, serviceNames, List.filter_append, List.map_append]
  exact List.mem_append_left _ h

theorem textNames_concat {k : Name} (h : k ∈ textNames (hs.map (·.2))) :
    k ∈ textNames ((hs ++ [(now, r)]).map (·.2)) := by
  rw [List.map_append, textNames, List.filter_append, List.map_append]
  exact List.mem_append_left _ h

theorem hostNames_concat {k : Name} (h : k ∈ hostNames (hs.map (·.2))) :
    k ∈ hostNames ((hs ++ [(now, r)]).map (·.2)) := by
  rw [List.map_append, hostNames, List.filter_append, List.map_append]
  exact List.mem_append_left _ h

theorem last_mem : r ∈ (hs ++ [(now, r)]).map (·.2) := by
  rw [List.map_append]
  exact List.mem_append_right _ (List.mem_singleton_self r)

/-- A record that is no address announces none. -/
theorem addressOf_eq_none (h : ∀ host, aaaaOf host r = none) : addressOf r = none := by
  cases ha : addressOf r with
  | none => rfl
  | some p =>
    obtain ⟨host, addr⟩ := p
    have hp := addressOf_eq.1 ha
    rw [h] at hp
    cases hp

/-- What a record says nothing of stays complete. -/
theorem Complete.silent (h : Complete fold hs)
    (hsrv : ∀ inst, operationalSuffix <:+ inst → srvOf inst r = none)
    (htxt : ∀ inst, operationalSuffix <:+ inst → txtOf inst r = none)
    (haaaa : ∀ host, aaaaOf host r = none) : Complete fold (hs ++ [(now, r)]) where
  srv := by
    intro inst x hop hx
    rw [lastSrv_concat, hsrv inst hop, Option.map_none, Option.none_or] at hx
    exact h.srv inst x hop hx
  txt := by
    intro inst hop
    rw [lastTxt_concat, htxt inst hop, Option.none_or, h.txt inst hop]
  addrs := by
    intro host addr hmem
    rw [announced_concat, addressOf_eq_none haaaa, Option.toList_none, List.append_nil] at hmem
    exact h.addrs host addr hmem
  srvNames := fun k hk => serviceNames_concat (h.srvNames k hk)
  txtNames := fun k hk => textNames_concat (h.txtNames k hk)
  hostNames := fun k hk => hostNames_concat (h.hostNames k hk)

/-- A service record that finds room. -/
theorem Complete.insert_srv (h : Complete fold hs) {port : UInt16} {target : Name}
    (hr : r.rdata = .srv port target) (hop : operationalSuffix <:+ r.name)
    (hroom : fold.srv.HasRoom r.name.lower) {v : UInt16 × Name × UInt32} :
    Complete { fold with srv := fold.srv.insert r.name.lower v } (hs ++ [(now, r)]) where
  srv := by
    intro inst x hinst hx
    by_cases he : inst = r.name.lower
    · subst he
      exact BoundedMap.mem_keys.2 ⟨v, BoundedMap.lookup_insert_of_room hroom⟩
    · rw [lastSrv_concat, srvOf_of_name_ne (Ne.symm he), Option.map_none, Option.none_or] at hx
      exact BoundedMap.keys_subset_insert (h.srv inst x hinst hx)
  txt := by
    intro inst hinst
    rw [lastTxt_concat, txtOf, hr]
    exact h.txt inst hinst
  addrs := by
    intro host addr hmem
    rw [announced_concat, addressOf, hr, Option.toList_none, List.append_nil] at hmem
    exact h.addrs host addr hmem
  srvNames := by
    intro k hk
    rcases BoundedMap.mem_keys_insert hk with rfl | hk
    · refine mem_serviceNames last_mem ?_ hop
      rw [srvOf_srv hr, if_pos rfl]
      rfl
    · exact serviceNames_concat (h.srvNames k hk)
  txtNames := fun k hk => textNames_concat (h.txtNames k hk)
  hostNames := fun k hk => hostNames_concat (h.hostNames k hk)

/-- A text record that finds room. -/
theorem Complete.insert_txt (h : Complete fold hs) {strings : List Bytes}
    (hr : r.rdata = .txt strings) (hop : operationalSuffix <:+ r.name)
    (hroom : fold.txt.HasRoom r.name.lower) :
    Complete { fold with txt := fold.txt.insert r.name.lower strings } (hs ++ [(now, r)]) where
  srv := by
    intro inst x hinst hx
    rw [lastSrv_concat, srvOf, hr] at hx
    exact h.srv inst x hinst hx
  txt := by
    intro inst hinst
    rw [lastTxt_concat, txtOf, hr]
    dsimp only
    by_cases he : r.name.lower = inst
    · subst he
      rw [if_pos rfl]
      exact BoundedMap.lookup_insert_of_room hroom
    · rw [if_neg he, BoundedMap.lookup_insert_ne (Ne.symm he)]
      exact h.txt inst hinst
  addrs := by
    intro host addr hmem
    rw [announced_concat, addressOf, hr, Option.toList_none, List.append_nil] at hmem
    exact h.addrs host addr hmem
  srvNames := fun k hk => serviceNames_concat (h.srvNames k hk)
  txtNames := by
    intro k hk
    rcases BoundedMap.mem_keys_insert hk with rfl | hk
    · refine mem_textNames last_mem ?_ hop
      rw [txtOf, hr]
      dsimp only
      rw [if_pos rfl]
      rfl
    · exact textNames_concat (h.txtNames k hk)
  hostNames := fun k hk => hostNames_concat (h.hostNames k hk)

/-- An address that finds room. -/
theorem Complete.learn (h : Complete fold hs) (hrec : Recalls fold hs)
    (hfits : Fits inst hs (now, r)) (hr : r.rdata = .aaaa addr) :
    Complete (fold.learn r addr now) (hs ++ [(now, r)]) := by
  have haaaa : aaaaOf r.name.lower r = some addr := by rw [aaaaOf_aaaa hr, if_pos rfl]
  have hroom : fold.addrs.HasRoom r.name.lower := by
    refine BoundedMap.room_of_card_le hfits.hosts (fun k hk => ?_) ?_
    · exact List.mem_toFinset.2 (hostNames_concat (h.hostNames k hk))
    · exact List.mem_toFinset.2 (mem_hostNames last_mem (by rw [haaaa]; rfl))
  have hlook : (fold.learn r addr now).addrs.lookup r.name.lower =
      some (learnAddress ((fold.addrs.lookup r.name.lower).getD []) r.cacheFlush addr now) :=
    BoundedMap.lookup_insert_of_room hroom
  refine ⟨?_, ?_, ?_, fun k hk => serviceNames_concat (h.srvNames k hk),
    fun k hk => textNames_concat (h.txtNames k hk), ?_⟩
  · intro inst x hinst hx
    rw [lastSrv_concat, srvOf, hr] at hx
    exact h.srv inst x hinst hx
  · intro inst hinst
    rw [lastTxt_concat, txtOf, hr]
    exact h.txt inst hinst
  · intro host a hmem
    by_cases he : host = r.name.lower
    · subst he
      refine ⟨_, hlook, ?_⟩
      cases hold : fold.addrs.lookup r.name.lower with
      | none =>
        have hnew : a = addr := by
          rw [announced_concat, List.mem_append] at hmem
          rcases hmem with hmem | hmem
          · obtain ⟨l, hl, -⟩ := h.addrs _ _ hmem
            rw [hold] at hl
            cases hl
          · rw [addressOf, hr] at hmem
            exact (Prod.mk.inj (List.mem_singleton.1 hmem)).2
        obtain ⟨⟨y, hy, hya⟩, -⟩ := learnAddress_spec r.cacheFlush addr now (l := []) List.nodup_nil
        exact List.mem_map.2 ⟨y, hy, hya.trans hnew.symm⟩
      | some l =>
        rw [Option.getD_some]
        rw [announced_concat, List.mem_append] at hmem
        rcases hmem with hmem | hmem
        · obtain ⟨l', hl', ha⟩ := h.addrs _ _ hmem
          rw [hold] at hl'
          cases hl'
          refine learnAddress_keeps (fun hf x hx => ?_) ?_ ha
          · obtain ⟨ttl, hlast⟩ := (hrec.seen _ _ hold x hx).1
            exact hfits.flush hf x.1 (x.2, ttl) hlast
          · exact hrec.address_room hold haaaa (hfits.addresses _)
        · rw [addressOf, hr] at hmem
          have hnew : a = addr := (Prod.mk.inj (List.mem_singleton.1 hmem)).2
          obtain ⟨⟨y, hy, hya⟩, -⟩ :=
            learnAddress_spec r.cacheFlush addr now (hrec.nodup _ _ hold)
          exact List.mem_map.2 ⟨y, hy, hya.trans hnew.symm⟩
    · rw [announced_concat, List.mem_append] at hmem
      rcases hmem with hmem | hmem
      · obtain ⟨l, hl, ha⟩ := h.addrs _ _ hmem
        exact ⟨l, (BoundedMap.lookup_insert_ne he).trans hl, ha⟩
      · rw [addressOf, hr] at hmem
        exact (he (Prod.mk.inj (List.mem_singleton.1 hmem)).1).elim
  · intro k hk
    rcases BoundedMap.mem_keys_insert hk with rfl | hk
    · exact mem_hostNames last_mem (by rw [haaaa]; rfl)
    · exact hostNames_concat (h.hostNames k hk)

/-- **One record** that fits. -/
theorem Complete.folded (h : Complete fold hs) (hrec : Recalls fold hs) (hfits : Fits inst hs (now, r))
    (halike : Alike inst hs (now, r)) (hspec : Folded now fold touched r fold' touched') :
    Complete fold' (hs ++ [(now, r)]) := by
  cases hspec with
  | srv port target hr hop hroom => exact h.insert_srv hr hop hroom
  | txt strings hr hop hroom => exact h.insert_txt hr hop hroom
  | aaaa addr _ hr hmem => exact h.learn hrec hfits hr
  | silent hsrv htxt haaaa =>
    refine h.silent (fun i hi => ?_) (fun i hi => ?_) fun host => ?_
    · by_contra hne
      have hs : (srvOf i r).isSome := Option.isSome_iff_ne_none.2 hne
      have hname := name_of_srvOf hs
      subst hname
      have hop := halike.spelled (Or.inl hs) hi
      cases hr : r.rdata with
      | srv port target =>
        refine hsrv port target hr ⟨hop, BoundedMap.room_of_card_le hfits.services (fun k hk => ?_) ?_⟩
        · exact List.mem_toFinset.2 (serviceNames_concat (h.srvNames k hk))
        · exact List.mem_toFinset.2 (mem_serviceNames last_mem hs hop)
      | _ =>
        rw [srvOf, hr] at hs
        cases hs
    · by_contra hne
      have hs : (txtOf i r).isSome := Option.isSome_iff_ne_none.2 hne
      have hname := name_of_txtOf hs
      subst hname
      have hop := halike.spelled (Or.inr hs) hi
      cases hr : r.rdata with
      | txt strings =>
        refine htxt strings hr ⟨hop, BoundedMap.room_of_card_le hfits.texts (fun k hk => ?_) ?_⟩
        · exact List.mem_toFinset.2 (textNames_concat (h.txtNames k hk))
        · exact List.mem_toFinset.2 (mem_textNames last_mem hs hop)
      | _ =>
        rw [txtOf, hr] at hs
        cases hs
    · cases hr : r.rdata with
      | aaaa addr => exact (haaaa addr hr).elim
      | _ => rw [aaaaOf, hr]

end

/-! ## The resolver -/

/-- A query that is not resolved holds what was announced of its instance. -/
structure Tracks (q : OperationalQuery) (hs : List (Instant × Record)) : Prop where
  srv : q.srv.map (fun x => (x.1, x.2.lower)) =
    (lastSrv q.service.lower hs).map fun x => (x.2.1, x.2.2.1)
  txt : q.txt = lastTxt q.service.lower hs
  mem : ∀ host addr, (∃ name, (name, addr) ∈ q.aaaa ∧ name.lower = host) ↔
    (host, addr) ∈ candidates q.service.lower hs
  nodup : (q.aaaa.map fun x => (x.1.lower, x.2)).Nodup

section
variable {q : OperationalQuery} {hs : List (Instant × Record)} {now : Instant} {r : Record}
  {host name : Name} {addr : Ipv6Addr}

theorem mem_pushAaaa_of_room {aaaa : List (Name × Ipv6Addr)} {target : Option Name}
    (hroom : aaaa.length < maxAaaa ∨ ∃ n, (n, addr) ∈ aaaa ∧ n.lower = name.lower)
    (htarget : ∀ t ∈ target, name.lower = t.lower) (hnodup : (aaaa.map fun x => (x.1.lower, x.2)).Nodup) :
    (∀ host a, (∃ n, (n, a) ∈ pushAaaa aaaa target name addr ∧ n.lower = host) ↔
      (∃ n, (n, a) ∈ aaaa ∧ n.lower = host) ∨ host = name.lower ∧ a = addr) ∧
      ((pushAaaa aaaa target name addr).map fun x => (x.1.lower, x.2)).Nodup := by
  have hany : ¬ (target.any fun target => !eqIgnoreAsciiCase name target) = true := by
    rw [Option.any_eq_true_iff_get]
    rintro ⟨hsome, hne⟩
    have he := htarget _ (Option.get_mem hsome)
    rw [eqIgnoreAsciiCase_iff.2 he] at hne
    cases hne
  have hknown : (aaaa.any fun x => x.2 == addr && eqIgnoreAsciiCase x.1 name) = true ↔
      ∃ n, (n, addr) ∈ aaaa ∧ n.lower = name.lower := by
    rw [List.any_eq_true]
    constructor
    · rintro ⟨x, hx, hxa⟩
      obtain ⟨ha, hn⟩ := Bool.and_eq_true_iff.1 hxa
      exact ⟨x.1, (eq_of_beq ha) ▸ hx, eqIgnoreAsciiCase_iff.1 hn⟩
    · rintro ⟨n, hx, hn⟩
      exact ⟨(n, addr), hx, by rw [eqIgnoreAsciiCase_iff.2 hn, beq_self_eq_true]; rfl⟩
  rw [pushAaaa, if_neg hany]
  by_cases hin : ∃ n, (n, addr) ∈ aaaa ∧ n.lower = name.lower
  · -- whether the list is full or not, nothing changes
    have hsame : (if aaaa.length ≥ maxAaaa then aaaa
        else if (aaaa.any fun x => x.2 == addr && eqIgnoreAsciiCase x.1 name) then aaaa
        else aaaa ++ [(name, addr)]) = aaaa := by
      rw [if_pos (hknown.2 hin), ite_self]
    rw [hsame]
    refine ⟨fun host a => (or_iff_left_of_imp ?_).symm, hnodup⟩
    rintro ⟨rfl, rfl⟩
    exact hin
  · rw [if_neg (Nat.not_le.2 (hroom.resolve_right hin)), if_neg fun h => hin (hknown.1 h)]
    refine ⟨fun host a => ?_, ?_⟩
    · constructor
      · rintro ⟨n, hmem, hn⟩
        rcases List.mem_append.1 hmem with hmem | hmem
        · exact Or.inl ⟨n, hmem, hn⟩
        · cases List.mem_singleton.1 hmem
          exact Or.inr ⟨hn.symm, rfl⟩
      · rintro (⟨n, hmem, hn⟩ | ⟨rfl, rfl⟩)
        · exact ⟨n, List.mem_append_left _ hmem, hn⟩
        · exact ⟨name, List.mem_append_right _ (List.mem_singleton_self _), rfl⟩
    · rw [List.map_append, List.nodup_append]
      refine ⟨hnodup, List.nodup_singleton _, ?_⟩
      rintro p hp p' hp' rfl
      obtain ⟨x, hx, he⟩ := List.mem_map.1 hp
      rw [List.map_singleton, List.mem_singleton] at hp'
      rw [hp'] at he
      obtain ⟨hn, ha⟩ := Prod.mk.inj he
      have ha : x.2 = addr := ha
      exact hin ⟨x.1, ha ▸ hx, hn⟩

/-- A record that says nothing of the instance, and is no address. -/
theorem Tracks.silent (h : Tracks q hs) (hsrv : srvOf q.service.lower r = none)
    (htxt : txtOf q.service.lower r = none) (haaaa : addressOf r = none) :
    Tracks q (hs ++ [(now, r)]) where
  srv := by rw [lastSrv_concat, hsrv, Option.map_none, Option.none_or, h.srv]
  txt := by rw [lastTxt_concat, htxt, Option.none_or, h.txt]
  mem := by
    rw [candidates, lastSrv_concat, hsrv, announced_concat, haaaa, Option.map_none, Option.none_or,
      Option.toList_none, List.append_nil]
    exact h.mem
  nodup := h.nodup

/-- A service record of the instance. -/
theorem Tracks.takeSrv (h : Tracks q hs) {port : UInt16} {target : Name}
    (halike : Alike q.service.lower hs (now, r)) (hr : r.rdata = .srv port target)
    (hname : r.name.lower = q.service.lower) : Tracks (q.takeSrv port target) (hs ++ [(now, r)]) := by
  have hsrv : srvOf q.service.lower r = some (port, target.lower, r.ttl) := by
    rw [srvOf_srv hr, if_pos hname]
  have htxt : txtOf q.service.lower r = none := by rw [txtOf, hr]
  have haaaa : addressOf r = none := by rw [addressOf, hr]
  refine ⟨?_, ?_, ?_, ?_⟩
  · show _ = (lastSrv q.service.lower (hs ++ [(now, r)])).map _
    rw [lastSrv_concat, hsrv]
    rfl
  · show q.txt = lastTxt q.service.lower (hs ++ [(now, r)])
    rw [lastTxt_concat, htxt, Option.none_or, h.txt]
  · intro host addr
    show (∃ name, (name, addr) ∈ pruneAaaa q.aaaa target ∧ name.lower = host) ↔
      (host, addr) ∈ candidates q.service.lower (hs ++ [(now, r)])
    have hprune : (∃ name, (name, addr) ∈ pruneAaaa q.aaaa target ∧ name.lower = host) ↔
        (∃ name, (name, addr) ∈ q.aaaa ∧ name.lower = host) ∧ host = target.lower := by
      constructor
      · rintro ⟨n, hmem, rfl⟩
        obtain ⟨hmem, hn⟩ := List.mem_filter.1 hmem
        exact ⟨⟨n, hmem, rfl⟩, eqIgnoreAsciiCase_iff.1 hn⟩
      · rintro ⟨⟨n, hmem, rfl⟩, hn⟩
        exact ⟨n, List.mem_filter.2 ⟨hmem, eqIgnoreAsciiCase_iff.2 hn⟩, rfl⟩
    rw [hprune, h.mem, candidates, candidates, announced_concat, haaaa, lastSrv_concat, hsrv,
      Option.toList_none, List.append_nil]
    simp only [List.mem_filter, Option.map_some, Option.some_or, Option.all_some, beq_iff_eq]
    refine ⟨fun hc => ⟨hc.1.1, hc.2⟩, fun hc => ⟨⟨hc.1, ?_⟩, hc.2⟩⟩
    cases hlast : lastSrv q.service.lower hs with
    | none => rfl
    | some y =>
      -- another host had no address yet
      rw [Option.all_some, beq_iff_eq, hc.2]
      by_contra hne
      exact halike.settled _ y hsrv hlast hne addr (hc.2 ▸ hc.1)
  · exact h.nodup.sublist (List.filter_sublist.map _)

/-- A text record of the instance. -/
theorem Tracks.takeTxt (h : Tracks q hs) {strings : List Bytes} (hr : r.rdata = .txt strings)
    (hname : r.name.lower = q.service.lower) : Tracks (q.takeTxt strings) (hs ++ [(now, r)]) := by
  have hsrv : srvOf q.service.lower r = none := by rw [srvOf, hr]
  have haaaa : addressOf r = none := by rw [addressOf, hr]
  have htxt : txtOf q.service.lower r = some strings := by
    rw [txtOf, hr]
    exact if_pos hname
  refine ⟨?_, ?_, ?_, h.nodup⟩
  · show q.srv.map _ = (lastSrv q.service.lower (hs ++ [(now, r)])).map _
    rw [lastSrv_concat, hsrv, Option.map_none, Option.none_or, h.srv]
  · show some strings = lastTxt q.service.lower (hs ++ [(now, r)])
    rw [lastTxt_concat, htxt, Option.some_or]
  · show ∀ host addr, (∃ name, (name, addr) ∈ q.aaaa ∧ name.lower = host) ↔
      (host, addr) ∈ candidates q.service.lower (hs ++ [(now, r)])
    rw [candidates, lastSrv_concat, hsrv, announced_concat, haaaa, Option.map_none, Option.none_or,
      Option.toList_none, List.append_nil]
    exact h.mem

/-- As many addresses as candidates. -/
theorem Tracks.length_eq (h : Tracks q hs) :
    q.aaaa.length = (candidates q.service.lower hs).toFinset.card := by
  have hset : (q.aaaa.map fun x => (x.1.lower, x.2)).toFinset =
      (candidates q.service.lower hs).toFinset := by
    ext ⟨host, addr⟩
    rw [List.mem_toFinset, List.mem_toFinset, ← h.mem, List.mem_map]
    constructor
    · rintro ⟨x, hx, he⟩
      cases he
      exact ⟨x.1, hx, rfl⟩
    · rintro ⟨n, hx, rfl⟩
      exact ⟨(n, addr), hx, rfl⟩
  rw [← hset, List.toFinset_card_of_nodup h.nodup, List.length_map]

/-- An address. -/
theorem Tracks.takeAaaa (h : Tracks q hs) (hfits : Fits q.service.lower hs (now, r))
    (hr : r.rdata = .aaaa addr) :
    Tracks { q with aaaa := pushAaaa q.aaaa (q.srv.map (·.2)) r.name addr } (hs ++ [(now, r)]) := by
  have hsrv : srvOf q.service.lower r = none := by rw [srvOf, hr]
  have htxt : txtOf q.service.lower r = none := by rw [txtOf, hr]
  have haaaa : addressOf r = some (r.name.lower, addr) := by rw [addressOf, hr]
  have hcands : candidates q.service.lower (hs ++ [(now, r)]) =
      candidates q.service.lower hs ++
        [(r.name.lower, addr)].filter fun p => (lastSrv q.service.lower hs).all fun x =>
          p.1 == x.2.2.1 := by
    rw [candidates, candidates, lastSrv_concat, hsrv, announced_concat, haaaa, Option.map_none,
      Option.none_or, List.filter_append]
    rfl
  have hbase : ∀ q' : OperationalQuery, q'.service = q.service → q'.srv = q.srv → q'.txt = q.txt →
      (∀ host addr, (∃ name, (name, addr) ∈ q'.aaaa ∧ name.lower = host) ↔
        (host, addr) ∈ candidates q.service.lower (hs ++ [(now, r)])) →
      (q'.aaaa.map fun x => (x.1.lower, x.2)).Nodup → Tracks q' (hs ++ [(now, r)]) := by
    intro q' hs' hq' ht' hm hn
    refine ⟨?_, ?_, ?_, hn⟩
    · rw [hs', hq', lastSrv_concat, hsrv, Option.map_none, Option.none_or, h.srv]
    · rw [hs', ht', lastTxt_concat, htxt, Option.none_or, h.txt]
    · rw [hs']
      exact hm
  by_cases htarget : ∀ t ∈ q.srv.map (·.2), r.name.lower = t.lower
  · -- the address may be one of the instance
    have hall : candidates q.service.lower (hs ++ [(now, r)]) =
        candidates q.service.lower hs ++ [(r.name.lower, addr)] := by
      rw [hcands, List.filter_eq_self.2]
      intro p hp
      rw [List.mem_singleton.1 hp]
      cases hlast : lastSrv q.service.lower hs with
      | none => rfl
      | some y =>
        have hq := h.srv
        rw [hlast] at hq
        obtain ⟨x, hx, hxy⟩ := Option.map_eq_some_iff.1 hq
        rw [Option.all_some, beq_iff_eq, htarget x.2 (by rw [hx]; rfl)]
        exact (Prod.mk.inj hxy).2
    have hroom : q.aaaa.length < maxAaaa ∨ ∃ n, (n, addr) ∈ q.aaaa ∧ n.lower = r.name.lower := by
      by_contra hnot
      rw [not_or, h.mem, Nat.not_lt, h.length_eq] at hnot
      have hcard := hfits.candidates
      rw [hall, List.toFinset_append, List.toFinset_cons, List.toFinset_nil, insert_empty_eq,
        Finset.union_comm, ← Finset.insert_eq,
        Finset.card_insert_of_notMem fun hm => hnot.2 (List.mem_toFinset.1 hm)] at hcard
      omega
    obtain ⟨hmem, hnodup⟩ := mem_pushAaaa_of_room hroom htarget h.nodup
    refine hbase _ rfl rfl rfl (fun host a => ?_) hnodup
    rw [hmem, h.mem, hall, List.mem_append, List.mem_singleton, Prod.mk.injEq]
  · -- the address is one of another host than the target
    push Not at htarget
    obtain ⟨t, ht, hne⟩ := htarget
    obtain ⟨x, hx, rfl⟩ := Option.mem_map.1 ht
    have hx : q.srv = some x := hx
    have hsame : pushAaaa q.aaaa (q.srv.map (·.2)) r.name addr = q.aaaa := by
      rw [pushAaaa, hx, Option.map_some, Option.any_some, if_pos]
      rw [Bool.not_eq_true', ← Bool.not_eq_true, eqIgnoreAsciiCase_iff]
      exact hne
    have hnone : candidates q.service.lower (hs ++ [(now, r)]) = candidates q.service.lower hs := by
      have hq := h.srv
      rw [hx] at hq
      obtain ⟨y, hy, hxy⟩ := Option.map_eq_some_iff.1 hq.symm
      rw [hcands, hy, List.filter_eq_nil_iff.2, List.append_nil]
      intro p hp
      rw [List.mem_singleton.1 hp, Option.all_some, beq_iff_eq, (Prod.mk.inj hxy).2]
      exact hne
    rw [hsame]
    refine hbase _ rfl rfl rfl ?_ h.nodup
    rw [hnone]
    exact h.mem

/-- **One record** that fits. -/
theorem Tracks.hearOne (h : Tracks q hs) (hfits : Fits q.service.lower hs (now, r))
    (halike : Alike q.service.lower hs (now, r)) : Tracks (q.hearOne r) (hs ++ [(now, r)]) := by
  unfold OperationalQuery.hearOne
  split
  · next port target hr =>
    split
    · next hname => exact h.takeSrv halike hr (eqIgnoreAsciiCase_iff.1 hname)
    · next hname =>
      exact h.silent (srvOf_of_name_ne fun he => hname (eqIgnoreAsciiCase_iff.2 he))
        (by rw [txtOf, hr]) (by rw [addressOf, hr])
  · next strings hr =>
    split
    · next hname => exact h.takeTxt hr (eqIgnoreAsciiCase_iff.1 hname)
    · next hname =>
      exact h.silent (by rw [srvOf, hr])
        (txtOf_of_name_ne fun he => hname (eqIgnoreAsciiCase_iff.2 he)) (by rw [addressOf, hr])
  · next addr hr => exact h.takeAaaa hfits hr
  · next hsrv htxt haaaa =>
    refine h.silent ?_ ?_ ?_
    · cases hr : r.rdata with
      | srv port target => exact (hsrv port target hr).elim
      | _ => rw [srvOf, hr]
    · cases hr : r.rdata with
      | txt strings => exact (htxt strings hr).elim
      | _ => rw [txtOf, hr]
    · cases hr : r.rdata with
      | aaaa addr => exact (haaaa addr hr).elim
      | _ => rw [addressOf, hr]

/-- A query that tracks a complete instance is finished with what was announced. -/
theorem Tracks.tryFinish_of_complete (h : Tracks q hs) (hq : q.resolved = none) {s : Instant}
    {port : UInt16} {target : Name} {ttl : UInt32}
    (hlast : lastSrv q.service.lower hs = some (s, port, target, ttl))
    (ha : (target, addr) ∈ announced hs) :
    ∃ addrs, q.tryFinish.resolved =
        some (.fromParts port addrs ((lastTxt q.service.lower hs).getD [])) ∧
      ∀ a, a ∈ addrs ↔ (target, a) ∈ announced hs := by
  have hsrv := h.srv
  rw [hlast] at hsrv
  obtain ⟨⟨p, t⟩, hq', hxy⟩ := Option.map_eq_some_iff.1 hsrv
  obtain ⟨rfl, ht⟩ := Prod.mk.inj hxy
  have hmem : ∀ a, a ∈ addressesForTarget q.aaaa t ↔ (target, a) ∈ announced hs := by
    intro a
    rw [mem_addressesForTarget, ht, h.mem, candidates, List.mem_filter, hlast, Option.all_some,
      beq_self_eq_true, and_iff_left rfl]
  refine ⟨addressesForTarget q.aaaa t, ?_, hmem⟩
  have hne : (addressesForTarget q.aaaa t).isEmpty = false := by
    rw [List.isEmpty_eq_false_iff]
    exact List.ne_nil_of_mem ((hmem addr).2 ha)
  rw [OperationalQuery.tryFinish, hq, hq']
  dsimp only
  rw [if_neg (by rintro ⟨⟩), hne, if_neg (by rintro ⟨⟩), h.txt]

/-- A query whose target has no address is not finished. -/
theorem Tracks.tryFinish_of_incomplete (h : Tracks q hs) (hq : q.resolved = none)
    (hno : ∀ s port target ttl, lastSrv q.service.lower hs = some (s, port, target, ttl) →
      ∀ addr, (target, addr) ∉ announced hs) : q.tryFinish = q := by
  rw [OperationalQuery.tryFinish, hq, if_neg (by rintro ⟨⟩)]
  cases hsrv : q.srv with
  | none => rfl
  | some x =>
    obtain ⟨port, t⟩ := x
    have hs := h.srv
    rw [hsrv] at hs
    obtain ⟨⟨s, p, target, ttl⟩, hlast, hxy⟩ := Option.map_eq_some_iff.1 hs.symm
    have hempty : addressesForTarget q.aaaa t = [] := by
      rw [List.eq_nil_iff_forall_not_mem]
      intro a ha
      rw [mem_addressesForTarget, h.mem] at ha
      refine hno s p target ttl hlast a ?_
      rw [show target = t.lower from (Prod.mk.inj hxy).2]
      exact List.mem_of_mem_filter ha
    dsimp only
    rw [hempty]
    rfl

end

/-! ## Agreement -/

/-- The same node, but for the order of its addresses. -/
structure SameNode (a b : ResolvedNode) : Prop where
  port : a.port = b.port
  idle : a.sessionIdleIntervalMs = b.sessionIdleIntervalMs
  active : a.sessionActiveIntervalMs = b.sessionActiveIntervalMs
  addresses : ∀ addr, addr ∈ a.addresses ↔ addr ∈ b.addresses

section
variable {fold : OperationalFold} {hs : List (Instant × Record)} {inst target : Name} {s : Instant}
  {port : UInt16} {ttl : UInt32} {addr : Ipv6Addr} {node : ResolvedNode}

/-- What was announced of an instance completes it. -/
theorem Complete.completed (h : Complete fold hs) (hrec : Recalls fold hs)
    (hop : operationalSuffix <:+ inst) (hlast : lastSrv inst hs = some (s, port, target, ttl))
    (ha : (target, addr) ∈ announced hs) :
    ∃ addrs, Dnssd.completed fold inst =
        some (.fromParts port addrs ((lastTxt inst hs).getD []), ttl) ∧
      ∀ a, a ∈ addrs ↔ (target, a) ∈ announced hs := by
  obtain ⟨v, hv⟩ := BoundedMap.mem_keys.1 (h.srv inst _ hop hlast)
  obtain ⟨s', hs'⟩ := hrec.srv inst v hv
  rw [hlast] at hs'
  cases hs'
  obtain ⟨l, hl, hmem⟩ := h.addrs _ _ ha
  have hne : l ≠ [] := hrec.nonempty _ _ hl
  refine ⟨sortAddresses l, ?_, fun a => ?_⟩
  · rw [completed_of_lookup hv hl hne, h.txt inst hop]
  · rw [mem_sortAddresses]
    constructor
    · intro hmem
      obtain ⟨x, hx, rfl⟩ := List.mem_map.1 hmem
      obtain ⟨ttl', hlast'⟩ := (hrec.seen _ _ hl x hx).1
      exact mem_announced_of_lastAaaa hlast'
    · intro hmem
      obtain ⟨l', hl', ha'⟩ := h.addrs _ _ hmem
      rw [hl] at hl'
      cases hl'
      exact ha'

/-- An instance is complete only if that was announced. -/
theorem Recalls.announced (h : Recalls fold hs) (hc : completed fold inst = some (node, ttl)) :
    ∃ s port target ttl addr, lastSrv inst hs = some (s, port, target, ttl) ∧
      (target, addr) ∈ Dnssd.announced hs := by
  obtain ⟨target, l, hsrv, hl, -⟩ := completed_eq_some hc
  obtain ⟨s, hs⟩ := h.srv _ _ hsrv
  obtain ⟨x, hx⟩ := List.exists_mem_of_ne_nil l (h.nonempty _ _ hl)
  obtain ⟨ttl', hlast⟩ := (h.seen _ _ hl x hx).1
  exact ⟨s, _, target, ttl, x.1, hs, mem_announced_of_lastAaaa hlast⟩

end

/-- What both sides ask of a record. -/
def Agreeable (inst : Name) (hs : List (Instant × Record)) (x : Instant × Record) : Prop :=
  Fits inst hs x ∧ Alike inst hs x

section
variable {fold : OperationalFold} {hs : List (Instant × Record)} {now : Instant} {rs : List Record}
  {q : OperationalQuery} {inst : Name}

/-- The records of a datagram, for the resolver. -/
theorem Tracks.foldl (h : Tracks q hs)
    (hC : Along (fun pre x => pre ++ [x]) (Agreeable q.service.lower) hs (rs.map (now, ·))) :
    Tracks (rs.foldl OperationalQuery.hearOne q) (hs ++ rs.map (now, ·)) := by
  induction rs generalizing q hs with
  | nil =>
    rw [List.map_nil, List.append_nil]
    exact h
  | cons r rs ih =>
    obtain ⟨⟨hfits, halike⟩, hrest⟩ := hC
    have hone := h.hearOne hfits halike
    rw [← OperationalQuery.hearOne_service (q := q) (r := r)] at hrest
    rw [List.foldl_cons, List.map_cons, List.append_cons]
    exact ih hone hrest

/-- The records of a datagram, for the listener. -/
theorem Complete.foldRecords (h : Complete fold hs) (hrec : Recalls fold hs) (hpast : Past now hs)
    (hC : Along (fun pre x => pre ++ [x]) (Agreeable inst) hs (rs.map (now, ·))) :
    Complete (foldRecords now fold rs).1 (hs ++ rs.map (now, ·)) := by
  suffices hsuff : Complete (Dnssd.foldRecords now fold rs).1 (hs ++ rs.map (now, ·)) ∧
      Recalls (Dnssd.foldRecords now fold rs).1 (hs ++ rs.map (now, ·)) from hsuff.1
  refine foldRecords_induct (motive := fun rs' fold' _ => Complete fold' (hs ++ rs'.map (now, ·)) ∧
    Recalls fold' (hs ++ rs'.map (now, ·))) ?_ ?_
  · rw [List.map_nil, List.append_nil]
    exact ⟨h, hrec⟩
  · rintro rs' r fold' touched' ⟨post, rfl⟩ hspec ⟨ihc, ihr⟩
    rw [List.map_append, along_append, List.map_append, along_append, run_snoc] at hC
    obtain ⟨hfits, halike⟩ := hC.1.2.1
    rw [stamp_concat]
    exact ⟨ihc.folded ihr hfits halike hspec,
      ihr.folded hpast.stamp (fun hs => halike.spelled (Or.inl hs)) hspec⟩

theorem spelled_of_agreeable
    (hC : Along (fun pre x => pre ++ [x]) (Agreeable inst) hs (rs.map (now, ·))) :
    ∀ r ∈ rs, Spelled r := by
  intro r hr hs
  obtain ⟨a, b, hab⟩ := List.append_of_mem (List.mem_map_of_mem (f := (now, ·)) hr)
  exact (along_iff.1 hC a _ b hab).2.spelled (Or.inl hs)

end

namespace Listener

/-- While the resolver reads, nothing is known of the instance on either side. -/
structure Reading (l : Listener) (q : OperationalQuery) : Prop extends Kept l where
  complete : Complete l.fold l.history
  tracks : Tracks q l.history
  unresolved : q.resolved = none
  unfinished : ∀ s port target ttl, lastSrv q.service.lower l.history = some (s, port, target, ttl) →
    ∀ addr, (target, addr) ∉ announced l.history
  uncached : l.cache.lookup q.service.lower = none
  ttls : ∀ x ∈ l.history, x.2.ttl ≠ 0

section
variable {l : Listener} {d : Datagram} {q : OperationalQuery}

/-- A datagram that completes an instance touches it. -/
theorem Reading.touched (h : Reading l q) (hop : operationalSuffix <:+ q.service.lower)
    (hC : Along (fun pre x => pre ++ [x]) (Agreeable q.service.lower) l.history
      (d.records.map (l.now d, ·)))
    {s : Instant} {port : UInt16} {target : Name} {ttl : UInt32} {addr : Ipv6Addr}
    (hlast : lastSrv q.service.lower (l.step d).history = some (s, port, target, ttl))
    (ha : (target, addr) ∈ announced (l.step d).history) :
    q.service.lower ∈ (foldRecords (l.now d) l.fold d.records).2 := by
  by_contra hnot
  have hroom : ∀ rs' r, rs' ++ [r] <+: d.records → (srvOf q.service.lower r).isSome →
      (foldRecords (l.now d) l.fold rs').1.srv.HasRoom q.service.lower := by
    rintro rs' r ⟨post, hpost⟩ hs
    rw [← hpost, List.map_append, along_append, List.map_append, along_append, run_snoc] at hC
    obtain ⟨hfits, halike⟩ := hC.1.2.1
    have hcomp := h.complete.foldRecords h.recalls h.past_now hC.1.1
    have hname := name_of_srvOf hs
    refine BoundedMap.room_of_card_le hfits.services (fun k hk => ?_) ?_
    · exact List.mem_toFinset.2 (serviceNames_concat (hcomp.srvNames k hk))
    · refine List.mem_toFinset.2 (mem_serviceNames last_mem hs (halike.spelled (Or.inl ?_) ?_))
      · exact hname.symm ▸ hs
      · exact hname.symm ▸ hop
  obtain ⟨-, hall⟩ := untouched hroom (spelled_of_agreeable hC) hop hnot
  rw [step_history, lastSrv_stamp_silent fun r hr => (hall r hr).1] at hlast
  obtain ⟨v, hv⟩ := BoundedMap.mem_keys.1 (h.complete.srv _ _ hop hlast)
  obtain ⟨s', hs'⟩ := h.recalls.srv _ _ hv
  rw [hlast] at hs'
  cases hs'
  -- no address of the target came either, so the instance was complete before
  refine h.unfinished s port target ttl hlast addr ?_
  obtain ⟨x, hx, hxa⟩ := mem_announced.1 ha
  rw [step_history] at hx
  rcases List.mem_append.1 hx with hx | hx
  · exact mem_announced.2 ⟨x, hx, hxa⟩
  · obtain ⟨r, hr, rfl⟩ := List.mem_map.1 hx
    rw [(hall r hr).2 _ _ _ hv] at hxa
    cases hxa

/-- **One datagram** completes an instance on both sides, or on none. -/
theorem Reading.step (h : Reading l q) (hop : operationalSuffix <:+ q.service.lower)
    (hC : Along (fun pre x => pre ++ [x]) (Agreeable q.service.lower) l.history
      (d.records.map (l.now d, ·))) :
    let q' := (d.records.foldl OperationalQuery.hearOne q).tryFinish
    Option.Rel SameNode q'.resolved ((l.step d).cache.get q.service (l.step d).clock) ∧
      (q'.resolved = none → Reading (l.step d) q') := by
  intro q'
  have hk' := h.toKept.step (spelled_of_agreeable hC)
  have hcomp : Complete (l.step d).fold (l.step d).history :=
    h.complete.foldRecords h.recalls h.past_now hC
  have htracks : Tracks (d.records.foldl OperationalQuery.hearOne q) (l.step d).history :=
    h.tracks.foldl hC
  have hq : (d.records.foldl OperationalQuery.hearOne q).resolved = none := by
    rw [OperationalQuery.foldl_hearOne_resolved, h.unresolved]
  have hservice : (d.records.foldl OperationalQuery.hearOne q).service = q.service :=
    OperationalQuery.foldl_hearOne_service
  have httls : ∀ x ∈ (l.step d).history, x.2.ttl ≠ 0 := by
    intro x hx
    rcases List.mem_append.1 hx with hx | hx
    · exact h.ttls x hx
    · obtain ⟨a, b, hab⟩ := List.append_of_mem hx
      exact (along_iff.1 hC a x b hab).1.ttl
  have hentry := (h.lookup_step d q.service.lower).1
  by_cases hdone : ∃ s port target ttl addr,
      lastSrv q.service.lower (l.step d).history = some (s, port, target, ttl) ∧
        (target, addr) ∈ announced (l.step d).history
  · obtain ⟨s, port, target, ttl, addr, hlast, ha⟩ := hdone
    obtain ⟨addrs, hres, hmem⟩ := htracks.tryFinish_of_complete hq (hservice ▸ hlast) ha
    obtain ⟨addrs', hcomp', hmem'⟩ := hcomp.completed hk'.recalls hop hlast ha
    obtain ⟨r, hr, hsrv⟩ := lastSrv_mem hlast
    have httl : 0 < ttl.toNat := by
      rw [Nat.pos_iff_ne_zero, ← ttl_of_srvOf hsrv, ne_eq, ← UInt32.toNat_zero, UInt32.toNat_inj]
      exact httls _ hr
    rw [if_pos (h.touched hop hC hlast ha), hcomp'] at hentry
    have hget : (l.step d).cache.get q.service (l.step d).clock =
        some (.fromParts port addrs' ((lastTxt q.service.lower (l.step d).history).getD [])) := by
      rw [OperationalCache.get, hentry, Option.map_some, Option.some_or, Option.filter_some,
        if_pos (by simpa [freshEntry, step_clock] using httl)]
      rfl
    rw [hservice] at hres
    refine ⟨?_, fun hnone => ?_⟩
    · rw [hres, hget]
      exact .some ⟨rfl, rfl, rfl, fun a => (hmem a).trans (hmem' a).symm⟩
    · rw [hres] at hnone
      cases hnone
  · have hno : ∀ s port target ttl,
        lastSrv q.service.lower (l.step d).history = some (s, port, target, ttl) →
        ∀ addr, (target, addr) ∉ announced (l.step d).history :=
      fun s port target ttl hlast addr ha => hdone ⟨s, port, target, ttl, addr, hlast, ha⟩
    have hsame : q' = d.records.foldl OperationalQuery.hearOne q :=
      htracks.tryFinish_of_incomplete hq (hservice ▸ hno)
    have hnone : completed (l.step d).fold q.service.lower = none := by
      cases hc : completed (l.step d).fold q.service.lower with
      | none => rfl
      | some x =>
        obtain ⟨s, port, target, ttl, addr, hlast, ha⟩ := hk'.recalls.announced hc
        exact (hno s port target ttl hlast addr ha).elim
    rw [hnone, Option.map_none, ite_self, Option.none_or, h.uncached] at hentry
    rw [hsame]
    refine ⟨?_, fun _ => ⟨hk', hcomp, htracks, hq, hservice ▸ hno, hservice ▸ hentry, httls⟩⟩
    rw [hq, OperationalCache.get, hentry]
    exact .none

/-- Before any datagram. -/
theorem reading_start (compressedFabricId nodeId : UInt64) :
    Reading start (.new compressedFabricId nodeId) where
  toKept := kept_start
  complete := ⟨by rintro _ _ _ ⟨⟩, fun _ _ => rfl, by rintro _ _ ⟨⟩, by rintro _ ⟨⟩, by rintro _ ⟨⟩,
    by rintro _ ⟨⟩⟩
  tracks := by
    refine ⟨rfl, rfl, fun host addr => ⟨?_, ?_⟩, List.nodup_nil⟩
    · rintro ⟨_, ⟨⟩, -⟩
    · rintro ⟨⟩
  unresolved := rfl
  unfinished := by rintro _ _ _ _ ⟨⟩
  uncached := rfl
  ttls := by rintro _ ⟨⟩

/-- The name of a node's instance. -/
def serviceName (compressedFabricId nodeId : UInt64) : Name :=
  operationalInstance compressedFabricId nodeId ++ operationalSuffix

/-- **Agreement.** As long as the resolver reads, and the records are agreeable, the cache and the
resolver know the same node, or none. -/
theorem agree_while_reading (compressedFabricId nodeId : UInt64) (es : List Datagram)
    (hreads : ∀ pre d post, es = pre ++ d :: post →
      resolveOperational compressedFabricId nodeId (pre.map (·.records)) = none)
    (hC : Throughout (Agreeable (serviceName compressedFabricId nodeId).lower)
      (run step start es).history) :
    Option.Rel SameNode (resolveOperational compressedFabricId nodeId (es.map (·.records)))
      ((run step start es).cache.get (serviceName compressedFabricId nodeId)
        (run step start es).clock) := by
  suffices hsuff : ∃ q,
      resolveQueries [.new compressedFabricId nodeId] (es.map (·.records)) = [q] ∧
      q.service = serviceName compressedFabricId nodeId ∧
      Option.Rel SameNode q.resolved ((run step start es).cache.get
        (serviceName compressedFabricId nodeId) (run step start es).clock) ∧
      (q.resolved = none → Reading (run step start es) q) by
    obtain ⟨q, hq, -, hrel, -⟩ := hsuff
    rw [resolveOperational, resolveOperationalMany, List.map_singleton, hq]
    exact hrel
  induction es using List.reverseRecOn with
  | nil => exact ⟨_, rfl, rfl, .none, fun _ => reading_start _ _⟩
  | append_singleton es d ih =>
    rw [run_append, run_cons, run_nil] at hC ⊢
    rw [step_history, throughout_append] at hC
    obtain ⟨q, hq, hservice, -, hreading⟩ := ih
      (fun pre x post he => hreads pre x (post ++ [d]) (by rw [he, List.append_assoc]; rfl)) hC.1
    have hnone : q.resolved = none := by
      have h := hreads es d [] rfl
      rwa [resolveOperational, resolveOperationalMany, List.map_singleton, hq] at h
    have hop : operationalSuffix <:+ q.service.lower := by
      rw [hservice]
      exact suffix_lower (List.suffix_append _ _)
    obtain ⟨hrel, hnext⟩ := (hreading hnone).step hop (d := d) (by rw [hservice]; exact hC.2)
    refine ⟨(d.records.foldl OperationalQuery.hearOne q).tryFinish, ?_, ?_, hservice ▸ hrel, hnext⟩
    · rw [List.map_append, List.map_singleton, resolveQueries_concat, hq, List.all_cons, hnone,
        Option.isSome_none, Bool.false_and, if_neg (by rintro ⟨⟩), hearDatagram,
        foldl_hear_singleton hnone, List.map_singleton]
    · rw [OperationalQuery.tryFinish_service, OperationalQuery.foldl_hearOne_service, hservice]

end

/-! ### A service type in capital letters -/

/-- A node whose service type comes in capital letters. -/
def capitals : Datagram :=
  ⟨1000, [⟨operationalInstance 1 1 ++ "._MATTER._TCP.local".toList, .srv 5540 "node".toList, 120, false⟩,
    ⟨"node".toList, .aaaa zeroAddr, 120, false⟩], asListed⟩

/-- The same with small letters. -/
def smallLetters : Datagram :=
  ⟨1000, [⟨serviceName 1 1, .srv 5540 "node".toList, 120, false⟩,
    ⟨"node".toList, .aaaa zeroAddr, 120, false⟩], asListed⟩

theorem fits_of_length {inst : Name} {hs : List (Instant × Record)} {x : Instant × Record}
    (hlen : (hs ++ [x]).length ≤ 8) (httl : x.2.ttl ≠ 0) (hflush : x.2.cacheFlush = false) :
    Fits inst hs x := by
  have hann : (announced (hs ++ [x])).length ≤ 8 := (List.length_filterMap_le _ _).trans hlen
  have hnames : ∀ (p : Record → Bool) (f : Record → Name),
      ((((hs ++ [x]).map (·.2)).filter p).map f).toFinset.card ≤ 8 := by
    intro p f
    refine (List.toFinset_card_le _).trans ?_
    rw [List.length_map]
    exact (List.length_filter_le _ _).trans ((List.length_map _).le.trans hlen)
  refine ⟨httl, (hnames _ _).trans (by decide), (hnames _ _).trans (by decide),
    (hnames _ _).trans (by decide), fun host => ?_, ?_, ?_⟩
  · exact (List.toFinset_card_le _).trans ((List.length_filter_le _ _).trans hann)
  · exact (List.toFinset_card_le _).trans
      ((List.length_filter_le _ _).trans (hann.trans (by decide)))
  · intro hf
    rw [hflush] at hf
    cases hf

theorem agree_while_reading_sample : ∃ a b,
    resolveOperational 1 1 [smallLetters.records] = some a ∧
      (run step start [smallLetters]).cache.get (serviceName 1 1) 1000 = some b ∧ SameNode a b := by
  have hrel := agree_while_reading 1 1 [smallLetters]
    (by
      rintro (_ | ⟨_, _ | ⟨_, _⟩⟩) d post he
      · rfl
      · cases (List.cons.inj he).2
      · cases (List.cons.inj he).2)
    ⟨⟨fits_of_length (by decide) (by decide) rfl, fun _ _ => List.suffix_append _ _, by rintro _ _ _ ⟨⟩⟩,
      ⟨fits_of_length (by decide) (by decide) rfl, by rintro (⟨⟨⟩⟩ | ⟨⟨⟩⟩), by rintro _ _ ⟨⟩⟩, trivial⟩
  have hleft : (resolveOperational 1 1 [smallLetters.records]).isSome := by decide
  obtain ⟨a, ha⟩ := Option.isSome_iff_exists.1 hleft
  rw [show [smallLetters].map (·.records) = [smallLetters.records] from rfl, ha] at hrel
  generalize hb : (run step start [smallLetters]).cache.get (serviceName 1 1)
    (run step start [smallLetters]).clock = o at hrel
  cases hrel with
  | some hsame => exact ⟨a, _, ha, hb, hsame⟩

/-- The resolver finds a node that the cache does not. -/
theorem capitals_not_cached : ¬ ∀ compressedFabricId nodeId es,
    (∀ pre d post, es = pre ++ d :: post →
      resolveOperational compressedFabricId nodeId (pre.map (·.records)) = none) →
    Throughout (Fits (serviceName compressedFabricId nodeId).lower) (run step start es).history →
    Option.Rel SameNode (resolveOperational compressedFabricId nodeId (es.map (·.records)))
      ((run step start es).cache.get (serviceName compressedFabricId nodeId)
        (run step start es).clock) := by
  intro h
  have hrel := h 1 1 [capitals]
    (by
      rintro (_ | ⟨_, _ | ⟨_, _⟩⟩) d post he
      · rfl
      · cases (List.cons.inj he).2
      · cases (List.cons.inj he).2)
    ⟨fits_of_length (by decide) (by decide) rfl, fits_of_length (by decide) (by decide) rfl, trivial⟩
  have hleft : (resolveOperational 1 1 ([capitals].map (·.records))).isSome := by decide
  have hright : (run step start [capitals]).cache.get (serviceName 1 1)
      (run step start [capitals]).clock = none := by decide
  rw [hright] at hrel
  generalize resolveOperational 1 1 ([capitals].map (·.records)) = o at hleft hrel
  cases hrel
  cases hleft

end Listener

end MatStack.Dnssd
