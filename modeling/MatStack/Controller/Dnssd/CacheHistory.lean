import MatStack.Controller.Dnssd.Cache

/-!
# What the listener recalls

The records that were received, with their times, are the history of a listener. What its maps hold
about an instance or a host is what the history said last: `Recalls` for every name they know, as
long as the service type is spelled in small letters. `lookup_refresh` says what a datagram does to
the entry of an instance.
-/

namespace MatStack.Dnssd

/-! ## Histories -/

/-- What a record says about the service of an instance. -/
def srvOf (inst : Name) (r : Record) : Option (UInt16 × Name × UInt32) :=
  match r.rdata with
  | .srv port target => if r.name.lower = inst then some (port, target.lower, r.ttl) else none
  | _ => none

/-- The text that a record has for an instance. -/
def txtOf (inst : Name) (r : Record) : Option (List Bytes) :=
  match r.rdata with
  | .txt strings => if r.name.lower = inst then some strings else none
  | _ => none

/-- The address that a record has for a host. -/
def aaaaOf (host : Name) (r : Record) : Option Ipv6Addr :=
  match r.rdata with
  | .aaaa addr => if r.name.lower = host then some addr else none
  | _ => none

/-- When and what the history said last about the service of an instance. -/
def lastSrv (inst : Name) (hs : List (Instant × Record)) :
    Option (Instant × UInt16 × Name × UInt32) :=
  hs.reverse.findSome? fun x => (srvOf inst x.2).map (x.1, ·)

/-- When and for how long the history announced an address of a host last. -/
def lastAaaa (host : Name) (addr : Ipv6Addr) (hs : List (Instant × Record)) :
    Option (Instant × UInt32) :=
  hs.reverse.findSome? fun x => if aaaaOf host x.2 = some addr then some (x.1, x.2.ttl) else none

/-- A cache-flush of the host came more than the grace period after `seen`. -/
def Superseded (host : Name) (seen : Instant) (hs : List (Instant × Record)) : Prop :=
  ∃ x ∈ hs, (aaaaOf host x.2).isSome ∧ x.2.cacheFlush = true ∧ seen + cacheFlushGrace < x.1

/-- The type of an operational service record is spelled in small letters. -/
def Spelled (r : Record) : Prop :=
  (srvOf r.name.lower r).isSome → operationalSuffix <:+ r.name.lower → operationalSuffix <:+ r.name

section
variable {inst host : Name} {addr : Ipv6Addr} {hs : List (Instant × Record)} {t seen now : Instant}
  {r : Record}

@[simp] theorem lastSrv_nil : lastSrv inst [] = none := rfl

theorem lastSrv_append {gs : List (Instant × Record)} :
    lastSrv inst (hs ++ gs) = (lastSrv inst gs).or (lastSrv inst hs) := by
  rw [lastSrv, List.reverse_append, List.findSome?_append]
  rfl

theorem lastAaaa_append {gs : List (Instant × Record)} :
    lastAaaa host addr (hs ++ gs) = (lastAaaa host addr gs).or (lastAaaa host addr hs) := by
  rw [lastAaaa, List.reverse_append, List.findSome?_append]
  rfl

@[simp] theorem lastSrv_concat :
    lastSrv inst (hs ++ [(t, r)]) = ((srvOf inst r).map (t, ·)).or (lastSrv inst hs) := by
  rw [lastSrv_append]
  congr 1
  cases h : srvOf inst r <;> simp [lastSrv, h]

@[simp] theorem lastAaaa_concat :
    lastAaaa host addr (hs ++ [(t, r)]) =
      (if aaaaOf host r = some addr then some (t, r.ttl) else none).or (lastAaaa host addr hs) := by
  rw [lastAaaa_append]
  congr 1
  by_cases h : aaaaOf host r = some addr <;> simp [lastAaaa, h]

theorem superseded_concat :
    Superseded host seen (hs ++ [(t, r)]) ↔ Superseded host seen hs ∨
      (aaaaOf host r).isSome ∧ r.cacheFlush = true ∧ seen + cacheFlushGrace < t := by
  simp only [Superseded, List.mem_append, List.mem_singleton]
  constructor
  · rintro ⟨x, hx | rfl, h⟩
    · exact Or.inl ⟨x, hx, h⟩
    · exact Or.inr h
  · rintro (⟨x, hx, h⟩ | h)
    · exact ⟨x, Or.inl hx, h⟩
    · exact ⟨_, Or.inr rfl, h⟩

end

/-! ## The addresses of a host -/

section
variable {l : List (Ipv6Addr × Instant)} {addr a : Ipv6Addr} {now : Instant} {flush : Bool}
  {x : Ipv6Addr × Instant}

theorem map_fst_seeAgain : (seeAgain addr now l).map (·.1) = l.map (·.1) := by
  induction l with
  | nil => rfl
  | cons y l ih =>
    obtain ⟨a, seen⟩ := y
    rw [seeAgain]
    split
    · rfl
    · rw [List.map_cons, ih, List.map_cons]

theorem mem_seeAgain (hnodup : (l.map (·.1)).Nodup) (h : x ∈ seeAgain addr now l) :
    x = (addr, now) ∨ x.1 ≠ addr ∧ x ∈ l := by
  induction l with
  | nil => cases h
  | cons y l ih =>
    obtain ⟨a, seen⟩ := y
    rw [List.map_cons, List.nodup_cons] at hnodup
    rw [seeAgain] at h
    split at h
    · next he =>
      subst he
      rcases List.mem_cons.1 h with rfl | h
      · exact Or.inl rfl
      · refine Or.inr ⟨?_, List.mem_cons_of_mem _ h⟩
        intro hx
        exact hnodup.1 (List.mem_map.2 ⟨x, h, hx⟩)
    · next hne =>
      rcases List.mem_cons.1 h with rfl | h
      · exact Or.inr ⟨hne, List.mem_cons_self⟩
      · exact (ih hnodup.2 h).imp_right fun h => ⟨h.1, List.mem_cons_of_mem _ h.2⟩

theorem evictOldest_sublist (l : List (Ipv6Addr × Instant)) : (evictOldest l).Sublist l := by
  unfold evictOldest
  split
  · exact List.eraseP_sublist
  · exact List.Sublist.refl l

/-- The addresses that a cache-flush leaves. -/
def flushed (l : List (Ipv6Addr × Instant)) (flush : Bool) (now : Instant) :
    List (Ipv6Addr × Instant) :=
  if flush then l.filter fun x => now - x.2 ≤ cacheFlushGrace else l

theorem flushed_sublist : (flushed l flush now).Sublist l := by
  unfold flushed
  split
  · exact List.filter_sublist
  · exact List.Sublist.refl l

/-- **Learning an address.** It is there afterwards, seen now, and what else is there was there
before and was not flushed; no address is there twice. -/
theorem learnAddress_spec (flush : Bool) (addr : Ipv6Addr) (now : Instant)
    (hnodup : (l.map (·.1)).Nodup) :
    (∃ x ∈ learnAddress l flush addr now, x.1 = addr) ∧
      ((learnAddress l flush addr now).map (·.1)).Nodup ∧
      ∀ x ∈ learnAddress l flush addr now,
        x = (addr, now) ∨ x.1 ≠ addr ∧ x ∈ l ∧ (flush = true → now - x.2 ≤ cacheFlushGrace) := by
  have hlearn : learnAddress l flush addr now =
      if (flushed l flush now).any fun x => x.1 == addr then
        seeAgain addr now (flushed l flush now)
      else (if (flushed l flush now).length ≥ maxAddrsPerHost then
        evictOldest (flushed l flush now) else flushed l flush now) ++ [(addr, now)] := rfl
  have hsub : (flushed l flush now).Sublist l := flushed_sublist
  have hkept : ∀ x ∈ flushed l flush now, flush = true → now - x.2 ≤ cacheFlushGrace := by
    rintro x hx rfl
    simpa using (List.mem_filter.1 hx).2
  have hnodup' : ((flushed l flush now).map (·.1)).Nodup := hnodup.sublist (hsub.map _)
  rw [hlearn]
  split
  · next hany =>
    obtain ⟨y, hy, hya⟩ := List.any_eq_true.1 hany
    have hya : y.1 = addr := eq_of_beq hya
    refine ⟨?_, by rwa [map_fst_seeAgain], ?_⟩
    · have hmem : addr ∈ (seeAgain addr now (flushed l flush now)).map (·.1) := by
        rw [map_fst_seeAgain]
        exact hya ▸ List.mem_map_of_mem hy
      obtain ⟨x, hx, hxa⟩ := List.mem_map.1 hmem
      exact ⟨x, hx, hxa⟩
    · intro x hx
      exact (mem_seeAgain hnodup' hx).imp_right fun h => ⟨h.1, hsub.subset h.2, hkept x h.2⟩
  · next hany =>
    have hnot : ∀ x ∈ flushed l flush now, x.1 ≠ addr := by
      intro x hx he
      exact hany (List.any_eq_true.2 ⟨x, hx, by simp [he]⟩)
    have hrest : (if (flushed l flush now).length ≥ maxAddrsPerHost then
        evictOldest (flushed l flush now) else flushed l flush now).Sublist (flushed l flush now) := by
      split
      · exact evictOldest_sublist _
      · exact List.Sublist.refl _
    refine ⟨⟨(addr, now), List.mem_append_right _ (List.mem_singleton_self _), rfl⟩, ?_, ?_⟩
    · rw [List.map_append, List.nodup_append]
      refine ⟨hnodup'.sublist (hrest.map _), by simp, ?_⟩
      rintro b hb c hc rfl
      obtain ⟨x, hx, rfl⟩ := List.mem_map.1 hb
      exact hnot x (hrest.subset hx) (by simpa using hc)
    · intro x hx
      rcases List.mem_append.1 hx with hx | hx
      · have hx := hrest.subset hx
        exact Or.inr ⟨hnot x hx, hsub.subset hx, hkept x hx⟩
      · exact Or.inl (List.mem_singleton.1 hx)

theorem mem_sortAddresses : a ∈ sortAddresses l ↔ a ∈ l.map (·.1) := by
  rw [sortAddresses]
  exact ((List.perm_insertionSort _ l).map _).mem_iff

end

/-! ## What is recalled -/

/-- What the maps know is what the history said last. -/
structure Recalls (fold : OperationalFold) (hs : List (Instant × Record)) : Prop where
  srv : ∀ inst v, fold.srv.lookup inst = some v → ∃ t, lastSrv inst hs = some (t, v)
  operational : ∀ inst ∈ fold.srv.keys, operationalSuffix <:+ inst ∧ inst.lower = inst
  targets : ∀ inst port target ttl, fold.srv.lookup inst = some (port, target, ttl) →
    target.lower = target
  nonempty : ∀ host l, fold.addrs.lookup host = some l → l ≠ []
  nodup : ∀ host l, fold.addrs.lookup host = some l → (l.map (·.1)).Nodup
  seen : ∀ host l, fold.addrs.lookup host = some l → ∀ x ∈ l,
    (∃ ttl, lastAaaa host x.1 hs = some (x.2, ttl)) ∧ ¬ Superseded host x.2 hs

section
variable {fold : OperationalFold} {touched : List Name} {hs : List (Instant × Record)} {now : Instant}
  {r : Record} {inst host target : Name} {port : UInt16} {ttl : UInt32} {addr : Ipv6Addr}

theorem isOperational_iff {name : Name} : isOperational name = true ↔ operationalSuffix <:+ name :=
  List.isSuffixOf_iff_suffix

theorem lower_operationalSuffix : Name.lower operationalSuffix = operationalSuffix := by
  decide

theorem suffix_lower {name : Name} (h : operationalSuffix <:+ name) :
    operationalSuffix <:+ name.lower := by
  have := h.map Char.toLower
  rwa [show operationalSuffix.map Char.toLower = operationalSuffix from lower_operationalSuffix] at this

/-- A record of another kind, or of another name, says nothing. -/
theorem srvOf_of_name_ne (h : r.name.lower ≠ inst) : srvOf inst r = none := by
  unfold srvOf
  split
  · rw [if_neg h]
  · rfl

theorem aaaaOf_of_name_ne (h : r.name.lower ≠ host) : aaaaOf host r = none := by
  unfold aaaaOf
  split
  · rw [if_neg h]
  · rfl

theorem srvOf_srv (h : r.rdata = .srv port target) :
    srvOf inst r = if r.name.lower = inst then some (port, target.lower, r.ttl) else none := by
  rw [srvOf, h]

theorem ttl_of_srvOf (h : srvOf inst r = some (port, target, ttl)) : r.ttl = ttl := by
  unfold srvOf at h
  split at h
  · split at h
    · cases h
      rfl
    · cases h
  · cases h

theorem aaaaOf_aaaa (h : r.rdata = .aaaa addr) :
    aaaaOf host r = if r.name.lower = host then some addr else none := by
  rw [aaaaOf, h]

/-- What is recalled stays so as long as a record says nothing about it. -/
theorem Recalls.silent (h : Recalls fold hs) (hsrv : ∀ inst ∈ fold.srv.keys, srvOf inst r = none)
    (haaaa : ∀ host ∈ fold.addrs.keys, aaaaOf host r = none) : Recalls fold (hs ++ [(now, r)]) where
  srv := by
    intro inst v hv
    obtain ⟨t, ht⟩ := h.srv inst v hv
    refine ⟨t, ?_⟩
    rw [lastSrv_concat, hsrv inst (BoundedMap.mem_keys.2 ⟨v, hv⟩), Option.map_none, Option.none_or, ht]
  operational := h.operational
  targets := h.targets
  nonempty := h.nonempty
  nodup := h.nodup
  seen := by
    intro host l hl x hx
    obtain ⟨⟨ttl, hlast⟩, hsup⟩ := h.seen host l hl x hx
    have hnone := haaaa host (BoundedMap.mem_keys.2 ⟨l, hl⟩)
    refine ⟨⟨ttl, ?_⟩, ?_⟩
    · rw [lastAaaa_concat, hnone, if_neg (by rintro ⟨⟩), Option.none_or, hlast]
    · rw [superseded_concat, hnone]
      rintro (hs | ⟨hs, -⟩)
      · exact hsup hs
      · cases hs

/-- A service record that finds room. -/
theorem Recalls.insert_srv (h : Recalls fold hs) (hr : r.rdata = .srv port target)
    (hop : isOperational r.name = true) (hroom : fold.srv.HasRoom r.name.lower) :
    Recalls { fold with srv := fold.srv.insert r.name.lower (port, target.lower, r.ttl) }
      (hs ++ [(now, r)]) := by
  have haaaa : ∀ host, aaaaOf host r = none := fun host => by rw [aaaaOf, hr]
  refine ⟨?_, ?_, ?_, h.nonempty, h.nodup, ?_⟩
  · intro inst v hv
    rw [lastSrv_concat, srvOf_srv hr]
    by_cases he : r.name.lower = inst
    · subst he
      rw [BoundedMap.lookup_insert_of_room hroom] at hv
      cases hv
      exact ⟨now, by rw [if_pos rfl]; rfl⟩
    · rw [BoundedMap.lookup_insert_ne (Ne.symm he)] at hv
      rw [if_neg he]
      exact h.srv inst v hv
  · intro inst hi
    rcases BoundedMap.mem_keys_insert hi with rfl | hi
    · exact ⟨suffix_lower (isOperational_iff.1 hop), Name.lower_lower _⟩
    · exact h.operational inst hi
  · intro inst p t l hv
    by_cases he : inst = r.name.lower
    · subst he
      rw [BoundedMap.lookup_insert_of_room hroom] at hv
      cases hv
      exact Name.lower_lower _
    · rw [BoundedMap.lookup_insert_ne he] at hv
      exact h.targets inst p t l hv
  · intro host l hl x hx
    obtain ⟨⟨ttl, hlast⟩, hsup⟩ := h.seen host l hl x hx
    rw [lastAaaa_concat, superseded_concat, haaaa host]
    exact ⟨⟨ttl, hlast⟩, fun hs => hs.elim hsup fun hs => by cases hs.1⟩

/-- The history of a clock that has not gone past `now`. -/
def Past (now : Instant) (hs : List (Instant × Record)) : Prop := ∀ x ∈ hs, x.1 ≤ now

theorem Past.concat (h : Past now hs) : Past now (hs ++ [(now, r)]) := by
  intro x hx
  rcases List.mem_append.1 hx with hx | hx
  · exact h x hx
  · exact (List.mem_singleton.1 hx) ▸ Nat.le_refl now

/-- What is seen now was not superseded. -/
theorem Past.not_superseded (h : Past now hs) : ¬ Superseded host now hs := by
  rintro ⟨x, hx, -, -, hlt⟩
  exact Nat.lt_irrefl _ (Nat.lt_of_le_of_lt (Nat.le_trans (h x hx) (Nat.le_add_right _ _)) hlt)

/-- An address that finds room. -/
theorem Recalls.insert_aaaa (h : Recalls fold hs) (hpast : Past now hs) (hr : r.rdata = .aaaa addr)
    (hroom : fold.addrs.HasRoom r.name.lower) :
    Recalls (fold.learn r addr now) (hs ++ [(now, r)]) := by
  have hsrv : ∀ inst, srvOf inst r = none := fun inst => by rw [srvOf, hr]
  have hnodup : (((fold.addrs.lookup r.name.lower).getD []).map (·.1)).Nodup := by
    cases hl : fold.addrs.lookup r.name.lower with
    | none => exact List.nodup_nil
    | some l => exact h.nodup _ l hl
  obtain ⟨⟨y, hy, -⟩, hspec, hmem⟩ := learnAddress_spec r.cacheFlush addr now hnodup
  refine ⟨?_, h.operational, h.targets, ?_, ?_, ?_⟩
  · intro inst v hv
    rw [lastSrv_concat, hsrv inst]
    exact h.srv inst v hv
  · intro host l hl
    by_cases he : host = r.name.lower
    · subst he
      rw [OperationalFold.learn, BoundedMap.lookup_insert_of_room hroom] at hl
      cases hl
      exact List.ne_nil_of_mem hy
    · rw [OperationalFold.learn, BoundedMap.lookup_insert_ne he] at hl
      exact h.nonempty host l hl
  · intro host l hl
    by_cases he : host = r.name.lower
    · subst he
      rw [OperationalFold.learn, BoundedMap.lookup_insert_of_room hroom] at hl
      cases hl
      exact hspec
    · rw [OperationalFold.learn, BoundedMap.lookup_insert_ne he] at hl
      exact h.nodup host l hl
  · intro host l hl x hx
    rw [lastAaaa_concat, superseded_concat, aaaaOf_aaaa hr]
    by_cases he : host = r.name.lower
    · subst he
      rw [OperationalFold.learn, BoundedMap.lookup_insert_of_room hroom] at hl
      cases hl
      rw [if_pos rfl]
      rcases hmem x hx with rfl | ⟨hne, hx, hgrace⟩
      · refine ⟨⟨r.ttl, by rw [if_pos rfl]; rfl⟩, ?_⟩
        rintro (hs | ⟨-, -, hlt⟩)
        · exact hpast.not_superseded hs
        · exact Nat.lt_irrefl _ (Nat.lt_of_le_of_lt (Nat.le_add_right _ _) hlt)
      · cases hold : fold.addrs.lookup r.name.lower with
        | none =>
          rw [hold] at hx
          cases hx
        | some l =>
          rw [hold] at hx
          obtain ⟨⟨ttl, hlast⟩, hsup⟩ := h.seen _ l hold x hx
          refine ⟨⟨ttl, ?_⟩, ?_⟩
          · rw [if_neg fun ha => hne (Option.some.inj ha).symm, Option.none_or, hlast]
          · rintro (hs | ⟨-, hflush, hlt⟩)
            · exact hsup hs
            · exact Nat.lt_irrefl _
                (Nat.lt_of_lt_of_le hlt (Nat.sub_le_iff_le_add'.1 (hgrace hflush)))
    · rw [OperationalFold.learn, BoundedMap.lookup_insert_ne he] at hl
      obtain ⟨⟨ttl, hlast⟩, hsup⟩ := h.seen host l hl x hx
      rw [if_neg (Ne.symm he)]
      exact ⟨⟨ttl, hlast⟩, fun hs => hs.elim hsup fun hs => by cases hs.1⟩

/-- A text record leaves services and addresses as they are. -/
theorem Recalls.text (h : Recalls fold hs) {txt : BoundedMap Name (List Bytes) maxFoldEntries} :
    Recalls { fold with txt := txt } hs := by
  exact ⟨h.srv, h.operational, h.targets, h.nonempty, h.nodup, h.seen⟩

/-- What one record does. -/
inductive Folded (now : Instant) (fold : OperationalFold) (touched : List Name) (r : Record) :
    OperationalFold → List Name → Prop
  | srv (port : UInt16) (target : Name) (hr : r.rdata = .srv port target)
      (hop : operationalSuffix <:+ r.name) (hroom : fold.srv.HasRoom r.name.lower) :
      Folded now fold touched r
        { fold with srv := fold.srv.insert r.name.lower (port, target.lower, r.ttl) }
        (touched.insert r.name.lower)
  | txt (strings : List Bytes) (hr : r.rdata = .txt strings) (hop : operationalSuffix <:+ r.name)
      (hroom : fold.txt.HasRoom r.name.lower) :
      Folded now fold touched r { fold with txt := fold.txt.insert r.name.lower strings }
        (touched.insert r.name.lower)
  | aaaa (addr : Ipv6Addr) (touched' : List Name) (hr : r.rdata = .aaaa addr)
      (hmem : ∀ inst, inst ∈ touched' ↔ inst ∈ touched ∨ ∃ port target ttl,
        fold.srv.lookup inst = some (port, target, ttl) ∧ target.lower = r.name.lower) :
      Folded now fold touched r (fold.learn r addr now) touched'
  | silent (hsrv : ∀ port target, r.rdata = .srv port target →
        ¬ (operationalSuffix <:+ r.name ∧ fold.srv.HasRoom r.name.lower))
      (htxt : ∀ strings, r.rdata = .txt strings →
        ¬ (operationalSuffix <:+ r.name ∧ fold.txt.HasRoom r.name.lower))
      (haaaa : ∀ addr, r.rdata ≠ .aaaa addr) : Folded now fold touched r fold touched

theorem foldRecord_spec :
    Folded now fold touched r (foldRecord now fold touched r).1 (foldRecord now fold touched r).2 := by
  unfold foldRecord
  split
  · next port target hr =>
    split
    · next h => exact .srv port target hr (isOperational_iff.1 h.1) h.2
    · next h =>
      refine .silent (fun p t _ hroom => h ⟨isOperational_iff.2 hroom.1, hroom.2⟩) ?_ ?_ <;>
        rw [hr] <;> rintro _ ⟨⟩
  · next strings hr =>
    split
    · next h => exact .txt strings hr (isOperational_iff.1 h.1) h.2
    · next h =>
      refine .silent ?_ (fun s _ hroom => h ⟨isOperational_iff.2 hroom.1, hroom.2⟩) ?_
      · rw [hr]
        rintro _ _ ⟨⟩
      · rw [hr]
        rintro _ ⟨⟩
  · next addr hr =>
    refine .aaaa addr _ hr fun inst => ?_
    rw [List.mem_union_iff, List.mem_map, or_comm]
    refine or_congr_right ⟨?_, ?_⟩
    · rintro ⟨⟨name, port, target, ttl⟩, hmem, rfl⟩
      obtain ⟨hmem, hname⟩ := List.mem_filter.1 hmem
      refine ⟨port, target, ttl, BoundedMap.mem_entries.1 hmem, ?_⟩
      rw [eqIgnoreAsciiCase_iff.1 hname, Name.lower_lower]
    · rintro ⟨port, target, ttl, hlook, hname⟩
      refine ⟨(inst, port, target, ttl), List.mem_filter.2 ⟨BoundedMap.mem_entries.2 hlook, ?_⟩, rfl⟩
      rw [eqIgnoreAsciiCase_iff, hname, Name.lower_lower]
  · next hsrv htxt haaaa =>
    exact .silent (fun p t hr => (hsrv p t hr).elim) (fun s hr => (htxt s hr).elim) haaaa

/-- **One record** is recalled, with room or without. -/
theorem Recalls.folded {fold' : OperationalFold} {touched' : List Name} (h : Recalls fold hs)
    (hpast : Past now hs) (hsp : Spelled r) (hspec : Folded now fold touched r fold' touched') :
    Recalls fold' (hs ++ [(now, r)]) := by
  cases hspec with
  | srv port target hr hop hroom => exact h.insert_srv hr (isOperational_iff.2 hop) hroom
  | txt strings hr hop hroom =>
    exact (h.silent (fun inst _ => by rw [srvOf, hr]) fun host _ => by rw [aaaaOf, hr]).text
  | aaaa addr touched' hr hmem =>
    by_cases hroom : fold.addrs.HasRoom r.name.lower
    · exact h.insert_aaaa hpast hr hroom
    · have hfull : fold.learn r addr now = fold := by
        rw [OperationalFold.learn, BoundedMap.insert_of_full hroom]
      rw [hfull]
      exact h.silent (fun inst _ => by rw [srvOf, hr]) fun host hh =>
        aaaaOf_of_name_ne fun he => hroom (Or.inl (he ▸ hh))
  | silent hsrv htxt haaaa =>
    refine h.silent (fun inst hi => ?_) fun host _ => ?_
    · cases hr : r.rdata with
      | srv port target =>
        refine srvOf_of_name_ne fun he => hsrv port target hr ⟨hsp ?_ ?_, Or.inl (he ▸ hi)⟩
        · rw [srvOf_srv hr, if_pos rfl]
          rfl
        · exact he ▸ (h.operational inst hi).1
      | _ => rw [srvOf, hr]
    · cases hr : r.rdata with
      | aaaa addr => exact (haaaa addr hr).elim
      | _ => rw [aaaaOf, hr]

end

/-! ## The records of a datagram -/

section
variable {fold : OperationalFold} {hs : List (Instant × Record)} {now : Instant} {rs : List Record}
  {r : Record} {inst host target : Name} {port : UInt16} {ttl : UInt32}

theorem foldRecords_concat :
    foldRecords now fold (rs ++ [r]) =
      foldRecord now (foldRecords now fold rs).1 (foldRecords now fold rs).2 r := by
  rw [foldRecords, foldRecords, List.foldl_append]
  rfl

theorem stamp_concat : hs ++ (rs ++ [r]).map (now, ·) = hs ++ rs.map (now, ·) ++ [(now, r)] := by
  rw [List.map_append, List.append_assoc]
  rfl

theorem Past.stamp (h : Past now hs) : Past now (hs ++ rs.map (now, ·)) := by
  intro x hx
  rcases List.mem_append.1 hx with hx | hx
  · exact h x hx
  · obtain ⟨r, -, rfl⟩ := List.mem_map.1 hx
    exact Nat.le_refl now

/-- What holds of no records, and is preserved by one more, holds of all of them. -/
theorem foldRecords_induct {motive : List Record → OperationalFold → List Name → Prop}
    (hnil : motive [] fold [])
    (hstep : ∀ rs' r fold' touched', rs' ++ [r] <+: rs →
      Folded now (foldRecords now fold rs').1 (foldRecords now fold rs').2 r fold' touched' →
      motive rs' (foldRecords now fold rs').1 (foldRecords now fold rs').2 →
      motive (rs' ++ [r]) fold' touched') :
    motive rs (foldRecords now fold rs).1 (foldRecords now fold rs).2 := by
  suffices h : ∀ rs', rs' <+: rs → motive rs' (foldRecords now fold rs').1 (foldRecords now fold rs').2
    from h rs (List.prefix_refl rs)
  intro rs' hpre
  induction rs' using List.reverseRecOn with
  | nil => exact hnil
  | append_singleton rs' r ih =>
    have hpre' : rs' <+: rs := (List.prefix_append rs' [r]).trans hpre
    refine hstep rs' r _ _ hpre ?_ (ih hpre')
    rw [foldRecords_concat]
    exact foldRecord_spec

/-- The records of a datagram are recalled. -/
theorem Recalls.foldRecords (h : Recalls fold hs) (hpast : Past now hs)
    (hsp : ∀ r ∈ rs, Spelled r) :
    Recalls (foldRecords now fold rs).1 (hs ++ rs.map (now, ·)) := by
  refine foldRecords_induct (motive := fun rs' fold' _ => Recalls fold' (hs ++ rs'.map (now, ·))) ?_ ?_
  · rwa [List.map_nil, List.append_nil]
  · intro rs' r fold' touched' hpre hspec ih
    rw [stamp_concat]
    have hmem : r ∈ rs := hpre.subset (List.mem_append_right _ (List.mem_singleton_self r))
    exact ih.folded hpast.stamp (hsp r hmem) hspec

/-- What is said of an instance is as before, or a service record of the datagram said it. -/
theorem srv_lookup_cases (now : Instant) (fold : OperationalFold) (rs : List Record) (inst : Name) :
    (foldRecords now fold rs).1.srv.lookup inst = fold.srv.lookup inst ∨
      inst ∈ (foldRecords now fold rs).2 ∧
        ∃ r ∈ rs, (srvOf inst r).isSome ∧ operationalSuffix <:+ r.name := by
  refine foldRecords_induct (motive := fun rs' fold' touched' =>
    fold'.srv.lookup inst = fold.srv.lookup inst ∨
      inst ∈ touched' ∧ ∃ r ∈ rs', (srvOf inst r).isSome ∧ operationalSuffix <:+ r.name) (Or.inl rfl) ?_
  intro rs' r fold' touched' hpre hspec ih
  have hmore : (∃ r ∈ rs', (srvOf inst r).isSome ∧ operationalSuffix <:+ r.name) →
      ∃ x ∈ rs' ++ [r], (srvOf inst x).isSome ∧ operationalSuffix <:+ x.name :=
    fun ⟨x, hx, hs⟩ => ⟨x, List.mem_append_left _ hx, hs⟩
  cases hspec with
  | srv port target hr hop hroom =>
    by_cases he : inst = r.name.lower
    · refine Or.inr ⟨he ▸ List.mem_insert_self, r, by simp, ?_, hop⟩
      rw [srvOf_srv hr, if_pos he.symm]
      rfl
    · rw [BoundedMap.lookup_insert_ne he]
      exact ih.imp_right fun h => ⟨List.mem_insert_of_mem h.1, hmore h.2⟩
  | txt => exact ih.imp_right fun h => ⟨List.mem_insert_of_mem h.1, hmore h.2⟩
  | aaaa addr _ hr hmem => exact ih.imp_right fun h => ⟨(hmem inst).2 (Or.inl h.1), hmore h.2⟩
  | silent => exact ih.imp_right fun h => ⟨h.1, hmore h.2⟩

/-- Known instances stay known. -/
theorem srv_keys_subset (h : inst ∈ fold.srv.keys) : inst ∈ (foldRecords now fold rs).1.srv.keys := by
  refine foldRecords_induct (motive := fun _ fold' _ => inst ∈ fold'.srv.keys) h ?_
  intro rs' r fold' touched' hpre hspec ih
  cases hspec with
  | srv => exact BoundedMap.keys_subset_insert ih
  | _ => exact ih

/-- Known hosts stay known. -/
theorem addrs_keys_subset (h : host ∈ fold.addrs.keys) :
    host ∈ (foldRecords now fold rs).1.addrs.keys := by
  refine foldRecords_induct (motive := fun _ fold' _ => host ∈ fold'.addrs.keys) h ?_
  intro rs' r fold' touched' hpre hspec ih
  cases hspec with
  | aaaa => exact BoundedMap.keys_subset_insert ih
  | _ => exact ih

/-- The hosts that are known were known, or are named by a datagram. -/
theorem mem_addrs_keys (h : host ∈ (foldRecords now fold rs).1.addrs.keys) :
    host ∈ fold.addrs.keys ∨ ∃ r ∈ rs, (aaaaOf host r).isSome := by
  revert h
  refine foldRecords_induct (motive := fun rs' fold' _ => host ∈ fold'.addrs.keys →
    host ∈ fold.addrs.keys ∨ ∃ r ∈ rs', (aaaaOf host r).isSome) Or.inl ?_
  intro rs' r fold' touched' hpre hspec ih h
  have hmore : (∃ r ∈ rs', (aaaaOf host r).isSome) → ∃ x ∈ rs' ++ [r], (aaaaOf host x).isSome :=
    fun ⟨x, hx, hs⟩ => ⟨x, List.mem_append_left _ hx, hs⟩
  cases hspec with
  | aaaa addr _ hr hmem =>
    rcases BoundedMap.mem_keys_insert h with rfl | h
    · refine Or.inr ⟨r, by simp, ?_⟩
      rw [aaaaOf_aaaa hr, if_pos rfl]
      rfl
    · exact (ih h).imp_right hmore
  | _ => exact (ih h).imp_right hmore

/-- **What is not touched** does not change, and the datagram says nothing about it. -/
theorem untouched
    (hroom : ∀ rs' r, rs' ++ [r] <+: rs → (srvOf inst r).isSome →
      (foldRecords now fold rs').1.srv.HasRoom inst)
    (hsp : ∀ r ∈ rs, Spelled r) (hop : operationalSuffix <:+ inst)
    (hnot : inst ∉ (foldRecords now fold rs).2) :
    (foldRecords now fold rs).1.srv.lookup inst = fold.srv.lookup inst ∧
      ∀ r ∈ rs, srvOf inst r = none ∧ ∀ port target ttl,
        fold.srv.lookup inst = some (port, target, ttl) → aaaaOf target r = none := by
  revert hnot
  refine foldRecords_induct (motive := fun rs' fold' touched' => inst ∉ touched' →
    fold'.srv.lookup inst = fold.srv.lookup inst ∧ ∀ r ∈ rs', srvOf inst r = none ∧
      ∀ port target ttl, fold.srv.lookup inst = some (port, target, ttl) → aaaaOf target r = none)
    (fun _ => ⟨rfl, by rintro _ ⟨⟩⟩) ?_
  intro rs' r fold' touched' hpre hspec ih hnot
  have hmem : r ∈ rs := hpre.subset (List.mem_append_right _ (List.mem_singleton_self r))
  -- the records before are silent already, so only the last is at issue
  suffices hlast : inst ∉ (foldRecords now fold rs').2 ∧
      fold'.srv.lookup inst = (foldRecords now fold rs').1.srv.lookup inst ∧ srvOf inst r = none ∧
        ∀ port target ttl, (foldRecords now fold rs').1.srv.lookup inst = some (port, target, ttl) →
          aaaaOf target r = none by
    obtain ⟨hbefore, hsame, hsrv, haaaa⟩ := hlast
    obtain ⟨hlook, hall⟩ := ih hbefore
    refine ⟨hsame.trans hlook, fun x hx => ?_⟩
    rcases List.mem_append.1 hx with hx | hx
    · exact hall x hx
    · cases List.mem_singleton.1 hx
      exact ⟨hsrv, fun p t l hl => haaaa p t l (hlook.trans hl)⟩
  cases hspec with
  | srv port target hr hop hroom' =>
    rw [List.mem_insert_iff, not_or] at hnot
    refine ⟨hnot.2, BoundedMap.lookup_insert_ne hnot.1, srvOf_of_name_ne (Ne.symm hnot.1), ?_⟩
    intro _ _ _ _
    rw [aaaaOf, hr]
  | txt strings hr hop hroom' =>
    rw [List.mem_insert_iff, not_or] at hnot
    refine ⟨hnot.2, rfl, by rw [srvOf, hr], ?_⟩
    intro _ _ _ _
    rw [aaaaOf, hr]
  | aaaa addr _ hr hmem =>
    refine ⟨fun h => hnot ((hmem inst).2 (Or.inl h)), rfl, by rw [srvOf, hr], ?_⟩
    intro port target ttl hlook
    refine aaaaOf_of_name_ne fun he => hnot ((hmem inst).2 (Or.inr ⟨port, target, ttl, hlook, ?_⟩))
    rw [← he, Name.lower_lower]
  | silent hsrv htxt haaaa =>
    refine ⟨hnot, rfl, ?_, ?_⟩
    · cases hr : r.rdata with
      | srv port target =>
        refine srvOf_of_name_ne fun he => ?_
        have hsome : (srvOf r.name.lower r).isSome := by
          rw [srvOf_srv hr, if_pos rfl]
          rfl
        refine hsrv port target hr ⟨hsp r hmem hsome (he ▸ hop), ?_⟩
        rw [he]
        exact hroom rs' r hpre (he ▸ hsome)
      | _ => rw [srvOf, hr]
    · intro _ target _ _
      cases hr : r.rdata with
      | aaaa addr => exact (haaaa addr hr).elim
      | _ => rw [aaaaOf, hr]

/-- What touches an instance: a service record of it, a text of it, or an address of its host. -/
theorem touched_cases (h : inst ∈ (foldRecords now fold rs).2) :
    (∃ r ∈ rs, (srvOf inst r).isSome) ∨
      (∃ r ∈ rs, (txtOf inst r).isSome ∧ operationalSuffix <:+ r.name) ∨
      ∃ r ∈ rs, ∃ port target ttl, fold.srv.lookup inst = some (port, target, ttl) ∧
        (aaaaOf target.lower r).isSome := by
  suffices hsuff : ∃ r ∈ rs, (srvOf inst r).isSome ∨
      (txtOf inst r).isSome ∧ operationalSuffix <:+ r.name ∨ ∃ port target ttl, fold.srv.lookup inst = some (port, target, ttl) ∧
        (aaaaOf target.lower r).isSome by
    obtain ⟨r, hr, h | h | h⟩ := hsuff
    · exact Or.inl ⟨r, hr, h⟩
    · exact Or.inr (Or.inl ⟨r, hr, h⟩)
    · exact Or.inr (Or.inr ⟨r, hr, h⟩)
  revert h
  refine foldRecords_induct (motive := fun rs' fold' touched' => inst ∈ touched' →
    ∃ r ∈ rs', (srvOf inst r).isSome ∨
      (txtOf inst r).isSome ∧ operationalSuffix <:+ r.name ∨ ∃ port target ttl, fold.srv.lookup inst = some (port, target, ttl) ∧
        (aaaaOf target.lower r).isSome) (by rintro ⟨⟩) ?_
  intro rs' r fold' touched' hpre hspec ih h
  have hlast : r ∈ rs' ++ [r] := List.mem_append_right _ (List.mem_singleton_self r)
  suffices hsuff : inst ∈ (foldRecords now fold rs').2 ∨ ((srvOf inst r).isSome ∨
      (txtOf inst r).isSome ∧ operationalSuffix <:+ r.name ∨ ∃ port target ttl,
        (foldRecords now fold rs').1.srv.lookup inst = some (port, target, ttl) ∧
          (aaaaOf target.lower r).isSome) by
    rcases hsuff with h | h | h | ⟨port, target, ttl, hlook, h⟩
    · obtain ⟨x, hx, hs⟩ := ih h
      exact ⟨x, List.mem_append_left _ hx, hs⟩
    · exact ⟨r, hlast, Or.inl h⟩
    · exact ⟨r, hlast, Or.inr (Or.inl h)⟩
    · rcases srv_lookup_cases now fold rs' inst with hsame | hsaid
      · exact ⟨r, hlast, Or.inr (Or.inr ⟨port, target, ttl, hsame ▸ hlook, h⟩)⟩
      · obtain ⟨x, hx, hs, -⟩ := hsaid.2
        exact ⟨x, List.mem_append_left _ hx, Or.inl hs⟩
  cases hspec with
  | srv port target hr hop hroom' =>
    refine (List.mem_insert_iff.1 h).symm.imp_right fun he => Or.inl ?_
    rw [srvOf_srv hr, if_pos he.symm]
    rfl
  | txt strings hr hop hroom' =>
    refine (List.mem_insert_iff.1 h).symm.imp_right fun he => Or.inr (Or.inl ?_)
    refine ⟨?_, hop⟩
    rw [txtOf, hr, he]
    dsimp only
    rw [if_pos rfl]
    rfl
  | aaaa addr _ hr hmem =>
    refine ((hmem inst).1 h).imp_right fun ⟨port, target, ttl, hlook, he⟩ => Or.inr (Or.inr ?_)
    refine ⟨port, target, ttl, hlook, ?_⟩
    rw [aaaaOf_aaaa hr, if_pos he.symm]
    rfl
  | silent => exact Or.inl h

end

end MatStack.Dnssd
