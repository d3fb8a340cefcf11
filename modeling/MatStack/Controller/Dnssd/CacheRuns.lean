import MatStack.Controller.Dnssd.CacheHistory

/-!
# The listener over a run

What a datagram does to the cache is `lookup_refreshAll`: the entry of an instance is as before, or,
when the datagram touched the instance and it is complete, it is made anew. `Listener.Kept` is what
a listener keeps over every run whose service types are spelled in small letters: its maps hold what
its history said last, and the cache has no instance that has no service.
-/

namespace MatStack.Dnssd

open Machine

/-! ## The history after a datagram -/

section
variable {hs : List (Instant × Record)} {now seen s : Instant} {rs : List Record}
  {inst host : Name} {addr : Ipv6Addr} {v : UInt16 × Name × UInt32} {x : Instant × UInt32}

/-- A datagram that says nothing of an instance. -/
theorem lastSrv_stamp_silent (h : ∀ r ∈ rs, srvOf inst r = none) :
    lastSrv inst (hs ++ rs.map (now, ·)) = lastSrv inst hs := by
  induction rs using List.reverseRecOn with
  | nil => rw [List.map_nil, List.append_nil]
  | append_singleton rs r ih =>
    rw [stamp_concat, lastSrv_concat, h r (by simp), Option.map_none, Option.none_or]
    exact ih fun x hx => h x (List.mem_append_left _ hx)

/-- A datagram that says something of an instance says it now. -/
theorem lastSrv_stamp_said (hs : List (Instant × Record)) (now : Instant)
    (h : ∃ r ∈ rs, (srvOf inst r).isSome) :
    ∃ v, lastSrv inst (hs ++ rs.map (now, ·)) = some (now, v) ∧ ∃ r ∈ rs, srvOf inst r = some v := by
  induction rs using List.reverseRecOn with
  | nil =>
    obtain ⟨r, hr, -⟩ := h
    cases hr
  | append_singleton rs r ih =>
    rw [stamp_concat, lastSrv_concat]
    cases hr : srvOf inst r with
    | some v => exact ⟨v, rfl, r, by simp, hr⟩
    | none =>
      have hrest : ∃ r ∈ rs, (srvOf inst r).isSome := by
        obtain ⟨x, hx, hs⟩ := h
        rcases List.mem_append.1 hx with hx | hx
        · exact ⟨x, hx, hs⟩
        · rw [List.mem_singleton.1 hx, hr] at hs
          cases hs
      obtain ⟨v, hv, x, hx, hxv⟩ := ih hrest
      rw [Option.map_none, Option.none_or]
      exact ⟨v, hv, x, List.mem_append_left _ hx, hxv⟩

theorem lastAaaa_stamp_silent (h : ∀ r ∈ rs, aaaaOf host r = none) :
    lastAaaa host addr (hs ++ rs.map (now, ·)) = lastAaaa host addr hs := by
  induction rs using List.reverseRecOn with
  | nil => rw [List.map_nil, List.append_nil]
  | append_singleton rs r ih =>
    rw [stamp_concat, lastAaaa_concat, h r (by simp), if_neg (by rintro ⟨⟩), Option.none_or]
    exact ih fun x hx => h x (List.mem_append_left _ hx)

theorem superseded_stamp_silent (h : ∀ r ∈ rs, aaaaOf host r = none) :
    Superseded host seen (hs ++ rs.map (now, ·)) ↔ Superseded host seen hs := by
  induction rs using List.reverseRecOn with
  | nil => rw [List.map_nil, List.append_nil]
  | append_singleton rs r ih =>
    rw [stamp_concat, superseded_concat, h r (by simp),
      ih fun x hx => h x (List.mem_append_left _ hx)]
    simp

theorem lastSrv_mem (h : lastSrv inst hs = some (s, v)) :
    ∃ r, (s, r) ∈ hs ∧ srvOf inst r = some v := by
  obtain ⟨y, hy, hx⟩ := List.exists_of_findSome?_eq_some h
  obtain ⟨w, hw, he⟩ := Option.map_eq_some_iff.1 hx
  cases he
  exact ⟨y.2, List.mem_reverse.1 hy, hw⟩

/-- What was said last was said. -/
theorem Past.lastSrv (h : Past now hs) (hlast : Dnssd.lastSrv inst hs = some (s, v)) : s ≤ now := by
  obtain ⟨r, hr, -⟩ := lastSrv_mem hlast
  exact h (s, r) hr

/-- What was announced last was announced. -/
theorem lastAaaa_mem (h : lastAaaa host addr hs = some x) :
    ∃ r, (x.1, r) ∈ hs ∧ aaaaOf host r = some addr ∧ x.2 = r.ttl := by
  obtain ⟨y, hy, hx⟩ := List.exists_of_findSome?_eq_some h
  split at hx
  · next ha =>
    cases hx
    exact ⟨y.2, List.mem_reverse.1 hy, ha, rfl⟩
  · cases hx

end

/-! ## The instances of a datagram -/

/-- The entry that is made of an instance. -/
def freshEntry (now : Instant) (x : ResolvedNode × UInt32) : CacheEntry := ⟨x.1, now + x.2.toNat * 1000⟩

section
variable {fold : OperationalFold} {cache : OperationalCache} {now : Instant} {inst name : Name}
  {names : List Name} {node : ResolvedNode} {ttl : UInt32}

/-- A complete instance has a service and a host with an address. -/
theorem completed_eq_some (h : completed fold inst = some (node, ttl)) :
    ∃ target l, fold.srv.lookup inst = some (node.port, target, ttl) ∧
      fold.addrs.lookup target = some l ∧ node.addresses = sortAddresses l := by
  unfold completed at h
  split at h
  · cases h
  · next port target ttl' hsrv =>
    split at h
    · cases h
    · cases h
    · next l _ hl =>
      cases h
      exact ⟨target, l, hsrv, hl, rfl⟩

/-- An instance with a service and a host with an address is complete. -/
theorem completed_of_lookup {port : UInt16} {target : Name} {l : List (Ipv6Addr × Instant)}
    (hsrv : fold.srv.lookup inst = some (port, target, ttl)) (hl : fold.addrs.lookup target = some l)
    (hne : l ≠ []) :
    completed fold inst = some (.fromParts port (sortAddresses l)
      ((fold.txt.lookup inst).getD []), ttl) := by
  obtain ⟨x, l, rfl⟩ := List.exists_cons_of_ne_nil hne
  rw [completed, hsrv]
  dsimp only
  rw [hl]

/-- One touched instance: only its own entry changes, where there is room. -/
theorem lookup_refresh (inst : Name) (hlow : name.lower = name) (hsub : ∀ k ∈ cache.keys, k ∈ fold.srv.keys) :
    (refresh fold now cache name).lookup inst =
        (if inst = name then (completed fold name).map (freshEntry now) else none).or
          (cache.lookup inst) ∧
      ∀ k ∈ (refresh fold now cache name).keys, k ∈ fold.srv.keys := by
  unfold refresh
  cases hc : completed fold name with
  | none =>
    refine ⟨?_, hsub⟩
    rw [Option.map_none, ite_self, Option.none_or]
  | some x =>
    obtain ⟨node, ttl⟩ := x
    obtain ⟨target, l, hsrv, -, -⟩ := completed_eq_some hc
    have hkey : name ∈ fold.srv.keys := BoundedMap.mem_keys.2 ⟨_, hsrv⟩
    -- both maps take as many names, and the cache has no others than the services
    have hroom : BoundedMap.HasRoom cache name := by
      refine BoundedMap.room_of_card_le (s := fold.srv.keys.toFinset) ?_ ?_ ?_
      · rw [List.toFinset_card_of_nodup fold.srv.nodup_keys]
        exact fold.srv.length_le
      · exact fun k hk => List.mem_toFinset.2 (hsub k hk)
      · exact List.mem_toFinset.2 hkey
    dsimp only [OperationalCache.put]
    rw [hlow]
    constructor
    · by_cases he : inst = name
      · subst he
        rw [if_pos rfl]
        exact BoundedMap.lookup_insert_of_room hroom
      · rw [if_neg he, Option.none_or]
        exact BoundedMap.lookup_insert_ne he
    · intro k hk
      rcases BoundedMap.mem_keys_insert hk with rfl | hk
      · exact hkey
      · exact hsub k hk

/-- **The touched instances.** The entry of an instance is as before, or made anew. -/
theorem lookup_refreshAll (inst : Name) (hlow : ∀ n ∈ names, n.lower = n)
    (hsub : ∀ k ∈ cache.keys, k ∈ fold.srv.keys) :
    (names.foldl (refresh fold now) cache).lookup inst =
        (if inst ∈ names then (completed fold inst).map (freshEntry now) else none).or
          (cache.lookup inst) ∧
      ∀ k ∈ (names.foldl (refresh fold now) cache).keys, k ∈ fold.srv.keys := by
  induction names generalizing cache with
  | nil =>
    refine ⟨?_, hsub⟩
    rw [if_neg (by rintro ⟨⟩), Option.none_or]
    rfl
  | cons name names ih =>
    obtain ⟨hone, hkeys⟩ := @lookup_refresh fold cache now name inst (hlow name (by simp)) hsub
    obtain ⟨hrest, hkeys'⟩ := ih (fun n hn => hlow n (List.mem_cons_of_mem _ hn)) hkeys
    refine ⟨?_, hkeys'⟩
    rw [List.foldl_cons, hrest, hone, ← Option.or_assoc]
    congr 1
    by_cases he : inst = name
    · subst he
      rw [if_pos rfl, if_pos List.mem_cons_self]
      split
      · exact Option.or_self
      · exact Option.none_or
    · rw [if_neg he, Option.or_none]
      by_cases hmem : inst ∈ names
      · rw [if_pos hmem, if_pos (List.mem_cons_of_mem _ hmem)]
      · rw [if_neg hmem, if_neg fun h => (List.mem_cons.1 h).elim he hmem]

end

/-! ## The listener -/

namespace Listener

/-- The time of a datagram. -/
def now (l : Listener) (d : Datagram) : Instant := l.clock + d.elapsed

/-- What the listener keeps, as long as service types are spelled in small letters. -/
structure Kept (l : Listener) : Prop where
  recalls : Recalls l.fold l.history
  past : Past l.clock l.history
  cached : ∀ inst ∈ l.cache.keys, inst ∈ l.fold.srv.keys

section
variable {l : Listener} {d : Datagram} {inst : Name} {e : CacheEntry}

theorem step_fold : (l.step d).fold = (foldRecords (l.now d) l.fold d.records).1 := rfl

theorem step_history : (l.step d).history = l.history ++ d.records.map (l.now d, ·) := rfl

theorem step_clock : (l.step d).clock = l.now d := rfl

theorem clock_le_now : l.clock ≤ l.now d := Nat.le_add_right _ _

theorem Kept.past_now (h : Kept l) : Past (l.now d) l.history :=
  fun x hx => Nat.le_trans (h.past x hx) clock_le_now

/-- The names that a datagram touches are in small letters. -/
theorem Kept.touched_lower (h : Kept l) (hi : inst ∈ (foldRecords (l.now d) l.fold d.records).2) :
    inst.lower = inst := by
  rcases touched_cases hi with ⟨r, -, hr⟩ | ⟨r, -, hr, -⟩ |
    ⟨r, -, port, target, ttl, hlook, -⟩
  · by_cases he : r.name.lower = inst
    · rw [← he, Name.lower_lower]
    · rw [srvOf_of_name_ne he] at hr
      cases hr
  · unfold txtOf at hr
    split at hr
    · split at hr
      · next he => rw [← he, Name.lower_lower]
      · cases hr
    · cases hr
  · exact (h.recalls.operational inst (BoundedMap.mem_keys.2 ⟨_, hlook⟩)).2

/-- **The entry of an instance** after a datagram. -/
theorem Kept.lookup_step (h : Kept l) (d : Datagram) (inst : Name) :
    (l.step d).cache.lookup inst =
        (if inst ∈ (foldRecords (l.now d) l.fold d.records).2 then
          (completed (l.step d).fold inst).map (freshEntry (l.now d)) else none).or
          (l.cache.lookup inst) ∧
      ∀ k ∈ (l.step d).cache.keys, k ∈ (l.step d).fold.srv.keys := by
  have hperm := d.order.perm (foldRecords (l.now d) l.fold d.records).2
  have hlow : ∀ n ∈ d.order.order (foldRecords (l.now d) l.fold d.records).2, n.lower = n :=
    fun n hn => h.touched_lower (hperm.mem_iff.1 hn)
  have hsub : ∀ k ∈ l.cache.keys, k ∈ (foldRecords (l.now d) l.fold d.records).1.srv.keys :=
    fun k hk => srv_keys_subset (h.cached k hk)
  have hall := @lookup_refreshAll _ _ (l.now d) _ inst hlow hsub
  simp only [hperm.mem_iff] at hall
  exact hall

theorem kept_start : Kept start := by
  refine ⟨⟨?_, ?_, ?_, ?_, ?_, ?_⟩, ?_, ?_⟩
  · rintro _ _ ⟨⟩
  · rintro _ ⟨⟩
  · rintro _ _ _ _ ⟨⟩
  · rintro _ _ ⟨⟩
  · rintro _ _ ⟨⟩
  · rintro _ _ ⟨⟩
  · rintro _ ⟨⟩
  · rintro _ ⟨⟩

/-- **One datagram.** -/
theorem Kept.step (h : Kept l) (hsp : ∀ r ∈ d.records, Spelled r) : Kept (l.step d) where
  recalls := h.recalls.foldRecords h.past_now hsp
  past := h.past_now.stamp
  cached := (h.lookup_step d []).2

end

end Listener

end MatStack.Dnssd
