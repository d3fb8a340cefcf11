import MatStack.Controller.Dnssd.CacheLiveness

/-!
# Departed nodes are not found

What the cache has of an instance is fresh: its last service record has not expired, and each
address was announced last, and not superseded, for the host that record names (`Fresh`). The
listener renews an entry for the whole lifetime of the service record whatever record touches the
instance, takes the goodbye of an address for an announcement, and leaves an entry in place when the
instance has moved to a host that has no address yet; a datagram that does none of these is
`Timely`, and along such datagrams every entry that has not expired is `Backed` by the history.
-/

namespace MatStack.Dnssd

open Machine

namespace Listener

/-- What the cache may say of an instance. -/
def Fresh (l : Listener) : Prop :=
  ∀ (inst : Name) (t : Instant) (node : ResolvedNode), l.clock ≤ t → l.cache.get inst t = some node →
    ∃ s port target ttl, lastSrv inst.lower l.history = some (s, port, target, ttl) ∧ ttl ≠ 0 ∧
      s ≤ t ∧ t < s + ttl.toNat * 1000 ∧ node.port = port ∧
      ∀ addr ∈ node.addresses, ∃ seen ttl', lastAaaa target addr l.history = some (seen, ttl') ∧
        ttl' ≠ 0 ∧ ¬ Superseded target seen l.history

/-- A datagram that does not renew an instance by records about other things, says no goodbye of an
address, and moves no instance to a host without an address. -/
structure Timely (l : Listener) (d : Datagram) : Prop where
  spelled : ∀ r ∈ d.records, Spelled r
  announced : ∀ host addr x, lastAaaa host addr (d.records.map (l.now d, ·)) = some x → x.2 ≠ 0
  /-- The text of an instance, or an address of its host, comes with a service record. -/
  prompted : ∀ inst ∈ l.fold.srv.keys, ∀ s port target ttl,
    lastSrv inst l.history = some (s, port, target, ttl) → s ≠ l.now d → ttl ≠ 0 →
    (∃ r ∈ d.records, (txtOf inst r).isSome ∧ operationalSuffix <:+ r.name) ∧
        target ∈ l.fold.addrs.keys ∨
      (∃ r ∈ d.records, (aaaaOf target r).isSome) →
    ∃ r ∈ d.records, (srvOf inst r).isSome
  /-- The host that an instance in the cache moves to has an address. -/
  moved : ∀ inst, (l.cache.get inst (l.now d)).isSome → ∀ s port target ttl,
    lastSrv inst (d.records.map (l.now d, ·)) = some (s, port, target, ttl) →
    target ∈ l.fold.addrs.keys ∨ (∃ r ∈ d.records, (aaaaOf target r).isSome) ∧
      (l.fold.addrs.keys ++ hostNames d.records).toFinset.card ≤ maxFoldEntries

/-- What an entry rests on. -/
structure Backed (l : Listener) (inst : Name) (e : CacheEntry) (s : Instant) (target : Name)
    (ttl : UInt32) : Prop where
  known : l.fold.srv.lookup inst = some (e.node.port, target, ttl)
  last : lastSrv inst l.history = some (s, e.node.port, target, ttl)
  host : target ∈ l.fold.addrs.keys
  expiry : e.expiry = s + ttl.toNat * 1000
  addresses : ∀ addr ∈ e.node.addresses, ∃ seen ttl',
    lastAaaa target addr l.history = some (seen, ttl') ∧ ¬ Superseded target seen l.history

/-- What is kept along timely datagrams. -/
structure Synced (l : Listener) : Prop extends Kept l where
  announced : ∀ host addr x, lastAaaa host addr l.history = some x → x.2 ≠ 0
  backed : ∀ inst e, l.cache.lookup inst = some e → l.clock < e.expiry →
    ∃ s target ttl, Backed l inst e s target ttl

section
variable {l : Listener} {d : Datagram} {inst target : Name} {e : CacheEntry} {s : Instant}
  {port : UInt16} {ttl : UInt32} {node : ResolvedNode} {es : List Datagram}

theorem synced_start : Synced start where
  toKept := kept_start
  announced := by rintro _ _ _ ⟨⟩
  backed := by rintro _ _ ⟨⟩

/-- What is backed is fresh. -/
theorem Synced.fresh (h : Synced l) : Fresh l := by
  intro inst t node hclock hget
  obtain ⟨e, he, rfl⟩ := Option.map_eq_some_iff.1 hget
  obtain ⟨hlook, hlt⟩ := Option.filter_eq_some_iff.1 he
  have hlt : t < e.expiry := by simpa using hlt
  obtain ⟨s, target, ttl, hb⟩ := h.backed _ e hlook (Nat.lt_of_le_of_lt hclock hlt)
  have hpast : s ≤ l.clock := h.past.lastSrv hb.last
  have hst : s ≤ t := Nat.le_trans hpast hclock
  rw [hb.expiry] at hlt
  refine ⟨s, e.node.port, target, ttl, hb.last, ?_, hst, hlt, rfl, ?_⟩
  · rintro rfl
    exact Nat.lt_irrefl s (Nat.lt_of_le_of_lt hst hlt)
  · intro addr haddr
    obtain ⟨seen, ttl', hlast, hsup⟩ := hb.addresses addr haddr
    exact ⟨seen, ttl', hlast, h.announced _ _ _ hlast, hsup⟩

/-- No goodbye of an address was said. -/
theorem Timely.announced_step (h : Timely l d)
    (hold : ∀ host addr x, lastAaaa host addr l.history = some x → x.2 ≠ 0) :
    ∀ host addr x, lastAaaa host addr (l.step d).history = some x → x.2 ≠ 0 := by
  intro host addr x hx
  rw [step_history, lastAaaa_append] at hx
  rcases Option.or_eq_some_iff.1 hx with hx | ⟨-, hx⟩
  · exact h.announced host addr x hx
  · exact hold host addr x hx

/-- The service record of a touched instance that is complete came with the datagram, or says
goodbye. -/
theorem Timely.touched_now (h : Timely l d) (hk : Kept l)
    (hmem : inst ∈ (foldRecords (l.now d) l.fold d.records).2)
    (hlook : (l.step d).fold.srv.lookup inst = some (port, target, ttl))
    (hhost : target ∈ (l.step d).fold.addrs.keys) (httl : ttl ≠ 0) :
    lastSrv inst (l.step d).history = some (l.now d, port, target, ttl) := by
  obtain ⟨s, hs⟩ := (hk.step h.spelled).recalls.srv _ _ hlook
  rw [hs]
  by_cases hsaid : ∃ r ∈ d.records, (srvOf inst r).isSome
  · obtain ⟨v, hv, -⟩ := lastSrv_stamp_said l.history (l.now d) hsaid
    rw [← step_history, hs] at hv
    cases hv
    rfl
  · have hold : l.fold.srv.lookup inst = some (port, target, ttl) := by
      rcases srv_lookup_cases (l.now d) l.fold d.records inst with hsame | ⟨-, r, hr, hs, -⟩
      · exact hsame.symm.trans hlook
      · exact (hsaid ⟨r, hr, hs⟩).elim
    rw [step_history, lastSrv_stamp_silent fun r hr => by simpa using fun hs => hsaid ⟨r, hr, hs⟩] at hs
    by_cases hnow : s = l.now d
    · rw [hnow]
    · refine (hsaid (h.prompted inst (BoundedMap.mem_keys.2 ⟨_, hold⟩) s port target ttl hs hnow httl
        ?_)).elim
      rcases touched_cases hmem with hsrv | htxt | ⟨r, hr, p, x, y, hx, ha⟩
      · exact (hsaid hsrv).elim
      · rcases mem_addrs_keys hhost with hkey | haaaa
        · exact Or.inl ⟨htxt, hkey⟩
        · exact Or.inr haaaa
      · rw [hold] at hx
        cases hx
        rw [hk.recalls.targets _ _ _ _ hold] at ha
        exact Or.inr ⟨r, hr, ha⟩

/-- The host of an instance in the cache has an address after the datagram. -/
theorem Timely.host_known (h : Timely l d) (hk : Kept l) (hget : (l.cache.get inst (l.now d)).isSome)
    (hb : Backed l inst e s target ttl) {port' : UInt16} {target' : Name}
    {ttl' : UInt32} (hlook : (l.step d).fold.srv.lookup inst = some (port', target', ttl')) :
    target' ∈ (l.step d).fold.addrs.keys := by
  by_cases hsaid : ∃ r ∈ d.records, (srvOf inst r).isSome
  · obtain ⟨v, hv, -⟩ := lastSrv_stamp_said [] (l.now d) hsaid
    rw [List.nil_append] at hv
    obtain ⟨t, ht⟩ := (hk.step h.spelled).recalls.srv _ _ hlook
    rw [step_history, lastSrv_append, hv, Option.some_or] at ht
    cases ht
    rcases h.moved inst hget _ _ _ _ hv with hkey | ⟨haaaa, hcard⟩
    · exact addrs_keys_subset hkey
    · exact addrs_learned hcard haaaa
  · have hsame : (l.step d).fold.srv.lookup inst = l.fold.srv.lookup inst := by
      rcases srv_lookup_cases (l.now d) l.fold d.records inst with hsame | ⟨-, r, hr, hs, -⟩
      · exact hsame
      · exact (hsaid ⟨r, hr, hs⟩).elim
    rw [hsame, hb.known] at hlook
    cases hlook
    exact addrs_keys_subset hb.host

/-- An entry that is made anew is backed. -/
theorem Timely.backed_of_completed (h : Timely l d) (hk : Kept l)
    (hmem : inst ∈ (foldRecords (l.now d) l.fold d.records).2)
    (hc : completed (l.step d).fold inst = some (node, ttl)) (httl : ttl ≠ 0) :
    ∃ s target ttl', Backed (l.step d) inst (freshEntry (l.now d) (node, ttl)) s target ttl' := by
  obtain ⟨target, L, hlook, hL, haddr⟩ := completed_eq_some hc
  have hhost := BoundedMap.mem_keys.2 ⟨L, hL⟩
  refine ⟨l.now d, target, ttl, hlook, h.touched_now hk hmem hlook hhost httl, hhost, rfl, ?_⟩
  intro addr ha
  rw [show (freshEntry (l.now d) (node, ttl)).node.addresses = sortAddresses L from haddr,
    mem_sortAddresses, List.mem_map] at ha
  obtain ⟨x, hx, rfl⟩ := ha
  obtain ⟨⟨ttl', hlast⟩, hsup⟩ := (hk.step h.spelled).recalls.seen _ _ hL x hx
  exact ⟨x.2, ttl', hlast, hsup⟩

/-- An entry that is not touched stays backed. -/
theorem Timely.backed_of_untouched (h : Timely l d) (hk : Kept l)
    (hnot : inst ∉ (foldRecords (l.now d) l.fold d.records).2) (hb : Backed l inst e s target ttl) :
    Backed (l.step d) inst e s target ttl := by
  have hkey := BoundedMap.mem_keys.2 ⟨_, hb.known⟩
  obtain ⟨hsame, hall⟩ := untouched (fun rs' _ _ _ => Or.inl (srv_keys_subset hkey)) h.spelled
    (hk.recalls.operational inst hkey).1 hnot
  have hsrv : ∀ r ∈ d.records, srvOf inst r = none := fun r hr => (hall r hr).1
  have haaaa : ∀ r ∈ d.records, aaaaOf target r = none := fun r hr => (hall r hr).2 _ _ _ hb.known
  refine ⟨hsame.trans hb.known, ?_, addrs_keys_subset hb.host, hb.expiry, ?_⟩
  · rw [step_history, lastSrv_stamp_silent hsrv, hb.last]
  · intro addr ha
    obtain ⟨seen, ttl', hlast, hsup⟩ := hb.addresses addr ha
    refine ⟨seen, ttl', ?_, ?_⟩
    · rw [step_history, lastAaaa_stamp_silent haaaa, hlast]
    · rwa [step_history, superseded_stamp_silent haaaa]

/-- **One timely datagram.** -/
theorem Synced.step (h : Synced l) (ht : Timely l d) : Synced (l.step d) where
  toKept := h.toKept.step ht.spelled
  announced := ht.announced_step h.announced
  backed := by
    intro inst e he hlt
    rw [(h.lookup_step d inst).1] at he
    by_cases hmem : inst ∈ (foldRecords (l.now d) l.fold d.records).2
    · rw [if_pos hmem] at he
      cases hc : completed (l.step d).fold inst with
      | some x =>
        obtain ⟨node, ttl⟩ := x
        rw [hc] at he
        cases he
        refine ht.backed_of_completed h.toKept hmem hc ?_
        rintro rfl
        have hlt : l.now d < l.now d + (0 : UInt32).toNat * 1000 := hlt
        rw [UInt32.toNat_zero, Nat.zero_mul] at hlt
        exact Nat.lt_irrefl _ hlt
      | none =>
        -- the entry is the old one, so its host would have to be unknown now
        rw [hc, Option.map_none, Option.none_or] at he
        obtain ⟨s, target, ttl, hb⟩ := h.backed inst e he (Nat.lt_of_le_of_lt clock_le_now hlt)
        have hkey := BoundedMap.mem_keys.2 ⟨_, hb.known⟩
        have hlow := (h.recalls.operational inst hkey).2
        have hlt : l.now d < e.expiry := hlt
        have hget : (l.cache.get inst (l.now d)).isSome := by
          rw [OperationalCache.get, hlow, he, Option.filter_some, if_pos (by simpa using hlt)]
          rfl
        have hkey' : inst ∈ (l.step d).fold.srv.keys := srv_keys_subset hkey
        obtain ⟨⟨port', target', ttl'⟩, hlook⟩ := BoundedMap.mem_keys.1 hkey'
        obtain ⟨L, hL⟩ := BoundedMap.mem_keys.1 (ht.host_known h.toKept hget hb hlook)
        have hne := (h.toKept.step ht.spelled).recalls.nonempty _ _ hL
        cases hc.symm.trans (completed_of_lookup hlook hL hne)
    · rw [if_neg hmem, Option.none_or] at he
      obtain ⟨s, target, ttl, hb⟩ := h.backed inst e he (Nat.lt_of_le_of_lt clock_le_now hlt)
      exact ⟨s, target, ttl, ht.backed_of_untouched h.toKept hmem hb⟩

/-- **Freshness.** Along timely datagrams the cache is fresh. -/
theorem fresh_of_timely (h : Along step Timely start es) : Fresh (run step start es) :=
  (run_invariant synced_start (fun _ _ hl ht => hl.step ht) h).fresh

end

/-! ### A text record that extends a departed node's life -/

def textOnly : Datagram := ⟨100000, [⟨lateInstance, .txt [], 120, false⟩], asListed⟩

theorem timely_late : Timely start late where
  spelled := late_spelled
  announced := by
    intro host addr x hx
    obtain ⟨r, hr, -, he⟩ := lastAaaa_mem hx
    simp only [late, List.map_cons, List.map_nil, List.mem_cons, List.not_mem_nil, or_false] at hr
    rw [he]
    rcases hr with hr | hr
    · rw [(Prod.mk.inj hr).2]
      decide
    · rw [(Prod.mk.inj hr).2]
      decide
  prompted := by rintro _ ⟨⟩
  moved := by rintro _ ⟨⟩

theorem fresh_of_timely_late : Fresh (run step start [late]) := fresh_of_timely ⟨timely_late, trivial⟩

/-- A text record after 100 seconds keeps a node for another 120, though nothing was heard of its
service. -/
theorem text_extends_life : ¬ ∀ es, Fresh (run step start es) := by
  intro h
  have hget : ((run step start [late, textOnly]).cache.get lateInstance 131000).isSome := by
    decide
  obtain ⟨node, hnode⟩ := Option.isSome_iff_exists.1 hget
  obtain ⟨s, port, target, ttl, hlast, -, -, hlt, -⟩ :=
    h [late, textOnly] lateInstance 131000 node (by decide) hnode
  have hsrv : lastSrv lateInstance.lower (run step start [late, textOnly]).history =
      some (1000, 5540, "node".toList, 120) := by
    decide
  rw [hsrv] at hlast
  cases hlast
  exact absurd hlt (by decide)

end Listener

end MatStack.Dnssd
