import MatStack.Controller.Dnssd.Commissionable
import MatStack.Device.Mdns.MessageRoundTrip

/-!
# One device

A node that is found is of one device if its port, its text and its addresses come from records of
one instance that answers for the discriminator. An answer with all of its records is. Records of
several datagrams go into places of their own, which stay filled when another instance is named
(`CommissionableQuery.hear`), so that the service record of one device can meet the text of another
(`two_devices_mixed`). `Owners` follows which instance filled them: as long as a datagram leaves
behind a service and a text record of the same instance, the node is of one device
(`one_device_of_unmixed`).
-/

namespace MatStack.Dnssd

/-! ## Provenance -/

/-- The records of the datagrams that can be read. -/
def recordsOf (datagrams : List Bytes) : List Record :=
  datagrams.flatMap fun d => ((parseMessage d).toOption).getD []

/-- A pointer of the discriminator's subtype names the instance. -/
def Named (longDiscriminator : UInt16) (records : List Record) (inst : Name) : Prop :=
  ∃ r ∈ records, r.rdata = .ptr inst ∧
    r.name.lower = (longDiscriminatorSubtype longDiscriminator).lower

/-- A record with these data is of a name, but for the case of letters. -/
def HasRecord (records : List Record) (owner : Name) (rdata : RData) : Prop :=
  ∃ r ∈ records, r.rdata = rdata ∧ r.name.lower = owner.lower

/-- All that makes the node comes from one instance that answers for the discriminator. -/
def OfOneDevice (longDiscriminator : UInt16) (records : List Record) (node : ResolvedNode) : Prop :=
  ∃ inst port target strings, Named longDiscriminator records inst ∧
    HasRecord records inst (.srv port target) ∧ HasRecord records inst (.txt strings) ∧
    txtU32 strings "D".toList = some longDiscriminator.toUInt32 ∧
    node = .fromParts port node.addresses strings ∧ node.addresses ≠ [] ∧
    ∀ addr ∈ node.addresses, HasRecord records target (.aaaa addr)

/-- The instance that was named last, and the owners of the last service and text record that were
taken for the instance named at their time. -/
structure Owners where
  instanceName : Option Name
  srv : Option Name
  txt : Option Name
deriving Repr, DecidableEq

namespace Owners

def hear (subtype : Name) (o : Owners) (r : Record) : Owners :=
  match r.rdata with
  | .ptr name =>
    if eqIgnoreAsciiCase r.name subtype then { o with instanceName := some name } else o
  | .srv _ _ =>
    if o.instanceName.any fun i => eqIgnoreAsciiCase r.name i then { o with srv := some r.name }
    else o
  | .txt _ =>
    if o.instanceName.any fun i => eqIgnoreAsciiCase r.name i then { o with txt := some r.name }
    else o
  | _ => o

/-- The owners after some records. -/
def after (longDiscriminator : UInt16) (records : List Record) : Owners :=
  records.foldl (hear (longDiscriminatorSubtype longDiscriminator)) ⟨none, none, none⟩

/-- Service and text record are of the same instance, if both are there. -/
def OfOne (o : Owners) : Prop := ∀ a b, o.srv = some a → o.txt = some b → a.lower = b.lower

end Owners

/-- While the resolver waits, no datagram that is not an answer by itself leaves it with a service
and a text record of different instances. -/
def Unmixed (longDiscriminator : UInt16) (datagrams : List Bytes) : Prop :=
  ∀ pre d, pre ++ [d] <+: datagrams → resolveCommissionable longDiscriminator pre = none →
    commissionableFromResponse d longDiscriminator = none →
    (Owners.after longDiscriminator (recordsOf (pre ++ [d]))).OfOne

section
variable {disc : UInt16} {records records' : List Record} {r : Record} {node : ResolvedNode}
  {owner inst name target : Name} {rdata : RData} {datagrams pre : List Bytes} {d : Bytes}
  {q : CommissionableQuery} {o : Owners}

theorem HasRecord.mono (hsub : records ⊆ records') (h : HasRecord records owner rdata) :
    HasRecord records' owner rdata := by
  obtain ⟨r, hr, h⟩ := h
  exact ⟨r, hsub hr, h⟩

theorem Named.mono (hsub : records ⊆ records') (h : Named disc records inst) :
    Named disc records' inst := by
  obtain ⟨r, hr, h⟩ := h
  exact ⟨r, hsub hr, h⟩

theorem OfOneDevice.mono (hsub : records ⊆ records') (h : OfOneDevice disc records node) :
    OfOneDevice disc records' node := by
  obtain ⟨inst, port, target, strings, hname, hsrv, htxt, hd, hnode, hne, haddr⟩ := h
  exact ⟨inst, port, target, strings, hname.mono hsub, hsrv.mono hsub, htxt.mono hsub, hd, hnode,
    hne, fun addr hmem => (haddr addr hmem).mono hsub⟩

theorem recordsOf_append (l l' : List Bytes) : recordsOf (l ++ l') = recordsOf l ++ recordsOf l' :=
  List.flatMap_append

theorem recordsOf_ok (h : parseMessage d = .ok records) : recordsOf [d] = records := by
  rw [recordsOf, List.flatMap_cons, h]
  exact List.append_nil _

theorem recordsOf_error {e : Fault} (h : parseMessage d = .error e) : recordsOf [d] = [] := by
  rw [recordsOf, List.flatMap_cons, h]
  rfl

/-! ## An answer by itself -/

/-- What makes a node. -/
theorem buildCommissionable_eq_some {port : UInt16} {strings : List Bytes}
    {aaaa : List (Name × Ipv6Addr)}
    (h : buildCommissionable disc port target strings aaaa = some node) :
    txtU32 strings "D".toList = some disc.toUInt32 ∧ node = .fromParts port node.addresses strings ∧
      node.addresses ≠ [] ∧
      ∀ addr ∈ node.addresses, ∃ name, (name, addr) ∈ aaaa ∧ name.lower = target.lower := by
  unfold buildCommissionable at h
  split_ifs at h with hd
  dsimp only at h
  split_ifs at h with hempty
  cases h
  refine ⟨not_not.1 hd, rfl, fun hnil => hempty ?_,
    fun addr haddr => mem_addressesForTarget.1 haddr⟩
  exact List.isEmpty_iff.2 hnil

/-- A candidate is one of before or the new one. -/
theorem mem_pushAaaa {aaaa : List (Name × Ipv6Addr)} {srvTarget : Option Name}
    {addr : Ipv6Addr} {x : Name × Ipv6Addr} (h : x ∈ pushAaaa aaaa srvTarget name addr) :
    x ∈ aaaa ∨ x = (name, addr) := by
  unfold pushAaaa at h
  split_ifs at h
  · exact .inl h
  · exact .inl h
  · exact .inl h
  · rcases List.mem_append.1 h with h | h
    · exact .inl h
    · exact .inr (List.mem_singleton.1 h)

theorem mem_foldAaaa {aaaa : List (Name × Ipv6Addr)} {srvTarget : Option Name} {x : Name × Ipv6Addr}
    (h : x ∈ records.foldl (foldAaaa srvTarget) aaaa) :
    x ∈ aaaa ∨ ∃ r ∈ records, r.rdata = .aaaa x.2 ∧ r.name = x.1 := by
  induction records generalizing aaaa with
  | nil => exact .inl h
  | cons r records ih =>
    rw [List.foldl_cons] at h
    rcases ih h with h | ⟨r', hr', h⟩
    · unfold foldAaaa at h
      split at h
      · next addr hr =>
        rcases mem_pushAaaa h with h | rfl
        · exact .inl h
        · exact .inr ⟨r, List.mem_cons_self, hr, rfl⟩
      · exact .inl h
    · exact .inr ⟨r', List.mem_cons_of_mem _ hr', h⟩

/-- **An answer by itself** is of one device. -/
theorem ofOneDevice_commissionableFromRecords
    (h : commissionableFromRecords records disc = some node) : OfOneDevice disc records node := by
  unfold commissionableFromRecords at h
  obtain ⟨inst, hinst, h⟩ := Option.bind_eq_some_iff.1 h
  obtain ⟨⟨port, target⟩, hsrv, h⟩ := Option.bind_eq_some_iff.1 h
  obtain ⟨strings, htxt, h⟩ := Option.bind_eq_some_iff.1 h
  obtain ⟨rp, hrp, hptr⟩ := List.exists_of_findSome?_eq_some hinst
  obtain ⟨rs, hrs, hsrv⟩ := List.exists_of_findSome?_eq_some hsrv
  obtain ⟨rt, hrt, htxt⟩ := List.exists_of_findSome?_eq_some htxt
  obtain ⟨hd, hnode, hne, haddr⟩ := buildCommissionable_eq_some h
  refine ⟨inst, port, target, strings, ⟨rp, hrp, ?_⟩, ⟨rs, hrs, ?_⟩, ⟨rt, hrt, ?_⟩, hd, hnode, hne,
    fun addr hmem => ?_⟩
  · unfold findPtr at hptr
    split at hptr
    · next name hr =>
      split_ifs at hptr with hname
      cases hptr
      exact ⟨hr, eqIgnoreAsciiCase_iff.1 hname⟩
    · cases hptr
  · unfold findSrv at hsrv
    split at hsrv
    · next port' target' hr =>
      split_ifs at hsrv with hname
      cases hsrv
      exact ⟨hr, eqIgnoreAsciiCase_iff.1 hname⟩
    · cases hsrv
  · unfold findTxt at htxt
    split at htxt
    · next strings' hr =>
      split_ifs at htxt with hname
      cases htxt
      exact ⟨hr, eqIgnoreAsciiCase_iff.1 hname⟩
    · cases htxt
  · obtain ⟨name, hmem, hname⟩ := haddr addr hmem
    rcases mem_foldAaaa hmem with hnil | ⟨r, hr, hdata, rfl⟩
    · cases hnil
    · exact ⟨r, hr, hdata, hname⟩

/-! ## Records of several datagrams -/

/-- A record of the owner, which is of an instance that was named. -/
def OfNamed (disc : UInt16) (records : List Record) (owner : Name) (rdata : RData) : Prop :=
  HasRecord records owner rdata ∧ ∃ inst, Named disc records inst ∧ owner.lower = inst.lower

theorem OfNamed.mono (hsub : records ⊆ records') (h : OfNamed disc records owner rdata) :
    OfNamed disc records' owner rdata := by
  obtain ⟨hrec, inst, hname, hlower⟩ := h
  exact ⟨hrec.mono hsub, inst, hname.mono hsub, hlower⟩

/-- What the resolver remembers comes from the records, its service and text from those of the
owners. -/
structure Follows (disc : UInt16) (records : List Record) (q : CommissionableQuery) (o : Owners) :
    Prop where
  instance_eq : q.instanceName = o.instanceName
  named : ∀ inst, q.instanceName = some inst → Named disc records inst
  srv : ∀ port target, q.srv = some (port, target) →
    ∃ owner, o.srv = some owner ∧ OfNamed disc records owner (.srv port target)
  txt : ∀ strings, q.txt = some strings →
    ∃ owner, o.txt = some owner ∧ OfNamed disc records owner (.txt strings)
  aaaa : ∀ name addr, (name, addr) ∈ q.aaaa → HasRecord records name (.aaaa addr)

theorem follows_nil (disc : UInt16) : Follows disc [] ⟨none, none, none, []⟩ ⟨none, none, none⟩ where
  instance_eq := rfl
  named := by rintro _ ⟨⟩
  srv := by rintro _ _ ⟨⟩
  txt := by rintro _ ⟨⟩
  aaaa := by rintro _ _ ⟨⟩

theorem Follows.mono (hsub : records ⊆ records') (h : Follows disc records q o) :
    Follows disc records' q o where
  instance_eq := h.instance_eq
  named inst hi := (h.named inst hi).mono hsub
  srv port target hs := by
    obtain ⟨owner, ho, hof⟩ := h.srv port target hs
    exact ⟨owner, ho, hof.mono hsub⟩
  txt strings ht := by
    obtain ⟨owner, ho, hof⟩ := h.txt strings ht
    exact ⟨owner, ho, hof.mono hsub⟩
  aaaa name addr hmem := (h.aaaa name addr hmem).mono hsub

/-- One more record. -/
theorem Follows.hear (h : Follows disc records q o) :
    Follows disc (records ++ [r]) (q.hear (longDiscriminatorSubtype disc) r)
      (o.hear (longDiscriminatorSubtype disc) r) := by
  have hlast : r ∈ records ++ [r] := List.mem_append_right _ (List.mem_singleton.2 rfl)
  have hold := h.mono (List.subset_append_left records [r])
  have hinst : ∀ name,
      q.isInstance name = o.instanceName.any fun i => eqIgnoreAsciiCase name i := by
    intro name
    rw [CommissionableQuery.isInstance, h.instance_eq]
  -- a record of the instance that is known is of an instance that was named
  have hof : q.isInstance r.name = true → OfNamed disc (records ++ [r]) r.name r.rdata := by
    intro hname
    obtain ⟨inst, hi, hname⟩ := (Option.any_eq_true _ _).1 hname
    exact ⟨⟨r, hlast, rfl, rfl⟩, inst, hold.named inst hi, eqIgnoreAsciiCase_iff.1 hname⟩
  unfold CommissionableQuery.hear Owners.hear
  cases hr : r.rdata with
  | ptr name =>
    dsimp only
    split_ifs with hname
    · refine { hold with instance_eq := rfl, named := ?_ }
      rintro inst ⟨⟩
      exact ⟨r, hlast, hr, eqIgnoreAsciiCase_iff.1 hname⟩
    · exact hold
  | srv port target =>
    dsimp only
    rw [← hinst]
    split_ifs with hname
    · refine { hold with srv := ?_, aaaa := ?_ }
      · rintro port' target' ⟨⟩
        exact ⟨r.name, rfl, hr ▸ hof hname⟩
      · exact fun name addr hmem => hold.aaaa name addr (List.mem_of_mem_filter hmem)
    · exact hold
  | txt strings =>
    dsimp only
    rw [← hinst]
    split_ifs with hname
    · refine { hold with txt := ?_ }
      rintro strings' ⟨⟩
      exact ⟨r.name, rfl, hr ▸ hof hname⟩
    · exact hold
  | aaaa addr =>
    refine { hold with aaaa := ?_ }
    intro name addr' hmem
    rcases mem_pushAaaa hmem with hmem | heq
    · exact hold.aaaa name addr' hmem
    · cases heq
      exact ⟨r, hlast, hr, rfl⟩
  | other => exact hold

theorem Follows.foldl (h : Follows disc records q o) (rs : List Record) :
    Follows disc (records ++ rs)
      (rs.foldl (CommissionableQuery.hear (longDiscriminatorSubtype disc)) q)
      (rs.foldl (Owners.hear (longDiscriminatorSubtype disc)) o) := by
  induction rs generalizing records q o with
  | nil => rwa [List.append_nil]
  | cons r rs ih =>
    rw [List.append_cons]
    exact ih h.hear

/-- The node of a service and a text record of the same instance. -/
theorem Follows.build (h : Follows disc records q o) (hone : o.OfOne)
    (hbuild : q.build disc = some node) : OfOneDevice disc records node := by
  unfold CommissionableQuery.build at hbuild
  split at hbuild
  · next port target strings hsrv htxt =>
    obtain ⟨a, ha, hrec, inst, hname, hlower⟩ := h.srv port target hsrv
    obtain ⟨b, hb, hrec', -⟩ := h.txt strings htxt
    obtain ⟨hd, hnode, hne, haddr⟩ := buildCommissionable_eq_some hbuild
    refine ⟨inst, port, target, strings, hname, ?_, ?_, hd, hnode, hne, fun addr hmem => ?_⟩
    · obtain ⟨r, hr, hdata, hown⟩ := hrec
      exact ⟨r, hr, hdata, hown.trans hlower⟩
    · obtain ⟨r, hr, hdata, hown⟩ := hrec'
      exact ⟨r, hr, hdata, hown.trans ((hone a b ha hb).symm.trans hlower)⟩
    · obtain ⟨name, hmem, hname⟩ := haddr addr hmem
      obtain ⟨r, hr, hdata, hown⟩ := h.aaaa name addr hmem
      exact ⟨r, hr, hdata, hown.trans hname⟩
  · cases hbuild

/-! ## Runs -/

/-- The datagram with which a run ends. -/
theorem exists_of_resolveCommissionableFrom
    (h : resolveCommissionableFrom disc q datagrams = some node) :
    ∃ pre d, pre ++ [d] <+: datagrams ∧ resolveCommissionableFrom disc q pre = none ∧
      (commissionableFromResponse d disc = some node ∨
        commissionableFromResponse d disc = none ∧
          ((recordsOf (pre ++ [d])).foldl
            (CommissionableQuery.hear (longDiscriminatorSubtype disc)) q).build disc =
              some node) := by
  induction datagrams generalizing q with
  | nil => cases h
  | cons d datagrams ih =>
    rw [resolveCommissionableFrom] at h
    cases hone : commissionableFromResponse d disc with
    | some node' =>
      rw [hone] at h
      exact ⟨[], d, List.prefix_append [d] datagrams, rfl, .inl (hone.trans h)⟩
    | none =>
      rw [hone] at h
      dsimp only at h
      cases hparse : parseMessage d with
      | error e =>
        rw [hparse] at h
        obtain ⟨pre, d', hpre, hnone, hlast⟩ := ih h
        refine ⟨d :: pre, d', ?_, ?_, ?_⟩
        · exact List.cons_prefix_cons.2 ⟨rfl, hpre⟩
        · rw [resolveCommissionableFrom, hone, hparse]
          exact hnone
        · have hrec : recordsOf (d :: (pre ++ [d'])) = recordsOf (pre ++ [d']) := by
            rw [← List.singleton_append, recordsOf_append, recordsOf_error hparse, List.nil_append]
          rw [List.cons_append, hrec]
          exact hlast
      | ok records =>
        rw [hparse] at h
        dsimp only at h
        cases hbuild : (records.foldl
            (CommissionableQuery.hear (longDiscriminatorSubtype disc)) q).build disc with
        | some node' =>
          rw [hbuild] at h
          refine ⟨[], d, List.prefix_append [d] datagrams, rfl, .inr ⟨hone, ?_⟩⟩
          rw [List.nil_append, recordsOf_ok hparse, hbuild]
          exact h
        | none =>
          rw [hbuild] at h
          obtain ⟨pre, d', hpre, hnone, hlast⟩ := ih h
          refine ⟨d :: pre, d', ?_, ?_, ?_⟩
          · exact List.cons_prefix_cons.2 ⟨rfl, hpre⟩
          · rw [resolveCommissionableFrom, hone, hparse]
            dsimp only
            rw [hbuild]
            exact hnone
          · have hrec : recordsOf (d :: (pre ++ [d'])) = records ++ recordsOf (pre ++ [d']) := by
              rw [← List.singleton_append, recordsOf_append, recordsOf_ok hparse]
            rw [List.cons_append, hrec, List.foldl_append]
            exact hlast

/-- **One device.** As long as no datagram leaves the resolver with a service and a text record of
different instances, all of the node that it finds comes from one instance that was named for the
discriminator. -/
theorem one_device_of_unmixed (disc : UInt16) (datagrams : List Bytes) (node : ResolvedNode)
    (hunmixed : Unmixed disc datagrams) (h : resolveCommissionable disc datagrams = some node) :
    OfOneDevice disc (recordsOf datagrams) node := by
  obtain ⟨pre, d, hpre, hnone, hlast⟩ := exists_of_resolveCommissionableFrom h
  obtain ⟨post, rfl⟩ := hpre
  have hsub : recordsOf (pre ++ [d]) ⊆ recordsOf (pre ++ [d] ++ post) := by
    rw [recordsOf_append (pre ++ [d]) post]
    exact List.subset_append_left _ _
  rcases hlast with hone | ⟨hone, hbuild⟩
  · -- the answer is in the datagram itself
    unfold commissionableFromResponse at hone
    split at hone
    · cases hone
    · next records hparse =>
      refine ((ofOneDevice_commissionableFromRecords hone).mono ?_).mono hsub
      rw [recordsOf_append, recordsOf_ok hparse]
      exact List.subset_append_right _ _
  · have hfollows := (follows_nil disc).foldl (recordsOf (pre ++ [d]))
    rw [List.nil_append] at hfollows
    exact (hfollows.build (hunmixed pre d (List.prefix_append _ _) hnone hone) hbuild).mono hsub

end

/-! ## Two devices -/

section
open Mdns (Rr encodeMessage)

/-- The discriminator of a device that was never set up. -/
def factoryDiscriminator : UInt16 := 3840

def firstInstance : Name := "a._matterc._udp.local".toList
def secondInstance : Name := "b._matterc._udp.local".toList
def firstHost : Name := "a.local".toList

def subtypePtr (inst : Name) : Rr := .ptr (longDiscriminatorSubtype factoryDiscriminator) inst 4500

def factoryText (inst : Name) : Rr := .txt inst ["D=3840".toList] 4500

/-- A device that announces where it is, but not its text. -/
def whereabouts : Bytes :=
  encodeMessage [subtypePtr firstInstance]
    [.srv firstInstance firstHost 5540 120,
      .aaaa firstHost ⟨List.replicate 16 0xfd, List.length_replicate⟩ 120] true

/-- A device that announces its text. -/
def announcedText (inst : Name) : Bytes := encodeMessage [subtypePtr inst] [factoryText inst] true

/-- The records of the first announcement. -/
def whereaboutsRecords : List Record :=
  [⟨longDiscriminatorSubtype factoryDiscriminator, .ptr firstInstance, 4500, false⟩,
    ⟨firstInstance, .srv 5540 firstHost, 120, false⟩,
    ⟨firstHost, .aaaa ⟨List.replicate 16 0xfd, List.length_replicate⟩, 120, false⟩]

def textRecords (inst : Name) : List Record :=
  [⟨longDiscriminatorSubtype factoryDiscriminator, .ptr inst, 4500, false⟩,
    ⟨inst, .txt [Utf8.encode "D=3840".toList], 4500, false⟩]

theorem wireName_subtype : WireName (longDiscriminatorSubtype factoryDiscriminator) := by decide

theorem wireName_firstInstance : WireName firstInstance := by decide

theorem wireName_firstHost : WireName firstHost := by decide

theorem parseMessage_whereabouts : parseMessage whereabouts = .ok whereaboutsRecords := by
  refine Mdns.parseMessage_encodeMessage ?_ (by decide)
  intro rr hrr
  rcases List.mem_cons.1 hrr with rfl | hrr
  · exact ⟨wireName_subtype, by decide, wireName_firstInstance⟩
  rcases List.mem_cons.1 hrr with rfl | hrr
  · exact ⟨wireName_firstInstance, by decide, wireName_firstHost⟩
  rcases List.mem_singleton.1 hrr with rfl
  exact ⟨wireName_firstHost, by decide, trivial⟩

theorem parseMessage_announcedText {inst : Name} (hinst : WireName inst)
    (hlen : (Mdns.pushName inst).length < 65536) :
    parseMessage (announcedText inst) = .ok (textRecords inst) := by
  have hsize : Utf8.size "D=3840".toList ≤ 255 := by decide
  refine Mdns.parseMessage_encodeMessage ?_ (show 2 < 65536 by decide)
  intro rr hrr
  rcases List.mem_cons.1 hrr with rfl | hrr
  · exact ⟨wireName_subtype, hlen, hinst⟩
  rcases List.mem_singleton.1 hrr with rfl
  exact ⟨hinst, show 7 < 65536 by decide, List.forall_mem_singleton.2 hsize⟩

/-- The node that two devices make together. -/
def mixedNode : ResolvedNode :=
  ⟨5540, [⟨List.replicate 16 0xfd, List.length_replicate⟩], none, none⟩

/-- What the resolver remembers of the first announcement. -/
def whereaboutsQuery : CommissionableQuery where
  instanceName := some firstInstance
  srv := some (5540, firstHost)
  txt := none
  aaaa := [(firstHost, ⟨List.replicate 16 0xfd, List.length_replicate⟩)]

theorem resolve_whereabouts (datagrams : List Bytes) :
    resolveCommissionable factoryDiscriminator (whereabouts :: datagrams) =
      resolveCommissionableFrom factoryDiscriminator whereaboutsQuery datagrams := by
  have halone : commissionableFromRecords whereaboutsRecords factoryDiscriminator = none := by
    decide
  have hhear : whereaboutsRecords.foldl
      (CommissionableQuery.hear (longDiscriminatorSubtype factoryDiscriminator))
        ⟨none, none, none, []⟩ = whereaboutsQuery := by decide
  rw [resolveCommissionable, resolveCommissionableFrom, commissionableFromResponse,
    parseMessage_whereabouts]
  dsimp only
  rw [halone]
  dsimp only
  rw [hhear]
  rfl

/-- The text of either device completes the node. -/
theorem resolve_announcedText {inst : Name} (hinst : WireName inst)
    (hlen : (Mdns.pushName inst).length < 65536)
    (halone : commissionableFromRecords (textRecords inst) factoryDiscriminator = none)
    (hbuild : ((textRecords inst).foldl
      (CommissionableQuery.hear (longDiscriminatorSubtype factoryDiscriminator))
        whereaboutsQuery).build factoryDiscriminator = some mixedNode) :
    resolveCommissionable factoryDiscriminator [whereabouts, announcedText inst] =
      some mixedNode := by
  rw [resolve_whereabouts, resolveCommissionableFrom, commissionableFromResponse,
    parseMessage_announcedText hinst hlen]
  dsimp only
  rw [halone]
  dsimp only
  rw [hbuild]

theorem recordsOf_announcements {inst : Name} (hinst : WireName inst)
    (hlen : (Mdns.pushName inst).length < 65536) :
    recordsOf [whereabouts, announcedText inst] = whereaboutsRecords ++ textRecords inst := by
  rw [← List.singleton_append, recordsOf_append, recordsOf_ok parseMessage_whereabouts,
    recordsOf_ok (parseMessage_announcedText hinst hlen)]

/-- **Two devices.** The service record of one and the text of the other make a node. -/
theorem two_devices_mixed :
    ¬ ∀ (disc : UInt16) (datagrams : List Bytes) (node : ResolvedNode),
      resolveCommissionable disc datagrams = some node →
        OfOneDevice disc (recordsOf datagrams) node := by
  intro h
  have hwire : WireName secondInstance := by decide
  have hlen : (Mdns.pushName secondInstance).length < 65536 := by decide
  have hmixed := h _ _ _ (resolve_announcedText hwire hlen (by decide) (by decide))
  rw [recordsOf_announcements hwire hlen] at hmixed
  obtain ⟨inst, port, target, strings, -, ⟨rs, hrs, hsrv, hfirst⟩, ⟨rt, hrt, htxt, hsecond⟩, -⟩ :=
    hmixed
  simp only [whereaboutsRecords, textRecords, List.cons_append, List.nil_append, List.mem_cons,
    List.not_mem_nil, or_false] at hrs hrt
  -- the only service record is of the first device, the only text of the second
  have hfirst : firstInstance.lower = inst.lower := by
    rcases hrs with rfl | rfl | rfl | rfl | rfl <;> cases hsrv
    exact hfirst
  have hsecond : secondInstance.lower = inst.lower := by
    rcases hrt with rfl | rfl | rfl | rfl | rfl <;> cases htxt
    exact hsecond
  exact absurd (hfirst.trans hsecond.symm) (by decide)

/-- The two announcements of one device. -/
theorem unmixed_firstInstance :
    Unmixed factoryDiscriminator [whereabouts, announcedText firstInstance] := by
  have hlen : (Mdns.pushName firstInstance).length < 65536 := by decide
  have hfirst : Owners.after factoryDiscriminator whereaboutsRecords =
      ⟨some firstInstance, some firstInstance, none⟩ := by decide
  have hboth : Owners.after factoryDiscriminator (whereaboutsRecords ++ textRecords firstInstance) =
      ⟨some firstInstance, some firstInstance, some firstInstance⟩ := by decide
  intro pre d hpre _ _
  rcases pre with _ | ⟨x, pre⟩
  · obtain ⟨rfl, -⟩ := List.cons_prefix_cons.1 hpre
    rw [List.nil_append, recordsOf_ok parseMessage_whereabouts, hfirst]
    rintro a b - ⟨⟩
  · obtain ⟨rfl, hrest⟩ := List.cons_prefix_cons.1 hpre
    rcases pre with _ | ⟨y, pre⟩
    · obtain ⟨rfl, -⟩ := List.cons_prefix_cons.1 hrest
      rw [List.singleton_append, recordsOf_announcements wireName_firstInstance hlen, hboth]
      rintro a b ⟨⟩ ⟨⟩
      rfl
    · have hnil := List.prefix_nil.1 (List.cons_prefix_cons.1 hrest).2
      exact absurd hnil (List.append_ne_nil_of_right_ne_nil _ (List.cons_ne_nil _ _))

theorem one_device_of_unmixed_sample :
    OfOneDevice factoryDiscriminator (recordsOf [whereabouts, announcedText firstInstance])
      mixedNode :=
  one_device_of_unmixed _ _ _ unmixed_firstInstance
    (resolve_announcedText wireName_firstInstance (by decide) (by decide) (by decide))

end

end MatStack.Dnssd
