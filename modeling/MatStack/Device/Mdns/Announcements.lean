import MatStack.Device.Mdns.Advertiser

/-!
# What peers are left with

An announcement makes its records known and takes the place of others, a goodbye takes its records
away (`hear_announcement`, `hear_goodbye`). So a peer is left with the truth by every call that does
not say goodbye to a host that is still in use, and does not replace a commissionable advert by one
of another instance (`MdnsAdvertiser.CleanCall`): after a run of such calls it knows the records of
the adverts that are set and no others (`advertised_iff_known`).
-/

namespace MatStack.Mdns

open Dnssd hiding hear
open LastWord Machine

section
variable {s t : ServiceRecords} {ss : List ServiceRecords} {r : Rr} {known : Rr → Bool}

/-- What it takes to be a record of the service. -/
theorem lists_iff : s.Lists r ↔
    match r with
    | .ptr owner target _ =>
      (∃ o ∈ s.ptrOwners, o.lower = owner.lower) ∧ s.instanceFull.lower = target.lower
    | .srv owner target port _ =>
      s.instanceFull.lower = owner.lower ∧ s.hostFull.lower = target.lower ∧ s.port = port
    | .txt owner strings _ => s.instanceFull.lower = owner.lower ∧ s.txt = strings
    | .aaaa owner addr _ => s.hostFull.lower = owner.lower ∧ s.addrV6 = addr := by
  cases r <;>
    simp [ServiceRecords.Lists, ServiceRecords.pushAll, ServiceRecords.srvRr, ServiceRecords.txtRr,
      ServiceRecords.aaaaRr, Rr.identity, or_and_right, exists_or, ← and_assoc]

/-- Unique records take the place of those of their owner and type. -/
theorem supersedes_iff : s.Supersedes r ↔
    match r with
    | .ptr .. => False
    | .srv owner .. => s.instanceFull.lower = owner.lower
    | .txt owner .. => s.instanceFull.lower = owner.lower
    | .aaaa owner .. => s.hostFull.lower = owner.lower := by
  cases r <;>
    simp [ServiceRecords.Supersedes, ServiceRecords.pushAll, ServiceRecords.srvRr,
      ServiceRecords.txtRr, ServiceRecords.aaaaRr, Rr.supersedes, Rr.isShared, Rr.rtype, Rr.owner,
      typePtr, typeSrv, typeTxt, typeAaaa, eqIgnoreAsciiCase_iff, or_and_right, exists_or]

/-- A record of the service is unique, or shared with other devices. -/
theorem ServiceRecords.Lists.supersedes_or (h : s.Lists r) : s.Supersedes r ∨ r.isShared = true := by
  rw [lists_iff] at h
  rw [supersedes_iff]
  cases r with
  | ptr => exact Or.inr rfl
  | srv => exact Or.inl h.1
  | txt => exact Or.inl h.1
  | aaaa => exact Or.inl h.1

/-! ## Messages -/

section
variable {f : UInt32 → UInt32}

theorem any_identity_iff :
    ((ss.flatMap (·.pushAll f)).any fun x => x.identity == r.identity) = true ↔
      ∃ s ∈ ss, s.Lists r := by
  simp only [List.any_eq_true, List.mem_flatMap, beq_iff_eq, ServiceRecords.Lists]
  constructor
  · rintro ⟨x, ⟨s, hs, hx⟩, he⟩
    exact ⟨s, hs, (exists_mem_pushAll fun x y hxy => by rw [hxy]).1 ⟨x, hx, he⟩⟩
  · rintro ⟨s, hs, hl⟩
    obtain ⟨x, hx, he⟩ := (exists_mem_pushAll (f := f) fun x y hxy => by rw [hxy]).2 hl
    exact ⟨x, ⟨s, hs, hx⟩, he⟩

theorem any_supersedes_iff :
    ((ss.flatMap (·.pushAll f)).any fun x => x.supersedes r) = true ↔
      ∃ s ∈ ss, s.Supersedes r := by
  simp only [List.any_eq_true, List.mem_flatMap, ServiceRecords.Supersedes]
  constructor
  · rintro ⟨x, ⟨s, hs, hx⟩, he⟩
    exact ⟨s, hs, (exists_mem_pushAll fun x y hxy => by rw [supersedes_congr hxy]).1 ⟨x, hx, he⟩⟩
  · rintro ⟨s, hs, hl⟩
    obtain ⟨x, hx, he⟩ :=
      (exists_mem_pushAll (f := f) fun x y hxy => by rw [supersedes_congr hxy]).2 hl
    exact ⟨x, ⟨s, hs, hx⟩, he⟩

theorem any_gone_iff :
    ((ss.flatMap (·.pushAll f)).any fun x => x.identity == r.identity || x.supersedes r) = true ↔
      (∃ s ∈ ss, s.Lists r) ∨ ∃ s ∈ ss, s.Supersedes r := by
  rw [← any_identity_iff (f := f), ← any_supersedes_iff (f := f)]
  simp only [List.any_eq_true, Bool.or_eq_true, and_or_left, exists_or]

end

/-- What an announcement tells. -/
theorem tells_announcement : tells (ss.flatMap (·.pushAll fun ttl => ttl)) r =
    if ∃ s ∈ ss, s.Lists r then some true
    else if ∃ s ∈ ss, s.Supersedes r then some false else none := by
  have hthere : ((ss.flatMap (·.pushAll fun ttl => ttl)).any fun x =>
      x.identity == r.identity && x.ttl != 0) = true ↔ ∃ s ∈ ss, s.Lists r := by
    rw [← any_identity_iff (f := fun ttl => ttl)]
    simp only [List.any_eq_true, Bool.and_eq_true, bne_iff_ne]
    refine exists_congr fun x => ⟨fun h => ⟨h.1, h.2.1⟩, fun h => ⟨h.1, h.2, ?_⟩⟩
    obtain ⟨s, -, hx⟩ := List.mem_flatMap.1 h.1
    rcases ttl_of_mem_pushAll hx with httl | httl
    · exact httl ▸ by decide
    · exact httl ▸ by decide
  rw [tells]
  simp only [hthere, any_gone_iff]
  by_cases hl : ∃ s ∈ ss, s.Lists r
  · rw [if_pos hl, if_pos hl]
  · rw [if_neg hl, if_neg hl]
    simp only [hl, false_or]

/-- What a goodbye tells. -/
theorem tells_goodbye : tells (ss.flatMap (·.pushAll fun _ => 0)) r =
    if (∃ s ∈ ss, s.Lists r) ∨ ∃ s ∈ ss, s.Supersedes r then some false else none := by
  have hthere : ¬ ((ss.flatMap (·.pushAll fun _ => 0)).any fun x =>
      x.identity == r.identity && x.ttl != 0) = true := by
    simp only [List.any_eq_true, Bool.and_eq_true, bne_iff_ne]
    rintro ⟨x, hx, -, httl⟩
    obtain ⟨s, -, hx⟩ := List.mem_flatMap.1 hx
    exact httl ((ttl_of_mem_pushAll hx).elim id id)
  rw [tells, if_neg hthere]
  simp only [any_gone_iff]

/-- **An announcement** makes its records known, and others of their owner and type are forgotten.
-/
theorem hear_announcement : hear tells known (ss.flatMap (·.pushAll fun ttl => ttl)) r = true ↔
    (∃ s ∈ ss, s.Lists r) ∨ known r = true ∧ ¬ ∃ s ∈ ss, s.Supersedes r := by
  rw [hear, tells_announcement]
  by_cases hl : ∃ s ∈ ss, s.Lists r
  · simp [hl]
  · by_cases hs : ∃ s ∈ ss, s.Supersedes r
    · simp [hl, hs]
    · simp [hl, hs]

/-- **A goodbye** takes its records away, and others of their owner and type. -/
theorem hear_goodbye (ss : List ServiceRecords) : hear tells known (ss.flatMap (·.pushAll fun _ => 0)) r = true ↔
    known r = true ∧ (¬ ∃ s ∈ ss, s.Lists r) ∧ ¬ ∃ s ∈ ss, s.Supersedes r := by
  rw [hear, tells_goodbye]
  by_cases hl : (∃ s ∈ ss, s.Lists r) ∨ ∃ s ∈ ss, s.Supersedes r
  · rw [if_pos hl, ← not_or]
    simp [hl]
  · rw [if_neg hl]
    rw [not_or] at hl
    simp [hl]

/-- Services of different instances and hosts have no records in common, and leave each other's. -/
theorem ServiceRecords.Lists.apart (hl : s.Lists r)
    (hinstance : s.instanceFull.lower ≠ t.instanceFull.lower)
    (hhost : s.hostFull.lower ≠ t.hostFull.lower) : ¬ t.Lists r ∧ ¬ t.Supersedes r := by
  rw [lists_iff] at hl ⊢
  rw [supersedes_iff]
  cases r with
  | ptr => exact ⟨fun h => hinstance (hl.2.trans h.2.symm), id⟩
  | srv => exact ⟨fun h => hinstance (hl.1.trans h.1.symm), fun h => hinstance (hl.1.trans h.symm)⟩
  | txt => exact ⟨fun h => hinstance (hl.1.trans h.1.symm), fun h => hinstance (hl.1.trans h.symm)⟩
  | aaaa => exact ⟨fun h => hhost (hl.1.trans h.1.symm), fun h => hhost (hl.1.trans h.symm)⟩

/-- A service of the same pointers and instance leaves no record of the other, its address apart. -/
theorem ServiceRecords.Lists.taken (hl : s.Lists r) (howners : s.ptrOwners = t.ptrOwners)
    (hinstance : s.instanceFull.lower = t.instanceFull.lower) :
    t.Lists r ∨ t.Supersedes r ∨ ∃ owner ttl, r = .aaaa owner s.addrV6 ttl ∧
      s.hostFull.lower = owner.lower := by
  rw [lists_iff] at hl ⊢
  rw [supersedes_iff]
  cases r with
  | ptr => exact Or.inl ⟨howners ▸ hl.1, hinstance.symm.trans hl.2⟩
  | srv => exact Or.inr (Or.inl (hinstance.symm.trans hl.1))
  | txt => exact Or.inr (Or.inl (hinstance.symm.trans hl.1))
  | aaaa owner addr ttl => exact Or.inr (Or.inr ⟨owner, ttl, by rw [hl.2], hl.1⟩)

end

/-! ## Calls -/

/-- A call that leaves the peers with the truth. A commissionable advert is replaced by one of the
same instance and discriminator, while its host stays in use; when an operational advert is removed,
no other advert is left on its host, and adverts of the same node were on that host, or leave their
address in use. -/
def MdnsAdvertiser.CleanCall (a : MdnsAdvertiser) : Call → Prop
  | .setCommissionable none => True
  | .setCommissionable (some ad) =>
    ∀ old ∈ a.commissionable,
      eqIgnoreAsciiCase ad.instanceName old.instanceName ∧ ad.discriminator = old.discriminator ∧
        ∃ s ∈ Mdns.services (some ad) a.operational,
          eqIgnoreAsciiCase s.hostFull (commissionableRecords old).hostFull
  | .addOperational _ => True
  | .removeOperational compressedFabricId nodeId =>
    ∀ target ∈ a.operational.find? (·.isOf compressedFabricId nodeId),
      (∀ s ∈ (a.without compressedFabricId nodeId).services,
        ¬ eqIgnoreAsciiCase s.hostFull (operationalRecords target).hostFull) ∧
      ∀ ad ∈ a.operational, ad.isOf compressedFabricId nodeId →
        eqIgnoreAsciiCase (operationalRecords ad).hostFull (operationalRecords target).hostFull ∨
          ∃ s ∈ (a.without compressedFabricId nodeId).services,
            eqIgnoreAsciiCase s.hostFull (operationalRecords ad).hostFull ∧ s.addrV6 = ad.addrV6

instance (a : MdnsAdvertiser) (c : Call) : Decidable (a.CleanCall c) :=
  match c with
  | .setCommissionable none => inferInstanceAs (Decidable True)
  | .setCommissionable (some _) => inferInstanceAs (Decidable (∀ _ ∈ _, _ ∧ _ ∧ ∃ _ ∈ _, _))
  | .addOperational _ => inferInstanceAs (Decidable True)
  | .removeOperational _ _ => inferInstanceAs (Decidable (∀ _ ∈ _, (∀ _ ∈ _, _) ∧ ∀ _ ∈ _, _ → _))

open MdnsAdvertiser

section
variable {a : MdnsAdvertiser} {known : Rr → Bool} {r : Rr}

/-- The peer knows what is advertised, and nothing else. -/
def MdnsAdvertiser.KnownTo (a : MdnsAdvertiser) (known : Rr → Bool) : Prop :=
  ∀ r, known r = true ↔ a.Advertises r

/-- An announcement when nothing is left over. -/
theorem MdnsAdvertiser.KnownTo.announce {b : MdnsAdvertiser}
    (h : ∀ r, known r = true → b.Advertises r ∨ ∃ s ∈ b.services, s.Supersedes r) :
    b.KnownTo (LastWord.hear tells known b.announce) := by
  intro r
  rw [show b.announce = b.services.flatMap (·.pushAll fun ttl => ttl) from rfl, hear_announcement]
  constructor
  · rintro (hl | ⟨hk, hs⟩)
    · exact hl
    · exact (h r hk).resolve_right hs
  · exact Or.inl

theorem MdnsAdvertiser.advertises_iff {commissionable : Option CommissionableAdvert}
    {operational : List OperationalAdvert} :
    (MdnsAdvertiser.mk commissionable operational).Advertises r ↔
      (∃ ad ∈ commissionable, (commissionableRecords ad).Lists r) ∨
        ∃ ad ∈ operational, (operationalRecords ad).Lists r := by
  simp [Advertises, MdnsAdvertiser.services, Mdns.services, or_and_right, exists_or]

theorem knownTo_setCommissionable_none (h : a.KnownTo known) :
    (a.setCommissionable none).1.KnownTo
      (hearAll tells known (a.setCommissionable none).2) := by
  obtain ⟨commissionable, operational⟩ := a
  cases commissionable with
  | none => exact KnownTo.announce fun r hr => Or.inl ((h r).1 hr)
  | some old =>
    refine KnownTo.announce fun r hr => Or.inl ?_
    have hgone := (hear_goodbye [commissionableRecords old]).1 hr
    obtain ⟨hk, hold, -⟩ := hgone
    rw [advertises_iff]
    refine (advertises_iff.1 ((h r).1 hk)).imp (fun hc => ?_) id
    obtain ⟨ad, hset, hl⟩ := hc
    cases hset
    exact (hold ⟨_, List.mem_singleton.2 rfl, hl⟩).elim

theorem knownTo_setCommissionable_some {ad : CommissionableAdvert} (h : a.KnownTo known)
    (hclean : a.CleanCall (.setCommissionable (some ad))) :
    (a.setCommissionable (some ad)).1.KnownTo
      (hearAll tells known (a.setCommissionable (some ad)).2) := by
  refine KnownTo.announce fun r hr => ?_
  have hadv := (h r).1 hr
  obtain ⟨commissionable, operational⟩ := a
  rcases advertises_iff.1 hadv with ⟨old, hset, hl⟩ | hop
  · obtain ⟨hinstance, hdisc, s, hs, hhost⟩ := hclean old hset
    have howners : (commissionableRecords old).ptrOwners = (commissionableRecords ad).ptrOwners := by
      rw [commissionableRecords, commissionableRecords, hdisc]
    have hname : (commissionableRecords old).instanceFull.lower =
        (commissionableRecords ad).instanceFull.lower := by
      rw [commissionableRecords, commissionableRecords, lower_append, lower_append,
        eqIgnoreAsciiCase_iff.1 hinstance]
    have hmem : commissionableRecords ad ∈ Mdns.services (some ad) operational :=
      List.mem_append_left _ (List.mem_singleton.2 rfl)
    rcases hl.taken howners hname with hl | hsup | ⟨owner, ttl, rfl, howner⟩
    · exact Or.inl ⟨_, hmem, hl⟩
    · exact Or.inr ⟨_, hmem, hsup⟩
    · exact Or.inr ⟨s, hs, supersedes_iff.2 ((eqIgnoreAsciiCase_iff.1 hhost).trans howner)⟩
  · exact Or.inl (advertises_iff.2 (Or.inr hop))

theorem knownTo_addOperational {ad : OperationalAdvert} (h : a.KnownTo known) :
    (a.addOperational ad).1.KnownTo (hearAll tells known (a.addOperational ad).2) := by
  refine KnownTo.announce fun r hr => Or.inl ?_
  have hadv := (h r).1 hr
  obtain ⟨commissionable, operational⟩ := a
  refine advertises_iff.2 ((advertises_iff.1 hadv).imp id ?_)
  rintro ⟨op, hop, hl⟩
  exact ⟨op, List.mem_append_left _ hop, hl⟩

/-- The instance of a node is no instance of another service. -/
theorem instance_ne_of_mem_without {target : OperationalAdvert} {compressedFabricId nodeId : UInt64}
    {s : ServiceRecords} (htarget : target.isOf compressedFabricId nodeId = true)
    (hs : s ∈ (a.without compressedFabricId nodeId).services) :
    s.instanceFull.lower ≠ (operationalRecords target).instanceFull.lower := by
  rcases List.mem_append.1 hs with hs | hs
  · obtain ⟨ad, -, rfl⟩ := Option.mem_map.1 (Option.mem_toList.1 hs)
    exact commissionable_ne_operational
  · obtain ⟨ad, had, rfl⟩ := List.mem_map.1 hs
    have hother := (List.mem_filter.1 had).2
    simp only [OperationalAdvert.isOf, Bool.and_eq_true, beq_iff_eq] at htarget
    obtain ⟨rfl, rfl⟩ := htarget
    intro he
    rw [instanceFull_eq_iff.1 he] at hother
    cases hother

theorem knownTo_removeOperational {compressedFabricId nodeId : UInt64} (h : a.KnownTo known)
    (hclean : a.CleanCall (.removeOperational compressedFabricId nodeId)) :
    (a.removeOperational compressedFabricId nodeId).1.KnownTo
      (hearAll tells known (a.removeOperational compressedFabricId nodeId).2) := by
  unfold removeOperational
  cases hfind : a.operational.find? (·.isOf compressedFabricId nodeId) with
  | none => exact h
  | some target =>
    have htarget : target.isOf compressedFabricId nodeId = true :=
      (List.find?_eq_some_iff_append.1 hfind).1
    obtain ⟨hhosts, hsame⟩ := hclean target hfind
    intro r
    refine (hear_goodbye [operationalRecords target]).trans ?_
    simp only [List.mem_singleton, exists_eq_left]
    constructor
    · rintro ⟨hk, hnl, hns⟩
      rcases advertises_iff.1 ((h r).1 hk) with hc | ⟨ad, had, hl⟩
      · exact advertises_iff.2 (Or.inl hc)
      · cases hof : ad.isOf compressedFabricId nodeId with
        | false =>
          exact advertises_iff.2 (Or.inr ⟨ad, List.mem_filter.2 ⟨had, by rw [hof]; rfl⟩, hl⟩)
        | true =>
          have hname : (operationalRecords ad).instanceFull.lower =
              (operationalRecords target).instanceFull.lower := by
            simp only [OperationalAdvert.isOf, Bool.and_eq_true, beq_iff_eq] at hof htarget
            rw [operationalRecords, operationalRecords, hof.1, hof.2, htarget.1, htarget.2]
          have howners : (operationalRecords ad).ptrOwners = (operationalRecords target).ptrOwners := rfl
          rcases hl.taken howners hname with hl | hsup | ⟨owner, ttl, rfl, howner⟩
          · exact (hnl hl).elim
          · exact (hns hsup).elim
          rcases hsame ad had hof with hhost | ⟨s, hs, hhost, haddr⟩
          · exact (hns (supersedes_iff.2 ((eqIgnoreAsciiCase_iff.1 hhost).symm.trans howner))).elim
          · exact ⟨s, hs, lists_iff.2 ⟨(eqIgnoreAsciiCase_iff.1 hhost).trans howner, haddr⟩⟩
    · rintro ⟨s, hs, hl⟩
      have hapart := hl.apart (instance_ne_of_mem_without htarget hs)
        fun he => hhosts s hs (eqIgnoreAsciiCase_iff.2 he)
      refine ⟨(h r).2 ?_, hapart⟩
      rcases List.mem_append.1 hs with hs | hs
      · exact ⟨s, List.mem_append_left _ hs, hl⟩
      · obtain ⟨ad, had, rfl⟩ := List.mem_map.1 hs
        exact ⟨_, List.mem_append_right _ (List.mem_map_of_mem (List.mem_filter.1 had).1), hl⟩

/-- **A clean call leaves the truth**, once its messages are heard. -/
theorem knownTo_call {c : Call} (h : a.KnownTo known) (hclean : a.CleanCall c) :
    (a.call c).1.KnownTo (hearAll tells known (a.call c).2) := by
  cases c with
  | setCommissionable ad =>
    cases ad with
    | none => exact knownTo_setCommissionable_none h
    | some ad => exact knownTo_setCommissionable_some h hclean
  | addOperational ad => exact knownTo_addOperational h
  | removeOperational compressedFabricId nodeId => exact knownTo_removeOperational h hclean

end

/-! ## Runs -/

/-- The condition on one step of a run: its call, if it is one, is clean. -/
def Segment.Clean (s : Segment) : Event → Prop
  | .call c => s.advertiser.CleanCall c
  | .repeatNext => True

instance (s : Segment) (e : Event) : Decidable (s.Clean e) :=
  match e with
  | .call c => inferInstanceAs (Decidable (s.advertiser.CleanCall c))
  | .repeatNext => inferInstanceAs (Decidable True)

/-- The peer is left with the truth when the repeats under way have arrived. -/
def Segment.Truthful (s : Segment) : Prop := s.advertiser.KnownTo (s.talk.settled tells)

theorem Segment.Truthful.step {s : Segment} {e : Event} (h : s.Truthful) (hclean : s.Clean e) :
    (s.step e).Truthful := by
  cases e with
  | call c =>
    have hcall := knownTo_call h hclean
    rw [← settled_foldl_send] at hcall
    exact hcall
  | repeatNext =>
    intro r
    rw [Segment.step]
    dsimp only
    rw [settled_repeatNext]
    exact h r

theorem truthful_start : Segment.start.Truthful := by
  intro r
  constructor
  · rintro ⟨⟩
  · rintro ⟨s, hs, -⟩
    cases hs

/-- **Peers are left with the truth** by runs of clean calls: with no repeat under way, the peer
knows the records of the adverts that are set and no others, and with some under way it will know
just them when they have arrived. -/
theorem known_iff_advertised {es : List Event}
    (hclean : Along Segment.step Segment.Clean Segment.start es) (r : Rr) :
    let s := run Segment.step Segment.start es
    (s.talk.settled tells r = true ↔ s.advertiser.Advertises r) ∧
      (s.talk.pending = [] → (s.talk.known r = true ↔ s.advertiser.Advertises r)) := by
  have htrue := run_invariant truthful_start (fun _ _ h hc => Segment.Truthful.step h hc) hclean
  refine ⟨htrue r, fun hquiet => ?_⟩
  rw [← settled_of_pending_eq_nil tells hquiet]
  exact htrue r

/-! ## A device with two fabrics -/

theorem sampleAddr_length :
    ([0xfe, 0x80, 0, 0, 0, 0, 0, 0, 0, 0, 0, 0, 0, 0, 0, 1] : Bytes).length = 16 := rfl

def sampleAddr : Ipv6Addr :=
  ⟨[0xfe, 0x80, 0, 0, 0, 0, 0, 0, 0, 0, 0, 0, 0, 0, 0, 1], sampleAddr_length⟩

def sampleFabric (compressedFabricId : UInt64) : OperationalAdvert :=
  ⟨compressedFabricId, 1, "HOST".toList, 5540, sampleAddr⟩

def sampleWindow (instanceName : String) (cm : UInt8) : CommissionableAdvert :=
  ⟨instanceName.toList, "HOST".toList, 3840, 0xFFF1, 0x8000, 5540, sampleAddr, cm⟩

/-- A window is opened and closed, and the device joins a fabric in between. -/
def sampleRun : List Event :=
  [.call (.setCommissionable (some (sampleWindow "A" 1))), .repeatNext,
    .call (.addOperational (sampleFabric 1)), .call (.setCommissionable none), .repeatNext, .repeatNext,
    .repeatNext]

theorem known_iff_advertised_sample :
    let s := run Segment.step Segment.start sampleRun
    (s.talk.settled tells (.aaaa "host.local".toList sampleAddr 0) = true ↔
        s.advertiser.Advertises (.aaaa "host.local".toList sampleAddr 0)) ∧
      (s.talk.pending = [] → (s.talk.known (.aaaa "host.local".toList sampleAddr 0) = true ↔
        s.advertiser.Advertises (.aaaa "host.local".toList sampleAddr 0))) :=
  known_iff_advertised (by decide) _

/-- **Peers are misled** when one of two fabrics is removed, since its goodbye takes the address of
the host along, and when one window replaces another, since the pointer to the old one stays. -/
theorem peer_misled :
    (let s := run Segment.step Segment.start
      [.call (.addOperational (sampleFabric 1)), .call (.addOperational (sampleFabric 2)), .repeatNext,
        .repeatNext, .call (.removeOperational 1 1), .repeatNext]
    s.talk.pending = [] ∧ s.advertiser.Advertises (.aaaa "HOST.local".toList sampleAddr 120) ∧
      s.talk.known (.aaaa "HOST.local".toList sampleAddr 120) = false) ∧
    let s := run Segment.step Segment.start
      [.call (.setCommissionable (some (sampleWindow "A" 1))), .repeatNext,
        .call (.setCommissionable (some (sampleWindow "B" 2))), .repeatNext]
    let old : Rr := .ptr "_matterc._udp.local".toList "A._matterc._udp.local".toList 4500
    s.talk.pending = [] ∧ ¬ s.advertiser.Advertises old ∧ s.talk.known old = true := by
  decide

end MatStack.Mdns
