import MatStack.Controller.Dnssd.KnownAnswers
import MatStack.Lib.OwnedRows

/-!
# Browsing

Whoever browses a service folds the datagrams that come into the instances it has heard of, and asks
again with those as known answers. `browse_survives_iff` says what any sequence of datagrams leads
to: no reader panics, and the next query can be written, and says what it should, exactly when the
names of the known instances are cut between two characters.
-/

namespace MatStack.Dnssd

open Wire

def maxInstances : Nat := 128
def maxBrowseAaaa : Nat := 64

/-- What is known of an instance. -/
structure InstanceFold where
  srv : Option (UInt16 × Name)
  txt : Option (List Bytes)
  /-- Of the record that named it last. -/
  ttl : UInt32
deriving Repr, DecidableEq

/-- What browsing has found. -/
structure BrowseFold where
  service : Name
  instances : List (Name × InstanceFold)
  aaaa : List (Name × Ipv6Addr)
deriving Repr, DecidableEq

namespace BrowseFold

def new (service : Name) : BrowseFold := ⟨service, [], []⟩

/-- Changes what is known of the instance of a name. -/
def modify? (b : BrowseFold) (name : Name) (f : InstanceFold → InstanceFold) : Option BrowseFold :=
  (OwnedRows.modifyFirst? (fun x => eqIgnoreAsciiCase x.1 name) (fun x => (x.1, f x.2))
    b.instances).map ({ b with instances := · })

/-- A record that names an instance of the service. -/
def foldPtr (b : BrowseFold) (r : Record) : BrowseFold :=
  match r.rdata with
  | .ptr inst =>
    if !eqIgnoreAsciiCase r.name b.service then b
    else
      match b.modify? inst ({ · with ttl := r.ttl }) with
      | some b => b
      | none =>
        if b.instances.length < maxInstances then
          { b with instances := b.instances ++ [(inst, ⟨none, none, r.ttl⟩)] }
        else b
  | _ => b

/-- A record that says something of an instance or of a host. -/
def foldOther (b : BrowseFold) (r : Record) : BrowseFold :=
  match r.rdata with
  | .srv port target => (b.modify? r.name ({ · with srv := some (port, target) })).getD b
  | .txt strings => (b.modify? r.name ({ · with txt := some strings })).getD b
  | .aaaa addr =>
    if b.aaaa.length < maxBrowseAaaa ∧
        ¬ b.aaaa.any fun (n, a) => a == addr && eqIgnoreAsciiCase n r.name then
      { b with aaaa := b.aaaa ++ [(r.name, addr)] }
    else b
  | _ => b

/-- The records of a datagram: first those that name instances, then the others. -/
def fold (b : BrowseFold) (records : List Record) : BrowseFold :=
  records.foldl foldOther (records.foldl foldPtr b)

/-- The instances that are known, but for those that said goodbye. -/
def knownAnswers (b : BrowseFold) : List (Name × UInt32) :=
  (b.instances.filter fun x => x.2.ttl ≠ 0).map fun x => (x.1, x.2.ttl)

/-- A datagram. What cannot be read does not matter. -/
def receive (b : BrowseFold) (datagram : Bytes) : BrowseFold :=
  match parseMessage datagram with
  | .ok records => b.fold records
  | .error _ => b

end BrowseFold

open BrowseFold

/-- What has been found after some datagrams. -/
def browse (service : Name) (datagrams : List Bytes) : BrowseFold :=
  datagrams.foldl receive (new service)

/-- The service of the nodes that can be commissioned. -/
def commissionableService : Name := "_matterc._udp.local".toList

section
variable {b b' : BrowseFold} {r : Record} {records : List Record} {service : Name}

theorem BrowseFold.length_modify? {name : Name} {f : InstanceFold → InstanceFold}
    (h : b.modify? name f = some b') : b'.instances.length = b.instances.length := by
  obtain ⟨l, hl, rfl⟩ := Option.map_eq_some_iff.1 h
  have hnames := OwnedRows.map_modifyFirst? (·.1) hl fun _ => rfl
  rw [← List.length_map (f := fun x : Name × InstanceFold => x.1), hnames, List.length_map]

theorem BrowseFold.length_foldPtr (h : b.instances.length ≤ maxInstances) :
    (b.foldPtr r).instances.length ≤ maxInstances := by
  unfold foldPtr
  split
  · split
    · exact h
    · split
      · next hb =>
        rw [length_modify? hb]
        exact h
      · split
        · next hlt =>
          rw [List.length_append, List.length_singleton]
          exact hlt
        · exact h
  · exact h

theorem BrowseFold.length_foldOther : (b.foldOther r).instances.length = b.instances.length := by
  unfold foldOther
  split
  · cases h : b.modify? r.name _ with
    | none => rfl
    | some b' => exact length_modify? h
  · cases h : b.modify? r.name _ with
    | none => rfl
    | some b' => exact length_modify? h
  · split <;> rfl
  · rfl

theorem BrowseFold.length_fold (h : b.instances.length ≤ maxInstances) :
    (b.fold records).instances.length ≤ maxInstances := by
  have hptr : ∀ (rs : List Record) (b : BrowseFold), b.instances.length ≤ maxInstances →
      (rs.foldl foldPtr b).instances.length ≤ maxInstances := by
    intro rs
    induction rs with
    | nil => exact fun _ h => h
    | cons r rs ih => exact fun b h => ih _ (length_foldPtr h)
  have hother : ∀ (rs : List Record) (b : BrowseFold),
      (rs.foldl foldOther b).instances.length = b.instances.length := by
    intro rs
    induction rs with
    | nil => exact fun _ => rfl
    | cons r rs ih => exact fun b => (ih _).trans length_foldOther
  rw [fold, hother]
  exact hptr records b h

/-- No more instances than there may be. -/
theorem length_browse (service : Name) (datagrams : List Bytes) :
    (browse service datagrams).instances.length ≤ maxInstances := by
  suffices h : ∀ b : BrowseFold, b.instances.length ≤ maxInstances →
      (datagrams.foldl receive b).instances.length ≤ maxInstances from h _ (Nat.zero_le _)
  induction datagrams with
  | nil => exact fun _ h => h
  | cons d ds ih =>
    intro b h
    refine ih _ ?_
    unfold receive
    split
    · exact length_fold h
    · exact h

/-! ## What any datagrams lead to -/

/-- No datagram makes the reader panic, and the next query can be written and says what it should.
-/
def Survives (service : Name) (datagrams : List Bytes) : Prop :=
  (∀ d ∈ datagrams, Safe (parseMessage d)) ∧
    ∃ packets, encodePtrQueryWithKnown service (browse service datagrams).knownAnswers = some packets ∧
      Echo service (browse service datagrams).knownAnswers packets

/-- **Browsing survives** exactly when the name of every known instance is cut between two
characters. -/
theorem browse_survives_iff (datagrams : List Bytes) :
    Survives commissionableService datagrams ↔
      ∀ x ∈ (browse commissionableService datagrams).knownAnswers,
        CutsBetween commissionableService x.1 := by
  constructor
  · rintro ⟨-, packets, hencode, -⟩
    rw [encodePtrQueryWithKnown] at hencode
    split at hencode
    · next hempty =>
      rw [List.isEmpty_iff.1 hempty]
      exact List.forall_mem_nil _
    · obtain ⟨tails, htails, -⟩ := Option.map_eq_some_iff.1 hencode
      exact kaTails_isSome_iff.1 (by rw [htails]; rfl)
  · intro h
    refine ⟨fun d _ => parseMessage_safe d, ?_⟩
    have hlen : (browse commissionableService datagrams).knownAnswers.length < 65536 := by
      have hle := length_browse commissionableService datagrams
      have hfilter := List.length_filter_le (fun x : Name × InstanceFold => decide (x.2.ttl ≠ 0))
        (browse commissionableService datagrams).instances
      rw [knownAnswers, List.length_map]
      rw [maxInstances] at hle
      omega
    exact encodePtrQueryWithKnown_echo (by decide) (by decide +kernel) hlen h

/-- A name of 21 bytes whose first character takes two. -/
def wideName : Name := 'é' :: List.replicate 19 'a'

/-- A response that names it as an instance. -/
def wideResponse : Bytes :=
  header 0 0x8400 0 1 0 0 ++
    (pushName commissionableService ++ recordTail typePtr classIn 120 (pushName wideName))

theorem parseMessage_wideResponse :
    parseMessage wideResponse = .ok [⟨commissionableService, .ptr wideName, 120, false⟩] := by
  have hheader : Has wideResponse 0 (header 0 0x8400 0 1 0 0) := has_append_append [] _ _
  have hrecord : Has wideResponse 12
      (pushName commissionableService ++ recordTail typePtr classIn 120 (pushName wideName)) := by
    have h := has_append_append (header 0 0x8400 0 1 0 0)
      (pushName commissionableService ++ recordTail typePtr classIn 120 (pushName wideName)) []
    rwa [List.append_nil, length_header] at h
  have hdata : readRData wideResponse typePtr (12 + (pushName commissionableService).length + 10)
      (pushName wideName) = .ok (.ptr wideName) := by
    rw [readRData, if_pos rfl, readName_pushName (has_rdata hrecord) (by decide)]
  have hread := readRecord_pushName (by decide) hrecord (by decide +kernel) hdata
  have hskip : skipQuestions wideResponse (0 : UInt16).toNat 12 = .ok 12 := rfl
  refine parseMessage_of_has hheader hskip ?_
  show readRecords wideResponse 1 12 = _
  rw [readRecords, hread]
  rfl

/-- One response is enough to make the next query panic. -/
theorem wide_name_panics : ¬ ∀ datagrams, Survives commissionableService datagrams := by
  intro h
  obtain ⟨-, packets, hencode, -⟩ := h [wideResponse]
  have hknown : (browse commissionableService [wideResponse]).knownAnswers = [(wideName, 120)] := by
    rw [browse, List.foldl_cons, List.foldl_nil, receive, parseMessage_wideResponse]
    decide
  have hnone : encodePtrQueryWithKnown commissionableService [(wideName, 120)] = none := by
    decide
  rw [hknown, hnone] at hencode
  cases hencode

end

end MatStack.Dnssd
