import MatStack.Device.Mdns.Records
import MatStack.Lib.LastWord
import MatStack.Lib.Machine

/-!
# Announcements and goodbyes

The advertiser keeps the adverts and multicasts unsolicited messages when they change; each message
goes out once more a second later, in the order of the first sendings. A peer that hears all of them
(`tells`, after the rules of multicast DNS) believes the last word on each record, and the question
is whether that is the truth (`MdnsAdvertiser.Advertises`).

All adverts of a device share its host name, and a goodbye takes the address of that host along.
When the commissionable advert is cleared, the announcement that follows brings the address back,
but no announcement follows when an operational advert is removed, and no goodbye is said for a
commissionable advert that another one replaces.
-/

namespace MatStack.Mdns

open Dnssd LastWord Machine

def OperationalAdvert.isOf (ad : OperationalAdvert) (compressedFabricId nodeId : UInt64) : Bool :=
  ad.compressedFabricId == compressedFabricId && ad.nodeId == nodeId

/-- An advert is known for a node by the name of its instance. -/
theorem instanceFull_eq_iff {ad : OperationalAdvert} {c node : UInt64} :
    (operationalRecords ad).instanceFull.lower = (operationalInstance c node ++ operationalSuffix).lower ↔
      ad.isOf c node = true := by
  simp only [OperationalAdvert.isOf, Bool.and_eq_true, beq_iff_eq]
  constructor
  · intro he
    rw [operationalRecords, lower_append, lower_append] at he
    exact operationalInstance_inj (List.append_cancel_right he)
  · rintro ⟨rfl, rfl⟩
    rfl

structure MdnsAdvertiser where
  commissionable : Option CommissionableAdvert
  operational : List OperationalAdvert
deriving Repr, DecidableEq

namespace MdnsAdvertiser

def services (a : MdnsAdvertiser) : List ServiceRecords := Mdns.services a.commissionable a.operational

/-- The announcement of all adverts. -/
def announce (a : MdnsAdvertiser) : List Rr := unsolicitedAnnouncement a.commissionable a.operational

/-- The new state, and the messages that are sent. -/
def setCommissionable (a : MdnsAdvertiser) (ad : Option CommissionableAdvert) :
    MdnsAdvertiser × List (List Rr) :=
  let farewell :=
    match ad, a.commissionable with
    | none, some old => [goodbye (some old) []]
    | _, _ => []
  let a := { a with commissionable := ad }
  (a, farewell ++ [a.announce])

def addOperational (a : MdnsAdvertiser) (ad : OperationalAdvert) : MdnsAdvertiser × List (List Rr) :=
  let a := { a with operational := a.operational ++ [ad] }
  (a, [a.announce])

/-- The adverts that stay when one node is removed. -/
def without (a : MdnsAdvertiser) (compressedFabricId nodeId : UInt64) : MdnsAdvertiser :=
  { a with operational := a.operational.filter fun ad => !ad.isOf compressedFabricId nodeId }

def removeOperational (a : MdnsAdvertiser) (compressedFabricId nodeId : UInt64) :
    MdnsAdvertiser × List (List Rr) :=
  match a.operational.find? (·.isOf compressedFabricId nodeId) with
  | none => (a, [])
  | some target => (a.without compressedFabricId nodeId, [goodbye none [target]])

end MdnsAdvertiser

/-- What the device asks of the advertiser. -/
inductive Call where
  | setCommissionable (ad : Option CommissionableAdvert)
  | addOperational (ad : OperationalAdvert)
  | removeOperational (compressedFabricId nodeId : UInt64)
deriving Repr, DecidableEq

def MdnsAdvertiser.call (a : MdnsAdvertiser) : Call → MdnsAdvertiser × List (List Rr)
  | .setCommissionable ad => a.setCommissionable ad
  | .addOperational ad => a.addOperational ad
  | .removeOperational compressedFabricId nodeId => a.removeOperational compressedFabricId nodeId

/-! ## The peer -/

/-- What the answers of a message tell of a record: that it is there, or that it is gone, because
its time to live is zero or a unique record takes its place. -/
def tells (answers : List Rr) (r : Rr) : Option Bool :=
  if answers.any fun x => x.identity == r.identity && x.ttl != 0 then some true
  else if answers.any fun x => x.identity == r.identity || x.supersedes r then some false
  else none

/-- The advertiser, and a peer that hears all its messages. -/
structure Segment where
  advertiser : MdnsAdvertiser
  talk : Talk Rr (List Rr)

inductive Event where
  | call (c : Call)
  /-- The second sending of a message. -/
  | repeatNext
deriving Repr, DecidableEq

namespace Segment

/-- Nothing is advertised, and nothing was heard. -/
def start : Segment := ⟨⟨none, []⟩, ⟨fun _ => false, []⟩⟩

def step (s : Segment) : Event → Segment
  | .call c =>
    let (advertiser, messages) := s.advertiser.call c
    ⟨advertiser, messages.foldl (Talk.send tells) s.talk⟩
  | .repeatNext => { s with talk := s.talk.repeatNext tells }

end Segment

/-! ## What a service stands for -/

/-- One of the records of the service. -/
def ServiceRecords.Lists (s : ServiceRecords) (r : Rr) : Prop :=
  ∃ x ∈ s.pushAll id, x.identity = r.identity

/-- A record whose place a record of the service takes. -/
def ServiceRecords.Supersedes (s : ServiceRecords) (r : Rr) : Prop :=
  ∃ x ∈ s.pushAll id, x.supersedes r = true

/-- **The truth**: the record belongs to an advert that is set. -/
def MdnsAdvertiser.Advertises (a : MdnsAdvertiser) (r : Rr) : Prop := ∃ s ∈ a.services, s.Lists r

instance (s : ServiceRecords) (r : Rr) : Decidable (s.Lists r) :=
  inferInstanceAs (Decidable (∃ _ ∈ _, _))

instance (s : ServiceRecords) (r : Rr) : Decidable (s.Supersedes r) :=
  inferInstanceAs (Decidable (∃ _ ∈ _, _))

instance (a : MdnsAdvertiser) (r : Rr) : Decidable (a.Advertises r) :=
  inferInstanceAs (Decidable (∃ _ ∈ _, _))

section
variable {s t : ServiceRecords} {ss : List ServiceRecords} {r : Rr} {f : UInt32 → UInt32}
  {known : Rr → Bool}

/-- The times to live do not matter for what a record is. -/
theorem exists_mem_pushAll {p : Rr → Prop} (hp : ∀ x y : Rr, x.identity = y.identity → (p x ↔ p y)) :
    (∃ x ∈ s.pushAll f, p x) ↔ ∃ x ∈ s.pushAll id, p x := by
  simp only [ServiceRecords.pushAll, ServiceRecords.srvRr, ServiceRecords.txtRr,
    ServiceRecords.aaaaRr, List.mem_append, List.mem_map, List.mem_cons, List.not_mem_nil, or_false,
    or_and_right, exists_or, exists_eq_left, exists_exists_and_eq_and]
  refine or_congr (exists_congr fun o => and_congr_right fun _ => hp _ _ rfl)
    (or_congr (hp _ _ rfl) (or_congr (hp _ _ rfl) (hp _ _ rfl)))

theorem supersedes_congr {x y : Rr} (h : x.identity = y.identity) :
    x.supersedes r = y.supersedes r := by
  cases x <;> cases y <;> simp_all [Rr.identity, Rr.supersedes, Rr.isShared, Rr.rtype, Rr.owner,
    eqIgnoreAsciiCase]

theorem ttl_of_mem_pushAll {x : Rr} (h : x ∈ s.pushAll f) : x.ttl = f hostTtl ∨ x.ttl = f ptrTxtTtl := by
  simp only [ServiceRecords.pushAll, ServiceRecords.srvRr, ServiceRecords.txtRr,
    ServiceRecords.aaaaRr, List.mem_append, List.mem_map, List.mem_cons, List.not_mem_nil,
    or_false] at h
  rcases h with ⟨o, -, rfl⟩ | rfl | rfl | rfl
  · exact Or.inr rfl
  · exact Or.inl rfl
  · exact Or.inr rfl
  · exact Or.inl rfl

end

end MatStack.Mdns
