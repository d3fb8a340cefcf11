import MatStack.Controller.Dnssd.Resolve
import MatStack.Controller.Dnssd.WireNames

/-!
# Records of the advertiser

What a device advertises, the records each advert stands for, and the messages made of them: the
answer to a question, the announcement of all records, and the goodbye of one advert, which is its
announcement with every time to live at zero. Names are written label by label and never compressed.
-/

namespace MatStack.Mdns

open Wire
open Dnssd hiding pushLabel pushName

/-- Unique records ask the peers to forget other records of the same name and type. -/
def cacheFlushBit : UInt16 := 0x8000

/-- In seconds, for records of services and addresses. -/
def hostTtl : UInt32 := 120

/-- In seconds, for pointers and texts. -/
def ptrTxtTtl : UInt32 := 4500

structure CommissionableAdvert where
  instanceName : Name
  /-- Without `.local`. -/
  hostname : Name
  discriminator : UInt16
  vendorId : UInt16
  productId : UInt16
  port : UInt16
  addrV6 : Ipv6Addr
  /-- The commissioning mode: 1 for the window at boot, 2 for one that an administrator opened. -/
  cm : UInt8
deriving Repr, DecidableEq

structure OperationalAdvert where
  compressedFabricId : UInt64
  nodeId : UInt64
  hostname : Name
  port : UInt16
  addrV6 : Ipv6Addr
deriving Repr, DecidableEq

inductive Rr where
  | ptr (owner target : Name) (ttl : UInt32)
  | srv (owner target : Name) (port : UInt16) (ttl : UInt32)
  | txt (owner : Name) (strings : List (List Char)) (ttl : UInt32)
  | aaaa (owner : Name) (addr : Ipv6Addr) (ttl : UInt32)
deriving Repr, DecidableEq

namespace Rr

def owner : Rr → Name
  | ptr owner .. => owner
  | srv owner .. => owner
  | txt owner .. => owner
  | aaaa owner .. => owner

def ttl : Rr → UInt32
  | ptr _ _ ttl => ttl
  | srv _ _ _ ttl => ttl
  | txt _ _ ttl => ttl
  | aaaa _ _ ttl => ttl

def rtype : Rr → UInt16
  | ptr .. => typePtr
  | srv .. => typeSrv
  | txt .. => typeTxt
  | aaaa .. => typeAaaa

/-- Other devices have pointers of the same owner. -/
def isShared : Rr → Bool
  | ptr .. => true
  | _ => false

end Rr

/-! ## Writing -/

/-- A label, cut to what its length byte may say. -/
def pushLabel (label : Name) : Bytes :=
  .ofNat (min (Utf8.size label) 63) :: (Utf8.encode label).take 63

def pushName (name : Name) : Bytes := (name.splitOn '.').flatMap pushLabel ++ [0]

/-- A string of a text record, cut to what its length byte may say. -/
def pushString (s : List Char) : Bytes :=
  .ofNat (min (Utf8.size s) 255) :: (Utf8.encode s).take 255

/-- The data of a record. -/
def Rr.rdata : Rr → Bytes
  | .ptr _ target _ => pushName target
  | .srv _ target port _ => be16Bytes 0 ++ be16Bytes 0 ++ be16Bytes port ++ pushName target
  | .txt _ strings _ => strings.flatMap pushString
  | .aaaa _ addr _ => addr.1

def pushRr (rr : Rr) (cacheFlush : Bool) : Bytes :=
  pushName rr.owner ++ be16Bytes rr.rtype ++
    be16Bytes (classIn ||| if cacheFlush then cacheFlushBit else 0) ++ be32Bytes rr.ttl ++
    be16Bytes (.ofNat rr.rdata.length) ++ rr.rdata

/-- A response without questions. -/
def encodeMessage (answers additionals : List Rr) (unicast : Bool) : Bytes :=
  be16Bytes 0 ++ be16Bytes 0x8400 ++ be16Bytes 0 ++ be16Bytes (.ofNat answers.length) ++
    be16Bytes 0 ++ be16Bytes (.ofNat additionals.length) ++
    (answers.flatMap fun rr => pushRr rr (!unicast && !rr.isShared)) ++
    additionals.flatMap fun rr => pushRr rr (!unicast && !rr.isShared)

/-! ## Services -/

/-- What one advert contributes: the owners of its pointers, the owner of its service and text
records, and that of its address. -/
structure ServiceRecords where
  ptrOwners : List Name
  instanceFull : Name
  hostFull : Name
  port : UInt16
  txt : List (List Char)
  addrV6 : Ipv6Addr
deriving Repr, DecidableEq

def decimal (n : Nat) : List Char := Nat.toDigits 10 n

def commissionableRecords (ad : CommissionableAdvert) : ServiceRecords where
  ptrOwners :=
    ["_matterc._udp.local".toList,
      "_L".toList ++ decimal ad.discriminator.toNat ++ "._sub._matterc._udp.local".toList,
      "_S".toList ++ decimal (ad.discriminator >>> 8).toUInt8.toNat ++
        "._sub._matterc._udp.local".toList]
  instanceFull := ad.instanceName ++ "._matterc._udp.local".toList
  hostFull := ad.hostname ++ ".local".toList
  port := ad.port
  txt :=
    ["D=".toList ++ decimal ad.discriminator.toNat,
      "VP=".toList ++ decimal ad.vendorId.toNat ++ '+' :: decimal ad.productId.toNat,
      "CM=".toList ++ decimal ad.cm.toNat, "SII=300".toList, "SAI=300".toList]
  addrV6 := ad.addrV6

def operationalRecords (ad : OperationalAdvert) : ServiceRecords where
  ptrOwners := ["_matter._tcp.local".toList]
  instanceFull := operationalInstance ad.compressedFabricId ad.nodeId ++ operationalSuffix
  hostFull := ad.hostname ++ ".local".toList
  port := ad.port
  txt := ["SII=300".toList, "SAI=300".toList]
  addrV6 := ad.addrV6

namespace ServiceRecords

def srvRr (s : ServiceRecords) (ttl : UInt32) : Rr := .srv s.instanceFull s.hostFull s.port ttl
def txtRr (s : ServiceRecords) (ttl : UInt32) : Rr := .txt s.instanceFull s.txt ttl
def aaaaRr (s : ServiceRecords) (ttl : UInt32) : Rr := .aaaa s.hostFull s.addrV6 ttl

/-- The answers and the additional records for a name, if it is one of the service. A pointer has
the owner that was asked for, in its letters. -/
def answer (s : ServiceRecords) (qName : Name) : Option (List Rr × List Rr) :=
  let srv := s.srvRr hostTtl
  let txt := s.txtRr ptrTxtTtl
  let aaaa := s.aaaaRr hostTtl
  if s.ptrOwners.any (eqIgnoreAsciiCase qName) then
    some ([.ptr qName s.instanceFull ptrTxtTtl], [srv, txt, aaaa])
  else if eqIgnoreAsciiCase qName s.instanceFull then some ([srv, txt], [aaaa])
  else if eqIgnoreAsciiCase qName s.hostFull then some ([aaaa], [])
  else none

def respond (s : ServiceRecords) (qName : Name) (unicast : Bool) : Option Bytes :=
  (s.answer qName).map fun (answers, additionals) => encodeMessage answers additionals unicast

/-- Every record of the service, its times to live mapped. -/
def pushAll (s : ServiceRecords) (ttl : UInt32 → UInt32) : List Rr :=
  s.ptrOwners.map (fun owner => .ptr owner s.instanceFull (ttl ptrTxtTtl)) ++
    [s.srvRr (ttl hostTtl), s.txtRr (ttl ptrTxtTtl), s.aaaaRr (ttl hostTtl)]

end ServiceRecords

def encodeCommissionableResponse (qName : Name) (ad : CommissionableAdvert) (unicast : Bool) :
    Option Bytes :=
  (commissionableRecords ad).respond qName unicast

def encodeOperationalResponse (qName : Name) (ad : OperationalAdvert) (unicast : Bool) :
    Option Bytes :=
  (operationalRecords ad).respond qName unicast

/-! ## Unsolicited messages -/

/-- The services that are advertised, in the order of a message. -/
def services (commissionable : Option CommissionableAdvert) (operational : List OperationalAdvert) :
    List ServiceRecords :=
  (commissionable.map commissionableRecords).toList ++ operational.map operationalRecords

/-- The records of an announcement, or of a goodbye, where a time to live overrides theirs. -/
def announcementOrGoodbye (commissionable : Option CommissionableAdvert)
    (operational : List OperationalAdvert) (ttlOverride : Option UInt32) : List Rr :=
  (services commissionable operational).flatMap (·.pushAll fun normal => ttlOverride.getD normal)

def unsolicitedAnnouncement (commissionable : Option CommissionableAdvert)
    (operational : List OperationalAdvert) : List Rr :=
  announcementOrGoodbye commissionable operational none

def goodbye (commissionable : Option CommissionableAdvert) (operational : List OperationalAdvert) :
    List Rr :=
  announcementOrGoodbye commissionable operational (some 0)

/-- The bytes of an unsolicited message. -/
def encodeUnsolicited (answers : List Rr) : Bytes := encodeMessage answers [] false

/-! ## Records as a peer tells them apart -/

/-- A record without its time to live, and without regard to the case of letters. -/
def Rr.identity : Rr → Rr
  | .ptr owner target _ => .ptr owner.lower target.lower 0
  | .srv owner target port _ => .srv owner.lower target.lower port 0
  | .txt owner strings _ => .txt owner.lower strings 0
  | .aaaa owner addr _ => .aaaa owner.lower addr 0

/-- A unique record takes the place of all others of its owner and type. -/
def Rr.supersedes (x r : Rr) : Bool :=
  !x.isShared && x.rtype == r.rtype && eqIgnoreAsciiCase x.owner r.owner

/-! ## Names of instances -/

section
variable {n m : Name} {c c' node node' : UInt64} {ad : CommissionableAdvert}

/-- A name below `_udp.local` is none below `_tcp.local`. -/
theorem udp_ne_tcp : (n ++ "_udp.local".toList).lower ≠ (m ++ "_tcp.local".toList).lower := by
  intro h
  rw [lower_append, lower_append] at h
  have htail : Name.lower "_udp.local".toList = Name.lower "_tcp.local".toList :=
    (List.append_inj' h (by decide)).2
  revert htail
  decide

/-- The instance name has both identifiers, whatever the case of its letters. -/
theorem operationalInstance_inj
    (h : (operationalInstance c node).lower = (operationalInstance c' node').lower) :
    c = c' ∧ node = node' := by
  have hpad : ∀ n : UInt64, Name.lower (Numeral.padUpper 16 16 n.toNat) = Numeral.pad 16 16 n.toNat :=
    fun n => Numeral.map_toLower_padUpper (by decide) (by decide)
  have hlen : ∀ n : UInt64, (Numeral.pad 16 16 n.toNat).length = 16 :=
    fun n => Numeral.length_pad (by decide) (by decide) n.toNat_lt
  have hcons : ∀ l : Name, Name.lower ('-' :: l) = '-' :: l.lower := fun l => rfl
  rw [operationalInstance, operationalInstance, lower_append, lower_append, hpad, hpad, hcons, hcons,
    hpad, hpad] at h
  obtain ⟨hfabric, hnode⟩ := List.append_inj h ((hlen _).trans (hlen _).symm)
  have hb : (1 : Nat) < 16 := by decide
  exact ⟨UInt64.toNat_inj.1 (Numeral.pad_inj hb (Nat.le_refl _) hfabric),
    UInt64.toNat_inj.1 (Numeral.pad_inj hb (Nat.le_refl _) (List.cons.inj hnode).2)⟩

/-- No commissionable instance is one of a node. -/
theorem commissionable_ne_operational : (commissionableRecords ad).instanceFull.lower ≠
    (operationalInstance c node ++ operationalSuffix).lower := by
  have hudp : (commissionableRecords ad).instanceFull =
      (ad.instanceName ++ "._matterc.".toList) ++ "_udp.local".toList := by
    rw [List.append_assoc]
    rfl
  have htcp : operationalInstance c node ++ operationalSuffix =
      (operationalInstance c node ++ "._matter.".toList) ++ "_tcp.local".toList := by
    rw [List.append_assoc]
    rfl
  rw [hudp, htcp]
  exact udp_ne_tcp

end

end MatStack.Mdns
