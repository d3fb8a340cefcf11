import MatStack.Controller.Dnssd.Codec

/-!
# The resolver of commissionable nodes

A node that waits to be commissioned is asked for by its discriminator. An answer with all of its
records is taken at once (`commissionableFromResponse`), otherwise the records of all datagrams are
folded until they make a node, whose text has to have the discriminator.
-/

namespace MatStack.Dnssd

def longDiscriminatorSubtype (longDiscriminator : UInt16) : Name :=
  "_L".toList ++ Nat.toDigits 10 longDiscriminator.toNat ++ "._sub._matterc._udp.local".toList

/-- A node whose text has the discriminator, with at least one address of the target. -/
def buildCommissionable (longDiscriminator port : UInt16) (target : Name) (txt : List Bytes)
    (aaaa : List (Name × Ipv6Addr)) : Option ResolvedNode :=
  if txtU32 txt "D".toList ≠ some longDiscriminator.toUInt32 then none
  else
    let addresses := addressesForTarget aaaa target
    if addresses.isEmpty then none else some (.fromParts port addresses txt)

def findPtr (owner : Name) (r : Record) : Option Name :=
  match r.rdata with
  | .ptr name => if eqIgnoreAsciiCase r.name owner then some name else none
  | _ => none

def findSrv (owner : Name) (r : Record) : Option (UInt16 × Name) :=
  match r.rdata with
  | .srv port target => if eqIgnoreAsciiCase r.name owner then some (port, target) else none
  | _ => none

def findTxt (owner : Name) (r : Record) : Option (List Bytes) :=
  match r.rdata with
  | .txt strings => if eqIgnoreAsciiCase r.name owner then some strings else none
  | _ => none

/-- One more candidate if the record is an address. -/
def foldAaaa (srvTarget : Option Name) (aaaa : List (Name × Ipv6Addr)) (r : Record) :
    List (Name × Ipv6Addr) :=
  match r.rdata with
  | .aaaa addr => pushAaaa aaaa srvTarget r.name addr
  | _ => aaaa

/-- A node from the records of one message. -/
def commissionableFromRecords (records : List Record) (longDiscriminator : UInt16) :
    Option ResolvedNode := do
  let name ← records.findSome? (findPtr (longDiscriminatorSubtype longDiscriminator))
  let (port, target) ← records.findSome? (findSrv name)
  let txt ← records.findSome? (findTxt name)
  buildCommissionable longDiscriminator port target txt (records.foldl (foldAaaa (some target)) [])

def commissionableFromResponse (bytes : Bytes) (longDiscriminator : UInt16) : Option ResolvedNode :=
  match parseMessage bytes with
  | .error _ => none
  | .ok records => commissionableFromRecords records longDiscriminator

/-- What the resolver remembers from one datagram to the next. -/
structure CommissionableQuery where
  instanceName : Option Name
  srv : Option (UInt16 × Name)
  txt : Option (List Bytes)
  aaaa : List (Name × Ipv6Addr)
deriving Repr, DecidableEq

namespace CommissionableQuery

/-- Whether a record of this name is of the instance. -/
def isInstance (q : CommissionableQuery) (name : Name) : Bool :=
  q.instanceName.any fun i => eqIgnoreAsciiCase name i

def hear (subtype : Name) (q : CommissionableQuery) (r : Record) : CommissionableQuery :=
  match r.rdata with
  | .ptr name => if eqIgnoreAsciiCase r.name subtype then { q with instanceName := some name } else q
  | .srv port target =>
    if q.isInstance r.name then
      { q with aaaa := pruneAaaa q.aaaa target, srv := some (port, target) }
    else q
  | .txt strings => if q.isInstance r.name then { q with txt := some strings } else q
  | .aaaa addr => { q with aaaa := pushAaaa q.aaaa (q.srv.map (·.2)) r.name addr }
  | .other => q

/-- The node, once its service and text records are known. -/
def build (q : CommissionableQuery) (longDiscriminator : UInt16) : Option ResolvedNode :=
  match q.srv, q.txt with
  | some (port, target), some strings =>
    buildCommissionable longDiscriminator port target strings q.aaaa
  | _, _ => none

end CommissionableQuery

def resolveCommissionableFrom (longDiscriminator : UInt16) :
    CommissionableQuery → List Bytes → Option ResolvedNode
  | _, [] => none
  | q, datagram :: datagrams =>
    match commissionableFromResponse datagram longDiscriminator with
    | some node => some node
    | none =>
      match parseMessage datagram with
      | .error _ => resolveCommissionableFrom longDiscriminator q datagrams
      | .ok records =>
        let q := records.foldl (.hear (longDiscriminatorSubtype longDiscriminator)) q
        match q.build longDiscriminator with
        | some node => some node
        | none => resolveCommissionableFrom longDiscriminator q datagrams

/-- The node from the datagrams that arrive in time. -/
def resolveCommissionable (longDiscriminator : UInt16) (datagrams : List Bytes) :
    Option ResolvedNode :=
  resolveCommissionableFrom longDiscriminator ⟨none, none, none, []⟩ datagrams

end MatStack.Dnssd
