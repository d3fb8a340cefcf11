import MatStack.Controller.Dnssd.Records
import MatStack.Lib.BoundedMap
import MatStack.Lib.Machine

/-!
# The resident cache of operational nodes

A listener that runs as long as its process folds the records of every datagram into three maps, of
service records, of text records and of addresses, and puts each instance that a datagram touches
and that is complete into a cache, for as long as the service record says. All four maps refuse new
names when they are full. The clock is read once for each datagram.
-/

namespace MatStack.Dnssd

open Machine

def maxCache : Nat := 256
def maxFoldEntries : Nat := 256
def maxAddrsPerHost : Nat := 8

/-- What a cache-flush leaves alone, in milliseconds. -/
def cacheFlushGrace : Nat := 1000

structure CacheEntry where
  node : ResolvedNode
  expiry : Instant
deriving Repr, DecidableEq

/-- Nodes by the names of their instances, in small letters. -/
abbrev OperationalCache := BoundedMap Name CacheEntry maxCache

namespace OperationalCache

/-- The node of an instance, while it is fresh. -/
def get (cache : OperationalCache) (inst : Name) (now : Instant) : Option ResolvedNode :=
  ((cache.lookup inst.lower).filter fun e => now < e.expiry).map (·.node)

/-- Puts a node in for `ttl` milliseconds. -/
def put (cache : OperationalCache) (inst : Name) (node : ResolvedNode) (ttl : Nat) (now : Instant) :
    OperationalCache :=
  cache.insert inst.lower ⟨node, now + ttl⟩

end OperationalCache

/-- What the listener keeps, by names in small letters: port, target and lifetime of an instance,
its text record, and the addresses of a host with the time each was last seen. -/
structure OperationalFold where
  srv : BoundedMap Name (UInt16 × Name × UInt32) maxFoldEntries
  txt : BoundedMap Name (List Bytes) maxFoldEntries
  addrs : BoundedMap Name (List (Ipv6Addr × Instant)) maxFoldEntries

/-- The order in which a set of names is gone through, which is not known. -/
structure IterationOrder where
  order : List Name → List Name
  perm : ∀ names, (order names).Perm names

/-- Whether a name is spelled as that of an operational instance. -/
def isOperational (name : Name) : Bool := operationalSuffix.isSuffixOf name

/-! ## Addresses -/

/-- The address was seen again. -/
def seeAgain (addr : Ipv6Addr) (now : Instant) : List (Ipv6Addr × Instant) → List (Ipv6Addr × Instant)
  | [] => []
  | (a, seen) :: l => if a = addr then (a, now) :: l else (a, seen) :: seeAgain addr now l

/-- Drops the address that was not seen for the longest time. -/
def evictOldest (l : List (Ipv6Addr × Instant)) : List (Ipv6Addr × Instant) :=
  match (l.map (·.2)).min? with
  | some oldest => l.eraseP fun (_, seen) => seen == oldest
  | none => l

/-- The addresses of a host with one more. A cache-flush drops those that were not seen lately, and
a full list the oldest. -/
def learnAddress (l : List (Ipv6Addr × Instant)) (cacheFlush : Bool) (addr : Ipv6Addr)
    (now : Instant) : List (Ipv6Addr × Instant) :=
  let l := if cacheFlush then l.filter fun (_, seen) => now - seen ≤ cacheFlushGrace else l
  if l.any fun (a, _) => a == addr then seeAgain addr now l
  else (if l.length ≥ maxAddrsPerHost then evictOldest l else l) ++ [(addr, now)]

/-- Addresses that are not link-local first, among those the one seen last. -/
def sortAddresses (l : List (Ipv6Addr × Instant)) : List Ipv6Addr :=
  (l.insertionSort fun x y =>
    isLinkLocal x.1 < isLinkLocal y.1 ∨ isLinkLocal x.1 = isLinkLocal y.1 ∧ y.2 ≤ x.2).map (·.1)

/-! ## One datagram -/

/-- The address of a host, where there is room for the host. -/
def OperationalFold.learn (fold : OperationalFold) (r : Record) (addr : Ipv6Addr) (now : Instant) :
    OperationalFold :=
  let l := (fold.addrs.lookup r.name.lower).getD []
  { fold with addrs := fold.addrs.insert r.name.lower (learnAddress l r.cacheFlush addr now) }

/-- One record, and the instances that the datagram has touched so far. -/
def foldRecord (now : Instant) (fold : OperationalFold) (touched : List Name) (r : Record) :
    OperationalFold × List Name :=
  match r.rdata with
  | .srv port target =>
    if isOperational r.name ∧ fold.srv.HasRoom r.name.lower then
      ({ fold with srv := fold.srv.insert r.name.lower (port, target.lower, r.ttl) },
        touched.insert r.name.lower)
    else (fold, touched)
  | .txt strings =>
    if isOperational r.name ∧ fold.txt.HasRoom r.name.lower then
      ({ fold with txt := fold.txt.insert r.name.lower strings }, touched.insert r.name.lower)
    else (fold, touched)
  | .aaaa addr =>
    -- an instance of this host may be complete now
    let known := fold.srv.entries.filter fun (_, _, target, _) =>
      eqIgnoreAsciiCase target r.name.lower
    (fold.learn r addr now, known.map (·.1) ∪ touched)
  | _ => (fold, touched)

/-- The node of an instance, and its lifetime in seconds, once its host has an address. -/
def completed (fold : OperationalFold) (inst : Name) : Option (ResolvedNode × UInt32) :=
  match fold.srv.lookup inst with
  | none => none
  | some (port, target, ttl) =>
    match fold.addrs.lookup target with
    | none | some [] => none
    | some addrs =>
      some (.fromParts port (sortAddresses addrs) ((fold.txt.lookup inst).getD []), ttl)

/-- Puts a touched instance into the cache, if it is complete. -/
def refresh (fold : OperationalFold) (now : Instant) (cache : OperationalCache) (inst : Name) :
    OperationalCache :=
  match completed fold inst with
  | none => cache
  | some (node, ttl) => cache.put inst node (ttl.toNat * 1000) now

/-- The records of a datagram. -/
def foldRecords (now : Instant) (fold : OperationalFold) (records : List Record) :
    OperationalFold × List Name :=
  records.foldl (fun (fold, touched) r => foldRecord now fold touched r) (fold, [])

/-- One datagram: its records, then the instances it has touched. -/
def foldOperationalIntoCache (records : List Record) (fold : OperationalFold)
    (cache : OperationalCache) (now : Instant) (σ : IterationOrder) :
    OperationalFold × OperationalCache :=
  let (fold, touched) := foldRecords now fold records
  (fold, (σ.order touched).foldl (refresh fold now) cache)

/-! ## The listener -/

/-- The listener, and, for the statements only, every record that it has received, with its time. -/
structure Listener where
  clock : Instant
  fold : OperationalFold
  cache : OperationalCache
  history : List (Instant × Record)

/-- A datagram, some time after the one before. -/
structure Datagram where
  elapsed : Nat
  records : List Record
  order : IterationOrder

namespace Listener

def start : Listener := ⟨0, ⟨.empty, .empty, .empty⟩, .empty, []⟩

def step (l : Listener) (d : Datagram) : Listener :=
  let now := l.clock + d.elapsed
  let (fold, cache) := foldOperationalIntoCache d.records l.fold l.cache now d.order
  ⟨now, fold, cache, l.history ++ d.records.map (now, ·)⟩

end Listener

end MatStack.Dnssd
