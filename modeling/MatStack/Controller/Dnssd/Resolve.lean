import MatStack.Controller.Dnssd.Records
import MatStack.Lib.Numeral
import MatStack.Lib.OwnedRows

/-!
# The one-shot resolver

Many operational nodes are resolved over one socket: a datagram is folded into the queries that are
not resolved yet, and a query is finished once it has a service record and an address of its target.
The resolver reads until all queries are resolved, or its time is over, which is the end of the
datagrams here.
-/

namespace MatStack.Dnssd

/-- The label of a node, from its compressed fabric id and its node id. -/
def operationalInstance (compressedFabricId nodeId : UInt64) : Name :=
  Numeral.padUpper 16 16 compressedFabricId.toNat ++ '-' :: Numeral.padUpper 16 16 nodeId.toNat

/-- What is known of a node that is asked for. -/
structure OperationalQuery where
  nodeId : UInt64
  service : Name
  srv : Option (UInt16 × Name)
  txt : Option (List Bytes)
  aaaa : List (Name × Ipv6Addr)
  resolved : Option ResolvedNode
deriving Repr, DecidableEq

namespace OperationalQuery

def new (compressedFabricId nodeId : UInt64) : OperationalQuery where
  nodeId := nodeId
  service := operationalInstance compressedFabricId nodeId ++ operationalSuffix
  srv := none
  txt := none
  aaaa := []
  resolved := none

/-- A service record with at least one address of its target completes the node. -/
def tryFinish (q : OperationalQuery) : OperationalQuery :=
  if q.resolved.isSome then q
  else
    match q.srv with
    | none => q
    | some (port, target) =>
      let addresses := addressesForTarget q.aaaa target
      if addresses.isEmpty then q
      else { q with resolved := some (.fromParts port addresses (q.txt.getD [])) }

/-- Whether a record of this name is for the query. -/
def wants (q : OperationalQuery) (name : Name) : Bool :=
  q.resolved.isNone && eqIgnoreAsciiCase name q.service

def takeSrv (q : OperationalQuery) (port : UInt16) (target : Name) : OperationalQuery :=
  { q with aaaa := pruneAaaa q.aaaa target, srv := some (port, target) }

def takeTxt (q : OperationalQuery) (strings : List Bytes) : OperationalQuery :=
  { q with txt := some strings }

/-- An address has no instance, so every query takes it until it knows its target. -/
def takeAaaa (q : OperationalQuery) (name : Name) (addr : Ipv6Addr) : OperationalQuery :=
  if q.resolved.isNone then { q with aaaa := pushAaaa q.aaaa (q.srv.map (·.2)) name addr } else q

end OperationalQuery

open OperationalQuery

/-- One record goes to the first query that wants it, an address to all. -/
def hear (queries : List OperationalQuery) (r : Record) : List OperationalQuery :=
  match r.rdata with
  | .srv port target =>
    (OwnedRows.modifyFirst? (·.wants r.name) (·.takeSrv port target) queries).getD queries
  | .txt strings => (OwnedRows.modifyFirst? (·.wants r.name) (·.takeTxt strings) queries).getD queries
  | .aaaa addr => queries.map (·.takeAaaa r.name addr)
  | _ => queries

def hearDatagram (queries : List OperationalQuery) (records : List Record) : List OperationalQuery :=
  (records.foldl hear queries).map tryFinish

/-- Reads datagrams until every query is resolved. -/
def resolveQueries (queries : List OperationalQuery) : List (List Record) → List OperationalQuery
  | [] => queries
  | d :: ds =>
    if queries.all (·.resolved.isSome) then queries else resolveQueries (hearDatagram queries d) ds

/-- The nodes that were found, in the order in which they were asked for. -/
def resolveOperationalMany (compressedFabricId : UInt64) (nodeIds : List UInt64)
    (datagrams : List (List Record)) : List (UInt64 × Option ResolvedNode) :=
  (resolveQueries (nodeIds.map (new compressedFabricId)) datagrams).map fun q => (q.nodeId, q.resolved)

/-- One node. -/
def resolveOperational (compressedFabricId nodeId : UInt64) (datagrams : List (List Record)) :
    Option ResolvedNode :=
  ((resolveOperationalMany compressedFabricId [nodeId] datagrams).head?).bind (·.2)

/-! ## A query alone -/

/-- One record, for one query that is not resolved. -/
def OperationalQuery.hearOne (q : OperationalQuery) (r : Record) : OperationalQuery :=
  match r.rdata with
  | .srv port target => if eqIgnoreAsciiCase r.name q.service then q.takeSrv port target else q
  | .txt strings => if eqIgnoreAsciiCase r.name q.service then q.takeTxt strings else q
  | .aaaa addr => { q with aaaa := pushAaaa q.aaaa (q.srv.map (·.2)) r.name addr }
  | _ => q

section
variable {q : OperationalQuery} {r : Record} {rs : List Record} {ds : List (List Record)}

@[simp] theorem OperationalQuery.hearOne_resolved : (q.hearOne r).resolved = q.resolved := by
  unfold hearOne takeSrv takeTxt
  split
  · split <;> rfl
  · split <;> rfl
  · rfl
  · rfl

@[simp] theorem OperationalQuery.hearOne_service : (q.hearOne r).service = q.service := by
  unfold hearOne takeSrv takeTxt
  split
  · split <;> rfl
  · split <;> rfl
  · rfl
  · rfl

@[simp] theorem OperationalQuery.tryFinish_service : q.tryFinish.service = q.service := by
  unfold tryFinish
  split
  · rfl
  · split
    · rfl
    · dsimp only
      split <;> rfl

theorem OperationalQuery.foldl_hearOne_resolved :
    (rs.foldl hearOne q).resolved = q.resolved := by
  induction rs generalizing q with
  | nil => rfl
  | cons r rs ih => rw [List.foldl_cons, ih, hearOne_resolved]

theorem OperationalQuery.foldl_hearOne_service : (rs.foldl hearOne q).service = q.service := by
  induction rs generalizing q with
  | nil => rfl
  | cons r rs ih => rw [List.foldl_cons, ih, hearOne_service]

/-- A query alone hears what it wants. -/
theorem hear_singleton (h : q.resolved = none) : hear [q] r = [q.hearOne r] := by
  have hwants : ∀ name, q.wants name = eqIgnoreAsciiCase name q.service := by
    intro name
    rw [wants, h]
    rfl
  unfold hear hearOne
  split
  · rw [OwnedRows.modifyFirst?, hwants]
    split <;> rfl
  · rw [OwnedRows.modifyFirst?, hwants]
    split <;> rfl
  · rw [List.map_singleton, takeAaaa, h]
    rfl
  · rfl

theorem foldl_hear_singleton (h : q.resolved = none) : rs.foldl hear [q] = [rs.foldl hearOne q] := by
  induction rs generalizing q with
  | nil => rfl
  | cons r rs ih =>
    rw [List.foldl_cons, hear_singleton h, ih (by rw [hearOne_resolved, h])]
    rfl

/-- One more datagram is read if some query is not resolved yet. -/
theorem resolveQueries_concat {queries : List OperationalQuery} {d : List Record} :
    resolveQueries queries (ds ++ [d]) =
      if (resolveQueries queries ds).all (·.resolved.isSome) then resolveQueries queries ds
      else hearDatagram (resolveQueries queries ds) d := by
  induction ds generalizing queries with
  | nil => rfl
  | cons x ds ih =>
    rw [List.cons_append, resolveQueries, resolveQueries]
    split
    · rfl
    · exact ih

end

end MatStack.Dnssd
