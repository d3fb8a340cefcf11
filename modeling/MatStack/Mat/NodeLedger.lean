import MatStack.Lib.Machine
import Mathlib.Data.List.Nodup
import Mathlib.Logic.Function.Basic

/-!
# The node ledger

`nodes.json` lists the commissioned nodes and the id to give out next. Each command reads it once,
works on a device, and then writes back the whole file from what it read; nothing keeps another
command from writing in between. As long as none does, and no node has the greatest id, the file
lists the nodes that were added and not removed since, and an id that was ever given stays unused.
-/

namespace MatStack

/-- A node of the ledger. -/
structure NodeRecord where
  nodeId : UInt64
  commissionedAt : String
deriving DecidableEq

/-- The records by key, one for each key. -/
structure NodeMap where
  rows : List (UInt64 × NodeRecord)
  nodup : (rows.map Prod.fst).Nodup

namespace NodeMap

def empty : NodeMap := ⟨[], List.nodup_nil⟩

def keys (m : NodeMap) : List UInt64 := m.rows.map Prod.fst

def get? (m : NodeMap) (id : UInt64) : Option NodeRecord :=
  (m.rows.find? (·.1 == id)).map Prod.snd

theorem nodup_insert (m : NodeMap) (id : UInt64) (r : NodeRecord) :
    ((m.rows.filter (·.1 != id) ++ [(id, r)]).map Prod.fst).Nodup := by
  rw [List.map_append, List.nodup_append]
  refine ⟨m.nodup.sublist (List.filter_sublist.map _), List.nodup_singleton _, ?_⟩
  intro i hi j hj
  obtain ⟨row, hrow, rfl⟩ := List.mem_map.1 hi
  rw [List.map_singleton, List.mem_singleton] at hj
  subst hj
  simpa using (List.mem_filter.1 hrow).2

def insert (m : NodeMap) (id : UInt64) (r : NodeRecord) : NodeMap :=
  ⟨m.rows.filter (·.1 != id) ++ [(id, r)], m.nodup_insert id r⟩

def erase (m : NodeMap) (id : UInt64) : NodeMap :=
  ⟨m.rows.filter (·.1 != id), m.nodup.sublist (List.filter_sublist.map _)⟩

/-- One above the greatest key, modulo 2 ^ 64 as a release build adds them; a debug build panics
on the greatest number. -/
def afterKeys (m : NodeMap) : UInt64 :=
  match (m.keys.map (·.toNat)).max? with
  | none => 1
  | some k => UInt64.ofNat (k + 1)

variable {m : NodeMap} {id i : UInt64} {r : NodeRecord}

theorem get?_eq_none : m.get? id = none ↔ id ∉ m.keys := by
  rw [get?, Option.map_eq_none_iff, List.find?_eq_none, keys, List.mem_map]
  constructor
  · rintro h ⟨row, hrow, rfl⟩
    exact h row hrow (beq_self_eq_true _)
  · intro h row hrow hid
    exact h ⟨row, hrow, eq_of_beq hid⟩

theorem find?_filter_of_ne (h : i ≠ id) (rows : List (UInt64 × NodeRecord)) :
    (rows.filter (·.1 != id)).find? (·.1 == i) = rows.find? (·.1 == i) := by
  induction rows with
  | nil => rfl
  | cons row rows ih =>
    rw [List.filter_cons, List.find?_cons]
    by_cases hid : row.1 = id
    · have hne : (row.1 == i) = false := beq_false_of_ne fun h' => h (h'.symm.trans hid)
      rw [if_neg (by simp [hid]), hne, ih]
    · rw [if_pos (by simp [hid]), List.find?_cons, ih]

theorem find?_filter_self (rows : List (UInt64 × NodeRecord)) :
    (rows.filter (·.1 != id)).find? (·.1 == id) = none := by
  simp

theorem get?_insert : (m.insert id r).get? i = if id = i then some r else m.get? i := by
  rw [get?, get?, insert, List.find?_append]
  by_cases h : id = i
  · subst h
    rw [find?_filter_self, if_pos rfl, Option.none_or, List.find?_cons_of_pos (by simp)]
    rfl
  · rw [find?_filter_of_ne (Ne.symm h), if_neg h, List.find?_cons_of_neg (by simpa using h),
      List.find?_nil, Option.or_none]

theorem get?_erase : (m.erase id).get? i = if id = i then none else m.get? i := by
  rw [get?, get?, erase]
  by_cases h : id = i
  · subst h
    rw [find?_filter_self, if_pos rfl, Option.map_none]
  · rw [find?_filter_of_ne (Ne.symm h), if_neg h]

theorem mem_keys_insert (h : i ∈ (m.insert id r).keys) : i ∈ m.keys ∨ i = id := by
  by_contra hne
  obtain ⟨hm, hid⟩ := not_or.1 hne
  refine get?_eq_none.1 ?_ h
  rw [get?_insert, if_neg (Ne.symm hid), get?_eq_none.2 hm]

theorem mem_keys_erase (h : i ∈ (m.erase id).keys) : i ∈ m.keys := by
  by_contra hne
  refine get?_eq_none.1 ?_ h
  rw [get?_erase, get?_eq_none.2 hne, ite_self]

end NodeMap

/-- The greatest node id. -/
def maxNodeId : UInt64 := 0xFFFFFFFFFFFFFFFF

theorem NodeLedger.toNat_max (a b : UInt64) : (max a b).toNat = max a.toNat b.toNat := by
  rw [UInt64.max_def]
  split
  · next h => exact (Nat.max_eq_right (UInt64.le_iff_toNat_le.1 h)).symm
  · next h =>
    exact (Nat.max_eq_left (Nat.le_of_not_le fun h' => h (UInt64.le_iff_toNat_le.2 h'))).symm

/-- Below the greatest id, adding one does not overflow. -/
theorem NodeLedger.toNat_add_one {id : UInt64} (h : id ≠ maxNodeId) :
    (id + 1).toNat = id.toNat + 1 := by
  have hlt := id.toNat_lt
  have hne : id.toNat ≠ maxNodeId.toNat := fun h' => h (UInt64.toNat_inj.1 h')
  have hmax : maxNodeId.toNat = 2 ^ 64 - 1 := rfl
  rw [UInt64.toNat_add, UInt64.toNat_one]
  omega

theorem NodeMap.lt_afterKeys {m : NodeMap} {id : UInt64} (hmax : maxNodeId ∉ m.keys)
    (h : id ∈ m.keys) : id.toNat < m.afterKeys.toNat := by
  unfold afterKeys
  have hmem : id.toNat ∈ m.keys.map (·.toNat) := List.mem_map_of_mem (f := fun k => k.toNat) h
  cases hk : (m.keys.map (·.toNat)).max? with
  | none =>
    rw [List.max?_eq_none_iff.1 hk] at hmem
    cases hmem
  | some k =>
    obtain ⟨hin, hle⟩ := List.max?_eq_some_iff.1 hk
    obtain ⟨i, hi, rfl⟩ := List.mem_map.1 hin
    have hne : i ≠ maxNodeId := fun h' => hmax (h' ▸ hi)
    have hsucc : UInt64.ofNat (i.toNat + 1) = i + 1 := by
      rw [UInt64.ofNat_add, UInt64.ofNat_toNat]
      rfl
    dsimp only
    rw [hsucc, NodeLedger.toNat_add_one hne]
    exact Nat.lt_succ_of_le (hle _ hmem)

/-! ## The ledger -/

/-- The ledger, as `nodes.json` has it and as a command holds it. A file of the old format has 0
for the id to give out next. -/
structure NodeLedger where
  version : UInt32
  nodes : NodeMap
  nextNodeId : UInt64

namespace NodeLedger

/-- Reads `nodes.json`, `none` if there is no file. The id to give out next is put above every
node. -/
def load : Option NodeLedger → NodeLedger
  | none => ⟨1, .empty, 1⟩
  | some l => { l with nextNodeId := max l.nextNodeId l.nodes.afterKeys }

/-- The id a commissioning gets that names none. -/
def nextId (l : NodeLedger) : UInt64 := max (max l.nextNodeId l.nodes.afterKeys) 1

/-- Adds a node, or writes it anew. -/
def upsertNode (l : NodeLedger) (record : NodeRecord) : NodeLedger :=
  { l with
    nextNodeId := max l.nextNodeId (record.nodeId + 1)
    nodes := l.nodes.insert record.nodeId record }

/-- Removes a node, `none` if it is not there. -/
def removeNode (l : NodeLedger) (nodeId : UInt64) : Option NodeLedger :=
  (l.nodes.get? nodeId).map fun _ => { l with nodes := l.nodes.erase nodeId }

variable {l : NodeLedger} {id : UInt64}

theorem load_nodes (l : NodeLedger) : (load (some l)).nodes = l.nodes := rfl

theorem le_load (l : NodeLedger) : l.nextNodeId.toNat ≤ (load (some l)).nextNodeId.toNat := by
  rw [load, toNat_max]
  exact Nat.le_max_left ..

theorem le_nextId : l.nextNodeId.toNat ≤ l.nextId.toNat := by
  rw [nextId, toNat_max, toNat_max]
  omega

/-- A ledger that was read gives out ids above every node. -/
theorem lt_load {file : Option NodeLedger} (hmax : maxNodeId ∉ (load file).nodes.keys)
    (h : id ∈ (load file).nodes.keys) : id.toNat < (load file).nextNodeId.toNat := by
  cases file with
  | none => cases h
  | some l =>
    rw [load, toNat_max]
    exact Nat.lt_of_lt_of_le (NodeMap.lt_afterKeys hmax h) (Nat.le_max_right ..)

end NodeLedger

/-! ## Commands on one directory -/

/-- What a command is to do to the ledger once the device has done its part. -/
inductive CommandJob where
  /-- Add the node; `named` if the command line gave the id. -/
  | commission (nodeId : UInt64) (named : Bool)
  /-- Remove the node. -/
  | unpair (nodeId : UInt64)

/-- A running command: what it read, and what it is to do. -/
structure CommandProcess where
  ledger : NodeLedger
  job : CommandJob

/-- What has come of the commands. No command reads it. -/
inductive NodeFact where
  /-- A commissioning that names none was given an id. -/
  | given (nodeId : UInt64)
  | upserted (record : NodeRecord) (named : Bool)
  | removed (nodeId : UInt64)

/-- `nodes.json`, the commands that run, and what has come of those that ran. -/
structure StoreState where
  file : Option NodeLedger
  processes : Nat → Option CommandProcess
  history : List NodeFact

/-- What happens. A command starts by reading the ledger; it ends with its work on the device done,
and the file written or not, or it ends without. -/
inductive CommandEvent where
  | commission (pid : Nat) (nodeId : Option UInt64)
  | unpair (pid : Nat) (nodeId : UInt64)
  | finish (pid : Nat) (now : String) (saved : Bool)
  | quit (pid : Nat)

namespace StoreState

open NodeLedger

def init (file : Option NodeLedger) : StoreState := ⟨file, fun _ => none, []⟩

/-- A command runs under a process id that is free. -/
def start (s : StoreState) (pid : Nat) (job : CommandJob) : StoreState :=
  { s with processes := Function.update s.processes pid (some ⟨load s.file, job⟩) }

/-- `mat commission` up to its work on the device. -/
def startCommission (s : StoreState) (pid : Nat) : Option UInt64 → StoreState
  | some nodeId => s.start pid (.commission nodeId true)
  | none =>
    let nodeId := (load s.file).nextId
    { s.start pid (.commission nodeId false) with history := s.history ++ [.given nodeId] }

/-- `mat unpair` up to its work on the device; the node must be in the ledger. -/
def startUnpair (s : StoreState) (pid : Nat) (nodeId : UInt64) : StoreState :=
  if ((load s.file).nodes.get? nodeId).isSome then s.start pid (.unpair nodeId) else s

/-- The ledger that a command writes at its end, and what comes of it. -/
def result (p : CommandProcess) (now : String) : Option (NodeLedger × NodeFact) :=
  match p.job with
  | .commission nodeId named =>
    some (p.ledger.upsertNode ⟨nodeId, now⟩, .upserted ⟨nodeId, now⟩ named)
  | .unpair nodeId => (p.ledger.removeNode nodeId).map fun l => (l, .removed nodeId)

def finish (s : StoreState) (pid : Nat) (now : String) (saved : Bool) : StoreState :=
  match s.processes pid with
  | none => s
  | some p =>
    let s := { s with processes := Function.update s.processes pid none }
    match saved, result p now with
    | true, some (l, fact) => { s with file := some l, history := s.history ++ [fact] }
    | _, _ => s

/-- One event. -/
def step (s : StoreState) : CommandEvent → StoreState
  | .commission pid nodeId =>
    if (s.processes pid).isSome then s else s.startCommission pid nodeId
  | .unpair pid nodeId => if (s.processes pid).isSome then s else s.startUnpair pid nodeId
  | .finish pid now saved => s.finish pid now saved
  | .quit pid => { s with processes := Function.update s.processes pid none }

end StoreState

/-! ## What the ledger is for -/

namespace NodeFact

/-- What a fact leaves under an id, if it is about it. -/
def leaves (id : UInt64) : NodeFact → Option (Option NodeRecord)
  | given _ => none
  | upserted record _ => if record.nodeId = id then some (some record) else none
  | removed nodeId => if nodeId = id then some none else none

/-- The id of a node that was added or removed. -/
def nodeId : NodeFact → Option UInt64
  | given _ => none
  | upserted record _ => some record.nodeId
  | removed nodeId => some nodeId

/-- The id of a node that was added under the id it was given. -/
def chosen : NodeFact → Option UInt64
  | upserted record false => some record.nodeId
  | _ => none

end NodeFact

/-- The record under an id after some facts: of the last that is about it. -/
def recordAfter (nodes : NodeMap) (history : List NodeFact) (id : UInt64) : Option NodeRecord :=
  history.foldl (fun found fact => (fact.leaves id).getD found) (nodes.get? id)

/-- What holds of a ledger that loses no node and gives no id twice, `first` being the ledger at the
beginning. -/
structure LedgerLaw (first : NodeLedger) (s : StoreState) : Prop where
  /-- The file lists the nodes that were added and not removed since. -/
  contents : ∀ id, (NodeLedger.load s.file).nodes.get? id = recordAfter first.nodes s.history id
  /-- No two commissionings added a node under the same id they were given. -/
  distinct : (s.history.filterMap NodeFact.chosen).Nodup
  /-- An id that is given is none that was added or removed before. -/
  fresh : s.history.Pairwise fun earlier later => ∀ id, later = .given id → earlier.nodeId ≠ some id
  /-- Nor one of the beginning. -/
  unlisted : ∀ id, .given id ∈ s.history → id ∉ first.nodes.keys
  /-- The sums of `load` and of `nextId` do not overflow. -/
  inRange : maxNodeId ∉ (NodeLedger.load s.file).nodes.keys

/-- A command that writes the file has read it as it is, and adds no node with the greatest id. -/
def Exclusive (s : StoreState) : CommandEvent → Prop
  | .finish pid _ saved => ∀ p, s.processes pid = some p → saved = true →
    p.ledger = NodeLedger.load s.file ∧ ∀ named, p.job ≠ .commission maxNodeId named
  | _ => True

/-! ## Runs -/

section
open NodeLedger StoreState

variable {first l : NodeLedger} {s : StoreState} {e : CommandEvent} {p : CommandProcess}
  {nodes : NodeMap} {history : List NodeFact} {fact : NodeFact} {id : UInt64} {now : String}

theorem recordAfter_append :
    recordAfter nodes (history ++ [fact]) id =
      (fact.leaves id).getD (recordAfter nodes history id) := by
  rw [recordAfter, List.foldl_append, recordAfter]
  rfl

/-- An id that a node has or had. -/
def Used (first : NodeLedger) (history : List NodeFact) (id : UInt64) : Prop :=
  id ∈ first.nodes.keys ∨ ∃ fact ∈ history, fact.nodeId = some id

theorem used_append (h : Used first (history ++ [fact]) id) :
    Used first history id ∨ fact.nodeId = some id := by
  obtain h | ⟨f, hf, hid⟩ := h
  · exact .inl (.inl h)
  · obtain hf | hf := List.mem_append.1 hf
    · exact .inl (.inr ⟨f, hf, hid⟩)
    · rw [List.mem_singleton.1 hf] at hid
      exact .inr hid

/-- The law, and what keeps it: the ledger gives out ids above all that were used, and a running
commissioning that was given an id was given the one after what it read. -/
structure LedgerInv (first : NodeLedger) (s : StoreState) : Prop extends LedgerLaw first s where
  above : ∀ id, Used first s.history id → id.toNat < (load s.file).nextNodeId.toNat
  gave : ∀ pid p id, s.processes pid = some p → p.job = .commission id false → id = p.ledger.nextId

/-- The id that is given next was not used. -/
theorem LedgerInv.nextId_unused (h : LedgerInv first s) :
    ¬Used first s.history (load s.file).nextId := by
  intro hused
  exact absurd (h.above _ hused) (Nat.not_lt.2 le_nextId)

/-- A fact that gives no id keeps given ids fresh. -/
theorem LedgerLaw.fresh_append (h : LedgerLaw first s) (hfact : ∀ id, fact ≠ .given id) :
    ((s.history ++ [fact]).Pairwise fun earlier later =>
      ∀ id, later = .given id → earlier.nodeId ≠ some id) ∧
    ∀ id, .given id ∈ s.history ++ [fact] → id ∉ first.nodes.keys := by
  constructor
  · refine List.pairwise_append.2
      ⟨h.fresh, List.pairwise_singleton _ _, fun _ _ later hl id hg => ?_⟩
    rw [List.mem_singleton.1 hl] at hg
    exact absurd hg (hfact id)
  · intro id hid
    obtain hid | hid := List.mem_append.1 hid
    · exact h.unlisted id hid
    · exact absurd (List.mem_singleton.1 hid).symm (hfact id)

theorem nodeId_of_chosen (h : fact.chosen = some id) : fact.nodeId = some id := by
  unfold NodeFact.chosen at h
  split at h
  · exact h
  · cases h

section
variable {nodeId : UInt64} {named : Bool} {processes : Nat → Option CommandProcess}
  (hprocesses : ∀ pid p id, processes pid = some p → p.job = .commission id false →
    id = p.ledger.nextId)
include hprocesses

/-- A commissioning that read the file as it is writes it. -/
theorem LedgerInv.upsert (h : LedgerInv first s) (hne : nodeId ≠ maxNodeId)
    (hgave : named = false → nodeId = (load s.file).nextId) :
    LedgerInv first ⟨some ((load s.file).upsertNode ⟨nodeId, now⟩), processes,
      s.history ++ [.upserted ⟨nodeId, now⟩ named]⟩ where
  contents id := by
    rw [load_nodes, upsertNode, NodeMap.get?_insert, h.contents, recordAfter_append,
      NodeFact.leaves]
    split <;> rfl
  distinct := by
    rw [List.filterMap_append, List.nodup_append]
    refine ⟨h.distinct, ?_, fun i hi j hj hij => ?_⟩
    · cases named with
      | true => exact List.nodup_nil
      | false => exact List.nodup_singleton _
    · subst hij
      cases named with
      | true => cases hj
      | false =>
        -- the id was given, so it is above all that were used
        obtain rfl : i = nodeId := by simpa [NodeFact.chosen] using hj
        obtain ⟨f, hf, hchosen⟩ := List.mem_filterMap.1 hi
        have hunused := h.nextId_unused
        rw [← hgave rfl] at hunused
        exact hunused (.inr ⟨f, hf, nodeId_of_chosen hchosen⟩)
  fresh := (h.fresh_append fun _ h' => by cases h').1
  unlisted := (h.fresh_append fun _ h' => by cases h').2
  inRange := by
    intro hin
    obtain hin | hin := NodeMap.mem_keys_insert hin
    · exact h.inRange hin
    · exact hne hin.symm
  above id hid := by
    refine Nat.lt_of_lt_of_le ?_ (le_load _)
    rw [upsertNode, NodeLedger.toNat_max, NodeLedger.toNat_add_one hne]
    obtain hid | hid := used_append hid
    · exact Nat.lt_of_lt_of_le (h.above id hid) (Nat.le_max_left ..)
    · obtain rfl := Option.some.inj hid
      exact Nat.lt_of_lt_of_le (Nat.lt_succ_self _) (Nat.le_max_right ..)
  gave := hprocesses

/-- So does an unpairing. -/
theorem LedgerInv.remove (h : LedgerInv first s) (hl : (load s.file).removeNode nodeId = some l) :
    LedgerInv first ⟨some l, processes, s.history ++ [.removed nodeId]⟩ := by
  obtain ⟨r, hr, rfl⟩ := Option.map_eq_some_iff.1 hl
  exact {
    contents := fun id => by
      rw [load_nodes, NodeMap.get?_erase, h.contents, recordAfter_append, NodeFact.leaves]
      split <;> rfl
    distinct := by
      rw [List.filterMap_append]
      exact (List.append_nil _).symm ▸ h.distinct
    fresh := (h.fresh_append fun _ h' => by cases h').1
    unlisted := (h.fresh_append fun _ h' => by cases h').2
    inRange := fun hin => h.inRange (NodeMap.mem_keys_erase hin)
    above := fun id hid => by
      refine Nat.lt_of_lt_of_le ?_ (le_load _)
      obtain hid | hid := used_append hid
      · exact h.above id hid
      · obtain rfl := Option.some.inj hid
        refine lt_load h.inRange (by_contra fun hno => ?_)
        rw [NodeMap.get?_eq_none.2 hno] at hr
        cases hr
    gave := hprocesses }

end

theorem gave_update {processes : Nat → Option CommandProcess} {pid : Nat} {o : Option CommandProcess}
    (h : ∀ pid p id, processes pid = some p → p.job = .commission id false → id = p.ledger.nextId)
    (ho : ∀ p id, o = some p → p.job = .commission id false → id = p.ledger.nextId) :
    ∀ pid' p id, Function.update processes pid o pid' = some p → p.job = .commission id false →
      id = p.ledger.nextId := by
  intro pid' p id hp hjob
  by_cases hpid : pid' = pid
  · subst hpid
    rw [Function.update_self] at hp
    exact ho p id hp hjob
  · rw [Function.update_of_ne hpid] at hp
    exact h pid' p id hp hjob

/-- A command that starts without being given an id, or that ends without writing. -/
theorem LedgerInv.processes (h : LedgerInv first s) {pid : Nat} {o : Option CommandProcess}
    (ho : ∀ p id, o = some p → p.job = .commission id false → id = p.ledger.nextId) :
    LedgerInv first { s with processes := Function.update s.processes pid o } :=
  ⟨⟨h.contents, h.distinct, h.fresh, h.unlisted, h.inRange⟩, h.above, gave_update h.gave ho⟩

/-- A commissioning is given an id. -/
theorem LedgerInv.give (h : LedgerInv first s) {pid : Nat} :
    LedgerInv first (s.startCommission pid none) := by
  have hunused := h.nextId_unused
  have hnone : ∀ id, (NodeFact.given (load s.file).nextId).leaves id = none := fun _ => rfl
  refine ⟨⟨fun id => ?_, ?_, ?_, fun id hid => ?_, h.inRange⟩, fun id hid => ?_,
    gave_update h.gave fun p id hp hjob => ?_⟩
  · exact (h.contents id).trans (by rw [startCommission, recordAfter_append, hnone]; rfl)
  · rw [startCommission, List.filterMap_append]
    exact (List.append_nil _).symm ▸ h.distinct
  · refine List.pairwise_append.2
      ⟨h.fresh, List.pairwise_singleton _ _, fun f hf later hl id hg => ?_⟩
    rw [List.mem_singleton.1 hl] at hg
    cases hg
    exact fun hid => hunused (.inr ⟨f, hf, hid⟩)
  · obtain hid | hid := List.mem_append.1 hid
    · exact h.unlisted id hid
    · cases List.mem_singleton.1 hid
      exact fun hkey => hunused (.inl hkey)
  · obtain hid | hid := used_append hid
    · exact h.above id hid
    · cases hid
  · cases hp
    cases hjob
    rfl

/-- **One event.** -/
theorem LedgerInv.step (h : LedgerInv first s) (he : Exclusive s e) :
    LedgerInv first (s.step e) := by
  cases e with
  | commission pid nodeId =>
    rw [StoreState.step]
    split
    · exact h
    · cases nodeId with
      | none => exact h.give
      | some nodeId =>
        refine h.processes fun p id hp hjob => ?_
        cases hp
        cases hjob
  | unpair pid nodeId =>
    rw [StoreState.step, startUnpair]
    split
    · exact h
    split
    · refine h.processes fun p id hp hjob => ?_
      cases hp
      cases hjob
    · exact h
  | quit pid => exact h.processes nofun
  | finish pid now saved =>
    rw [StoreState.step, finish]
    split
    · exact h
    · next p hp =>
      dsimp only
      split
      · next l fact hr =>
        obtain ⟨hread, hmax⟩ := he p hp rfl
        have hgave : ∀ pid' p id, Function.update s.processes pid none pid' = some p →
            p.job = .commission id false → id = p.ledger.nextId := gave_update h.gave nofun
        obtain ⟨ledger, job⟩ := p
        obtain rfl : ledger = load s.file := hread
        cases job with
        | commission nodeId named =>
          cases hr
          refine h.upsert hgave (fun h' => hmax named (h' ▸ rfl)) fun hnamed => ?_
          subst hnamed
          exact h.gave pid _ nodeId hp rfl
        | unpair nodeId =>
          obtain ⟨l, hl, hfact⟩ := Option.map_eq_some_iff.1 hr
          cases hfact
          exact h.remove hgave hl
      · exact h.processes nofun

theorem ledgerInv_init {file : Option NodeLedger} (hmax : maxNodeId ∉ (load file).nodes.keys) :
    LedgerInv (load file) (.init file) where
  contents _ := rfl
  distinct := List.nodup_nil
  fresh := .nil
  unlisted _ := nofun
  inRange := hmax
  above _ hid := by
    obtain hid | ⟨f, hf, -⟩ := hid
    · exact lt_load hmax hid
    · cases hf
  gave _ _ _ := nofun

end

/-! ### Commands that overlap -/

/-- Two commissionings read the ledger before either writes it. -/
def overlap (nodeId : Option UInt64) : List CommandEvent :=
  [.commission 1 none, .commission 2 nodeId, .finish 2 "" true, .finish 1 "" true]

end MatStack
