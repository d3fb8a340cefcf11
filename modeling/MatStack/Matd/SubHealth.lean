import Mathlib.Logic.Function.Basic
import MatStack.Lib.Notify

/-!
# The health table of the daemon's subscriptions

The parts of `SubHealth` that a node's subscription loop shares with the rest of the daemon: the
number of the last event seen from each node, and for each node a flag that its session was
superseded (`touched`) with the `Notify` that wakes the loop from its backoff. Each part has a lock
of its own, so each operation here is one step. An `Arc<Notify>` is the place of its `Notify` among
all that were made; a `Notify` that `clearTouched` replaces stays where it is, for the waits that
still hold it.
-/

namespace MatStack

/-- A node's flag and the place of its `Notify`. -/
structure TouchedState where
  flag : Bool
  notify : Nat
deriving Repr, DecidableEq

structure SubHealth where
  eventNumbers : UInt64 → Option UInt64
  touched : UInt64 → Option TouchedState
  notifies : List Notify

namespace SubHealth

def new : SubHealth := ⟨fun _ => none, fun _ => none, []⟩

/-! ## Event numbers -/

def lastEventNumber (h : SubHealth) (nodeId : UInt64) : Option UInt64 := h.eventNumbers nodeId

/-- Records the number of an event: the highest seen, except that a live event with a lower number
takes the record back, since the device's log was reset. -/
def noteEventNumber (h : SubHealth) (nodeId n : UInt64) (live : Bool) : SubHealth :=
  let set := { h with eventNumbers := Function.update h.eventNumbers nodeId (some n) }
  match h.eventNumbers nodeId with
  | some cur => if cur < n then set else if live && n < cur then set else h
  | none => set

/-! ## Touches -/

/-- The node's entry, made if there is none. -/
def touchedEntry (h : SubHealth) (nodeId : UInt64) : TouchedState × SubHealth :=
  match h.touched nodeId with
  | some s => (s, h)
  | none =>
    let s := ⟨false, h.notifies.length⟩
    (s, { h with
      touched := Function.update h.touched nodeId (some s)
      notifies := h.notifies ++ [.new] })

/-- Another session to the node was set up: the flag goes up and the loop is woken from its backoff.
-/
def noteTouched (h : SubHealth) (nodeId : UInt64) : SubHealth :=
  let (s, h) := h.touchedEntry nodeId
  { h with
    touched := Function.update h.touched nodeId (some { s with flag := true })
    notifies := h.notifies.modify s.notify Notify.notifyOne }

def isTouched (h : SubHealth) (nodeId : UInt64) : Bool := (h.touched nodeId).any (·.flag)

/-- Takes the signal: the flag goes down and a new `Notify` replaces the old one, permit and all. -/
def clearTouched (h : SubHealth) (nodeId : UInt64) : SubHealth :=
  { h with
    touched := Function.update h.touched nodeId (some ⟨false, h.notifies.length⟩)
    notifies := h.notifies ++ [.new] }

/-- The node's `Notify`, made if there is none. -/
def touchNotify (h : SubHealth) (nodeId : UInt64) : Nat × SubHealth :=
  let (s, h) := h.touchedEntry nodeId
  (s.notify, h)

/-- The node's `Notify` after its task polled it or gave the wait up. -/
def setNotify (h : SubHealth) (place : Nat) (n : Notify) : SubHealth :=
  { h with notifies := h.notifies.set place n }

/-! ## The table as a whole -/

/-- Every entry refers to a `Notify`, and to one of its own. -/
structure Sound (h : SubHealth) : Prop where
  placed : ∀ nodeId s, h.touched nodeId = some s → s.notify < h.notifies.length
  own : ∀ a b s t, h.touched a = some s → h.touched b = some t → s.notify = t.notify → a = b

/-- The node's entry and its `Notify`. -/
structure Holds (h : SubHealth) (nodeId : UInt64) (s : TouchedState) (n : Notify) : Prop where
  entry : h.touched nodeId = some s
  notify : h.notifies[s.notify]? = some n

variable {h : SubHealth} {nodeId other : UInt64} {s : TouchedState} {n n' : Notify}

theorem sound_new : new.Sound := ⟨fun _ _ h => (by cases h), fun _ _ _ _ h => (by cases h)⟩

theorem Sound.holds (hs : h.Sound) (he : h.touched nodeId = some s) : ∃ n, h.Holds nodeId s n :=
  ⟨_, he, List.getElem?_eq_getElem (hs.placed nodeId s he)⟩

theorem isTouched_of_entry (he : h.touched nodeId = some s) : h.isTouched nodeId = s.flag := by
  rw [isTouched, he]
  rfl

theorem isTouched_of_none (he : h.touched nodeId = none) : h.isTouched nodeId = false := by
  rw [isTouched, he]
  rfl

/-! ### Entries -/

/-- An entry made last has the place at the end; the others are as they were. -/
theorem entry_of_update {a : UInt64} {e s : TouchedState}
    (hsome : Function.update h.touched nodeId (some e) a = some s) :
    a = nodeId ∧ s = e ∨ a ≠ nodeId ∧ h.touched a = some s := by
  rcases eq_or_ne a nodeId with rfl | ha
  · rw [Function.update_self] at hsome
    cases hsome
    exact .inl ⟨rfl, rfl⟩
  · rw [Function.update_of_ne ha] at hsome
    exact .inr ⟨ha, hsome⟩

/-- An entry with a new `Notify` at the end keeps the table sound. -/
theorem Sound.insert (hs : h.Sound) (flag : Bool) (n : Notify) :
    { h with
      touched := Function.update h.touched nodeId (some ⟨flag, h.notifies.length⟩)
      notifies := h.notifies ++ [n] : SubHealth }.Sound := by
  constructor
  · intro a s hsome
    rw [List.length_append]
    rcases entry_of_update hsome with ⟨-, rfl⟩ | ⟨-, ha⟩
    · exact Nat.lt_succ_self _
    · exact Nat.lt_succ_of_lt (hs.placed a s ha)
  · intro a b s t hsome htsome heq
    rcases entry_of_update hsome with ⟨rfl, rfl⟩ | ⟨-, ha⟩ <;>
      rcases entry_of_update htsome with ⟨rfl, rfl⟩ | ⟨-, hb⟩
    · rfl
    · exact absurd heq.symm (Nat.ne_of_lt (hs.placed b t hb))
    · exact absurd heq (Nat.ne_of_lt (hs.placed a s ha))
    · exact hs.own a b s t ha hb heq

/-- What is done to the `Notify`s there are, and to a flag, keeps the table sound. -/
theorem Sound.of_same (hs : h.Sound) (he : h.touched nodeId = some s) (flag : Bool)
    {notifies : List Notify} (hlen : notifies.length = h.notifies.length) :
    { h with
      touched := Function.update h.touched nodeId (some { s with flag })
      notifies : SubHealth }.Sound := by
  have hplace : ∀ a t, Function.update h.touched nodeId (some { s with flag }) a = some t →
      ∃ u, h.touched a = some u ∧ t.notify = u.notify := by
    intro a t ht
    rcases entry_of_update ht with ⟨rfl, rfl⟩ | ⟨-, ha⟩
    · exact ⟨s, he, rfl⟩
    · exact ⟨t, ha, rfl⟩
  constructor
  · intro a t ht
    obtain ⟨u, hu, heq⟩ := hplace a t ht
    rw [heq, hlen]
    exact hs.placed a u hu
  · intro a b t t' ht ht' heq
    obtain ⟨u, hu, hut⟩ := hplace a t ht
    obtain ⟨u', hu', hut'⟩ := hplace b t' ht'
    exact hs.own a b u u' hu hu' (by rw [← hut, ← hut', heq])

theorem Sound.setNotify (hs : h.Sound) (place : Nat) (n : Notify) : (h.setNotify place n).Sound :=
  ⟨fun a s ha => by simpa [SubHealth.setNotify] using hs.placed a s ha, hs.own⟩

/-! ### What an operation makes of an entry -/

theorem Holds.setNotify (hh : h.Holds nodeId s n) (n' : Notify) :
    (h.setNotify s.notify n').Holds nodeId s n' := by
  refine ⟨hh.entry, ?_⟩
  have hlt := (List.getElem?_eq_some_iff.1 hh.notify).1
  rw [SubHealth.setNotify, List.getElem?_set_self hlt]

theorem holds_clearTouched : (h.clearTouched nodeId).Holds nodeId ⟨false, h.notifies.length⟩ .new :=
  ⟨Function.update_self .., by simp [clearTouched]⟩

theorem Sound.clearTouched (hs : h.Sound) (nodeId : UInt64) : (h.clearTouched nodeId).Sound :=
  hs.insert false .new

/-- A touch of the node that has an entry. -/
theorem Holds.noteTouched (hh : h.Holds nodeId s n) :
    (h.noteTouched nodeId).Holds nodeId { s with flag := true } n.notifyOne := by
  rw [SubHealth.noteTouched, touchedEntry, hh.entry]
  exact ⟨Function.update_self .., by simp [hh.notify]⟩

/-- A touch of a node that has none. -/
theorem holds_noteTouched_of_none (he : h.touched nodeId = none) :
    (h.noteTouched nodeId).Holds nodeId ⟨true, h.notifies.length⟩ Notify.new.notifyOne := by
  rw [noteTouched, touchedEntry, he]
  exact ⟨Function.update_self .., by simp⟩

theorem Sound.noteTouched (hs : h.Sound) (nodeId : UInt64) : (h.noteTouched nodeId).Sound := by
  rw [SubHealth.noteTouched, touchedEntry]
  cases he : h.touched nodeId with
  | some s => exact hs.of_same he true (List.length_modify ..)
  | none =>
    have hinsert := @Sound.insert h nodeId hs false .new
    exact hinsert.of_same (Function.update_self ..) true (List.length_modify ..)

/-- A touch of another node changes nothing for this one. -/
theorem noteTouched_other (hs : h.Sound) (hne : nodeId ≠ other) :
    (h.noteTouched other).touched nodeId = h.touched nodeId ∧
      ∀ s, h.touched nodeId = some s →
        (h.noteTouched other).notifies[s.notify]? = h.notifies[s.notify]? := by
  rw [noteTouched, touchedEntry]
  cases he : h.touched other with
  | some t =>
    refine ⟨Function.update_of_ne hne .., fun s hsome => ?_⟩
    have hplace : t.notify ≠ s.notify := fun heq => hne (hs.own nodeId other s t hsome he heq.symm)
    exact List.getElem?_modify_ne _ _ hplace
  | none =>
    refine ⟨(Function.update_of_ne hne ..).trans (Function.update_of_ne hne ..), fun s hsome => ?_⟩
    have hlt := hs.placed nodeId s hsome
    exact (List.getElem?_modify_ne _ _ (Nat.ne_of_gt hlt)).trans (List.getElem?_append_left hlt)

theorem touchNotify_of_entry (he : h.touched nodeId = some s) :
    h.touchNotify nodeId = (s.notify, h) := by
  rw [touchNotify, touchedEntry, he]

theorem touchNotify_of_none (he : h.touched nodeId = none) :
    (h.touchNotify nodeId).1 = h.notifies.length ∧
      (h.touchNotify nodeId).2.Holds nodeId ⟨false, h.notifies.length⟩ .new := by
  rw [touchNotify, touchedEntry, he]
  exact ⟨rfl, Function.update_self .., by simp⟩

theorem Sound.touchNotify (hs : h.Sound) (nodeId : UInt64) : (h.touchNotify nodeId).2.Sound := by
  rw [SubHealth.touchNotify, touchedEntry]
  cases h.touched nodeId with
  | some s => exact hs
  | none => exact hs.insert false .new

end SubHealth

end MatStack
