import MatStack.Controller.Tlv
import MatStack.Lib.FifoMutex
import MatStack.Lib.Trace
import MatStack.Matd.TouchedSignal

/-!
# Warm sessions

The daemon keeps one CASE session to a node warm, in a slot behind a fair mutex. A call of
`with_session` takes the mutex, establishes a session if the slot is empty, runs its operation on
it, and establishes anew and runs once more if that timed out; a session that may have lost its
place is closed and dropped. A call is given up when its client goes, at whatever it waits for, and
for an operation on a single node `abort_op` then tries the mutex and empties the slot.
`NativeBackend.react` is one turn of one call, from one `await` to the next, with what is to be seen
of it; a run interleaves the calls to one node in any order. `Turn` says once what a turn does, and
`Disciplined` who is in line for the mutex and who may touch the slot.
-/

namespace MatStack

open Machine

/-- What kind of error an operation ends with. -/
inductive ErrorKind where
  | storeMissing
  | storeParse
  | nodeNotCommissioned
  | childNotFound
  | childFailed
  | commissionFailed
  | timeout
  | unreachable
  | sessionFailed
  | deviceRejected
  | parseError
  | matdUnavailable
  | other
deriving Repr, DecidableEq

/-- The session is sound after the error: the device has answered. -/
def ErrorKind.keepsSession : ErrorKind → Bool
  | .deviceRejected | .parseError => true
  | _ => false

/-! ## Operations -/

/-- An operation a client may ask for, with the nodes it names. -/
inductive Op where
  | read (nodeId : UInt64)
  | write (nodeId : UInt64)
  | invoke (nodeId : UInt64)
  | on (nodeId : UInt64)
  | off (nodeId : UInt64)
  | colorTemp (nodeId : UInt64)
  | level (nodeId : UInt64)
  | color (nodeId : UInt64)
  | describe (nodeId : UInt64)
  | groupProvision (nodeIds : List UInt64)
  | groupInvoke
  | groupColorTemp
  | groupLevel
  | groupColor
  | groupBump
  | listen
  | ping
  | status
  | shutdown
  | nodeTouched (nodeId : UInt64)
  | reload
deriving Repr, DecidableEq

namespace Op

/-- The node of an operation on a single node. -/
def nodeId : Op → Option UInt64
  | read id | write id | invoke id | on id | off id | colorTemp id | level id | color id
  | describe id => some id
  | groupProvision _ | groupInvoke | groupColorTemp | groupLevel | groupColor | groupBump | listen
  | ping | status | shutdown | nodeTouched _ | reload => none

/-- The nodes on which `run_op` calls `with_session`, one call for each. -/
def visits (op : Op) : List UInt64 :=
  match op with
  | groupProvision ids => ids
  | _ => op.nodeId.toList

end Op

def defaultOpBudget : Duration := 60000
def retryMinBudget : Duration := 10000

/-- When a request is to be answered: `some 0` is never, and a client that does not say gets the
default. -/
def opDeadline (deadlineMs : Option UInt64) (now : Instant) : Option Instant :=
  match deadlineMs with
  | some n => if n = 0 then none else some (now + n.toNat)
  | none => some (now + defaultOpBudget)

/-- What is left until the deadline; nothing once it has passed. -/
def remaining (deadline : Option Instant) (now : Instant) : Option Duration :=
  deadline.map (· - now)

/-- There is time to establish anew and send once more. -/
def worthRetry (left : Option Duration) : Prop := ∀ rem, left = some rem → retryMinBudget ≤ rem

instance (left : Option Duration) : Decidable (worthRetry left) :=
  match left with
  | none => isTrue fun _ h => by cases h
  | some rem =>
    decidable_of_iff (retryMinBudget ≤ rem)
      ⟨fun h _ hrem => Option.some_inj.1 hrem ▸ h, fun h => h rem rfl⟩

/-! ## Calls -/

/-- What a call is at. It has not got to the mutex; it is in line; it establishes, sends or closes,
`again` being the second time; its client has gone and `abort_op` is to come, the call having let go
of the session `left`; `abort_op` closes the session; all is over. -/
inductive CallPhase where
  | created
  | waiting
  | establishing (again : Bool)
  | sending (again : Bool)
  | closing (again : Bool) (kind : ErrorKind)
  | aborted (left : Option Nat)
  | cleaning
  | done
deriving Repr, DecidableEq

namespace CallPhase

/-- On the way to the guard. -/
def Asks : CallPhase → Prop
  | .created | .waiting => True
  | _ => False

/-- The call has the guard, and has noticed. -/
def Holds : CallPhase → Prop
  | .establishing _ | .sending _ | .closing _ _ | .cleaning => True
  | _ => False

/-- The call is at the session in the slot. -/
def Uses : CallPhase → Prop
  | .sending _ | .closing _ _ | .cleaning => True
  | _ => False

/-- The call closes the session in the slot. -/
def Drops : CallPhase → Prop
  | .closing _ _ | .cleaning => True
  | _ => False

/-- The call is in line for the mutex. -/
def InLine (p : CallPhase) : Prop := p = .waiting ∨ p.Holds

end CallPhase

/-- A call of `with_session` for a request. -/
structure Call where
  op : Op
  deadlineMs : Option UInt64
  deadline : Option Instant
  phase : CallPhase
  establishedNew : Bool
deriving Repr, DecidableEq

/-- The call gets to the mutex; the deadline of an operation on a single node is counted from here.
-/
def Call.arrive (c : Call) (now : Instant) : Call :=
  match c.phase with
  | .created =>
    { c with deadline := c.op.nodeId.bind fun _ => opDeadline c.deadlineMs now, phase := .waiting }
  | _ => c

/-- The client has gone: `abort_op` is to come for an operation on a single node. -/
def Call.afterGone (c : Call) (left : Option Nat) : CallPhase :=
  if c.op.nodeId.isSome then .aborted left else .done

theorem Call.afterGone_cases (c : Call) (left : Option Nat) :
    c.afterGone left = .aborted left ∧ c.op.nodeId.isSome ∨ c.afterGone left = .done := by
  unfold Call.afterGone
  split
  · next h => exact .inl ⟨rfl, h⟩
  · exact .inr rfl

/-- What is to be seen of the calls: a session is established, an operation starts on it, fails or
is given up midway, a session is dropped from the slot, a call goes for its second attempt with some
time `left`, `on_new_session` is called, and the call returns or is given up. -/
inductive Happening where
  | established (call sid : Nat)
  | started (call sid : Nat)
  | failed (call sid : Nat) (kind : ErrorKind)
  | abandoned (call sid : Nat)
  | dropped (call sid : Nat)
  | retried (call : Nat) (left : Option Duration)
  | announced (call : Nat)
  | ended (call : Nat)
  | cancelled (call : Nat)
deriving Repr, DecidableEq

/-- The call that did it. -/
def Happening.call : Happening → Nat
  | established r _ | started r _ | failed r _ _ | abandoned r _ | dropped r _ | retried r _
  | announced r | ended r | cancelled r => r

/-- What is seen of a call as it returns. -/
def Call.farewell (c : Call) (r : Nat) : List Happening :=
  (if c.establishedNew then [.announced r] else []) ++ [.ended r]

/-! ## The backend -/

/-- The backend as far as one node goes: the clock, the calls, and the slot with its mutex. Sessions
are numbered as they are established. -/
structure NativeBackend where
  nodeId : UInt64
  now : Instant
  calls : Nat → Option Call
  mutex : FifoMutex Nat
  session : Option Nat
  established : Nat

/-- Why a call goes on: it is polled, what it waits for has come about, its timer fires, its client
has gone, or `abort_op` gets to the mutex. -/
inductive Wake where
  | poll
  | established
  | establishFailed
  | replied (outcome : Except ErrorKind Unit)
  | expired
  | closed
  | clientGone
  | dropSession

/-- What can happen next: a request comes in, a call goes on, or time passes. -/
inductive SlotEvent where
  | request (r : Nat) (op : Op) (deadlineMs : Option UInt64)
  | wake (r : Nat) (w : Wake)
  | elapsed (d : Duration)

namespace NativeBackend

def fromEngine (nodeId : UInt64) (now : Instant) : NativeBackend :=
  ⟨nodeId, now, fun _ => none, .free, none, 0⟩

def set (b : NativeBackend) (r : Nat) (c : Call) : NativeBackend :=
  { b with calls := Function.update b.calls r (some c) }

@[simp] theorem calls_set_self {b : NativeBackend} {r : Nat} {c : Call} :
    (b.set r c).calls r = some c := Function.update_self ..

/-- `with_session` returns: the guard goes, and a session it established is announced. -/
def finish (b : NativeBackend) (r : Nat) (c : Call) : NativeBackend × List Happening :=
  ({ b with mutex := b.mutex.leave r }.set r { c with phase := .done }, c.farewell r)

/-- The call has the guard: it establishes a session, or sends on the one that is warm. -/
def enter (b : NativeBackend) (r : Nat) (c : Call) : NativeBackend × List Happening :=
  match b.session with
  | none => (b.set r { c with phase := .establishing false }, [])
  | some sid => (b.set r { c with phase := .sending false }, [.started r sid])

/-- The operation has failed on session `sid`. -/
def fail (b : NativeBackend) (r : Nat) (c : Call) (again : Bool) (sid : Nat) (kind : ErrorKind) :
    NativeBackend × List Happening :=
  if kind.keepsSession then
    let (b, seen) := b.finish r c
    (b, .failed r sid kind :: seen)
  else (b.set r { c with phase := .closing again kind }, [.failed r sid kind])

/-- The slot is empty again after an error: one more attempt after a timeout, if there is time. -/
def afterClose (b : NativeBackend) (r : Nat) (c : Call) (again : Bool) (kind : ErrorKind) :
    NativeBackend × List Happening :=
  let left := remaining c.deadline b.now
  if again = false ∧ kind = .timeout ∧ worthRetry left then
    (b.set r { c with phase := .establishing true }, [.retried r left])
  else b.finish r c

/-- The call is given up at what it waits for: its place in line goes with it, and the session it
was using stays in the slot. -/
def giveUp (b : NativeBackend) (r : Nat) (c : Call) : NativeBackend × List Happening :=
  let b' := { b with mutex := b.mutex.leave r }
  match c.phase, b.session with
  | .sending _, some sid =>
    (b'.set r { c with phase := c.afterGone (some sid) }, [.abandoned r sid, .cancelled r])
  | .closing _ _, some sid => (b'.set r { c with phase := c.afterGone (some sid) }, [.cancelled r])
  | _, _ => (b'.set r { c with phase := c.afterGone none }, [.cancelled r])

/-- A turn of a call. -/
def turn (b : NativeBackend) (r : Nat) (c : Call) : Wake → NativeBackend × List Happening
  | .poll =>
    match c.phase with
    | .created | .waiting =>
      let c := c.arrive b.now
      let b := { b with mutex := b.mutex.lock r }
      if b.mutex.holder = some r then b.enter r c else (b.set r c, [])
    | _ => (b, [])
  | .established =>
    match c.phase with
    | .establishing again =>
      ({ b with session := some b.established, established := b.established + 1 }.set r
        { c with establishedNew := true, phase := .sending again },
        [.established r b.established, .started r b.established])
    | _ => (b, [])
  | .establishFailed =>
    match c.phase with
    | .establishing _ => b.finish r c
    | _ => (b, [])
  | .replied outcome =>
    match c.phase, b.session with
    | .sending again, some sid =>
      match outcome with
      | .ok () => b.finish r c
      | .error kind => b.fail r c again sid kind
    | _, _ => (b, [])
  | .expired =>
    if remaining c.deadline b.now = some 0 then
      match c.phase, b.session with
      | .establishing _, _ => b.finish r c
      | .sending again, some sid => b.fail r c again sid .timeout
      | _, _ => (b, [])
    else (b, [])
  | .closed =>
    match c.phase, b.session with
    | .closing again kind, some sid =>
      let (b, seen) := { b with session := none }.afterClose r c again kind
      (b, .dropped r sid :: seen)
    | .cleaning, some sid =>
      ({ b with mutex := b.mutex.leave r, session := none }.set r { c with phase := .done },
        [.dropped r sid])
    | _, _ => (b, [])
  | .clientGone =>
    match c.phase with
    | .aborted _ | .cleaning | .done => (b, [])
    | _ => b.giveUp r c
  | .dropSession =>
    match c.phase with
    | .aborted _ =>
      -- the mutex is only tried: with anybody in line there is nothing to do
      if b.mutex.line = [] ∧ b.session.isSome then
        ({ b with mutex := b.mutex.lock r }.set r { c with phase := .cleaning }, [])
      else (b.set r { c with phase := .done }, [])
    | _ => (b, [])

/-- One step, with what is to be seen of it. A request is one that visits the node. -/
def react (b : NativeBackend) : SlotEvent → NativeBackend × List Happening
  | .request r op deadlineMs =>
    if (b.calls r).isNone ∧ b.nodeId ∈ op.visits then
      (b.set r ⟨op, deadlineMs, none, .created, false⟩, [])
    else (b, [])
  | .wake r w =>
    match b.calls r with
    | some c => b.turn r c w
    | none => (b, [])
  | .elapsed d => ({ b with now := b.now + d }, [])

def step (b : NativeBackend) (e : SlotEvent) : NativeBackend := (b.react e).1

/-- What is to be seen of a step. -/
def seen (b : NativeBackend) (e : SlotEvent) : List Happening := (b.react e).2

/-! ## What a turn does -/

section
variable {b b' : NativeBackend} {q r : Nat} {c c' : Call} {w : Wake} {seen : List Happening}

/-- The call stands in line and uses the slot as its phase wants it. -/
structure Placed (b : NativeBackend) (r : Nat) (c : Call) : Prop where
  line : r ∈ b.mutex.line ↔ c.phase.InLine
  holds : c.phase.Holds → b.mutex.holder = some r
  empty : ∀ again, c.phase = .establishing again → b.session = none
  full : c.phase.Uses → ∃ sid, b.session = some sid

/-- What a turn of call `r` does. -/
inductive Turn (b : NativeBackend) (r : Nat) (c : Call) :
    Wake → NativeBackend → List Happening → Prop
  | idle {w : Wake} : Turn b r c w b []
  | waits (hp : c.phase.Asks) (hm : (b.mutex.lock r).holder ≠ some r) :
    Turn b r c .poll ({ b with mutex := b.mutex.lock r }.set r (c.arrive b.now)) []
  | establishes (hp : c.phase.Asks) (hm : (b.mutex.lock r).holder = some r)
    (hs : b.session = none) :
    Turn b r c .poll ({ b with mutex := b.mutex.lock r }.set r
      { c.arrive b.now with phase := .establishing false }) []
  | sends {sid : Nat} (hp : c.phase.Asks) (hm : (b.mutex.lock r).holder = some r)
    (hs : b.session = some sid) :
    Turn b r c .poll ({ b with mutex := b.mutex.lock r }.set r
      { c.arrive b.now with phase := .sending false }) [.started r sid]
  | established {again : Bool} (hp : c.phase = .establishing again) :
    Turn b r c .established
      ({ b with session := some b.established, established := b.established + 1 }.set r
        { c with establishedNew := true, phase := .sending again })
      [.established r b.established, .started r b.established]
  | fruitless {w : Wake} {again : Bool} (hp : c.phase = .establishing again) :
    Turn b r c w (b.finish r c).1 (c.farewell r)
  | answered {w : Wake} {again : Bool} (hp : c.phase = .sending again) :
    Turn b r c w (b.finish r c).1 (c.farewell r)
  | rejected {w : Wake} {again : Bool} {sid : Nat} {kind : ErrorKind}
    (hp : c.phase = .sending again) (hs : b.session = some sid)
    (hk : kind.keepsSession = true) :
    Turn b r c w (b.finish r c).1 (.failed r sid kind :: c.farewell r)
  | fails {w : Wake} {again : Bool} {sid : Nat} {kind : ErrorKind} (hp : c.phase = .sending again)
    (hs : b.session = some sid) (hk : kind.keepsSession = false) :
    Turn b r c w (b.set r { c with phase := .closing again kind }) [.failed r sid kind]
  | retries {sid : Nat} (hp : c.phase = .closing false .timeout) (hs : b.session = some sid)
    (hl : worthRetry (remaining c.deadline b.now)) :
    Turn b r c .closed ({ b with session := none }.set r { c with phase := .establishing true })
      [.dropped r sid, .retried r (remaining c.deadline b.now)]
  | drops {again : Bool} {sid : Nat} {kind : ErrorKind} (hp : c.phase = .closing again kind)
    (hs : b.session = some sid) :
    Turn b r c .closed ({ b with session := none }.finish r c).1 (.dropped r sid :: c.farewell r)
  | cleaned {sid : Nat} (hp : c.phase = .cleaning) (hs : b.session = some sid) :
    Turn b r c .closed
      ({ b with mutex := b.mutex.leave r, session := none }.set r { c with phase := .done })
      [.dropped r sid]
  | leaves (hp : c.phase.Asks ∨ ∃ again, c.phase = .establishing again) :
    Turn b r c .clientGone ({ b with mutex := b.mutex.leave r }.set r
      { c with phase := c.afterGone none }) [.cancelled r]
  | abandons {again : Bool} {sid : Nat} (hp : c.phase = .sending again)
    (hs : b.session = some sid) :
    Turn b r c .clientGone ({ b with mutex := b.mutex.leave r }.set r
      { c with phase := c.afterGone (some sid) }) [.abandoned r sid, .cancelled r]
  | leavesOpen {again : Bool} {kind : ErrorKind} {sid : Nat} (hp : c.phase = .closing again kind)
    (hs : b.session = some sid) :
    Turn b r c .clientGone ({ b with mutex := b.mutex.leave r }.set r
      { c with phase := c.afterGone (some sid) }) [.cancelled r]
  | passes {left : Option Nat} (hp : c.phase = .aborted left)
    (hm : b.mutex.line = [] → b.session = none) :
    Turn b r c .dropSession (b.set r { c with phase := .done }) []
  | cleans {left : Option Nat} {sid : Nat} (hp : c.phase = .aborted left)
    (hm : b.mutex.line = []) (hs : b.session = some sid) :
    Turn b r c .dropSession ({ b with mutex := b.mutex.lock r }.set r { c with phase := .cleaning })
      []

theorem turn_fail {again : Bool} {sid : Nat} (hp : c.phase = .sending again)
    (hs : b.session = some sid) (kind : ErrorKind) :
    Turn b r c w (b.fail r c again sid kind).1 (b.fail r c again sid kind).2 := by
  unfold fail
  cases hk : kind.keepsSession with
  | true => exact .rejected hp hs hk
  | false => exact .fails hp hs hk

/-- Every turn of a call that is in its place is one of these. -/
theorem Placed.turn (h : b.Placed r c) : Turn b r c w (b.turn r c w).1 (b.turn r c w).2 := by
  cases w with
  | poll =>
    unfold NativeBackend.turn
    have hasks : c.phase.Asks → Turn b r c .poll
        (if (b.mutex.lock r).holder = some r then
          enter { b with mutex := b.mutex.lock r } r (c.arrive b.now)
        else ({ b with mutex := b.mutex.lock r }.set r (c.arrive b.now), [])).1
        (if (b.mutex.lock r).holder = some r then
          enter { b with mutex := b.mutex.lock r } r (c.arrive b.now)
        else ({ b with mutex := b.mutex.lock r }.set r (c.arrive b.now), [])).2 := by
      intro hp
      split
      · next hm =>
        unfold enter
        split
        · next hs => exact .establishes hp hm hs
        · next hs => exact .sends hp hm hs
      · next hm => exact .waits hp hm
    dsimp only
    split
    · next hp => exact hasks (by rw [hp]; trivial)
    · next hp => exact hasks (by rw [hp]; trivial)
    · exact .idle
  | established =>
    unfold NativeBackend.turn
    dsimp only
    split
    · next hp => exact .established hp
    · exact .idle
  | establishFailed =>
    unfold NativeBackend.turn
    dsimp only
    split
    · next hp => exact .fruitless hp
    · exact .idle
  | replied outcome =>
    unfold NativeBackend.turn
    dsimp only
    split
    · next hp hs =>
      cases outcome with
      | ok => exact .answered hp
      | error kind => exact turn_fail hp hs kind
    · exact .idle
  | expired =>
    unfold NativeBackend.turn
    dsimp only
    split
    · split
      · next hp => exact .fruitless hp
      · next hp hs => exact turn_fail hp hs .timeout
      · exact .idle
    · exact .idle
  | closed =>
    unfold NativeBackend.turn
    dsimp only
    split
    · next hp hs =>
      unfold afterClose
      dsimp only
      split
      · next hl =>
        obtain ⟨rfl, rfl, hl⟩ := hl
        exact .retries hp hs hl
      · exact .drops hp hs
    · next hp hs => exact .cleaned hp hs
    · exact .idle
  | clientGone =>
    unfold NativeBackend.turn
    dsimp only
    split
    · exact .idle
    · exact .idle
    · exact .idle
    · next ha hc hd =>
      unfold giveUp
      dsimp only
      split
      · next hp hs => exact .abandons hp hs
      · next hp hs => exact .leavesOpen hp hs
      · next hsend hclose =>
        refine .leaves ?_
        cases hp : c.phase with
        | created | waiting => exact .inl trivial
        | establishing again => exact .inr ⟨again, rfl⟩
        | sending again =>
          obtain ⟨sid, hs⟩ := h.full (by rw [hp]; trivial)
          exact absurd hs (hsend again sid hp)
        | closing again kind =>
          obtain ⟨sid, hs⟩ := h.full (by rw [hp]; trivial)
          exact absurd hs (hclose again kind sid hp)
        | aborted left => exact absurd hp (ha left)
        | cleaning => exact absurd hp hc
        | done => exact absurd hp hd
  | dropSession =>
    unfold NativeBackend.turn
    dsimp only
    split
    · next hp =>
      split
      · next hm =>
        obtain ⟨sid, hs⟩ := Option.isSome_iff_exists.1 hm.2
        exact .cleans hp hm.1 hs
      · next hm =>
        refine .passes hp fun hline => ?_
        cases hs : b.session with
        | none => rfl
        | some sid => exact absurd ⟨hline, by rw [hs]; rfl⟩ hm
    · exact .idle

/-- What a turn of call `r` leaves alone, and that `c'` is the call after it, in its place again. -/
structure Frame (b : NativeBackend) (r : Nat) (c' : Call) (b' : NativeBackend)
    (seen : List Happening) : Prop where
  nodeId : b'.nodeId = b.nodeId
  now : b'.now = b.now
  calls : b'.calls = Function.update b.calls r (some c')
  line : ∀ q, q ≠ r → (q ∈ b'.mutex.line ↔ q ∈ b.mutex.line)
  holder : ∀ q, q ≠ r → b.mutex.holder = some q →
    b'.mutex.holder = some q ∧ b'.session = b.session
  placed : b'.Placed r c'
  established : b.established ≤ b'.established
  fresh : (∀ sid, b.session = some sid → sid < b.established) →
    ∀ sid, b'.session = some sid → sid < b'.established
  seen : ∀ o ∈ seen, o.call = r

/-- The call that holds the mutex does with the slot what it likes; any call may join the line or
leave it. -/
theorem frame_set {m : FifoMutex Nat} {s : Option Nat} {n : Nat}
    (hm : m = b.mutex ∨ m = b.mutex.lock r ∨ m = b.mutex.leave r)
    (hs : s = b.session ∨ b.mutex.holder = some r)
    (hp : ({ b with mutex := m, session := s, established := n }.set r c').Placed r c')
    (hn : b.established ≤ n)
    (hfresh : ∀ sid, s = some sid → b.session = some sid ∨ sid < n)
    (hseen : ∀ o ∈ seen, o.call = r) :
    Frame b r c' ({ b with mutex := m, session := s, established := n }.set r c') seen where
  nodeId := rfl
  now := rfl
  calls := rfl
  line q hq := by
    change q ∈ m.line ↔ _
    obtain rfl | rfl | rfl := hm
    · rfl
    · rw [FifoMutex.mem_lock, or_iff_left hq]
    · rw [FifoMutex.mem_leave, and_iff_right hq]
  holder q hq hold := by
    constructor
    · change m.holder = _
      obtain rfl | rfl | rfl := hm
      · exact hold
      · exact FifoMutex.holder_lock hold
      · exact FifoMutex.holder_leave hold hq
    · refine hs.elim id fun hr => ?_
      rw [hr, Option.some_inj] at hold
      exact absurd hold.symm hq
  placed := hp
  established := hn
  fresh h sid hsid := (hfresh sid hsid).elim (fun hb => Nat.lt_of_lt_of_le (h sid hb) hn) id
  seen := hseen

theorem farewell_call : ∀ o ∈ c.farewell r, o.call = r := by
  intro o ho
  unfold Call.farewell at ho
  split at ho <;> simp at ho
  · obtain rfl | rfl := ho <;> rfl
  · subst ho
    rfl

/-- A call that is out of line and has let go of the slot is in its place. -/
theorem placed_out (h : r ∉ b.mutex.line) (hp : ¬c.phase.InLine) : b.Placed r c where
  line := iff_of_false h hp
  holds hh := absurd (.inr hh) hp
  empty again he := absurd (.inr (by rw [he]; trivial)) hp
  full hu := by
    refine absurd (.inr ?_) hp
    cases hph : c.phase <;> rw [hph] at hu <;> trivial

/-- A call that has the guard is in its place. -/
theorem placed_in (h : b.mutex.holder = some r) (hp : c.phase.Holds)
    (hs : c.phase.Uses ↔ ∃ sid, b.session = some sid) : b.Placed r c where
  line := iff_of_true (FifoMutex.mem_of_holder h) (.inr hp)
  holds _ := h
  empty again he := by
    rw [he] at hs
    cases hb : b.session with
    | none => rfl
    | some sid => exact (hs.2 ⟨sid, hb⟩).elim
  full := hs.1

theorem arrive_phase (hp : c.phase.Asks) (now : Instant) : (c.arrive now).phase = .waiting := by
  unfold Call.arrive
  cases h : c.phase with
  | created => rfl
  | waiting => exact h
  | _ => rw [h] at hp; exact hp.elim

/-- A call that leaves the line frames the others, whatever it does with the slot it held. -/
theorem frame_leave {s : Option Nat} {p : CallPhase} (hs : s = b.session ∨ s = none)
    (hold : s = b.session ∨ b.mutex.holder = some r) (hp : ¬p.InLine)
    (hseen : ∀ o ∈ seen, o.call = r) :
    Frame b r { c with phase := p }
      ({ b with mutex := b.mutex.leave r, session := s }.set r { c with phase := p }) seen := by
  refine frame_set (.inr (.inr rfl)) hold (placed_out FifoMutex.not_mem_leave hp) (Nat.le_refl _)
    (fun sid hsid => ?_) hseen
  obtain rfl | rfl := hs
  · exact .inl hsid
  · cases hsid

theorem not_inLine_done : ¬CallPhase.done.InLine := fun h => h.elim (fun h => by cases h) id

theorem not_inLine_afterGone {left : Option Nat} : ¬(c.afterGone left).InLine := by
  obtain ⟨h, -⟩ | h := c.afterGone_cases left <;> rw [h]
  · exact fun h => h.elim (fun h => by cases h) id
  · exact not_inLine_done

theorem Turn.frame (h : b.Placed r c) (hc : b.calls r = some c) (ht : Turn b r c w b' seen) :
    ∃ c', Frame b r c' b' seen := by
  cases ht with
  | idle =>
    refine ⟨c, rfl, rfl, ?_, fun _ _ => Iff.rfl, fun _ _ hq => ⟨hq, rfl⟩, h, Nat.le_refl _, id, ?_⟩
    · rw [← hc, Function.update_eq_self]
    · exact fun _ ho => absurd ho List.not_mem_nil
  | waits hp hm =>
    refine ⟨_, frame_set (.inr (.inl rfl)) (.inl rfl) ⟨?_, ?_, ?_, ?_⟩ (Nat.le_refl _)
      (fun sid hsid => .inl hsid) (by simp)⟩
    · exact iff_of_true (FifoMutex.mem_lock.2 (.inr rfl)) (.inl (arrive_phase hp _))
    all_goals rw [arrive_phase hp]
    · exact False.elim
    · exact fun again ha => by cases ha
    · exact False.elim
  | establishes hp hm hs =>
    refine ⟨_, frame_set (.inr (.inl rfl)) (.inl rfl) (placed_in hm trivial ?_) (Nat.le_refl _)
      (fun sid hsid => .inl hsid) (by simp)⟩
    exact iff_of_false id fun hsid => by obtain ⟨sid, hsid⟩ := hsid; cases hs.symm.trans hsid
  | @sends sid hp hm hs =>
    exact ⟨_, frame_set (.inr (.inl rfl)) (.inl rfl)
      (placed_in hm trivial (iff_of_true trivial ⟨sid, hs⟩)) (Nat.le_refl _)
      (fun sid hsid => .inl hsid) (by simp [Happening.call])⟩
  | established hp =>
    have hold := h.holds (by rw [hp]; trivial)
    refine ⟨_, frame_set (.inl rfl) (.inr hold)
      (placed_in hold trivial (iff_of_true trivial ⟨_, rfl⟩)) (Nat.le_succ _)
      (fun sid hsid => .inr ?_) (by simp [Happening.call])⟩
    rw [← Option.some_inj.1 hsid]
    exact Nat.lt_succ_self _
  | fruitless hp | answered hp =>
    exact ⟨_, frame_leave (.inl rfl) (.inl rfl) not_inLine_done farewell_call⟩
  | rejected hp hs hk =>
    exact ⟨_, frame_leave (.inl rfl) (.inl rfl) not_inLine_done
      (List.forall_mem_cons.2 ⟨rfl, farewell_call⟩)⟩
  | @fails _ again sid kind hp hs hk =>
    have hold := h.holds (by rw [hp]; trivial)
    exact ⟨_, frame_set (.inl rfl) (.inl rfl)
      (placed_in hold trivial (iff_of_true trivial ⟨sid, hs⟩)) (Nat.le_refl _)
      (fun sid hsid => .inl hsid) (by simp [Happening.call])⟩
  | retries hp hs hl =>
    have hold := h.holds (by rw [hp]; trivial)
    refine ⟨_, frame_set (.inl rfl) (.inr hold) (placed_in hold trivial ?_) (Nat.le_refl _)
      (fun sid hsid => by cases hsid) (by simp [Happening.call])⟩
    exact iff_of_false id fun hsid => by obtain ⟨sid, hsid⟩ := hsid; cases hsid
  | drops hp hs =>
    exact ⟨_, frame_leave (.inr rfl) (.inr (h.holds (by rw [hp]; trivial))) not_inLine_done
      (List.forall_mem_cons.2 ⟨rfl, farewell_call⟩)⟩
  | cleaned hp hs =>
    exact ⟨_, frame_leave (.inr rfl) (.inr (h.holds (by rw [hp]; trivial))) not_inLine_done
      (by simp [Happening.call])⟩
  | leaves hp =>
    exact ⟨_, frame_leave (.inl rfl) (.inl rfl) not_inLine_afterGone (by simp [Happening.call])⟩
  | abandons hp hs | leavesOpen hp hs =>
    exact ⟨_, frame_leave (.inl rfl) (.inl rfl) not_inLine_afterGone (by simp [Happening.call])⟩
  | passes hp =>
    have hout : r ∉ b.mutex.line := fun hr => by
      have := h.line.1 hr
      rw [hp] at this
      exact this.elim (fun h => by cases h) id
    exact ⟨_, frame_set (.inl rfl) (.inl rfl) (placed_out hout not_inLine_done) (Nat.le_refl _)
      (fun sid hsid => .inl hsid) (by simp)⟩
  | @cleans left sid hp hm hs =>
    have hold : (b.mutex.lock r).holder = some r := FifoMutex.holder_lock_self.2 (.inl hm)
    exact ⟨_, frame_set (.inr (.inl rfl)) (.inl rfl)
      (placed_in hold trivial (iff_of_true trivial ⟨sid, hs⟩)) (Nat.le_refl _)
      (fun sid hsid => .inl hsid) (by simp)⟩

/-! ## Who is in line -/

/-- Every call is in its place, and nobody else is in line; the session in the slot has a number. -/
structure Disciplined (b : NativeBackend) : Prop where
  placed : ∀ r c, b.calls r = some c → b.Placed r c
  absent : ∀ r, b.calls r = none → r ∉ b.mutex.line
  fresh : ∀ sid, b.session = some sid → sid < b.established

theorem disciplined_fromEngine {id : UInt64} {now : Instant} : (fromEngine id now).Disciplined :=
  ⟨fun _ _ h => (by cases h), fun _ _ => List.not_mem_nil, fun _ h => (by cases h)⟩

/-- The other calls stay in their places. -/
theorem Frame.placed_of_ne (hf : Frame b r c' b' seen) (hq : q ≠ r) (h : b.Placed q c) :
    b'.Placed q c where
  line := (hf.line q hq).trans h.line
  holds hp := (hf.holder q hq (h.holds hp)).1
  empty again hp := by
    rw [(hf.holder q hq (h.holds (by rw [hp]; trivial))).2]
    exact h.empty again hp
  full hp := by
    have hh : c.phase.Holds := by
      cases hph : c.phase <;> rw [hph] at hp <;> trivial
    rw [(hf.holder q hq (h.holds hh)).2]
    exact h.full hp

theorem Frame.disciplined (hf : Frame b r c' b' seen) (h : b.Disciplined) : b'.Disciplined where
  placed q d hd := by
    rw [hf.calls] at hd
    by_cases hq : q = r
    · subst hq
      rw [Function.update_self, Option.some_inj] at hd
      exact hd ▸ hf.placed
    · rw [Function.update_of_ne hq] at hd
      exact hf.placed_of_ne hq (h.placed q d hd)
  absent q hd := by
    rw [hf.calls] at hd
    by_cases hq : q = r
    · subst hq
      rw [Function.update_self] at hd
      cases hd
    · rw [Function.update_of_ne hq] at hd
      rw [hf.line q hq]
      exact h.absent q hd
  fresh := hf.fresh h.fresh

/-! ## Steps -/

/-- The call of a request that has come in. -/
def incoming (op : Op) (deadlineMs : Option UInt64) : Call :=
  ⟨op, deadlineMs, none, .created, false⟩

/-- What a step does. -/
inductive Steps (b : NativeBackend) : SlotEvent → NativeBackend → List Happening → Prop
  | ignored {e : SlotEvent} : Steps b e b []
  | requested {r : Nat} {op : Op} {deadlineMs : Option UInt64} (hr : b.calls r = none) :
    Steps b (.request r op deadlineMs) (b.set r (incoming op deadlineMs)) []
  | turned {r : Nat} {c : Call} {w : Wake} {b' : NativeBackend} {seen : List Happening}
    (hc : b.calls r = some c) (ht : Turn b r c w b' seen) : Steps b (.wake r w) b' seen
  | elapsed (d : Duration) : Steps b (.elapsed d) { b with now := b.now + d } []

theorem Disciplined.steps (h : b.Disciplined) (e : SlotEvent) :
    Steps b e (b.step e) (b.seen e) := by
  unfold step NativeBackend.seen react
  cases e with
  | request r op deadlineMs =>
    dsimp only
    split
    · next hr => exact .requested (Option.isNone_iff_eq_none.1 hr.1)
    · exact .ignored
  | wake r w =>
    dsimp only
    split
    · next c hc => exact .turned hc (h.placed r c hc).turn
    · exact .ignored
  | elapsed d => exact .elapsed d

theorem Disciplined.request (h : b.Disciplined) (hr : b.calls r = none) (op : Op)
    (deadlineMs : Option UInt64) :
    Frame b r (incoming op deadlineMs) (b.set r (incoming op deadlineMs)) [] :=
  frame_set (.inl rfl) (.inl rfl)
    (placed_out (h.absent r hr) fun hp => hp.elim (fun hp => by cases hp) id) (Nat.le_refl _)
    (fun _ hsid => .inl hsid) (by simp)

theorem Disciplined.step (h : b.Disciplined) (e : SlotEvent) : (b.step e).Disciplined := by
  have hs := h.steps e
  revert hs
  generalize b.step e = b', b.seen e = seen
  intro hs
  cases hs with
  | ignored => exact h
  | requested hr => exact (h.request hr _ _).disciplined h
  | turned hc ht =>
    obtain ⟨c', hf⟩ := ht.frame (h.placed _ _ hc) hc
    exact hf.disciplined h
  | elapsed d => exact ⟨fun r c hc => ⟨(h.placed r c hc).1, (h.placed r c hc).2,
      (h.placed r c hc).3, (h.placed r c hc).4⟩, h.absent, h.fresh⟩

/-- At most one call has the guard. -/
theorem Disciplined.holds_inj (h : b.Disciplined) (hq : b.calls q = some c)
    (hr : b.calls r = some c') (hc : c.phase.Holds) (hc' : c'.phase.Holds) : q = r :=
  Option.some_inj.1 (((h.placed q c hq).holds hc).symm.trans ((h.placed r c' hr).holds hc'))

/-! ## Properties of each call -/

/-- `K` holds of every call, or of its absence. -/
def Each (K : NativeBackend → List Happening → Nat → Option Call → Prop) (b : NativeBackend)
    (h : List Happening) : Prop :=
  ∀ r, K b h r (b.calls r)

/-- A property of calls is kept by a step when the call whose turn it is keeps it, and the others do
not mind. -/
theorem Each.step {K : NativeBackend → List Happening → Nat → Option Call → Prop}
    {h : List Happening} {e : SlotEvent} (hk : Each K b h) (hd : b.Disciplined)
    (hother : ∀ {q r oc c' b' seen}, Frame b r c' b' seen → q ≠ r →
      (∀ c, oc = some c → b.Placed q c) → K b h q oc → K b' (h ++ seen) q oc)
    (hturn : ∀ {r c w b' seen}, e = .wake r w → b.calls r = some c → b.Placed r c →
      Turn b r c w b' seen → K b h r (some c) → K b' (h ++ seen) r (b'.calls r))
    (hrequest : ∀ {r op ms}, K b h r none →
      K (b.set r (incoming op ms)) h r (some (incoming op ms)))
    (helapsed : ∀ {d r oc}, K b h r oc → K { b with now := b.now + d } h r oc) :
    Each K (b.step e) (h ++ b.seen e) := by
  have hs := hd.steps e
  revert hs
  generalize b.step e = b', b.seen e = seen
  intro hs q
  cases hs with
  | ignored =>
    rw [List.append_nil]
    exact hk q
  | @requested r op ms hr =>
    have hf := hd.request hr op ms
    rw [hf.calls]
    by_cases hq : q = r
    · subst hq
      rw [Function.update_self, List.append_nil]
      exact hrequest (hr ▸ hk q)
    · rw [Function.update_of_ne hq]
      exact hother hf hq (hd.placed q) (hk q)
  | @turned r c w _ _ hc ht =>
    by_cases hq : q = r
    · subst hq
      exact hturn rfl hc (hd.placed q c hc) ht (hc ▸ hk q)
    · obtain ⟨c', hf⟩ := ht.frame (hd.placed r c hc) hc
      rw [hf.calls, Function.update_of_ne hq]
      exact hother hf hq (hd.placed q) (hk q)
  | elapsed d =>
    rw [List.append_nil]
    exact helapsed (hk q)

end

end NativeBackend

end MatStack
