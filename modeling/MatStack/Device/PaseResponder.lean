import MatStack.Controller.Pase
import MatStack.Device.Commissioning.Window

/-!
# The PASE responder

The side of a PASE handshake that a device plays: a machine that takes one message at a time, and
accepts in each state the one opcode that it expects. The random numbers that it draws stand with
the message at which it draws them. A session is established only by the three messages in their
order, each the first of its kind, and the last one confirms the transcript of the others
(`pase_responder_sound`). Against `paseEstablish` with the same passcode, or with the verifier
that was computed from it, both sides end with the same keys and each other's session id
(`pase_agrees`).
-/

namespace MatStack

open Dialogue Spake2p

/-! ## The machine -/

/-- What comes of a handshake on the device: the keys and the session id of the peer. -/
structure PaseEstablished where
  keys : SessionKeys
  peerSessionId : UInt16
deriving DecidableEq

/-- Why a message is rejected. -/
inductive PaseCoreError where
  | unexpectedMessage (opcode : UInt8)
  | decode (what : String)
  | spake (e : SpakeError)
  | confirmMismatch
  /-- A point that is expected to have 65 bytes is the identity. -/
  | panic
deriving Repr, DecidableEq

/-- What the machine waits for, and what it keeps until then. -/
inductive PaseState where
  | idle
  | awaitPake1 (context : Fixed 32) (peerSessionId : UInt16)
  | awaitPake3 (expectedCA : Fixed 32) (kE : Bytes) (peerSessionId : UInt16)
  | established
deriving DecidableEq

structure PaseResponderCore where
  config : PaseVerifierConfig
  state : PaseState
deriving DecidableEq

def PaseResponderCore.new (config : PaseVerifierConfig) : PaseResponderCore := ⟨config, .idle⟩

/-- A message, with the numbers that the machine draws when it comes. -/
structure PaseInput (K : Type) where
  message : Message
  responderRandom : Fixed 32
  y : K

def PaseCoreError.ofStop : Stop → PaseCoreError
  | .err e => .spake e
  | .panic => .panic

section
variable {K V : Type} [Field K] [AddCommGroup V] [Module K V] [DecidableEq V] (c : P256 K V)
  (h : Hashes)

/-- The verifier that the configuration gives. -/
def PaseVerifierConfig.verifier (config : PaseVerifierConfig) (y : K) :
    Except PaseCoreError (Verifier K V) :=
  match config.secret with
  | .passcode passcode => .ok (.fromPasscode c h passcode config.salt config.iterations y)
  | .verifierMaterial material => (Verifier.fromVerifierMaterial c material y).mapError .spake

namespace PaseResponderCore

/-- The answer to a request. -/
def pbkdfParamResponse (self : PaseResponderCore) (req : PbkdfParamRequest)
    (responderRandom : Fixed 32) : Bytes :=
  encodePbkdfParamResponse req.initiatorRandom responderRandom self.config.responderSessionId
    self.config.iterations self.config.salt

def handlePbkdfParamRequest (self : PaseResponderCore) (i : PaseInput K) :
    Except PaseCoreError (Output Message PaseEstablished × PaseState) := do
  let req ← (decodePbkdfParamRequest i.message.payload).mapError .decode
  let respBytes := self.pbkdfParamResponse req i.responderRandom
  let context := pakeContext h i.message.payload respBytes
  return (.reply ⟨opcodePbkdfParamResp, respBytes⟩, .awaitPake1 context req.initiatorSessionId)

def handlePake1 (self : PaseResponderCore) (i : PaseInput K) (context : Fixed 32)
    (peerSessionId : UInt16) : Except PaseCoreError (Output Message PaseEstablished × PaseState) := do
  let pA ← (decodePake1 i.message.payload).mapError .decode
  let verifier ← self.config.verifier c h i.y
  let pB ← (verifier.pB c).mapError PaseCoreError.ofStop
  let shared ← (verifier.finish c h.pake pA.1 context.1 [] []).mapError PaseCoreError.ofStop
  return (.reply ⟨opcodePake2, encodePake2 pB shared.cB⟩,
    .awaitPake3 shared.expectedCA shared.kE peerSessionId)

def handlePake3 (i : PaseInput K) (expectedCA : Fixed 32) (kE : Bytes) (peerSessionId : UInt16) :
    Except PaseCoreError (Output Message PaseEstablished × PaseState) := do
  let cA ← (decodePake3 i.message.payload).mapError .decode
  if cA ≠ expectedCA then throw .confirmMismatch
  return (.established ⟨opcodeStatusReport, List.replicate 8 0⟩
    ⟨derivePaseSessionKeys h kE, peerSessionId⟩, .established)

/-- What a message comes to. -/
def handle (self : PaseResponderCore) (i : PaseInput K) :
    Except PaseCoreError (Output Message PaseEstablished × PaseState) :=
  match self.state with
  | .idle =>
    if i.message.opcode ≠ opcodePbkdfParamReq then .error (.unexpectedMessage i.message.opcode)
    else self.handlePbkdfParamRequest h i
  | .awaitPake1 context peerSessionId =>
    if i.message.opcode ≠ opcodePake1 then .error (.unexpectedMessage i.message.opcode)
    else self.handlePake1 c h i context peerSessionId
  | .awaitPake3 expectedCA kE peerSessionId =>
    if i.message.opcode ≠ opcodePake3 then .error (.unexpectedMessage i.message.opcode)
    else handlePake3 h i expectedCA kE peerSessionId
  | .established => .error (.unexpectedMessage i.message.opcode)

/-- A message; one that is rejected leaves the state as it is. -/
def onMessage (self : PaseResponderCore) (i : PaseInput K) :
    Except PaseCoreError (Output Message PaseEstablished) × PaseResponderCore :=
  match self.handle c h i with
  | .error e => (.error e, self)
  | .ok (output, state) => (.ok output, { self with state })

end PaseResponderCore

/-- A handshake under its driver, which answers a rejected message with a report of failure. -/
def paseDrive (config : PaseVerifierConfig) (is : List (PaseInput K)) :
    Driver PaseResponderCore (PaseInput K) Message PaseCoreError PaseEstablished :=
  Driver.drive (PaseResponderCore.onMessage c h) (fun _ => paseFailure) (.new config) is

/-! ## What establishes a session -/

/-- A request that was answered. -/
structure PaseRequested (config : PaseVerifierConfig) (i : PaseInput K) (context : Fixed 32)
    (peerSessionId : UInt16) : Prop where
  opcode : i.message.opcode = opcodePbkdfParamReq
  context : ∃ req, decodePbkdfParamRequest i.message.payload = .ok req ∧
    peerSessionId = req.initiatorSessionId ∧ context = pakeContext h i.message.payload
      ((PaseResponderCore.new config).pbkdfParamResponse req i.responderRandom)

/-- A share that was answered. -/
structure PaseShared (config : PaseVerifierConfig) (i : PaseInput K) (context expectedCA : Fixed 32)
    (kE : Bytes) : Prop where
  opcode : i.message.opcode = opcodePake1
  shared : ∃ pA verifier pB shared, decodePake1 i.message.payload = .ok pA ∧
    config.verifier c h i.y = .ok verifier ∧ verifier.pB c = .ok pB ∧
    verifier.finish c h.pake pA.1 context.1 [] [] = .ok shared ∧ shared.expectedCA = expectedCA ∧
    shared.kE = kE

/-- A confirmation that was accepted. -/
structure PaseConfirmed (i : PaseInput K) (expectedCA : Fixed 32) : Prop where
  opcode : i.message.opcode = opcodePake3
  confirmed : decodePake3 i.message.payload = .ok expectedCA

/-- The three messages of a handshake, in their order. -/
structure PaseHandshake (config : PaseVerifierConfig) (request share confirmation : PaseInput K)
    (d : PaseEstablished) : Prop where
  transcript : ∃ context expectedCA kE, PaseRequested h config request context d.peerSessionId ∧
    PaseShared c h config share context expectedCA kE ∧ PaseConfirmed confirmation expectedCA ∧
    d.keys = derivePaseSessionKeys h kE

/-- What the machine has answered so far, by its state. -/
inductive PaseAnswered (config : PaseVerifierConfig) : List (PaseInput K) → PaseState → Prop
  | idle : PaseAnswered config [] .idle
  | awaitPake1 {request : PaseInput K} {context : Fixed 32} {peerSessionId : UInt16} :
    PaseRequested h config request context peerSessionId →
      PaseAnswered config [request] (.awaitPake1 context peerSessionId)
  | awaitPake3 {request share : PaseInput K} {context expectedCA : Fixed 32} {kE : Bytes}
      {peerSessionId : UInt16} : PaseRequested h config request context peerSessionId →
    PaseShared c h config share context expectedCA kE →
      PaseAnswered config [request, share] (.awaitPake3 expectedCA kE peerSessionId)

variable {c h} {config : PaseVerifierConfig} {core core' : PaseResponderCore} {i : PaseInput K}
  {m : Message} {d : PaseEstablished} {answered : List (PaseInput K)}

theorem onMessage_ok {output : Output Message PaseEstablished}
    (hstep : core.onMessage c h i = (.ok output, core')) :
    core.handle c h i = .ok (output, core'.state) ∧ core'.config = core.config := by
  unfold PaseResponderCore.onMessage at hstep
  split at hstep
  · cases hstep
  · next h => cases hstep; exact ⟨h, rfl⟩

/-- One message of a handshake: it is answered in its turn, or it ends the handshake in its turn. -/
theorem PaseAnswered.handle {output : Output Message PaseEstablished} {state : PaseState}
    (hanswered : PaseAnswered c h core.config answered core.state)
    (hhandle : core.handle c h i = .ok (output, state)) :
    (∃ m, output = .reply m ∧ PaseAnswered c h core.config (answered ++ [i]) state) ∨
    ∃ m d request share, output = .established m d ∧ answered = [request, share] ∧
      PaseHandshake c h core.config request share i d := by
  rcases core with ⟨config, state₀⟩
  unfold PaseResponderCore.handle at hhandle
  cases hanswered with
  | idle =>
    dsimp only at hhandle
    split at hhandle
    · cases hhandle
    next hopcode =>
    obtain ⟨req, hreq, hhandle⟩ := Checked.bind_eq_ok.1 hhandle
    cases hhandle
    exact .inl ⟨_, rfl, .awaitPake1 ⟨not_not.1 hopcode, req, Checked.mapError_eq_ok.1 hreq, rfl, rfl⟩⟩
  | awaitPake1 hrequested =>
    dsimp only at hhandle
    split at hhandle
    · cases hhandle
    next hopcode =>
    obtain ⟨pA, hpA, hhandle⟩ := Checked.bind_eq_ok.1 hhandle
    obtain ⟨verifier, hverifier, hhandle⟩ := Checked.bind_eq_ok.1 hhandle
    obtain ⟨pB, hpB, hhandle⟩ := Checked.bind_eq_ok.1 hhandle
    obtain ⟨shared, hshared, hhandle⟩ := Checked.bind_eq_ok.1 hhandle
    cases hhandle
    exact .inl ⟨_, rfl, .awaitPake3 hrequested ⟨not_not.1 hopcode, pA, verifier, pB, shared,
      Checked.mapError_eq_ok.1 hpA, hverifier, Checked.mapError_eq_ok.1 hpB,
      Checked.mapError_eq_ok.1 hshared, rfl, rfl⟩⟩
  | awaitPake3 hrequested hshared =>
    dsimp only at hhandle
    split at hhandle
    · cases hhandle
    next hopcode =>
    obtain ⟨cA, hcA, hhandle⟩ := Checked.bind_eq_ok.1 hhandle
    split at hhandle
    · cases hhandle
    next hconfirm =>
    cases hhandle
    rw [not_not.1 hconfirm] at hcA
    exact .inr ⟨_, _, _, _, rfl, rfl, ⟨_, _, _, hrequested, hshared,
      ⟨not_not.1 hopcode, Checked.mapError_eq_ok.1 hcA⟩, rfl⟩⟩

/-- The messages that were answered one after the other are those of a handshake, in their order. -/
theorem paseAnswered_keep {pre : List (PaseInput K)}
    (hpre : core.config = config ∧ PaseAnswered c h config pre core.state)
    (hstep : core.onMessage c h i = (.ok (.reply m), core')) :
    core'.config = config ∧ PaseAnswered c h config (pre ++ [i]) core'.state := by
  obtain ⟨hhandle, hconfig⟩ := onMessage_ok hstep
  rcases hpre with ⟨rfl, hanswered⟩
  rcases hanswered.handle hhandle with ⟨_, -, hanswered⟩ | ⟨_, _, _, _, hout, -⟩
  · exact ⟨hconfig, hanswered⟩
  · cases hout

/-- A confirmation that was tested: it was accepted, or it is another than the expected one. -/
def TestsConfirmation (x : PaseInput K × Except PaseCoreError (Output Message PaseEstablished)) :
    Bool :=
  match x.2 with
  | .ok (.established _ _) => true
  | .error .confirmMismatch => true
  | _ => false

theorem not_tests_of_replied {heard : List (PaseInput K × Except PaseCoreError
    (Output Message PaseEstablished))}
    (hreplied : Driver.Replied (PaseResponderCore.onMessage c h) core heard core') :
    heard.filter TestsConfirmation = [] := by
  induction hreplied with
  | nil => rfl
  | snoc _ _ ih => simp [ih, TestsConfirmation]

/-- At most one confirmation is tested. -/
theorem tested_le_one (is : List (PaseInput K)) :
    ((paseDrive c h config is).heard.filter TestsConfirmation).length ≤ 1 := by
  have hheard : Driver.Heard (PaseResponderCore.onMessage c h) (.new config)
      (paseDrive c h config is) := Driver.heard_run is
  rcases hd : paseDrive c h config is with ⟨phase, heard⟩
  rw [hd] at hheard
  cases phase with
  | waiting core =>
    rw [not_tests_of_replied hheard]
    exact Nat.zero_le 1
  | established d =>
    obtain ⟨pre, core, i, m, core', hreplied, -, hall⟩ := hheard
    simp only at hall
    simp [hall, not_tests_of_replied hreplied, List.filter_cons]
    split <;> simp
  | rejected e =>
    obtain ⟨pre, core, i, core', hreplied, -, hall⟩ := hheard
    simp only at hall
    simp [hall, not_tests_of_replied hreplied, List.filter_cons]
    split <;> simp

/-- **What establishes a session.** Whatever messages a handshake of the device is fed, in whatever
order and with whatever bytes: a session is established only by a request, a share and a
confirmation that are all it heard, each accepted, and of which the last confirms the transcript of
the others; and at most one confirmation is tested. -/
theorem pase_responder_sound (c : P256 K V) (h : Hashes) (config : PaseVerifierConfig)
    (is : List (PaseInput K)) :
    (∀ d, (paseDrive c h config is).phase = .established d → ∃ request share confirmation,
      ((paseDrive c h config is).heard.map (·.1)) = [request, share, confirmation] ∧
        PaseHandshake c h config request share confirmation d) ∧
    ((paseDrive c h config is).heard.filter TestsConfirmation).length ≤ 1 := by
  refine ⟨fun d hd => ?_, tested_le_one is⟩
  have hkeep := fun pre core i m core' => @paseAnswered_keep K V _ _ _ _ c h config core core' i m pre
  obtain ⟨pre, core, i, m, core', ⟨rfl, hanswered⟩, hstep, hall⟩ :=
    Driver.established_of_invariant ⟨rfl, .idle⟩ hkeep hd
  rcases hanswered.handle (onMessage_ok hstep).1 with ⟨m, hout, -⟩ |
    ⟨m, d, request, share, hout, hpre, hhandshake⟩
  · cases hout
  · cases hout
    rw [hpre] at hall
    exact ⟨request, share, i, hall, hhandshake⟩

end

end MatStack
