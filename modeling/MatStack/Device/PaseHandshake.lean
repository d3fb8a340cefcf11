import MatStack.Device.PaseResponder

/-!
# PASE handshakes

The initiator against the responder of a device, over a channel that delivers. What the messages
carry, the other side reads (`paseServe_request`, `paseServe_share`, `paseServe_confirmation`), so a
handshake is followed round by round. Either both sides have a session, or neither has
(`pase_outcome`); with one passcode, or with the verifier that was computed from it, both have one,
with the same keys (`pase_agrees`).
-/

namespace MatStack

open Dialogue Spake2p

section
variable {K V : Type} [Field K] [AddCommGroup V] [Module K V] [DecidableEq V] (c : P256 K V)
  (h : Hashes) (responderRandom : Fixed 32) (y : K)

/-- The driver of a responder. -/
abbrev PaseDriver (K : Type) :=
  Driver PaseResponderCore (PaseInput K) Message PaseCoreError PaseEstablished

/-- A responder that draws the numbers, as the initiator meets it: a handshake that is over does not
answer. -/
def paseServe (d : PaseDriver K) (m : Message) : Answer × PaseDriver K :=
  match d.feed (PaseResponderCore.onMessage c h) (fun _ => paseFailure) ⟨m, responderRandom, y⟩ with
  | (some reply, d) => (.received reply true, d)
  | (none, d) => (.lost .timeout, d)

variable {c h responderRandom y} {d : PaseDriver K} {core : PaseResponderCore} {m reply : Message}

/-! ## One message -/

/-- A message that is answered. -/
theorem paseServe_reply {state : PaseState} (hd : d.phase = .waiting core)
    (hhandle : core.handle c h ⟨m, responderRandom, y⟩ = .ok (.reply reply, state)) :
    ∃ d', paseServe c h responderRandom y d m = (.received reply true, d') ∧
      d'.phase = .waiting { core with state } := by
  have hstep : core.onMessage c h ⟨m, responderRandom, y⟩ =
      (.ok (.reply reply), { core with state }) := by
    rw [PaseResponderCore.onMessage, hhandle]
  exact ⟨⟨.waiting { core with state }, _⟩, by rw [paseServe, Driver.feed_reply hd hstep], rfl⟩

/-- A message that is rejected. -/
theorem paseServe_rejected {e : PaseCoreError} (hd : d.phase = .waiting core)
    (hhandle : core.handle c h ⟨m, responderRandom, y⟩ = .error e) :
    ∃ d', paseServe c h responderRandom y d m = (.received paseFailure true, d') ∧
      d'.phase = .rejected e := by
  have hstep : core.onMessage c h ⟨m, responderRandom, y⟩ = (.error e, core) := by
    rw [PaseResponderCore.onMessage, hhandle]
  exact ⟨⟨.rejected e, _⟩, by rw [paseServe, Driver.feed_rejected hd hstep], rfl⟩

/-- A message that ends the handshake. -/
theorem paseServe_established {state : PaseState} {r : PaseEstablished}
    (hd : d.phase = .waiting core)
    (hhandle : core.handle c h ⟨m, responderRandom, y⟩ = .ok (.established reply r, state)) :
    ∃ d', paseServe c h responderRandom y d m = (.received reply true, d') ∧
      d'.phase = .established r := by
  have hstep : core.onMessage c h ⟨m, responderRandom, y⟩ =
      (.ok (.established reply r), { core with state }) := by
    rw [PaseResponderCore.onMessage, hhandle]
  exact ⟨⟨.established r, _⟩, by rw [paseServe, Driver.feed_established hd hstep], rfl⟩

variable (c h responderRandom y) in
/-- The report of failure is no message that a responder waits for. -/
theorem paseServe_failure (hd : d.phase = .waiting core) :
    ∃ a d' e, paseServe c h responderRandom y d paseFailure = (a, d') ∧
      d'.phase = .rejected e := by
  have hreject : ∃ e, core.handle c h ⟨paseFailure, responderRandom, y⟩ = .error e := by
    unfold PaseResponderCore.handle
    split <;> exact ⟨_, rfl⟩
  obtain ⟨e, he⟩ := hreject
  obtain ⟨d', hserve, hphase⟩ := paseServe_rejected hd he
  exact ⟨_, d', e, hserve, hphase⟩

section
variable {config : PaseVerifierConfig}

section
variable (c h responderRandom y config) (initiatorRandom : Fixed 32) (sessionId : UInt16)

/-- The response to a request of the initiator. -/
def paseResponse : Bytes :=
  (PaseResponderCore.new config).pbkdfParamResponse ⟨initiatorRandom, sessionId, false⟩
    responderRandom

/-- The context of a handshake. -/
def paseContext : Fixed 32 :=
  pakeContext h (encodePbkdfParamRequest initiatorRandom sessionId)
    (paseResponse responderRandom config initiatorRandom sessionId)

/-- The request of an initiator is answered. -/
theorem paseServe_request : ∃ d', paseServe c h responderRandom y (Driver.start (.new config))
      ⟨opcodePbkdfParamReq, encodePbkdfParamRequest initiatorRandom sessionId⟩ =
        (.received ⟨opcodePbkdfParamResp,
          paseResponse responderRandom config initiatorRandom sessionId⟩ true, d') ∧
      d'.phase = .waiting ⟨config, .awaitPake1
        (paseContext h responderRandom config initiatorRandom sessionId) sessionId⟩ := by
  refine @paseServe_reply _ _ _ _ _ _ c h responderRandom y _ (.new config) _ _ _ rfl ?_
  simp only [PaseResponderCore.handle, PaseResponderCore.new,
    PaseResponderCore.handlePbkdfParamRequest, decode_encodePbkdfParamRequest]
  rfl

end

variable (c h responderRandom y) in
/-- What a responder makes of a share: it answers, or rejects it. -/
theorem paseServe_share {context : Fixed 32} {peerSessionId : UInt16} (pA : Fixed 65)
    (hd : d.phase = .waiting ⟨config, .awaitPake1 context peerSessionId⟩) :
    (∃ d' e, paseServe c h responderRandom y d ⟨opcodePake1, encodePake1 pA⟩ =
      (.received paseFailure true, d') ∧ d'.phase = .rejected e) ∨
    ∃ d' verifier pB shared, paseServe c h responderRandom y d ⟨opcodePake1, encodePake1 pA⟩ =
        (.received ⟨opcodePake2, encodePake2 pB shared.cB⟩ true, d') ∧
      d'.phase = .waiting ⟨config, .awaitPake3 shared.expectedCA shared.kE peerSessionId⟩ ∧
      config.verifier c h y = .ok verifier ∧ verifier.pB c = .ok pB ∧
      verifier.finish c h.pake pA.1 context.1 [] [] = .ok shared := by
  rcases hhandle : PaseResponderCore.handle c h ⟨config, .awaitPake1 context peerSessionId⟩
      ⟨⟨opcodePake1, encodePake1 pA⟩, responderRandom, y⟩ with e | ⟨output, state⟩
  · obtain ⟨d', hserve, hphase⟩ := paseServe_rejected hd hhandle
    exact .inl ⟨d', e, hserve, hphase⟩
  · have hpake1 := hhandle
    simp only [PaseResponderCore.handle, ne_eq, not_true_eq_false, if_false,
      PaseResponderCore.handlePake1, decode_encodePake1, Except.mapError, Checked.ok_bind] at hpake1
    obtain ⟨verifier, hverifier, hpake1⟩ := Checked.bind_eq_ok.1 hpake1
    obtain ⟨pB, hpB, hpake1⟩ := Checked.bind_eq_ok.1 hpake1
    obtain ⟨shared, hshared, hpake1⟩ := Checked.bind_eq_ok.1 hpake1
    cases hpake1
    obtain ⟨d', hserve, hphase⟩ := paseServe_reply hd hhandle
    exact .inr ⟨d', verifier, pB, shared, hserve, hphase, hverifier,
      Checked.mapError_eq_ok.1 hpB, Checked.mapError_eq_ok.1 hshared⟩

variable (responderRandom) in
/-- A share that the secrets allow is answered. -/
theorem paseServe_share_of_finish {context : Fixed 32} {peerSessionId : UInt16} {pA pB : Fixed 65}
    {verifier : Verifier K V} {shared : PakeVerifierShared}
    (hd : d.phase = .waiting ⟨config, .awaitPake1 context peerSessionId⟩)
    (hverifier : config.verifier c h y = .ok verifier) (hpB : verifier.pB c = .ok pB)
    (hshared : verifier.finish c h.pake pA.1 context.1 [] [] = .ok shared) :
    ∃ d', paseServe c h responderRandom y d ⟨opcodePake1, encodePake1 pA⟩ =
        (.received ⟨opcodePake2, encodePake2 pB shared.cB⟩ true, d') ∧
      d'.phase = .waiting ⟨config, .awaitPake3 shared.expectedCA shared.kE peerSessionId⟩ := by
  refine paseServe_reply hd ?_
  simp only [PaseResponderCore.handle, ne_eq, not_true_eq_false, if_false,
    PaseResponderCore.handlePake1, decode_encodePake1, Except.mapError, Checked.ok_bind, hverifier,
    hpB, hshared]
  rfl

variable (c h responderRandom y) in
/-- What a responder makes of a confirmation. -/
theorem paseServe_confirmation {expectedCA : Fixed 32} {kE : Bytes} {peerSessionId : UInt16}
    (cA : Fixed 32) (hd : d.phase = .waiting ⟨config, .awaitPake3 expectedCA kE peerSessionId⟩) :
    (cA ≠ expectedCA ∧ ∃ d' e, paseServe c h responderRandom y d ⟨opcodePake3, encodePake3 cA⟩ =
      (.received paseFailure true, d') ∧ d'.phase = .rejected e) ∨
    (cA = expectedCA ∧ ∃ d', paseServe c h responderRandom y d ⟨opcodePake3, encodePake3 cA⟩ =
      (.received ⟨opcodeStatusReport, List.replicate 8 0⟩ true, d') ∧
        d'.phase = .established ⟨derivePaseSessionKeys h kE, peerSessionId⟩) := by
  have hhandle : PaseResponderCore.handle c h ⟨config, .awaitPake3 expectedCA kE peerSessionId⟩
      ⟨⟨opcodePake3, encodePake3 cA⟩, responderRandom, y⟩ =
        if cA ≠ expectedCA then .error .confirmMismatch
        else .ok (.established ⟨opcodeStatusReport, List.replicate 8 0⟩
          ⟨derivePaseSessionKeys h kE, peerSessionId⟩, .established) := by
    simp only [PaseResponderCore.handle, ne_eq, not_true_eq_false, if_false,
      PaseResponderCore.handlePake3, decode_encodePake3, Except.mapError, Checked.ok_bind]
    split <;> rfl
  by_cases hcA : cA = expectedCA
  · rw [if_neg (not_not.2 hcA)] at hhandle
    exact .inr ⟨hcA, paseServe_established hd hhandle⟩
  · rw [if_pos hcA] at hhandle
    obtain ⟨d', hserve, hphase⟩ := paseServe_rejected hd hhandle
    exact .inl ⟨hcA, d', _, hserve, hphase⟩

end

/-! ## The initiator -/

section
variable {serve : PaseDriver K → Message → Answer × PaseDriver K} {d' : PaseDriver K}

omit [Field K] in
/-- A message that is answered and acknowledged. -/
theorem meet_paseAsk (hserve : serve d m = (.received reply true, d')) :
    (paseAsk m).run.meet serve d = (.ok reply, d') := by
  have hasked : (Asker.asking m : ExceptT PaseError (Asker Message Answer) Answer).run.meet serve d =
      (.ok (.received reply true), d') := by rw [Asker.meet_asking, hserve]
  rw [paseAsk, Asker.meet_of_ok hasked]
  rfl

/-- The initiator takes a failure back: it ends without a session. -/
theorem expectOpcode_failure {opcode : UInt8} (what : String) (hopcode : opcode ≠ opcodeStatusReport) :
    expectOpcode opcode what paseFailure = .error (.statusReport generalCodeFailure
      scProtocolCodeInvalidParameter) := by
  simp [expectOpcode, paseFailure, Ne.symm hopcode, parseStatusReport_encode]

theorem checkPaseStatus_failure : checkPaseStatus paseFailure =
    .error (.statusReport generalCodeFailure scProtocolCodeInvalidParameter) := by
  simp [checkPaseStatus, paseFailure, parseStatusReport_encode, generalCodeFailure]

theorem checkPaseStatus_success :
    checkPaseStatus ⟨opcodeStatusReport, List.replicate 8 0⟩ = .ok () := rfl

end

/-- Both sides of a handshake have a session: each has the other's session id, and each confirmed
the other's keys. -/
structure PaseConcluded (c : P256 K V) (h : Hashes) (config : PaseVerifierConfig)
    (localSessionId : UInt16) (s : PaseSession) (r : PaseEstablished) : Prop where
  local_ : s.localSessionId = localSessionId ∧ r.peerSessionId = localSessionId
  peer : s.peerSessionId = config.responderSessionId
  keys : ∃ (prover : Prover K) (verifier : Verifier K V) (pA pB : Fixed 65) (context : Fixed 32)
    (shared : PakeShared) (shared' : PakeVerifierShared),
    prover.pA c = .ok pA ∧ prover.finish c h.pake pB.1 context.1 [] [] = .ok shared ∧
    verifier.pB c = .ok pB ∧ verifier.finish c h.pake pA.1 context.1 [] [] = .ok shared' ∧
    shared.cA = shared'.expectedCA ∧ shared.expectedCB = shared'.cB ∧
    s.keys = derivePaseSessionKeys h shared.kE ∧ r.keys = derivePaseSessionKeys h shared'.kE

/-- How a handshake ended: with a session on both sides, or with none. -/
def PaseEnded (c : P256 K V) (h : Hashes) (config : PaseVerifierConfig) (localSessionId : UInt16)
    (x : Except PaseError PaseSession × PaseDriver K) : Prop :=
  match x.1 with
  | .ok s => ∃ r, x.2.phase = .established r ∧ PaseConcluded c h config localSessionId s r
  | .error _ => ∀ r, x.2.phase ≠ .established r

omit [Field K] [DecidableEq V] [AddCommGroup V] [Module K V] in
theorem expectOpcode_self (opcode : UInt8) (what : String) (payload : Bytes) :
    expectOpcode opcode what ⟨opcode, payload⟩ = .ok payload := if_pos rfl

/-- A handshake that the initiator gives up while the responder waits leaves no session. -/
theorem paseEnded_error {config : PaseVerifierConfig} {localSessionId : UInt16} {e : PaseError}
    (hd : ∀ r, d.phase ≠ .established r) : PaseEnded c h config localSessionId (.error e, d) := hd

/-- A handshake that is taken back leaves no session. -/
theorem paseEnded_told {config : PaseVerifierConfig} {localSessionId : UInt16} {e : PaseError}
    (hd : d.phase = .waiting core) : PaseEnded c h config localSessionId
      (((do Asker.telling paseFailure; throw e :
          ExceptT PaseError (Asker Message Answer) PaseSession)).run.meet
        (paseServe c h responderRandom y) d) := by
  obtain ⟨a, d', e', hserve, hphase⟩ := paseServe_failure c h responderRandom y hd
  rw [Asker.meet_of_ok (Asker.meet_telling paseFailure), Asker.meet_throw, hserve]
  exact paseEnded_error fun r hr => by cases hphase.symm.trans hr

/-- The shares and the confirmations of a handshake. -/
theorem paseEnded_pasePakes {config : PaseVerifierConfig} {localSessionId : UInt16}
    {resp : PbkdfParamResponse} {req respPayload : Bytes} {context : Fixed 32} (passcode : UInt32)
    (x : K) (hid : resp.responderSessionId = config.responderSessionId)
    (hcontext : pakeContext h req respPayload = context)
    (hd : d.phase = .waiting ⟨config, .awaitPake1 context localSessionId⟩) :
    PaseEnded c h config localSessionId
      ((pasePakes c h passcode req respPayload resp localSessionId x).run.meet
        (paseServe c h responderRandom y) d) := by
  have hwaiting : ∀ {d : PaseDriver K} {core : PaseResponderCore}, d.phase = .waiting core →
      ∀ r, d.phase ≠ .established r := fun hd r hr => by cases hd.symm.trans hr
  rw [pasePakes]
  generalize hw : deriveW0W1 K h passcode resp.salt resp.iterations = w
  rcases hpA : Prover.pA c ⟨w.1, w.2, x⟩ with e | pA
  · rw [Asker.meet_given_error (by rfl)]
    exact paseEnded_error (hwaiting hd)
  rw [Asker.meet_given_ok (by rfl)]
  rcases paseServe_share c h responderRandom y pA hd with
    ⟨d', e, hserve, hphase⟩ | ⟨d', verifier, pB, shared', hserve, hphase, -, hpB, hverifier⟩
  · rw [Asker.meet_of_ok (meet_paseAsk hserve), Asker.meet_given_error (expectOpcode_failure _ (by decide))]
    exact paseEnded_error fun r hr => by cases hphase.symm.trans hr
  rw [Asker.meet_of_ok (meet_paseAsk hserve), Asker.meet_given_ok (expectOpcode_self ..),
    decode_encodePake2, Asker.meet_given_ok (by rfl), hcontext]
  rcases hprover : Prover.finish c h.pake ⟨w.1, w.2, x⟩ pB.1 context.1 [] [] with e | shared
  · rw [Asker.meet_given_error (by rfl)]
    exact paseEnded_error (hwaiting hphase)
  rw [Asker.meet_given_ok (by rfl)]
  by_cases hcB : shared.expectedCB = shared'.cB
  swap
  · rw [if_pos hcB]
    exact paseEnded_told hphase
  rw [if_neg (not_not.2 hcB)]
  rcases paseServe_confirmation c h responderRandom y shared.cA hphase with ⟨-, d'', e, hserve', hphase'⟩ | ⟨hcA, d'', hserve', hphase'⟩
  · rw [Asker.meet_of_ok (meet_paseAsk hserve'), Asker.meet_given_error checkPaseStatus_failure]
    exact paseEnded_error fun r hr => by cases hphase'.symm.trans hr
  rw [Asker.meet_of_ok (meet_paseAsk hserve'), Asker.meet_given_ok checkPaseStatus_success,
    Asker.meet_pure]
  exact ⟨_, hphase', ⟨rfl, rfl⟩, hid, _, verifier, pA, pB, context, shared, shared', hpA, hprover,
    hpB, hverifier, hcA, hcB, rfl, rfl⟩

/-- **One outcome.** Whatever the secrets of the two sides are, a handshake over a channel that
delivers ends with a session on both sides or on neither. In particular an initiator that gives up
leaves no session behind on the device. -/
theorem pase_outcome (c : P256 K V) (h : Hashes) (config : PaseVerifierConfig)
    (hsalt : config.salt.length + 1000 ≤ usizeMax) (passcode : UInt32)
    (initiatorRandom responderRandom : Fixed 32) (localSessionId : UInt16) (x y : K) :
    PaseEnded c h config localSessionId
      ((paseEstablish c h passcode initiatorRandom localSessionId x).run.meet
        (paseServe c h responderRandom y) (Driver.start (.new config))) := by
  obtain ⟨d₁, hrequest, hphase⟩ := paseServe_request c h responderRandom y config
    initiatorRandom localSessionId
  rw [paseEstablish, Asker.meet_of_ok (meet_paseAsk hrequest), Asker.meet_given_ok (expectOpcode_self ..)]
  have hresp : decodePbkdfParamResponse (paseResponse responderRandom config initiatorRandom
      localSessionId) = if config.responderSessionId = 0 then
        .error "responder session id must be non-zero"
      else .ok ⟨config.responderSessionId, config.iterations, config.salt⟩ :=
    decode_encodePbkdfParamResponse config.iterations initiatorRandom responderRandom hsalt
  rw [hresp]
  split
  · rw [Asker.meet_given_error (by rfl)]
    exact paseEnded_error fun r hr => by cases hphase.symm.trans hr
  · rw [Asker.meet_given_ok (by rfl)]
    dsimp only
    cases validatePbkdfParams config.iterations config.salt.length with
    | error what => exact paseEnded_told hphase
    | ok _ => exact paseEnded_pasePakes passcode x rfl rfl hphase

/-- The secret of a responder is the passcode, or the verifier that was computed from it. -/
def PaseVerifierConfig.HoldsPasscode (c : P256 K V) (h : Hashes) (config : PaseVerifierConfig)
    (passcode : UInt32) : Prop :=
  config.secret = .passcode passcode ∨ ∃ material,
    computeVerifier c h passcode config.salt config.iterations = .ok material ∧
      config.secret = .verifierMaterial material

theorem verifier_of_holdsPasscode {config : PaseVerifierConfig} {passcode : UInt32}
    (hc : c.ReadsBack)
    (hl : (deriveW0W1 K h passcode config.salt config.iterations).2 • c.generator ≠ 0)
    (hsecret : config.HoldsPasscode c h passcode) : config.verifier c h y =
      .ok (.fromPasscode c h passcode config.salt config.iterations y) := by
  rcases hsecret with hsecret | ⟨material, hmaterial, hsecret⟩
  · rw [PaseVerifierConfig.verifier, hsecret]
  · obtain ⟨material', hmaterial', hverifier⟩ :=
      @fromVerifierMaterial_computeVerifier _ _ _ _ _ _ c h passcode config.salt config.iterations y
        hc hl
    cases hmaterial.symm.trans hmaterial'
    rw [PaseVerifierConfig.verifier, hsecret]
    simp only [hverifier, Except.mapError]

/-- **One passcode.** An initiator and a device that hold the same passcode, or the device the
verifier that was computed from it, both end with a session: with the same keys, and each with the
other's session id. The secrets and the shares are no identities. -/
theorem pase_agrees {m n : V} {config : PaseVerifierConfig} {passcode : UInt32} {w : K × K} {x y : K}
    (hc : c.ReadsBack) (hm : decodePoint c spakeM = .ok m) (hn : decodePoint c spakeN = .ok n)
    (hsecret : config.HoldsPasscode c h passcode) (hid : config.responderSessionId ≠ 0)
    (hvalid : validatePbkdfParams config.iterations config.salt.length = .ok ())
    (hw : deriveW0W1 K h passcode config.salt config.iterations = w) (hgen : c.generator ≠ 0)
    (hw1 : w.2 ≠ 0) (hx : x ≠ 0) (hy : y ≠ 0) (hshareA : x • c.generator + w.1 • m ≠ 0)
    (hshareB : y • c.generator + w.1 • n ≠ 0) (initiatorRandom responderRandom : Fixed 32)
    (localSessionId : UInt16) : ∃ keys d,
    (paseEstablish c h passcode initiatorRandom localSessionId x).run.meet
        (paseServe c h responderRandom y) (Driver.start (.new config)) =
      (.ok ⟨localSessionId, config.responderSessionId, keys⟩, d) ∧
    d.phase = .established ⟨keys, localSessionId⟩ := by
  obtain ⟨d₁, hrequest, hphase₁⟩ := paseServe_request c h responderRandom y config
    initiatorRandom localSessionId
  -- the salt of a valid configuration is short, so that the response is read
  have hsalt : config.salt.length + 1000 ≤ usizeMax := by
    have hlen : config.salt.length ≤ pbkdfSaltLenMax := by
      by_contra hlong
      simp only [validatePbkdfParams, Nat.lt_of_not_le hlong, or_true, if_true] at hvalid
      split at hvalid <;> cases hvalid
    have hmax : pbkdfSaltLenMax + 1000 ≤ usizeMax := by decide
    omega
  have hresp : decodePbkdfParamResponse (paseResponse responderRandom config initiatorRandom
      localSessionId) = .ok ⟨config.responderSessionId, config.iterations, config.salt⟩ :=
    (decode_encodePbkdfParamResponse config.iterations initiatorRandom responderRandom hsalt).trans
      (if_neg hid)
  obtain ⟨pA, pB, shared, shared', hpA, hpB, hprover, hverifier, hcA, hcB, hkE⟩ :=
    @finish_agree _ _ _ _ _ _ c h.pake m n (paseContext h responderRandom config initiatorRandom
      localSessionId).1 [] [] w.1 w.2 x y hc hm hn hgen hw1 hx hy hshareA hshareB
  subst hw
  have hl : (deriveW0W1 K h passcode config.salt config.iterations).2 • c.generator ≠ 0 :=
    smul_ne_zero hw1 hgen
  obtain ⟨d₂, hshare, hphase₂⟩ := paseServe_share_of_finish responderRandom
    hphase₁ (verifier_of_holdsPasscode hc hl hsecret) hpB hverifier
  rcases paseServe_confirmation c h responderRandom y shared.cA hphase₂ with ⟨hne, -⟩ | ⟨-, d₃, hconfirmation, hphase₃⟩
  · exact absurd hcA hne
  refine ⟨derivePaseSessionKeys h shared'.kE, d₃, ?_, hphase₃⟩
  rw [paseEstablish, Asker.meet_of_ok (meet_paseAsk hrequest), Asker.meet_given_ok (expectOpcode_self ..),
    hresp, Asker.meet_given_ok (by rfl)]
  dsimp only
  rw [hvalid]
  dsimp only
  rw [pasePakes, hpA, Asker.meet_given_ok (by rfl), Asker.meet_of_ok (meet_paseAsk hshare),
    Asker.meet_given_ok (expectOpcode_self ..), decode_encodePake2, Asker.meet_given_ok (by rfl)]
  change ((Asker.given ((Prover.finish c h.pake _ pB.1 (paseContext h responderRandom config
    initiatorRandom localSessionId).1 [] []).mapError PaseError.ofStop) >>= _ :
      ExceptT PaseError (Asker Message Answer) PaseSession)).run.meet _ _ = _
  rw [hprover, Asker.meet_given_ok (by rfl), if_neg (not_not.2 hcB),
    Asker.meet_of_ok (meet_paseAsk hconfirmation), Asker.meet_given_ok checkPaseStatus_success,
    Asker.meet_pure, hkE]

end

/-! ## A handshake -/

namespace PaseSample

open Spake2p.SampleCurve

/-- The generator, uncompressed. -/
def generatorBytes : Bytes :=
  [0x04, 0x6b, 0x17, 0xd1, 0xf2, 0xe1, 0x2c, 0x42, 0x47, 0xf8, 0xbc, 0xe6, 0xe5, 0x63, 0xa4, 0x40,
    0xf2, 0x77, 0x03, 0x7d, 0x81, 0x2d, 0xeb, 0x33, 0xa0, 0xf4, 0xa1, 0x39, 0x45, 0xd8, 0x98, 0xc2,
    0x96, 0x4f, 0xe3, 0x42, 0xe2, 0xfe, 0x1a, 0x7f, 0x9b, 0x8e, 0xe7, 0xeb, 0x4a, 0x7c, 0x0f, 0x9e,
    0x16, 0x2b, 0xce, 0x33, 0x57, 0x6b, 0x31, 0x5e, 0xce, 0xcb, 0xb6, 0x40, 0x68, 0x37, 0xbf, 0x51,
    0xf5]

/-- The bytes of the points that are encoded below. -/
def knownPoints : List (Scalar × Bytes) :=
  [(0, [0]), (1, generatorBytes), ((2 : ℕ), mBytes), ((3 : ℕ), generatorPlusM), ((5 : ℕ), nBytes),
    ((6 : ℕ), generatorPlusN)]

/-- The bytes of another point: a number, and no second coordinate. -/
def otherPoint (p : Scalar) : Bytes :=
  0x04 :: ((LittleEndian.encode 32 p.val).reverse ++ List.replicate 32 0)

theorem length_scalarBytes (k : Scalar) : (LittleEndian.encode 32 k.val).reverse.length = 32 := by
  simp

/-- The group as multiples of the generator, with an encoding that is read back. -/
def readableCurve : P256 Scalar Scalar where
  generator := 1
  fromSec1 bytes :=
    if bytes = spakeM then some (2 : ℕ) else if bytes = spakeN then some (5 : ℕ)
    else match knownPoints.find? (·.2 = bytes) with
      | some known => some known.1
      | none => some (scalarFromBeBytesModN Scalar ((bytes.drop 1).take 32))
  toSec1 p :=
    match knownPoints.find? (·.1 = p) with
    | some known => known.2
    | none => otherPoint p
  scalarBytes k := ⟨(LittleEndian.encode 32 k.val).reverse, length_scalarBytes k⟩
  toSec1_identity := rfl
  toSec1_point p hp := by
    split
    · next known hknown =>
      have hmem := List.mem_of_find?_eq_some hknown
      have hkey : known.1 = p := by simpa using List.find?_some hknown
      simp only [knownPoints, List.mem_cons, List.not_mem_nil, or_false] at hmem
      rcases hmem with rfl | rfl | rfl | rfl | rfl | rfl
      · exact absurd hkey.symm hp
      all_goals rfl
    · simp [otherPoint]

theorem scalar_scalarBytes (k : Scalar) :
    scalarFromBeBytesModN Scalar (LittleEndian.encode 32 k.val).reverse = k := by
  have hlt : k.val < 2 ^ (8 * 32) := by
    have hval := ZMod.val_lt k
    have horder : curveOrder < 2 ^ (8 * 32) := by norm_num [curveOrder]
    omega
  rw [scalarFromBeBytesModN_eq, List.reverse_reverse, LittleEndian.decode_encode hlt,
    ZMod.natCast_zmod_val]

/-- The bytes of another point are none of those that are known. -/
theorem otherPoint_unknown (p : Scalar) : knownPoints.find? (·.2 = otherPoint p) = none := by
  have hlast : (otherPoint p).getLast? = some 0 := by simp [otherPoint, List.getLast?_cons]
  have hlen : (otherPoint p).length = 65 := by simp [otherPoint]
  simp only [List.find?_eq_none, decide_eq_true_eq]
  intro known hknown heq
  simp only [knownPoints, List.mem_cons, List.not_mem_nil, or_false] at hknown
  rcases hknown with rfl | rfl | rfl | rfl | rfl | rfl
  · rw [← heq] at hlen
    cases hlen
  all_goals
    rw [← heq] at hlast
    exact absurd (Option.some.inj hlast) (by decide)

theorem toSec1_ne (p : Scalar) : readableCurve.toSec1 p ≠ spakeM ∧ readableCurve.toSec1 p ≠ spakeN := by
  have hlen : (readableCurve.toSec1 p).length ≠ 33 := by
    by_cases hp : p = 0
    · rw [hp, readableCurve.toSec1_identity]
      simp
    · rw [readableCurve.toSec1_point p hp]
      simp
  constructor
  · intro heq
    exact hlen (congrArg List.length heq)
  · intro heq
    exact hlen (congrArg List.length heq)

theorem readableCurve_readsBack : readableCurve.ReadsBack where
  fromSec1_toSec1 p := by
    have hread : readableCurve.fromSec1 (readableCurve.toSec1 p) =
        match knownPoints.find? (·.2 = readableCurve.toSec1 p) with
        | some known => some known.1
        | none => some (scalarFromBeBytesModN Scalar
            (((readableCurve.toSec1 p).drop 1).take 32)) :=
      (if_neg (toSec1_ne p).1).trans (if_neg (toSec1_ne p).2)
    rw [hread]
    rcases hknown : knownPoints.find? (·.1 = p) with _ | known
    · have hother : readableCurve.toSec1 p = otherPoint p := by
        simp only [readableCurve, hknown]
      have htake : ((otherPoint p).drop 1).take 32 = (LittleEndian.encode 32 p.val).reverse := by
        simp [otherPoint]
      rw [hother, otherPoint_unknown]
      dsimp only
      rw [htake, scalar_scalarBytes]
    · have hknown' : readableCurve.toSec1 p = known.2 := by
        simp only [readableCurve, hknown]
      have hmem := List.mem_of_find?_eq_some hknown
      have hkey : known.1 = p := by simpa using List.find?_some hknown
      rw [hknown', ← hkey]
      simp only [knownPoints, List.mem_cons, List.not_mem_nil, or_false] at hmem
      rcases hmem with rfl | rfl | rfl | rfl | rfl | rfl
      all_goals rfl
  scalar_scalarBytes := scalar_scalarBytes

theorem length_zeros (n : ℕ) : (List.replicate n (0 : UInt8)).length = n := List.length_replicate

theorem length_zeroDigest : (List.replicate 32 (0 : UInt8)).length = 32 := rfl

/-- Hash functions of which the secrets `w0` and `w1` come out as one. -/
def plainHashes : Hashes where
  sha256 _ := ⟨List.replicate 32 0, length_zeroDigest⟩
  hmac key _ := ⟨key.take 16 ++ List.replicate (32 - (key.take 16).length) 0, by simp⟩
  hkdf _ _ _ n := ⟨List.replicate n 0, length_zeros n⟩
  pbkdf2 _ _ _ n := ⟨(List.range n).map fun i => if i % 40 = 39 then 1 else 0, by simp⟩

/-- A device in its boot window. -/
def sampleConfig : PaseVerifierConfig where
  secret := .passcode 20202021
  salt := ascii "SPAKE2P Key Salt"
  iterations := 1000
  responderSessionId := 0xB0B1

theorem deriveW0W1_plainHashes (passcode : UInt32) (salt : Bytes) (iterations : UInt32) :
    deriveW0W1 Scalar plainHashes passcode salt iterations = (1, 1) := by
  have hws : (plainHashes.pbkdf2 (LittleEndian.encode 4 passcode.toNat) salt iterations 80).1 =
      (List.replicate 39 0 ++ [1]) ++ (List.replicate 39 0 ++ [1]) := rfl
  have hone : LittleEndian.decode (List.replicate 39 0 ++ [1] : Bytes).reverse = 1 := rfl
  rw [deriveW0W1, hws, List.take_left' (by rfl), List.drop_left' (by rfl), scalarFromBeBytesModN_eq,
    hone, Nat.cast_one]

theorem decodePoint_spakeM : decodePoint readableCurve spakeM = .ok 2 := by
  have h : readableCurve.fromSec1 spakeM = some 2 := by
    unfold readableCurve
    dsimp only
    rw [if_pos rfl, Nat.cast_ofNat]
  rw [decodePoint, h]
  exact if_neg (by decide)

theorem decodePoint_spakeN : decodePoint readableCurve spakeN = .ok 5 := by
  have h : readableCurve.fromSec1 spakeN = some 5 := by
    unfold readableCurve
    dsimp only
    rw [if_neg (by decide), if_pos rfl, Nat.cast_ofNat]
  rw [decodePoint, h]
  exact if_neg (by decide)

theorem shares_ne_zero : (1 : Scalar) • (1 : Scalar) + (1 : Scalar) • (2 : Scalar) ≠ 0 ∧
    (1 : Scalar) • (1 : Scalar) + (1 : Scalar) • (5 : Scalar) ≠ 0 := by
  simp only [smul_eq_mul, mul_one, one_mul]
  exact ⟨by decide, by decide⟩

theorem sampleConfig_salt : sampleConfig.salt.length = 16 := rfl

end PaseSample

open PaseSample in
/-- A handshake with the passcode of the device's boot window. -/
theorem pase_agrees_sample : ∃ keys d,
    (paseEstablish readableCurve plainHashes 20202021 ⟨List.replicate 32 9, rfl⟩ 0x0011 1).run.meet
        (paseServe readableCurve plainHashes ⟨List.replicate 32 7, rfl⟩ 1)
        (Driver.start (.new sampleConfig)) =
      (.ok ⟨0x0011, 0xB0B1, keys⟩, d) ∧ d.phase = .established ⟨keys, 0x0011⟩ := by
  have hid : sampleConfig.responderSessionId ≠ 0 := by decide
  exact pase_agrees readableCurve_readsBack PaseSample.decodePoint_spakeM
    PaseSample.decodePoint_spakeN (.inl rfl) hid rfl (deriveW0W1_plainHashes ..) one_ne_zero
    one_ne_zero one_ne_zero one_ne_zero shares_ne_zero.1 shares_ne_zero.2 _ _ _

open PaseSample in
/-- A handshake with another passcode ends on both sides alike. -/
theorem pase_outcome_sample : PaseEnded readableCurve plainHashes sampleConfig 0x0011
    ((paseEstablish readableCurve plainHashes 20202022 ⟨List.replicate 32 9, rfl⟩ 0x0011 1).run.meet
      (paseServe readableCurve plainHashes ⟨List.replicate 32 7, rfl⟩ 1)
      (Driver.start (.new sampleConfig))) := by
  have hsalt : sampleConfig.salt.length + 1000 ≤ usizeMax := by
    rw [sampleConfig_salt]
    decide
  exact pase_outcome readableCurve plainHashes sampleConfig hsalt 20202022 _ _ 0x0011 1 1

end MatStack
