import MatStack.Lib.Machine

/-!
# Dialogues

A handshake has two sides. The side that starts is a straight program: it sends a message, waits for
what comes back and goes on with it. An `Asker` is such a program as the tree of what it may say,
and a program that may give up is an `ExceptT` over it; `meet` runs it against whoever answers. The
other side is a machine that takes one message at a time. A `Driver` feeds it: it sends the answers,
and stops as soon as the machine is established or rejects a message. What a driver heard is a
sequence of messages that were answered, and possibly a last one (`Driver.heard_run`).
-/

namespace Dialogue

/-! ## The side that asks -/

/-- A program that sends messages. -/
inductive Asker (μ ρ α : Type) where
  | done (a : α)
  /-- Sends a message that is not answered. -/
  | tell (m : μ) (rest : Asker μ ρ α)
  /-- Sends a message and goes on with the answer. -/
  | ask (m : μ) (next : ρ → Asker μ ρ α)

namespace Asker

variable {μ ρ σ ε α β : Type}

def bind : Asker μ ρ α → (α → Asker μ ρ β) → Asker μ ρ β
  | done a, f => f a
  | tell m rest, f => tell m (rest.bind f)
  | ask m next, f => ask m fun r => (next r).bind f

instance : Monad (Asker μ ρ) where
  pure := done
  bind := bind

/-- A program against a server that keeps a state. -/
def meet (serve : σ → μ → ρ × σ) : Asker μ ρ α → σ → α × σ
  | done a, s => (a, s)
  | tell m rest, s => rest.meet serve (serve s m).2
  | ask m next, s => (next (serve s m).1).meet serve (serve s m).2

/-- Says a message that is not answered. -/
def telling (m : μ) : ExceptT ε (Asker μ ρ) Unit := ExceptT.mk (tell m (done (.ok ())))

/-- Asks and returns the answer. -/
def asking (m : μ) : ExceptT ε (Asker μ ρ) ρ := ExceptT.mk (ask m fun r => done (.ok r))

/-- The result of a computation that sends nothing. -/
def given (x : Except ε α) : ExceptT ε (Asker μ ρ) α := ExceptT.mk (done x)

section
variable {serve : σ → μ → ρ × σ} {s s' : σ} {a : α} {e : ε}

@[simp] theorem meet_bind (x : Asker μ ρ α) (f : α → Asker μ ρ β) :
    (x.bind f).meet serve s = (f (x.meet serve s).1).meet serve (x.meet serve s).2 := by
  induction x generalizing s with
  | done a => rfl
  | tell m rest ih => exact ih
  | ask m next ih => exact ih _

/-- A program goes on with what its first part returns. -/
theorem meet_of_ok {x : ExceptT ε (Asker μ ρ) α} {f : α → ExceptT ε (Asker μ ρ) β}
    (h : x.run.meet serve s = (.ok a, s')) :
    (x >>= f).run.meet serve s = (f a).run.meet serve s' := by
  have hbind : (x >>= f).run = x.run.bind (ExceptT.bindCont f) := rfl
  rw [hbind, meet_bind, h]
  rfl

/-- A program that gives up says no more. -/
theorem meet_of_error {x : ExceptT ε (Asker μ ρ) α} {f : α → ExceptT ε (Asker μ ρ) β}
    (h : x.run.meet serve s = (.error e, s')) :
    (x >>= f).run.meet serve s = (.error e, s') := by
  have hbind : (x >>= f).run = x.run.bind (ExceptT.bindCont f) := rfl
  rw [hbind, meet_bind, h]
  rfl

theorem meet_asking (m : μ) :
    (asking (ε := ε) m).run.meet serve s = (.ok (serve s m).1, (serve s m).2) := rfl

theorem meet_telling (m : μ) :
    (telling (ε := ε) m).run.meet serve s = (.ok (), (serve s m).2) := rfl

theorem meet_given (x : Except ε α) : (given x).run.meet serve s = (x, s) := rfl

/-- A computation that fails ends a program where it is. -/
theorem meet_given_error {x : Except ε α} {f : α → ExceptT ε (Asker μ ρ) β} (hx : x = .error e) :
    (given x >>= f).run.meet serve s = (.error e, s) :=
  meet_of_error (by rw [meet_given, hx])

theorem meet_given_ok {x : Except ε α} {f : α → ExceptT ε (Asker μ ρ) β} (hx : x = .ok a) :
    (given x >>= f).run.meet serve s = (f a).run.meet serve s :=
  meet_of_ok (by rw [meet_given, hx])

theorem meet_pure : (pure a : ExceptT ε (Asker μ ρ) α).run.meet serve s = (.ok a, s) := rfl

theorem meet_throw : (throw e : ExceptT ε (Asker μ ρ) α).run.meet serve s = (.error e, s) := rfl

end

end Asker

/-! ## The side that answers -/

/-- What a machine makes of a message it accepts: an answer, or the last answer and what it
established. -/
inductive Output (μ δ : Type) where
  | reply (m : μ)
  | established (m : μ) (d : δ)

/-- Where a driver is: the machine waits for a message, or the dialogue is at its end. -/
inductive Phase (κ ε δ : Type) where
  | waiting (core : κ)
  | established (d : δ)
  | rejected (e : ε)

/-- A machine under its driver, and the messages it was fed with what came of each. -/
structure Driver (κ ι μ ε δ : Type) where
  phase : Phase κ ε δ
  heard : List (ι × Except ε (Output μ δ))

namespace Driver

variable {κ ι μ ε δ : Type}

def start (core : κ) : Driver κ ι μ ε δ := ⟨.waiting core, []⟩

/-- Feeds a message to the machine: the answer to send, if the dialogue is not over. `failure` is
the answer to a rejected message. -/
def feed (step : κ → ι → Except ε (Output μ δ) × κ) (failure : ε → μ) (d : Driver κ ι μ ε δ) (i : ι) :
    Option μ × Driver κ ι μ ε δ :=
  match d.phase with
  | .waiting core =>
    match step core i with
    | (.error e, _) => (some (failure e), ⟨.rejected e, d.heard ++ [(i, .error e)]⟩)
    | (.ok (.reply m), core) =>
      (some m, ⟨.waiting core, d.heard ++ [(i, .ok (.reply m))]⟩)
    | (.ok (.established m r), _) =>
      (some m, ⟨.established r, d.heard ++ [(i, .ok (.established m r))]⟩)
  | _ => (none, d)

/-- The driver after a sequence of messages. -/
def drive (step : κ → ι → Except ε (Output μ δ) × κ) (failure : ε → μ) (core : κ) (is : List ι) :
    Driver κ ι μ ε δ :=
  Machine.run (fun d i => (feed step failure d i).2) (start core) is

/-- Messages that were answered one after the other. -/
inductive Replied (step : κ → ι → Except ε (Output μ δ) × κ) :
    κ → List (ι × Except ε (Output μ δ)) → κ → Prop
  | nil (core : κ) : Replied step core [] core
  | snoc {core core₁ core₂ : κ} {i : ι} {m : μ} {heard : List (ι × Except ε (Output μ δ))} :
    Replied step core heard core₁ → step core₁ i = (.ok (.reply m), core₂) →
      Replied step core (heard ++ [(i, .ok (.reply m))]) core₂

/-- What was heard, by the phase: answered messages, and at the end of a dialogue one more. -/
def Heard (step : κ → ι → Except ε (Output μ δ) × κ) (core : κ) (d : Driver κ ι μ ε δ) : Prop :=
  match d.phase with
  | .waiting core' => Replied step core d.heard core'
  | .established r =>
    ∃ pre core' i m core'', Replied step core pre core' ∧
      step core' i = (.ok (.established m r), core'') ∧ d.heard = pre ++ [(i, .ok (.established m r))]
  | .rejected e =>
    ∃ pre core' i core'', Replied step core pre core' ∧ step core' i = (.error e, core'') ∧
      d.heard = pre ++ [(i, .error e)]

section
variable {step : κ → ι → Except ε (Output μ δ) × κ} {failure : ε → μ} {core core' core'' : κ}
  {d : Driver κ ι μ ε δ} {i : ι} {m : μ} {r : δ} {e : ε}

theorem feed_reply (hd : d.phase = .waiting core) (h : step core i = (.ok (.reply m), core')) :
    d.feed step failure i = (some m, ⟨.waiting core', d.heard ++ [(i, .ok (.reply m))]⟩) := by
  rw [feed, hd]
  dsimp only
  rw [h]

theorem feed_established (hd : d.phase = .waiting core)
    (h : step core i = (.ok (.established m r), core')) :
    d.feed step failure i =
      (some m, ⟨.established r, d.heard ++ [(i, .ok (.established m r))]⟩) := by
  rw [feed, hd]
  dsimp only
  rw [h]

theorem feed_rejected (hd : d.phase = .waiting core) (h : step core i = (.error e, core')) :
    d.feed step failure i =
      (some (failure e), ⟨.rejected e, d.heard ++ [(i, .error e)]⟩) := by
  rw [feed, hd]
  dsimp only
  rw [h]

/-- What holds at the start, of no messages, and is kept by a message that is answered. -/
theorem Replied.invariant {I : List ι → κ → Prop} {heard : List (ι × Except ε (Output μ δ))}
    (hstart : I [] core)
    (hkeep : ∀ pre core i m core', I pre core → step core i = (.ok (.reply m), core') →
      I (pre ++ [i]) core')
    (h : Replied step core heard core') : I (heard.map (·.1)) core' := by
  induction h with
  | nil => exact hstart
  | snoc _ hstep ih =>
    rw [List.map_append]
    exact hkeep _ _ _ _ _ ih hstep

/-- A message keeps the shape of what was heard. -/
theorem Heard.feed (h : Heard step core d) : Heard step core (d.feed step failure i).2 := by
  obtain ⟨phase, heard⟩ := d
  cases phase with
  | waiting core' =>
    rcases hstep : step core' i with ⟨result, core''⟩
    cases result with
    | error e =>
      rw [feed_rejected rfl hstep]
      exact ⟨heard, core', i, core'', h, hstep, rfl⟩
    | ok output =>
      cases output with
      | reply m =>
        rw [feed_reply rfl hstep]
        exact Replied.snoc h hstep
      | established m r =>
        rw [feed_established rfl hstep]
        exact ⟨heard, core', i, m, core'', h, hstep, rfl⟩
  | established r => exact h
  | rejected e => exact h

/-- **What a driver hears.** After any messages a driver has heard a sequence of answered ones and,
if the dialogue is over, one more, which ended it. -/
theorem heard_run (is : List ι) : Heard step core (drive step failure core is) := by
  have hstart : Heard step core (start core) := Replied.nil core
  exact Machine.invariant hstart (fun _ _ => Heard.feed) is

/-- **What establishes.** A dialogue is established by a message that comes after answered ones,
which keep what holds of the machine. -/
theorem established_of_invariant {I : List ι → κ → Prop} {is : List ι} (hstart : I [] core)
    (hkeep : ∀ pre core i m core', I pre core → step core i = (.ok (.reply m), core') →
      I (pre ++ [i]) core')
    (hd : (drive step failure core is).phase = .established r) : ∃ pre core' i m core'',
      I pre core' ∧ step core' i = (.ok (.established m r), core'') ∧
        (drive step failure core is).heard.map (·.1) = pre ++ [i] := by
  have hheard : Heard step core (drive step failure core is) := heard_run is
  rw [Heard, hd] at hheard
  obtain ⟨pre, core', i, m, core'', hreplied, hstep, hall⟩ := hheard
  refine ⟨pre.map (·.1), core', i, m, core'', hreplied.invariant hstart hkeep, hstep, ?_⟩
  rw [hall, List.map_append]
  rfl

end

end Driver

end Dialogue
