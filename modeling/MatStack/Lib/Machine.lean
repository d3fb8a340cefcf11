import Mathlib.Algebra.Group.Nat.Defs
import Mathlib.Data.List.Basic

/-!
# Machines and their runs

A machine is a step function from a state and an event to the next state; whatever the
environment decides (a clock reading, the outcome of a write, a peer's bytes) is part of the
event, so a machine is deterministic in its events and a run is a list of them. Most systems keep
an invariant only while their environment keeps its side: `Along` says that every step of a run
meets a condition on the state before it and the event, and `run_invariant` is the induction that
every safety result of this development goes through.
-/

namespace Machine

section
variable {σ ι : Type*} (step : σ → ι → σ) (G : σ → ι → Prop)

/-- The state after a list of events. -/
def run (s : σ) (es : List ι) : σ := es.foldl step s

@[simp] theorem run_nil (s : σ) : run step s [] = s := rfl

@[simp] theorem run_cons (s : σ) (e : ι) (es : List ι) :
    run step s (e :: es) = run step (step s e) es := rfl

@[simp] theorem run_append (s : σ) (es fs : List ι) :
    run step s (es ++ fs) = run step (run step s es) fs := List.foldl_append ..

/-- Every step of the run meets the condition `G`. -/
def Along : σ → List ι → Prop
  | _, [] => True
  | s, e :: es => G s e ∧ Along (step s e) es

instance Along.decidable [∀ s e, Decidable (G s e)] :
    ∀ (s : σ) (es : List ι), Decidable (Along step G s es)
  | _, [] => inferInstanceAs (Decidable True)
  | s, e :: es =>
    have := Along.decidable (step s e) es
    inferInstanceAs (Decidable (_ ∧ _))

end

section
variable {σ ι : Type*} {step : σ → ι → σ} {G : σ → ι → Prop} {s : σ} {es fs : List ι}

@[simp] theorem along_nil : Along step G s [] := trivial

@[simp] theorem along_cons {e : ι} :
    Along step G s (e :: es) ↔ G s e ∧ Along step G (step s e) es := Iff.rfl

/-- A run meets a condition when its two halves do. -/
@[simp] theorem along_append :
    Along step G s (es ++ fs) ↔ Along step G s es ∧ Along step G (run step s es) fs := by
  induction es generalizing s with
  | nil => simp
  | cons e es ih => rw [List.cons_append, along_cons, ih, along_cons, run_cons, and_assoc]

/-- `Along` read as a statement about the places of the run. -/
theorem along_iff :
    Along step G s es ↔ ∀ pre e post, es = pre ++ e :: post → G (run step s pre) e := by
  constructor
  · rintro h pre e post rfl
    exact (along_append.1 h).2.1
  · intro h
    induction es generalizing s with
    | nil => trivial
    | cons e es ih =>
      refine ⟨h [] e es rfl, ih fun pre f post hes => ?_⟩
      rw [← run_cons]
      exact h (e :: pre) f post (by rw [hes, List.cons_append])

/-- A weaker condition is met along the same run. -/
theorem Along.mono {H : σ → ι → Prop} (h : Along step G s es) (hGH : ∀ s e, G s e → H s e) :
    Along step H s es :=
  along_iff.2 fun pre e post hes => hGH _ _ (along_iff.1 h pre e post hes)

/-- Two conditions met along a run are met together. -/
theorem Along.and {H : σ → ι → Prop} (h : Along step G s es) (h' : Along step H s es) :
    Along step (fun s e => G s e ∧ H s e) s es :=
  along_iff.2 fun pre e post hes => ⟨along_iff.1 h pre e post hes, along_iff.1 h' pre e post hes⟩

/-- **Invariants.** What holds at the start and is kept by every step that meets the condition
holds after every run along which the condition is met. -/
theorem run_invariant {I : σ → Prop} (h₀ : I s) (hstep : ∀ s e, I s → G s e → I (step s e))
    (h : Along step G s es) : I (run step s es) := by
  induction es generalizing s with
  | nil => exact h₀
  | cons e es ih => exact ih (hstep s e h₀ h.1) h.2

/-- **Unconditional invariants.** What holds at the start and is kept by every step holds after
every run. -/
theorem invariant {I : σ → Prop} (h₀ : I s) (hstep : ∀ s e, I s → I (step s e)) (es : List ι) :
    I (run step s es) :=
  run_invariant (G := fun _ _ => True) h₀ (fun s e hs _ => hstep s e hs)
    (along_iff.2 fun _ _ _ _ => trivial)

/-- **Exact conditions.** An invariant is kept by the steps that meet a condition, and gives a
property of the states of a run; a step that does not meet the condition spoils the property. Then
the property holds in every state of the run exactly when every step meets the condition. -/
theorem forall_prefix_iff_along {I P : σ → Prop} (h₀ : I s)
    (hstep : ∀ s e, I s → G s e → I (step s e)) (hspoil : ∀ s e, I s → P (step s e) → G s e)
    (hP : ∀ pre post, es = pre ++ post → I (run step s pre) → P (run step s pre)) :
    (∀ pre post, es = pre ++ post → P (run step s pre)) ↔ Along step G s es := by
  constructor
  · intro h
    clear hP
    induction es generalizing s with
    | nil => trivial
    | cons e es ih =>
      have hg : G s e := hspoil s e h₀ (h [e] es rfl)
      refine ⟨hg, ih (hstep s e h₀ hg) fun pre post hes => ?_⟩
      exact h (e :: pre) post (by rw [hes, List.cons_append])
  · rintro h pre post rfl
    exact hP pre post rfl (run_invariant h₀ hstep (along_append.1 h).1)

/-- **Simulation.** Two machines that keep a relation step by step keep it along runs. -/
theorem run_simulation {τ κ : Type*} {step' : τ → κ → τ} {R : σ → τ → Prop} {t : τ} (f : ι → κ)
    (h₀ : R s t) (hstep : ∀ s t e, R s t → G s e → R (step s e) (step' t (f e)))
    (h : Along step G s es) : R (run step s es) (run step' t (es.map f)) := by
  induction es generalizing s t with
  | nil => exact h₀
  | cons e es ih => exact ih (hstep s t e h₀ h.1) h.2

end

end Machine
