import MatStack.Lib.Machine

/-!
# What a run shows

A step of a machine may show something to those who watch it; what a run shows, in order, is its
`trace`. A property of traces is proved together with an invariant of the state, step by step
(`trace_invariant`). Two ways to speak of a trace: every item has a property of those before it
(`EachAfter`), and an item of one kind has come since the last of another kind (`Since`).
-/

namespace Machine

section
variable {σ ι ω : Type*} (step : σ → ι → σ) (out : σ → ι → List ω)

/-- What a run shows. -/
def trace : σ → List ι → List ω
  | _, [] => []
  | s, e :: es => out s e ++ trace (step s e) es

variable {step out} {G : σ → ι → Prop} {s : σ} {es fs : List ι}

@[simp] theorem trace_nil : trace step out s [] = [] := rfl

@[simp] theorem trace_cons {e : ι} :
    trace step out s (e :: es) = out s e ++ trace step out (step s e) es := rfl

@[simp] theorem trace_append :
    trace step out s (es ++ fs) = trace step out s es ++ trace step out (run step s es) fs := by
  induction es generalizing s with
  | nil => rfl
  | cons e es ih => rw [List.cons_append, trace_cons, ih, trace_cons, run_cons, List.append_assoc]

/-- **Invariants of traces.** What holds of the start and the empty trace, and is kept when a step
that meets the condition adds what it shows, holds of every run along which the condition is met. -/
theorem trace_run_invariant {I : σ → List ω → Prop} (h₀ : I s [])
    (hstep : ∀ s h e, I s h → G s e → I (step s e) (h ++ out s e)) (h : Along step G s es) :
    I (run step s es) (trace step out s es) := by
  suffices H : ∀ t, I s t → I (run step s es) (t ++ trace step out s es) from H [] h₀
  clear h₀
  induction es generalizing s with
  | nil =>
    intro t ht
    rwa [trace_nil, List.append_nil]
  | cons e es ih =>
    intro t ht
    rw [trace_cons, ← List.append_assoc]
    exact ih h.2 _ (hstep s t e ht h.1)

/-- **Unconditional invariants of traces.** -/
theorem trace_invariant {I : σ → List ω → Prop} (h₀ : I s [])
    (hstep : ∀ s h e, I s h → I (step s e) (h ++ out s e)) (es : List ι) :
    I (run step s es) (trace step out s es) :=
  trace_run_invariant (G := fun _ _ => True) h₀ (fun s h e hs _ => hstep s h e hs)
    (along_iff.2 fun _ _ _ _ => trivial)

end

section
variable {ω : Type*} {P : List ω → ω → Prop} {p q r : ω → Prop} {h : List ω} {o : ω}

/-- Every item has the property `P` of the items before it. -/
def EachAfter (P : List ω → ω → Prop) (h : List ω) : Prop :=
  ∀ pre o post, h = pre ++ o :: post → P pre o

theorem eachAfter_nil : EachAfter P [] := by
  intro pre o post h
  cases pre <;> cases h

theorem eachAfter_concat : EachAfter P (h ++ [o]) ↔ EachAfter P h ∧ P h o := by
  constructor
  · intro hall
    refine ⟨?_, hall h o [] rfl⟩
    rintro pre x post rfl
    exact hall pre x (post ++ [o]) (by simp)
  · rintro ⟨hall, ho⟩ pre x post heq
    rcases List.eq_nil_or_concat post with rfl | ⟨post, y, rfl⟩
    · obtain ⟨rfl, hx⟩ := List.append_inj' heq rfl
      cases hx
      exact ho
    · rw [List.concat_eq_append, ← List.cons_append, ← List.append_assoc] at heq
      exact hall pre x post (List.append_inj' heq rfl).1

/-- Items that may come at any time. -/
theorem EachAfter.append {os : List ω} (hall : EachAfter P h) (hos : ∀ x ∈ os, ∀ t, P t x) :
    EachAfter P (h ++ os) := by
  induction os generalizing h with
  | nil => rwa [List.append_nil]
  | cons x os ih =>
    rw [List.append_cons]
    exact ih (eachAfter_concat.2 ⟨hall, hos x List.mem_cons_self h⟩)
      fun y hy => hos y (List.mem_cons_of_mem x hy)

/-- An item of kind `p` has come since the last item of kind `q`. -/
def Since (p q : ω → Prop) (h : List ω) : Prop :=
  ∃ pre o post, h = pre ++ o :: post ∧ p o ∧ ∀ x ∈ post, ¬q x

@[simp] theorem not_since_nil : ¬Since p q ([] : List ω) := by
  rintro ⟨pre, o, post, h, -⟩
  cases pre <;> cases h

@[simp] theorem since_concat : Since p q (h ++ [o]) ↔ p o ∨ ¬q o ∧ Since p q h := by
  constructor
  · rintro ⟨pre, x, post, heq, hx, hpost⟩
    rcases List.eq_nil_or_concat post with rfl | ⟨post, y, rfl⟩
    · obtain ⟨-, hy⟩ := List.append_inj' heq rfl
      cases hy
      exact .inl hx
    · rw [List.concat_eq_append] at heq hpost
      rw [← List.cons_append, ← List.append_assoc] at heq
      obtain ⟨rfl, hy⟩ := List.append_inj' heq rfl
      cases hy
      exact .inr ⟨hpost _ (by simp), pre, x, post, rfl, hx, fun z hz => hpost z (by simp [hz])⟩
  · rintro (ho | ⟨ho, pre, x, post, rfl, hx, hpost⟩)
    · exact ⟨h, o, [], rfl, ho, by simp⟩
    · refine ⟨pre, x, post ++ [o], by simp, hx, ?_⟩
      simpa [or_imp, forall_and] using ⟨hpost, ho⟩

/-- What has come since the last `q`, and no `r` has, has come since the last of either. -/
theorem Since.of_not (hs : Since p q h) (hr : ¬Since r q h) : Since p (fun o => q o ∨ r o) h := by
  obtain ⟨pre, x, post, rfl, hx, hpost⟩ := hs
  refine ⟨pre, x, post, rfl, hx, fun y hy => not_or_intro (hpost y hy) fun hry => hr ?_⟩
  obtain ⟨u, v, rfl⟩ := List.append_of_mem hy
  exact ⟨pre ++ x :: u, y, v, by simp, hry, fun z hz => hpost z (by simp [hz])⟩

/-- Since the last of a wider kind is since the last of a narrower one. -/
theorem Since.mono (hs : Since p q h) (hqr : ∀ o, r o → q o) : Since p r h := by
  obtain ⟨pre, x, post, heq, hx, hpost⟩ := hs
  exact ⟨pre, x, post, heq, hx, fun y hy hry => hpost y hy (hqr y hry)⟩

end

end Machine
