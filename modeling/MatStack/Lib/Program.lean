import MatStack.Lib.Machine

/-!
# Programs that may be cut off

A command that works on remote parties is a straight program that asks its surroundings one question
after another: a file, a random source, a device. Its surroundings have a state, and what they make
of a question is decided from outside (a reply may be lost, a file may not open), so a run of the
program is a list of such decisions; a process that dies is a list that ends early. `Keeps` is the
weakest precondition of a program under which an invariant of the surroundings holds after every
answer, so that it does not matter where the process dies, and a postcondition holds at the end. In
a `System` processes are started one after the other; `invariant_of_keeps` is the rule for all that
they may do.
-/

/-- A program that returns or asks a question and goes on with the answer. -/
inductive Program (κ : Type) (ρ : κ → Type) (α : Type) where
  | done (a : α)
  | ask (q : κ) (next : ρ q → Program κ ρ α)

namespace Program

variable {κ : Type} {ρ : κ → Type} {σ ι π ε α β : Type}

def bind : Program κ ρ α → (α → Program κ ρ β) → Program κ ρ β
  | done a, f => f a
  | ask q next, f => ask q fun r => (next r).bind f

instance : Monad (Program κ ρ) where
  pure := done
  bind := bind

/-- Asks a question; the answer may be a failure. -/
def asked {ρ : κ → Type} (q : κ) (e : ρ q → Except ε α) : ExceptT ε (Program κ ρ) α :=
  ExceptT.mk (ask q fun r => done (e r))

/-- A program that does not fail, among those that may. -/
def lifted (p : Program κ ρ α) : ExceptT ε (Program κ ρ) α :=
  ExceptT.mk (p.bind fun a => done (.ok a))

/-- A step that asks nothing, and may fail. -/
def decided (x : Except ε α) : ExceptT ε (Program κ ρ) α := ExceptT.mk (done x)

/-- The same program, with other failures. -/
def mapFailure {ε' : Type} (f : ε → ε') (x : ExceptT ε (Program κ ρ) α) :
    ExceptT ε' (Program κ ρ) α :=
  ExceptT.mk (x.run.bind fun r => done (r.mapError f))

/-- The same program, which asks its questions as questions of another kind. -/
def embed {κ' : Type} {ρ' : κ' → Type} (f : κ → κ') (g : ∀ q, ρ' (f q) → ρ q) :
    Program κ ρ α → Program κ' ρ' α
  | done a => done a
  | ask q next => ask (f q) fun r => (next (g q r)).embed f g

/-- What the program returned, if it is at its end. -/
def result? : Program κ ρ α → Option α
  | done a => some a
  | ask _ _ => none

/-! ## Runs -/

section
variable (serve : σ → (q : κ) → ι → ρ q × σ)

/-- The program after an answer, which `i` decides. -/
def next : Program κ ρ α × σ → ι → Program κ ρ α × σ
  | (done a, s), _ => (done a, s)
  | (ask q rest, s), i => (rest (serve s q i).1, (serve s q i).2)

/-- Under decisions that meet `G`, the state keeps `I` at every answer, and the end meets `post`. -/
def Keeps (G : κ → ι → Prop) (I : σ → Prop) : Program κ ρ α → (α → σ → Prop) → σ → Prop
  | done a, post, s => post a s
  | ask q rest, post, s => ∀ i, G q i →
      I (serve s q i).2 ∧ Keeps G I (rest (serve s q i).1) post (serve s q i).2

/-- What is decided about the question at hand meets `G`. -/
def Decided (G : κ → ι → Prop) : Program κ ρ α × σ → ι → Prop
  | (done _, _), _ => True
  | (ask q _, _), i => G q i

/-- A condition on results and one on failures. -/
def Ends (ok : α → σ → Prop) (err : ε → σ → Prop) : Except ε α → σ → Prop
  | .ok a => ok a
  | .error e => err e

/-- A program that may fail keeps `I`, and what it returns meets `ok`. -/
def Returns (G : κ → ι → Prop) (I : σ → Prop) (x : ExceptT ε (Program κ ρ) α)
    (ok : α → σ → Prop) : σ → Prop :=
  Keeps serve G I x.run (Ends ok fun _ _ => True)

end

section
variable {serve : σ → (q : κ) → ι → ρ q × σ} {G : κ → ι → Prop} {I : σ → Prop} {s : σ}
  {post post' : α → σ → Prop} {p : Program κ ρ α}

theorem Keeps.mono (h : Keeps serve G I p post s) (hpost : ∀ a s, post a s → post' a s) :
    Keeps serve G I p post' s := by
  induction p generalizing s with
  | done a => exact hpost a s h
  | ask q rest ih => exact fun i hi => ⟨(h i hi).1, ih _ (h i hi).2⟩

theorem keeps_bind {f : α → Program κ ρ β} {post : β → σ → Prop} :
    Keeps serve G I (p.bind f) post s ↔
      Keeps serve G I p (fun a s => Keeps serve G I (f a) post s) s := by
  induction p generalizing s with
  | done a => exact Iff.rfl
  | ask q rest ih => exact forall₂_congr fun i _ => and_congr_right fun _ => ih _

/-- A program that may fail goes on with its result, or ends with its failure. -/
theorem keeps_bindExcept {x : ExceptT ε (Program κ ρ) α} {f : α → ExceptT ε (Program κ ρ) β}
    {post : Except ε β → σ → Prop} :
    Keeps serve G I (x >>= f).run post s ↔
      Keeps serve G I x.run (Ends (fun a => Keeps serve G I (f a).run post)
        fun e => post (.error e)) s := by
  have hbind : (x >>= f).run = x.run.bind (ExceptT.bindCont f) := rfl
  rw [hbind, keeps_bind]
  refine ⟨fun h => h.mono ?_, fun h => h.mono ?_⟩
  all_goals
    rintro (e | a) s hs
    · exact hs
    · exact hs

theorem keeps_asked {q : κ} {e : ρ q → Except ε α} {post : Except ε α → σ → Prop} :
    Keeps serve G I (asked q e).run post s ↔
      ∀ i, G q i → I (serve s q i).2 ∧ post (e (serve s q i).1) (serve s q i).2 := Iff.rfl

/-- A question, and what is done with its answer. -/
theorem keeps_askedBind {q : κ} {e : ρ q → Except ε α} {f : α → ExceptT ε (Program κ ρ) β}
    {post : Except ε β → σ → Prop} :
    Keeps serve G I (asked q e >>= f).run post s ↔
      ∀ i, G q i → I (serve s q i).2 ∧ Ends (fun a => Keeps serve G I (f a).run post)
        (fun e => post (.error e)) (e (serve s q i).1) (serve s q i).2 :=
  keeps_bindExcept.trans keeps_asked

theorem keeps_lifted {post : Except ε α → σ → Prop} :
    Keeps serve G I (lifted p).run post s ↔ Keeps serve G I p (fun a => post (.ok a)) s :=
  keeps_bind

/-- A step that asks nothing, and what is done with its result. -/
theorem keeps_decidedBind {x : Except ε α} {f : α → ExceptT ε (Program κ ρ) β}
    {post : Except ε β → σ → Prop} :
    Keeps serve G I (decided x >>= f).run post s ↔
      Ends (fun a => Keeps serve G I (f a).run post) (fun e => post (.error e)) x s :=
  keeps_bindExcept

theorem keeps_mapFailure {ε' : Type} {f : ε → ε'} {x : ExceptT ε (Program κ ρ) α}
    {post : Except ε' α → σ → Prop} :
    Keeps serve G I (mapFailure f x).run post s ↔
      Keeps serve G I x.run (fun r => post (r.mapError f)) s :=
  keeps_bind

/-- What a program keeps, it keeps where its questions are asked as others: the surroundings there
answer as some surroundings of its own would, and the two stay related. -/
theorem Keeps.embed {κ' τ ι' : Type} {ρ' : κ' → Type} {f : κ → κ'} {g : ∀ q, ρ' (f q) → ρ q}
    {serve' : τ → (q : κ') → ι' → ρ' q × τ} {G' : κ' → ι' → Prop} {I' : τ → Prop}
    {post' : α → τ → Prop} {t : τ} (R : σ → τ → Prop) (h : Keeps serve G I p post s)
    (hserve : ∀ s t q i, R s t → ∃ j, G q j ∧ (serve s q j).1 = g q (serve' t (f q) i).1 ∧
      R (serve s q j).2 (serve' t (f q) i).2)
    (hI : ∀ s t, R s t → I' t) (hpost : ∀ a s t, post a s → R s t → post' a t) (hR : R s t) :
    Keeps serve' G' I' (p.embed f g) post' t := by
  induction p generalizing s t with
  | done a => exact hpost a s t h hR
  | ask q rest ih =>
    intro i _
    obtain ⟨j, hj, hanswer, hnext⟩ := hserve s t q i hR
    have hrest := ih _ (h j hj).2 hnext
    rw [hanswer] at hrest
    exact ⟨hI _ _ hnext, hrest⟩

/-- A weaker invariant is kept, under fewer decisions. -/
theorem Keeps.imp {G' : κ → ι → Prop} {I' : σ → Prop} (h : Keeps serve G I p post s)
    (hG : ∀ q i, G' q i → G q i) (hI : ∀ s, I s → I' s) : Keeps serve G' I' p post s := by
  induction p generalizing s with
  | done a => exact h
  | ask q rest ih =>
    intro i hi
    obtain ⟨hI', hrest⟩ := h i (hG q i hi)
    exact ⟨hI _ hI', ih _ hrest⟩

/-! ### Programs that return -/

/-- Where a program stands after an answer. -/
theorem Keeps.next (h : Keeps serve G I p post s) (hs : I s) {i : ι}
    (hi : Decided G (p, s) i) : I (Program.next serve (p, s) i).2 ∧
      Keeps serve G I (Program.next serve (p, s) i).1 post (Program.next serve (p, s) i).2 := by
  cases p with
  | done a => exact ⟨hs, h⟩
  | ask q rest => exact h i hi

/-- **A run of one program.** As far as the decisions go the invariant holds, and at the end the
postcondition does. -/
theorem Keeps.run (h : Keeps serve G I p post s) (hs : I s) {is : List ι}
    (his : Machine.Along (Program.next serve) (Decided G) (p, s) is) :
    I (Machine.run (Program.next serve) (p, s) is).2 ∧
      ∀ a s', Machine.run (Program.next serve) (p, s) is = (done a, s') → post a s' := by
  induction is generalizing p s with
  | nil =>
    refine ⟨hs, fun a s' hend => ?_⟩
    cases hend
    exact h
  | cons i is ih =>
    obtain ⟨hs', h'⟩ := h.next hs his.1
    exact ih h' hs' his.2

end

/-! ## One process after the other -/

/-- The surroundings, and the process there is. -/
structure System (κ : Type) (ρ : κ → Type) (σ α : Type) where
  state : σ
  process : Option (Program κ ρ α)

/-- What happens in a system: a process is started, its question is answered, or it dies. -/
inductive SystemEvent (π ι : Type) where
  | start (p : π)
  | served (i : ι)
  | crash
deriving DecidableEq

namespace System

/-- No process is under way. -/
def isIdle (s : System κ ρ σ α) : Bool := s.process.all (·.result?.isSome)

section
variable (enter : π → σ → σ) (program : π → Program κ ρ α)
  (serve : σ → (q : κ) → ι → ρ q × σ)

/-- A process is started only when no other is under way; `enter` is what its start does. -/
def step (s : System κ ρ σ α) : SystemEvent π ι → System κ ρ σ α
  | .start p => if s.isIdle then ⟨enter p s.state, some (program p)⟩ else s
  | .served i =>
    match s.process with
    | none => s
    | some p => ⟨(next serve (p, s.state) i).2, some (next serve (p, s.state) i).1⟩
  | .crash => { s with process := none }

end

section
variable {enter : π → σ → σ} {program : π → Program κ ρ α} {serve : σ → (q : κ) → ι → ρ q × σ}
  {I : σ → Prop} {s : σ}

/-- **Whatever processes do, and wherever they die.** What every program keeps, from its start on,
holds throughout. -/
theorem invariant_of_keeps (h₀ : I s)
    (hstart : ∀ p s, I s → I (enter p s) ∧
      Keeps serve (fun _ _ => True) I (program p) (fun _ _ => True) (enter p s))
    (es : List (SystemEvent π ι)) :
    I (Machine.run (step enter program serve) ⟨s, none⟩ es).state := by
  suffices h : I (Machine.run (step enter program serve) ⟨s, none⟩ es).state ∧
      ∀ p ∈ (Machine.run (step enter program serve) ⟨s, none⟩ es).process,
        Keeps serve (fun _ _ => True) I p (fun _ _ => True)
          (Machine.run (step enter program serve) ⟨s, none⟩ es).state from h.1
  refine Machine.invariant (I := fun t : System κ ρ σ α => I t.state ∧ ∀ p ∈ t.process,
    Keeps serve (fun _ _ => True) I p (fun _ _ => True) t.state) ⟨h₀, fun p hp => by cases hp⟩ ?_ es
  rintro t e ⟨hstate, hprocess⟩
  cases e with
  | start p =>
    rw [step]
    split
    · refine ⟨(hstart p _ hstate).1, fun q hq => ?_⟩
      cases hq
      exact (hstart p _ hstate).2
    · exact ⟨hstate, hprocess⟩
  | served i =>
    cases hp : t.process with
    | none =>
      rw [step, hp]
      exact ⟨hstate, fun p hp' => hprocess p hp'⟩
    | some p =>
      have hnext := (hprocess p hp).next hstate (i := i) (by cases p <;> trivial)
      simp only [step, hp]
      refine ⟨hnext.1, fun q hq => ?_⟩
      cases hq
      exact hnext.2
  | crash => exact ⟨hstate, fun p hp => by cases hp⟩

end

end System

end Program
