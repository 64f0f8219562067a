import Mathlib.Tactic

/-!
Runs of a deterministic step function, and the two rules by which properties of
whole runs are proved from single steps.

A system is a step function `step : σ → α → σ` on states `σ` and operations
`α`, with a predicate `ok` on the operations a run may use.  `run step s ops`
applies the operations of the list in order; `Reachable step ok init s` says
that `s` is the end of a run of allowed operations from a state satisfying
`init`.

* `run_invariant`: a predicate kept by every allowed step holds at the end of
  every run; `Reachable.induction` is the same rule for reachable states.
* `run_conserved`: a predicate together with a quantity that every allowed
  step keeps, when the predicate holds, is kept along every run.  This is the
  form of "once locked, never changed" properties: the predicate is the lock
  and the quantity the locked data.
* `run_map`: a map that commutes with one step from the states of an
  invariant commutes with every run from them, the rule by which a model is
  shown to refine a specification.
* `AllSteps step P s ops`: every step of the run satisfies `P`, read at the
  state the step starts from; the form of "no step of the run does ..."
  statements, proved by induction on the run; `AllSteps.run_eq`,
  `AllSteps.run_of`: what every step keeps holds at the end.
-/

namespace StepSystem

variable {σ α : Type*}

/-- Apply the operations of a list in order. -/
def run (step : σ → α → σ) (s : σ) (ops : List α) : σ := ops.foldl step s

@[simp] lemma run_nil (step : σ → α → σ) (s : σ) : run step s [] = s := rfl

@[simp] lemma run_cons (step : σ → α → σ) (s : σ) (a : α) (ops : List α) :
    run step s (a :: ops) = run step (step s a) ops := rfl

lemma run_append (step : σ → α → σ) (s : σ) (ops₁ ops₂ : List α) :
    run step s (ops₁ ++ ops₂) = run step (run step s ops₁) ops₂ := by
  simp [run, List.foldl_append]

/-- The states at the end of a run of allowed operations from a state
satisfying `init`. -/
def Reachable (step : σ → α → σ) (ok : α → Prop) (init : σ → Prop) (s : σ) : Prop :=
  ∃ s₀ ops, init s₀ ∧ (∀ a ∈ ops, ok a) ∧ s = run step s₀ ops

variable {step : σ → α → σ} {ok : α → Prop}

/-- **The invariant rule**: a predicate kept by every allowed step holds at
the end of every run of allowed steps. -/
theorem run_invariant {I : σ → Prop} (hstep : ∀ s a, ok a → I s → I (step s a)) :
    ∀ {s : σ} {ops : List α}, I s → (∀ a ∈ ops, ok a) → I (run step s ops) := by
  intro s ops hs hops
  induction ops generalizing s with
  | nil => exact hs
  | cons a ops ih =>
      rw [run_cons]
      exact ih (hstep s a (hops a (by simp)) hs) (fun b hb => hops b (by simp [hb]))

/-- **Conservation along runs**: if every allowed step from a state satisfying
`P` keeps `P` and the quantity `f`, then so does every run. -/
theorem run_conserved {β : Type*} {P : σ → Prop} {f : σ → β}
    (hstep : ∀ s a, ok a → P s → P (step s a) ∧ f (step s a) = f s) :
    ∀ {s : σ} {ops : List α}, P s → (∀ a ∈ ops, ok a) →
      P (run step s ops) ∧ f (run step s ops) = f s := by
  intro s ops hs hops
  induction ops generalizing s with
  | nil => exact ⟨hs, rfl⟩
  | cons a ops ih =>
      rw [run_cons]
      obtain ⟨hP, hf⟩ := hstep s a (hops a (by simp)) hs
      obtain ⟨hP', hf'⟩ := ih hP (fun b hb => hops b (by simp [hb]))
      exact ⟨hP', hf'.trans hf⟩

/-- **Simulation by a function**: a map that takes every step, from the
states of an invariant `I`, to the step of another system by the same
operation takes every run from `I` to the run of the other. -/
theorem run_map {τ : Type*} {step' : τ → α → τ} {f : σ → τ} {I : σ → Prop}
    (hI : ∀ s a, I s → I (step s a)) (hstep : ∀ s a, I s → f (step s a) = step' (f s) a) :
    ∀ {s : σ}, I s → ∀ ops : List α, f (run step s ops) = run step' (f s) ops := by
  intro s hs ops
  induction ops generalizing s with
  | nil => rfl
  | cons a ops ih => rw [run_cons, run_cons, ih (hI s a hs), hstep s a hs]

lemma Reachable.of_init {init : σ → Prop} {s : σ} (h : init s) : Reachable step ok init s :=
  ⟨s, [], h, by simp, rfl⟩

lemma Reachable.of_step {init : σ → Prop} {s : σ} (hs : Reachable step ok init s) {a : α}
    (ha : ok a) : Reachable step ok init (step s a) := by
  obtain ⟨s₀, ops, h₀, hops, rfl⟩ := hs
  refine ⟨s₀, ops ++ [a], h₀, ?_, by simp [run_append]⟩
  intro b hb
  rcases List.mem_append.mp hb with hb | hb
  · exact hops b hb
  · rw [List.mem_singleton.mp hb]
    exact ha

lemma Reachable.of_run {init : σ → Prop} {s : σ} (hs : Reachable step ok init s) {ops : List α}
    (hops : ∀ a ∈ ops, ok a) : Reachable step ok init (run step s ops) := by
  obtain ⟨s₀, ops₀, h₀, hops₀, rfl⟩ := hs
  refine ⟨s₀, ops₀ ++ ops, h₀, ?_, (run_append step s₀ ops₀ ops).symm⟩
  intro a ha
  rcases List.mem_append.mp ha with ha | ha
  · exact hops₀ a ha
  · exact hops a ha

/-- The invariant rule for reachable states. -/
theorem Reachable.induction {init I : σ → Prop} (h₀ : ∀ s, init s → I s)
    (hstep : ∀ s a, ok a → I s → I (step s a)) {s : σ} (hs : Reachable step ok init s) : I s := by
  obtain ⟨s₀, ops, hinit, hops, rfl⟩ := hs
  exact run_invariant hstep (h₀ s₀ hinit) hops

/-- Every step of the run of `ops` from `s` satisfies `P`, read at the state
the step starts from. -/
def AllSteps (step : σ → α → σ) (P : σ → α → Prop) : σ → List α → Prop
  | _, [] => True
  | s, a :: ops => P s a ∧ AllSteps step P (step s a) ops

@[simp] lemma allSteps_nil {P : σ → α → Prop} (s : σ) : AllSteps step P s [] ↔ True := Iff.rfl

@[simp] lemma allSteps_cons {P : σ → α → Prop} (s : σ) (a : α) (ops : List α) :
    AllSteps step P s (a :: ops) ↔ P s a ∧ AllSteps step P (step s a) ops := Iff.rfl

lemma AllSteps.mono {P Q : σ → α → Prop} (hPQ : ∀ s a, P s a → Q s a) :
    ∀ {s : σ} {ops : List α}, AllSteps step P s ops → AllSteps step Q s ops := by
  intro s ops h
  induction ops generalizing s with
  | nil => trivial
  | cons a ops ih => exact ⟨hPQ s a h.1, ih h.2⟩

/-- A quantity that every step of the run keeps is the same at its end. -/
lemma AllSteps.run_eq {β : Type*} {f : σ → β} :
    ∀ {s : σ} {ops : List α}, AllSteps step (fun t a => f (step t a) = f t) s ops →
      f (run step s ops) = f s := by
  intro s ops h
  induction ops generalizing s with
  | nil => rfl
  | cons a ops ih => rw [run_cons, ih h.2, h.1]

/-- A predicate that every step of the run keeps holds at its end. -/
lemma AllSteps.run_of {P : σ → Prop} :
    ∀ {s : σ} {ops : List α}, AllSteps step (fun t a => P t → P (step t a)) s ops → P s →
      P (run step s ops) := by
  intro s ops h hs
  induction ops generalizing s with
  | nil => exact hs
  | cons a ops ih => exact ih h.2 (h.1 hs)

instance {P : σ → α → Prop} [∀ s a, Decidable (P s a)] :
    ∀ (s : σ) (ops : List α), Decidable (AllSteps step P s ops)
  | _, [] => isTrue trivial
  | s, a :: ops =>
    have : Decidable (AllSteps step P (step s a) ops) := instDecidableAllSteps (step s a) ops
    inferInstanceAs (Decidable (P s a ∧ _))

end StepSystem
