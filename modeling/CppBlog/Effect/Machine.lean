import Mathlib.Tactic.Common

set_option autoImplicit false

/-! # Machines that answer

A machine takes a step for each input and answers it. Two machines answer alike when a relation between their states,
which may look at the inputs still to come, holds from step to step. -/

namespace Effect

variable {ι ο S T : Type*}

/-- What a machine answers to its inputs, one after the other. -/
def answers (step : S → ι → ο × S) : S → List ι → List ο
  | _, [] => []
  | s, i :: rest => (step s i).1 :: answers step (step s i).2 rest

/-- **Machines in lockstep answer alike.** -/
theorem answers_eq {step : S → ι → ο × S} {step' : T → ι → ο × T} {R : List ι → S → T → Prop}
    (hstep : ∀ {i rest s t}, R (i :: rest) s t → (step s i).1 = (step' t i).1 ∧ R rest (step s i).2 (step' t i).2) :
    ∀ {inputs s t}, R inputs s t → answers step s inputs = answers step' t inputs := by
  intro inputs
  induction inputs with
  | nil => exact fun _ => rfl
  | cons i rest ih =>
    intro s t h
    obtain ⟨heq, hrest⟩ := hstep h
    rw [answers, answers, heq, ih hrest]

end Effect
