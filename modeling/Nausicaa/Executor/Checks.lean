import Nausicaa.Executor.FileHost
import Nausicaa.Interaction.Evaluation

/-! # Checks

The rules for checks, which the tools share: where the surroundings may answer anything that a
contract allows, and where they answer by what is there. -/

namespace Nausicaa.Executor

open Interaction (Contract evaluate)

variable {ε α : Type}

/-! ## Rules -/

section Rules

variable {Op : Type} {Answer : Op → Type} {State : Type} {contract : Contract Op Answer State}
variable {state : State} {failed : ε → State → Prop}

theorem tries_ensure {condition : Prop} [Decidable condition] {error : ε}
    {ok : Unit → State → Prop} (holds : condition → ok () state)
    (fails : ¬ condition → failed error state) :
    contract.Tries (ensure condition error) ok failed state := by
  rw [ensure]
  by_cases truth : condition
  · rw [if_pos truth]
    exact Contract.Tries.pure (holds truth)
  · rw [if_neg truth]
    exact Contract.Tries.throw (fails truth)

theorem tries_ofExcept {result : Except ε α} {ok : α → State → Prop}
    (holds : ∀ value, result = .ok value → ok value state)
    (fails : ∀ error, result = .error error → failed error state) :
    contract.Tries (ofExcept result) ok failed state := by
  cases result with
  | ok value => exact Contract.Tries.pure (holds value rfl)
  | error error => exact Contract.Tries.throw (fails error rfl)

variable {invariant : State → Prop}

theorem keeps_ensure (condition : Prop) [Decidable condition] (error : ε) :
    contract.Keeps invariant (ensure condition error) := by
  intro state holds
  exact tries_ensure (fun _ => holds) fun _ => holds

theorem keeps_ofExcept (result : Except ε α) : contract.Keeps invariant (ofExcept result) := by
  intro state holds
  exact tries_ofExcept (fun _ _ => holds) fun _ _ => holds

end Rules

section Evaluation

variable {Op : Type} {Answer : Op → Type} {State : Type}
variable {serve : State → (op : Op) → Answer op × State} {state : State}

theorem evaluate_ensure {condition : Prop} [Decidable condition] (error : ε) (holds : condition) :
    evaluate serve (ensure condition error) state = (.ok (), state) := by
  rw [ensure, if_pos holds]
  rfl

theorem evaluate_ensure_error {condition : Prop} [Decidable condition] (error : ε)
    (fails : ¬ condition) : evaluate serve (ensure condition error) state = (.error error, state) := by
  rw [ensure, if_neg fails]
  rfl

theorem evaluate_ofExcept (result : Except ε α) :
    evaluate serve (ofExcept result) state = (result, state) := by
  cases result with
  | ok value => rfl
  | error error => rfl

end Evaluation

end Nausicaa.Executor
