import Nausicaa.Interaction.Program

/-! # Watched code

A contract that also records whether a step of some kind was taken.  The record has no part in what
is answered (`Contract.watch`), and what follows an operation is shown for marked and for unmarked
answers (`Tries.watch`). -/

namespace Nausicaa.Interaction

/-- A state, and whether a step on the way to it was marked. -/
structure Watched (State : Type) where
  state : State
  marked : Prop

namespace Contract

variable {Op : Type} {Answer : Op → Type} {State α ε : Type}

def watch (contract : Contract Op Answer State)
    (marks : State → (op : Op) → Answer op → State → Prop) : Contract Op Answer (Watched State) where
  permit watched := contract.permit watched.state
  step watched op answer watched' := contract.step watched.state op answer watched'.state ∧
    (watched'.marked ↔ watched.marked ∨ marks watched.state op answer watched'.state)

variable {contract : Contract Op Answer State}
variable {marks : State → (op : Op) → Answer op → State → Prop} {watched : Watched State}

/-- An operation with no mark in front of it: its own answer marks it, or it goes on unmarked. -/
theorem Tries.watch {op : Op} {next : Answer op → Fallible Op Answer ε α}
    {ok : α → Watched State → Prop} {failed : ε → Watched State → Prop}
    (permitted : contract.permit watched.state op) (unmarked : ¬ watched.marked)
    (plain : ∀ answer watched', contract.step watched.state op answer watched'.state →
      ¬ marks watched.state op answer watched'.state → ¬ watched'.marked →
      (contract.watch marks).Tries (next answer) ok failed watched')
    (marked : ∀ answer watched', contract.step watched.state op answer watched'.state →
      marks watched.state op answer watched'.state → watched'.marked →
      (contract.watch marks).Tries (next answer) ok failed watched') :
    (contract.watch marks).Tries (Interaction.request op >>= next) ok failed watched := by
  apply Tries.bind
  refine ⟨permitted, ?_⟩
  rintro answer watched' ⟨step, records⟩
  by_cases mark : marks watched.state op answer watched'.state
  · exact marked answer watched' step mark (records.mpr (.inr mark))
  · apply plain answer watched' step mark
    rw [records]
    exact not_or.mpr ⟨unmarked, mark⟩

end Contract

end Nausicaa.Interaction
