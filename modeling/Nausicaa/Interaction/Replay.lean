import Mathlib.Logic.Function.Basic

/-! # Histories of a store

A history of accesses to a store of values by keys: each found what was in the store when its turn
came.  What no access has changed is still there at the end (`Replays.untouched`). -/

namespace Nausicaa.Interaction

/-- What was found under a key, and what was left there. -/
structure Access (Key Value : Type) where
  key : Key
  found : Value
  left : Value

variable {Key Value : Type} [DecidableEq Key]

/-- Between these stores the accesses can have been made, in this order. -/
inductive Replays : (Key → Value) → List (Access Key Value) → (Key → Value) → Prop where
  | nil (store : Key → Value) : Replays store [] store
  | cons {store store' : Key → Value} {access : Access Key Value}
      {accesses : List (Access Key Value)} (present : store access.key = access.found)
      (rest : Replays (Function.update store access.key access.left) accesses store') :
      Replays store (access :: accesses) store'

namespace Replays

variable {store store' store'' : Key → Value} {accesses accesses' : List (Access Key Value)}
variable {key : Key} {value : Value}

theorem one (present : store key = value) (value' : Value) :
    Replays store [⟨key, value, value'⟩] (Function.update store key value') :=
  .cons present (.nil _)

theorem append (first : Replays store accesses store')
    (second : Replays store' accesses' store'') : Replays store (accesses ++ accesses') store'' := by
  induction first with
  | nil store => exact second
  | cons present _ ih => exact .cons present (ih second)

theorem untouched (replays : Replays store accesses store')
    (kept : ∀ access ∈ accesses, access.key = key → access.left = access.found) :
    store' key = store key := by
  induction replays with
  | nil store => rfl
  | @cons store store' access accesses present rest ih =>
    have later := ih fun other member => kept other (List.mem_cons_of_mem _ member)
    rw [later]
    by_cases same : access.key = key
    · subst same
      rw [Function.update_self, kept access List.mem_cons_self rfl, present]
    · rw [Function.update_of_ne (Ne.symm same)]

theorem head {access : Access Key Value} (replays : Replays store (access :: accesses) store') :
    store access.key = access.found := by
  cases replays with
  | cons present _ => exact present

theorem last {access : Access Key Value} (replays : Replays store [access] store') :
    store' access.key = access.left := by
  cases replays with
  | cons _ rest =>
    cases rest
    exact Function.update_self ..

end Replays

end Nausicaa.Interaction
