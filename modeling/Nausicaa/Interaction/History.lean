import Mathlib.Data.List.Basic
import Mathlib.Data.List.Infix

/-! # Append-only histories

A history that is only ever extended at its end, each entry being allowed by what
stands before it.  `Built.snoc_induction` is the rule by which an invariant of such
histories is proved: it holds of the empty history and every allowed entry keeps
it. -/

namespace Nausicaa.Interaction

variable {α : Type} {allowed : List α → α → Prop}

/-- Every entry was allowed by the entries before it. -/
def Built (allowed : List α → α → Prop) (history : List α) : Prop :=
  ∀ before entry after, history = before ++ entry :: after → allowed before entry

namespace Built

theorem nil : Built allowed [] := by
  intro before entry after split
  simp at split

theorem prefixed {history more : List α} (built : Built allowed (history ++ more)) :
    Built allowed history := by
  intro before entry after split
  exact built before entry (after ++ more) (by simp [split])

theorem snoc_iff {history : List α} {entry : α} :
    Built allowed (history ++ [entry]) ↔ Built allowed history ∧ allowed history entry := by
  constructor
  · intro built
    exact ⟨built.prefixed, built history entry [] rfl⟩
  · intro ⟨built, last⟩ before entry' after split
    cases List.eq_nil_or_concat after with
    | inl nothing =>
      subst nothing
      obtain ⟨rfl, same⟩ := List.append_inj' split rfl
      cases same
      exact last
    | inr more =>
      obtain ⟨after, entry'', rfl⟩ := more
      have ends : history ++ [entry] = (before ++ entry' :: after) ++ [entry''] := by
        simpa using split
      exact built before entry' after (List.append_inj' ends rfl).1

theorem snoc {history : List α} {entry : α} (built : Built allowed history)
    (last : allowed history entry) : Built allowed (history ++ [entry]) :=
  snoc_iff.mpr ⟨built, last⟩

/-- Invariants of append-only histories. -/
@[elab_as_elim]
theorem snoc_induction {motive : ∀ history : List α, Built allowed history → Prop}
    (empty : motive [] nil)
    (step : ∀ before entry (built : Built allowed before) (last : allowed before entry),
      motive before built → motive (before ++ [entry]) (built.snoc last))
    {history : List α} (built : Built allowed history) : motive history built := by
  induction history using List.reverseRecOn with
  | nil => exact empty
  | append_singleton before entry ih =>
    obtain ⟨earlier, last⟩ := snoc_iff.mp built
    exact step before entry earlier last (ih earlier)

theorem mono {allowed' : List α → α → Prop} {history : List α} (built : Built allowed history)
    (weaken : ∀ before entry, allowed before entry → allowed' before entry) :
    Built allowed' history := by
  intro before entry after split
  exact weaken before entry (built before entry after split)

end Built

/-- `second` directly follows `first` somewhere in the history. -/
def Adjacent (history : List α) (first second : α) : Prop :=
  ∃ before after, history = before ++ first :: second :: after

namespace Adjacent

variable {history : List α} {first second last : α}

theorem second_mem (adjacent : Adjacent history first second) : second ∈ history := by
  obtain ⟨before, after, rfl⟩ := adjacent
  simp

theorem snoc_iff : Adjacent (history ++ [last]) first second ↔
    Adjacent history first second ∨ (history.getLast? = some first ∧ second = last) := by
  constructor
  · intro ⟨before, after, split⟩
    cases List.eq_nil_or_concat after with
    | inl nothing =>
      subst nothing
      have ends : history ++ [last] = (before ++ [first]) ++ [second] := by simpa using split
      obtain ⟨rfl, same⟩ := List.append_inj' ends rfl
      cases same
      exact .inr ⟨by simp, rfl⟩
    | inr more =>
      obtain ⟨after, entry, rfl⟩ := more
      have ends : history ++ [last] = (before ++ first :: second :: after) ++ [entry] := by
        simpa using split
      exact .inl ⟨before, after, (List.append_inj' ends rfl).1⟩
  · intro either
    cases either with
    | inl earlier =>
      obtain ⟨before, after, rfl⟩ := earlier
      exact ⟨before, after ++ [last], by simp⟩
    | inr ends =>
      obtain ⟨ends, rfl⟩ := ends
      obtain ⟨before, rfl⟩ := List.getLast?_eq_some_iff.mp ends
      exact ⟨before, [], by simp⟩

end Adjacent

end Nausicaa.Interaction
