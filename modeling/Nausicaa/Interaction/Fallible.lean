import Mathlib.Data.List.Basic

/-! # Fallible folds

A loop that stops at the first error, as a fold in `Except`: how one that succeeded is taken
apart, and what its steps preserve (`foldlM_relates`). -/

namespace Nausicaa.Fallible

variable {ε α β σ : Type}

theorem bind_ok {first : Except ε α} {next : α → Except ε β} {result : β} :
    first >>= next = .ok result ↔ ∃ value, first = .ok value ∧ next value = .ok result := by
  cases first with
  | error failure =>
    constructor
    · intro none
      cases none
    · intro found
      obtain ⟨value, none, _⟩ := found
      cases none
  | ok value =>
    constructor
    · intro ran
      exact ⟨value, rfl, ran⟩
    · intro found
      obtain ⟨value', same, ran⟩ := found
      cases same
      exact ran

variable {step : σ → α → Except ε σ} {state state' : σ} {item : α} {items more : List α}

theorem foldlM_nil_ok : ([] : List α).foldlM step state = .ok state' ↔ state = state' := by
  constructor
  · intro ran
    cases ran
    rfl
  · intro same
    rw [same]
    rfl

theorem foldlM_cons_ok : (item :: items).foldlM step state = .ok state' ↔
    ∃ next, step state item = .ok next ∧ items.foldlM step next = .ok state' := by
  rw [List.foldlM_cons, bind_ok]

theorem foldlM_append_ok : (items ++ more).foldlM step state = .ok state' ↔
    ∃ next, items.foldlM step state = .ok next ∧ more.foldlM step next = .ok state' := by
  rw [List.foldlM_append, bind_ok]

theorem foldlM_singleton_ok : [item].foldlM step state = .ok state' ↔
    step state item = .ok state' := by
  rw [foldlM_cons_ok]
  simp only [foldlM_nil_ok, exists_eq_right]

/-- What every step preserves, the loop does. -/
theorem foldlM_relates (related : σ → σ → Prop) (refl : ∀ state, related state state)
    (trans : ∀ first second third, related first second → related second third →
      related first third)
    (steps : ∀ state item state', item ∈ items → step state item = .ok state' →
      related state state')
    (ran : items.foldlM step state = .ok state') : related state state' := by
  induction items generalizing state with
  | nil =>
    rw [foldlM_nil_ok] at ran
    exact ran ▸ refl state
  | cons item items ih =>
    obtain ⟨next, first, rest⟩ := foldlM_cons_ok.mp ran
    have later := ih (fun state item' state' member =>
      steps state item' state' (List.mem_cons_of_mem _ member)) rest
    exact trans _ _ _ (steps state item next List.mem_cons_self first) later

/-- A loop whose steps add to a list collects what they add. -/
theorem foldlM_collects (step : List β → α → Except ε (List β)) {admits : α → Prop}
    {adds : α → List β} (steps : ∀ state item state', step state item = .ok state' ↔
      admits item ∧ state' = state ++ adds item) {state state' : List β} :
    items.foldlM step state = .ok state' ↔
      (∀ item ∈ items, admits item) ∧ state' = state ++ items.flatMap adds := by
  induction items generalizing state with
  | nil =>
    rw [foldlM_nil_ok]
    simp [eq_comm]
  | cons item items ih =>
    simp only [foldlM_cons_ok, steps, ih, List.forall_mem_cons, List.flatMap_cons]
    constructor
    · rintro ⟨next, ⟨first, rfl⟩, others, rfl⟩
      exact ⟨⟨first, others⟩, by rw [List.append_assoc]⟩
    · rintro ⟨⟨first, others⟩, rfl⟩
      exact ⟨_, ⟨first, rfl⟩, others, by rw [List.append_assoc]⟩

end Nausicaa.Fallible
