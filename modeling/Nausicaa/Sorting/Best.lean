import Mathlib.Data.List.Sort

/-! # The best items

The first items of a list that was sorted are its best ones (`best_take`), whatever sorts it, since no
other choice is as good (`Best.unique`). -/

namespace Nausicaa.Sorting

variable {α : Type} {le : α → α → Bool} {limit : Nat} {items best best' : List α}

/-- As many items as there are up to a limit, each before the next one and before all that are left
out. -/
structure Best (le : α → α → Bool) (limit : Nat) (items best : List α) : Prop where
  among : ∀ item ∈ best, item ∈ items
  distinct : best.Nodup
  count : best.length = min limit items.length
  ordered : best.Pairwise fun better item => le item better = false
  others : ∀ item ∈ items, item ∉ best → ∀ better ∈ best, le item better = false

theorem best_take (transitive : ∀ first second third, le first second = true →
      le second third = true → le first third = true)
    (total : ∀ left right, (le left right || le right left) = true)
    (apart : ∀ left ∈ items, ∀ right ∈ items, le left right = true → le right left = true →
      left = right)
    (distinct : items.Nodup) (limit : Nat) :
    Best le limit items ((items.mergeSort le).take limit) := by
  have sorted := List.pairwise_mergeSort transitive total items
  have perm := List.mergeSort_perm items le
  have whole : (items.mergeSort le).Nodup := perm.nodup_iff.mpr distinct
  -- No two items are alike, so that the sorted list is strictly ordered.
  have strict : (items.mergeSort le).Pairwise fun better item => le item better = false := by
    apply (sorted.and whole).imp_of_mem
    rintro better item member member' ⟨below, other⟩
    rw [Bool.eq_false_iff]
    intro above
    exact other (apart better (perm.mem_iff.mp member) item (perm.mem_iff.mp member') below above)
  have among : ∀ item ∈ (items.mergeSort le).take limit, item ∈ items := by
    intro item member
    exact perm.mem_iff.mp (List.mem_of_mem_take member)
  refine {
    among
    distinct := whole.sublist (List.take_sublist _ _)
    count := by rw [List.length_take, List.length_mergeSort]
    ordered := strict.sublist (List.take_sublist _ _)
    others := ?_ }
  intro item member left better kept
  -- What is not taken is dropped, and so it stands behind all that is taken.
  rw [← perm.mem_iff, ← List.take_append_drop limit (items.mergeSort le),
    List.mem_append] at member
  rw [← List.take_append_drop limit (items.mergeSort le), List.pairwise_append] at strict
  exact strict.2.2 better kept item (member.resolve_left left)

namespace Best

/-- Two choices of one size with different items would each have an item before one of the other. -/
theorem subset (total : ∀ left right, (le left right || le right left) = true)
    (chosen : Best le limit items best) (chosen' : Best le limit items best') : best ⊆ best' := by
  intro item member
  by_contra left
  have covers : best' ⊆ best := by
    intro item' member'
    by_contra left'
    have before := chosen.others item' (chosen'.among item' member') left' item member
    have behind := chosen'.others item (chosen.among item member) left item' member'
    have either := total item item'
    rw [before, behind] at either
    cases either
  -- Of equal length and without repetitions, one cannot be a proper part of the other.
  have same := (List.subperm_of_subset chosen'.distinct covers).perm_of_length_le
    (by rw [chosen.count, chosen'.count])
  exact left (same.mem_iff.mpr member)

theorem unique (total : ∀ left right, (le left right || le right left) = true)
    (chosen : Best le limit items best) (chosen' : Best le limit items best') : best = best' := by
  have perm : best.Perm best' := (List.perm_ext_iff_of_nodup chosen.distinct chosen'.distinct).mpr
    fun item => ⟨fun member => chosen.subset total chosen' member,
      fun member => chosen'.subset total chosen member⟩
  refine List.Perm.eq_of_pairwise ?_ chosen.ordered chosen'.ordered perm
  intro left right _ _ before behind
  have either := total left right
  rw [before, behind] at either
  cases either

end Best

end Nausicaa.Sorting
