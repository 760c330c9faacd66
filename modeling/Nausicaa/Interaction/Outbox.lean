import Mathlib.Data.List.Infix

/-! # Outboxes

Several parties append to one record, and each keeps what it has yet to announce of its
own appends in an outbox.  As long as only one of them owes anything, what was announced
is the record up to what that one owes (`Balanced`), whatever the parties do in between.
-/

namespace Nausicaa.Interaction

variable {α : Type}

theorem set_same {entries : List α} {index : Nat} {entry : α}
    (found : entries[index]? = some entry) : entries.set index entry = entries := by
  obtain ⟨bound, rfl⟩ := List.getElem?_eq_some_iff.mp found
  exact List.set_getElem_self bound

/-- At most one outbox is nonempty, and what is in it is what is missing of the record. -/
structure Balanced (announced record : List α) (outboxes : List (List α)) : Prop where
  owing : ∀ outbox ∈ outboxes, outbox ≠ [] → announced ++ outbox = record
  single : ∀ (first second : Nat) (outbox outbox' : List α), outboxes[first]? = some outbox →
    outboxes[second]? = some outbox' → outbox ≠ [] → outbox' ≠ [] → first = second
  settled : (∀ outbox ∈ outboxes, outbox = []) → announced = record

namespace Balanced

variable {announced record : List α} {outboxes : List (List α)} {index : Nat}
variable {outbox : List α}

theorem empty : Balanced ([] : List α) [] [] where
  owing _ member := by cases member
  single _ _ _ _ found := by simp at found
  settled _ := rfl

/-- What was announced is the start of the record. -/
theorem announced_initial (balanced : Balanced announced record outboxes) :
    announced <+: record := by
  by_cases settled : ∀ outbox ∈ outboxes, outbox = []
  · rw [balanced.settled settled]
  · push Not at settled
    obtain ⟨outbox, member, owes⟩ := settled
    exact ⟨outbox, balanced.owing outbox member owes⟩

/-- The owner of an outbox knows what is missing when nobody else owes. -/
theorem missing (balanced : Balanced announced record outboxes)
    (found : outboxes[index]? = some outbox)
    (others : ∀ (other : Nat) (outbox' : List α), other ≠ index →
      outboxes[other]? = some outbox' → outbox' = []) :
    announced ++ outbox = record := by
  by_cases owes : outbox = []
  · subst owes
    rw [List.append_nil]
    apply balanced.settled
    intro outbox' member
    obtain ⟨other, found'⟩ := List.mem_iff_getElem?.mp member
    by_cases same : other = index
    · subst same
      exact Option.some.inj (found'.symm.trans found)
    · exact others other outbox' same found'
  · exact balanced.owing outbox (List.mem_of_getElem? found) owes

/-- One outbox that holds what is missing, all others empty. -/
theorem of_single (found : outboxes[index]? = some outbox)
    (others : ∀ (other : Nat) (outbox' : List α), other ≠ index →
      outboxes[other]? = some outbox' → outbox' = [])
    (missing : announced ++ outbox = record) : Balanced announced record outboxes where
  owing outbox' member owes := by
    obtain ⟨other, found'⟩ := List.mem_iff_getElem?.mp member
    by_cases same : other = index
    · subst same
      cases found.symm.trans found'
      exact missing
    · exact absurd (others other outbox' same found') owes
  single first second outbox' outbox'' found' found'' owes owes' := by
    have mine : ∀ (other : Nat) (outbox : List α), outboxes[other]? = some outbox →
        outbox ≠ [] → other = index := by
      intro other outbox found owes
      by_contra different
      exact owes (others other outbox different found)
    exact (mine first outbox' found' owes).trans (mine second outbox'' found'' owes').symm
  settled empty := by
    have none := empty outbox (List.mem_of_getElem? found)
    rw [← missing, none, List.append_nil]

/-- A new party owes nothing. -/
theorem join (balanced : Balanced announced record outboxes) :
    Balanced announced record (outboxes ++ [[]]) where
  owing outbox member owes := by
    cases List.mem_append.mp member with
    | inl old => exact balanced.owing outbox old owes
    | inr new => exact absurd (List.mem_singleton.mp new) owes
  single first second outbox outbox' found found' owes owes' := by
    have old : ∀ (place : Nat) (outbox : List α), (outboxes ++ [[]])[place]? = some outbox →
        outbox ≠ [] → outboxes[place]? = some outbox := by
      intro place outbox found owes
      cases Nat.lt_or_ge place outboxes.length with
      | inl inside =>
        rw [List.getElem?_append_left inside] at found
        exact found
      | inr outside =>
        rw [List.getElem?_append_right outside] at found
        exact absurd (List.mem_singleton.mp (List.mem_of_getElem? found)) owes
    exact balanced.single first second outbox outbox' (old _ _ found owes) (old _ _ found' owes')
      owes owes'
  settled empty := balanced.settled fun outbox member =>
    empty outbox (List.mem_append_left _ member)

/-- A party appends to the record while nobody else owes. -/
theorem post (balanced : Balanced announced record outboxes)
    (found : outboxes[index]? = some outbox) (more : List α)
    (others : ∀ (other : Nat) (outbox' : List α), other ≠ index →
      outboxes[other]? = some outbox' → outbox' = []) :
    Balanced announced (record ++ more) (outboxes.set index (outbox ++ more)) := by
  have bound := (List.getElem?_eq_some_iff.mp found).1
  apply of_single (List.getElem?_set_self bound)
  · intro other outbox' different found'
    rw [List.getElem?_set_ne (Ne.symm different)] at found'
    exact others other outbox' different found'
  · rw [← List.append_assoc, balanced.missing found others]

/-- A party announces what is first in its outbox. -/
theorem announce {entry : α} (balanced : Balanced announced record outboxes)
    (found : outboxes[index]? = some (entry :: outbox)) :
    Balanced (announced ++ [entry]) record (outboxes.set index outbox) := by
  have bound := (List.getElem?_eq_some_iff.mp found).1
  have owes : entry :: outbox ≠ [] := List.cons_ne_nil _ _
  apply of_single (List.getElem?_set_self bound)
  · intro other outbox' different found'
    rw [List.getElem?_set_ne (Ne.symm different)] at found'
    by_contra owes'
    exact different (balanced.single other index outbox' _ found' found owes' owes)
  · have missing := balanced.owing _ (List.mem_of_getElem? found) owes
    simpa using missing

end Balanced

end Nausicaa.Interaction
