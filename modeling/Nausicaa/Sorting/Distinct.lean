import Mathlib.Data.List.Destutter
import Mathlib.Data.List.Sort

/-! # Sorting and removing repetitions

Items are sorted by a key, and of those with one key the first stays (`mem_sortedOnce`).  No key is
left twice (`sortedOnce_nodup`), and none is lost (`sortedOnce_keys`).  What comes out depends only
on the first item of each key (`sortedOnce_inj`). -/

namespace Nausicaa.Sorting

variable {α κ : Type} [LinearOrder κ] (key : α → κ)

/-- A stable sort, and then `dedup_by`. -/
def sortedOnce (items : List α) : List α :=
  (items.mergeSort fun left right => decide (key left ≤ key right)).destutter fun left right =>
    key left ≠ key right

variable {key}
variable {items : List α} {item : α}

theorem mem_of_mem_sortedOnce (member : item ∈ sortedOnce key items) : item ∈ items :=
  (List.mergeSort_perm items _).mem_iff.mp ((List.destutter_sublist _ _).subset member)

theorem sortedOnce_sorted (items : List α) :
    (sortedOnce key items).Pairwise fun left right => key left < key right := by
  have sorted := @List.pairwise_mergeSort α (fun left right => decide (key left ≤ key right))
    (fun first second third => by simpa using le_trans)
    (fun left right => by simpa using le_total (key left) (key right)) items
  have ordered : (sortedOnce key items).IsChain fun left right => key left ≤ key right :=
    ((sorted.sublist (List.destutter_sublist _ _)).imp of_decide_eq_true).isChain
  have apart : (sortedOnce key items).IsChain fun left right => key left ≠ key right :=
    List.isChain_destutter _ _
  have strict : (sortedOnce key items).IsChain fun left right => key left < key right := by
    rw [List.isChain_iff_getElem] at ordered apart ⊢
    intro index bound
    exact lt_of_le_of_ne (ordered index bound) (apart index bound)
  exact List.isChain_iff_pairwise.mp strict

theorem sortedOnce_nodup (items : List α) : ((sortedOnce key items).map key).Nodup := by
  rw [List.Nodup, List.pairwise_map]
  exact (sortedOnce_sorted items).imp ne_of_lt

theorem destutter_keys (items : List α) (first : α) : ∀ item ∈ first :: items,
    ∃ item' ∈ items.destutter' (fun left right => key left ≠ key right) first,
      key item' = key item := by
  induction items generalizing first with
  | nil => simp
  | cons second items ih =>
    intro item member
    by_cases apart : key first ≠ key second
    · rw [List.destutter', if_pos apart]
      obtain rfl | member := List.mem_cons.mp member
      · exact ⟨item, List.mem_cons_self, rfl⟩
      · obtain ⟨item', kept, same⟩ := ih second item member
        exact ⟨item', List.mem_cons_of_mem _ kept, same⟩
    · rw [List.destutter', if_neg apart]
      rw [ne_eq, not_not] at apart
      obtain rfl | member := List.mem_cons.mp member
      · exact ih item item List.mem_cons_self
      · obtain rfl | member := List.mem_cons.mp member
        · -- The item that goes has the key of the one in front of it.
          obtain ⟨item', kept, same⟩ := ih first first List.mem_cons_self
          exact ⟨item', kept, same.trans apart⟩
        · exact ih first item (List.mem_cons_of_mem _ member)

theorem sortedOnce_keys (member : item ∈ items) : ∃ item' ∈ sortedOnce key items,
    key item' = key item := by
  rw [← (List.mergeSort_perm items fun left right => decide (key left ≤ key right)).mem_iff] at member
  rw [sortedOnce]
  cases sorted : items.mergeSort fun left right => decide (key left ≤ key right) with
  | nil => simp [sorted] at member
  | cons first rest =>
    rw [sorted] at member
    exact destutter_keys rest first item member

/-! ## The items that stay -/

/-- The sort is stable: the items with one key keep their order. -/
theorem filter_mergeSort (items : List α) (value : κ) :
    (items.mergeSort fun left right => decide (key left ≤ key right)).filter
      (fun other => key other = value) = items.filter fun other => key other = value := by
  have equals : (items.filter fun other => key other = value).Pairwise
      fun left right => decide (key left ≤ key right) = true := by
    apply List.pairwise_of_forall_mem_list
    intro left member right member'
    rw [List.mem_filter, decide_eq_true_eq] at member member'
    rw [decide_eq_true_eq, member.2, member'.2]
  have kept := @List.sublist_mergeSort α (fun left right => decide (key left ≤ key right)) items
    (fun first second third => by simpa using le_trans)
    (fun left right => by simpa using le_total (key left) (key right)) _ equals
    List.filter_sublist
  have filtered := kept.filter fun other => decide (key other = value)
  rw [List.filter_filter] at filtered
  simp only [Bool.and_self] at filtered
  have sorted := List.mergeSort_perm items fun left right => decide (key left ≤ key right)
  exact (filtered.eq_of_length (sorted.filter _).length_eq.symm).symm

theorem find?_mergeSort (items : List α) (value : κ) :
    (items.mergeSort fun left right => decide (key left ≤ key right)).find?
      (fun other => key other = value) = items.find? fun other => key other = value := by
  rw [← List.head?_filter, filter_mergeSort, List.head?_filter]

theorem mem_destutter {items : List α} {first : α}
    (sorted : (first :: items).Pairwise fun left right => key left ≤ key right) (item : α) :
    item ∈ items.destutter' (fun left right => key left ≠ key right) first ↔
      (first :: items).find? (fun other => key other = key item) = some item := by
  induction items generalizing first with
  | nil =>
    rw [List.destutter'_nil, List.mem_singleton, List.find?_cons]
    by_cases same : key first = key item
    · simp [same, eq_comm]
    · simp only [same, decide_false, List.find?_nil, reduceCtorEq, iff_false]
      rintro rfl
      exact same rfl
  | cons second items ih =>
    have rest := List.pairwise_cons.mp sorted
    by_cases apart : key first ≠ key second
    · rw [List.destutter', if_pos apart, List.mem_cons, ih rest.2]
      by_cases same : key first = key item
      · have head : (first :: second :: items).find? (fun other => key other = key item) =
            some first := List.find?_cons_of_pos (by simpa using same)
        rw [head, Option.some.injEq]
        constructor
        · rintro (rfl | found)
          · rfl
          · -- What is found behind the first item is larger.
            have least : key second ≤ key item := by
              obtain rfl | member := List.mem_cons.mp (List.mem_of_find?_eq_some found)
              · exact le_rfl
              · exact (List.pairwise_cons.mp rest.2).1 item member
            have above := rest.1 second List.mem_cons_self
            exact absurd (le_antisymm above (same ▸ least)) apart
        · rintro rfl
          exact .inl rfl
      · have other : item ≠ first := fun equal => same (congrArg key equal.symm)
        have behind : (first :: second :: items).find? (fun other => key other = key item) =
            (second :: items).find? fun other => key other = key item :=
          List.find?_cons_of_neg (by simpa using same)
        rw [behind, or_iff_right other]
    · rw [List.destutter', if_neg apart]
      rw [ne_eq, not_not] at apart
      have shorter : (first :: items).Pairwise fun left right => key left ≤ key right :=
        sorted.sublist ((List.sublist_cons_self second items).cons_cons first)
      rw [ih shorter, List.find?_cons, List.find?_cons, List.find?_cons, ← apart]
      cases decide (key first = key item) <;> rfl

theorem mem_sortedOnce : item ∈ sortedOnce key items ↔
    items.find? (fun other => key other = key item) = some item := by
  have sorted := @List.pairwise_mergeSort α (fun left right => decide (key left ≤ key right))
    (fun first second third => by simpa using le_trans)
    (fun left right => by simpa using le_total (key left) (key right)) items
  rw [← find?_mergeSort, sortedOnce]
  cases ordered : items.mergeSort fun left right => decide (key left ≤ key right) with
  | nil => simp
  | cons first rest =>
    rw [ordered] at sorted
    exact mem_destutter (sorted.imp of_decide_eq_true) item

theorem sortedOnce_inj {items' : List α} : sortedOnce key items = sortedOnce key items' ↔
    ∀ value, items.find? (fun other => key other = value) =
      items'.find? fun other => key other = value := by
  constructor
  · intro same value
    apply Option.ext
    intro item
    have shown : ∀ items : List α, items.find? (fun other => key other = value) = some item ↔
        key item = value ∧ item ∈ sortedOnce key items := by
      intro items
      rw [mem_sortedOnce]
      constructor
      · intro found
        obtain rfl : key item = value := by simpa using List.find?_some found
        exact ⟨rfl, found⟩
      · rintro ⟨rfl, found⟩
        exact found
    rw [shown, shown, same]
  · intro same
    have members : ∀ item, item ∈ sortedOnce key items ↔ item ∈ sortedOnce key items' := by
      intro item
      rw [mem_sortedOnce, mem_sortedOnce, same]
    have distinct (items : List α) : (sortedOnce key items).Nodup := (sortedOnce_nodup items).of_map
    have ordered := (List.perm_ext_iff_of_nodup (distinct items) (distinct items')).mpr members
    refine List.Perm.eq_of_pairwise ?_ (sortedOnce_sorted items) (sortedOnce_sorted items') ordered
    intro left right _ _ below above
    exact absurd above (lt_asymm below)

end Nausicaa.Sorting
