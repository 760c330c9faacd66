import Mathlib.Data.List.DropRight

/-! # Ends of texts

`strip_prefix`, `trim` and `trim_end_matches` of `str`.  What is cut off an extended text is
an extension of what is cut off the text (`trimEnd_prefix`, `stripPrefix_prefix`). -/

namespace Nausicaa.Text

/-- `text.strip_prefix(start)`. -/
def stripPrefix (start text : String) : Option String :=
  if start.toList <+: text.toList then
    some (String.ofList (text.toList.drop start.toList.length))
  else none

/-- `text.trim_end_matches(char)`. -/
def trimEnd (char : Char) (text : String) : String :=
  String.ofList (text.toList.rdropWhile (· = char))

/-- `text.trim()`, for what counts as blank. -/
def trim (blank : Char → Bool) (text : String) : String :=
  String.ofList ((text.toList.dropWhile blank).rdropWhile blank)

section Ends

variable {start text more rest : String} {char : Char} {blank : Char → Bool}

theorem stripPrefix_some : stripPrefix start text = some rest ↔ text = start ++ rest := by
  rw [stripPrefix]
  constructor
  · intro stripped
    split at stripped
    next begins =>
      cases stripped
      obtain ⟨tail, split⟩ := begins
      rw [← String.toList_inj, String.toList_append, String.toList_ofList, ← split,
        List.drop_left]
    next => cases stripped
  · intro whole
    subst whole
    rw [String.toList_append, if_pos (List.prefix_append _ _), List.drop_left,
      String.ofList_toList]

@[simp] theorem stripPrefix_append (start rest : String) :
    stripPrefix start (start ++ rest) = some rest :=
  stripPrefix_some.mpr rfl

/-- What is behind the start grows with the text. -/
theorem stripPrefix_prefix (stripped : stripPrefix start text = some rest)
    (extended : text.toList <+: more.toList) :
    ∃ rest', stripPrefix start more = some rest' ∧ rest.toList <+: rest'.toList := by
  obtain ⟨tail, split⟩ := extended
  rw [stripPrefix_some] at stripped
  refine ⟨rest ++ String.ofList tail, ?_, ?_⟩
  · rw [stripPrefix_some, ← String.toList_inj, ← split, stripped]
    simp
  · simp

theorem rdropWhile_prefix_append {α : Type} (drop : α → Bool) (items tail : List α) :
    items.rdropWhile drop <+: (items ++ tail).rdropWhile drop := by
  induction tail using List.reverseRecOn with
  | nil => simp
  | append_singleton tail last ih =>
    rw [← List.append_assoc]
    by_cases dropped : drop last = true
    · rwa [List.rdropWhile_concat_pos _ _ _ dropped]
    · rw [List.rdropWhile_concat_neg _ _ _ dropped, List.append_assoc]
      exact (List.rdropWhile_prefix drop items).trans (List.prefix_append items _)

theorem trimEnd_prefix (extended : text.toList <+: more.toList) :
    (trimEnd char text).toList <+: (trimEnd char more).toList := by
  obtain ⟨tail, split⟩ := extended
  rw [trimEnd, trimEnd, String.toList_ofList, String.toList_ofList, ← split]
  exact rdropWhile_prefix_append _ _ _

theorem trimEnd_of_getLast? (other : text.toList.getLast? ≠ some char) :
    trimEnd char text = text := by
  rw [trimEnd, List.rdropWhile_eq_self_iff.mpr, String.ofList_toList]
  intro nonempty last
  rw [List.getLast?_eq_some_getLast nonempty] at other
  exact other (congrArg some (of_decide_eq_true last))

@[simp] theorem trimEnd_concat (char : Char) (text : String) :
    trimEnd char (text ++ String.singleton char) = trimEnd char text := by
  simp [trimEnd]

/-- Blank texts only are cut off. -/
theorem trim_split (blank : Char → Bool) (text : String) :
    ∃ before after, text = before ++ trim blank text ++ after ∧
      before.toList.all blank = true ∧ after.toList.all blank = true := by
  refine ⟨String.ofList (text.toList.takeWhile blank),
    String.ofList ((text.toList.dropWhile blank).rtakeWhile blank), ?_, ?_, ?_⟩
  · rw [← String.toList_inj]
    simp [trim, List.append_assoc, List.rdropWhile_append_rtakeWhile]
  · rw [String.toList_ofList]
    exact List.all_takeWhile
  · rw [String.toList_ofList, List.all_eq_true]
    intro char member
    exact List.mem_rtakeWhile_imp member

end Ends

end Nausicaa.Text
