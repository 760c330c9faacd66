import Mathlib.Data.List.Basic

/-! # Splitting texts

The parts of a text before and behind the last occurrence of another one (`splitLast_append`), its
words (`words_cons`), and the decimal numbers that are read as an unsigned integer of some size
(`parseUnsigned_toString`). -/

namespace Nausicaa.Text

/-! ## The last occurrence -/

section Last

variable {α : Type} [DecidableEq α]

/-- What stands before and behind the last occurrence of a part. -/
def splitLast (part : List α) : List α → Option (List α × List α)
  | [] => if part = [] then some ([], []) else none
  | item :: items =>
    match splitLast part items with
    | some (before, behind) => some (item :: before, behind)
    | none =>
      if part.isPrefixOf (item :: items) then some ([], (item :: items).drop part.length) else none

variable {first : α} {more items behind : List α}

/-- A part does not occur where its first item does not. -/
theorem splitLast_clean (clean : first ∉ items) : splitLast (first :: more) items = none := by
  induction items with
  | nil => simp [splitLast]
  | cons item items ih =>
    rw [List.mem_cons, not_or] at clean
    rw [splitLast, ih clean.2]
    simp [List.isPrefixOf, clean.1]

/-- Nor where its first item is the last one, unless the part is that item alone. -/
theorem splitLast_concat (clean : first ∉ items) (longer : more ≠ []) :
    splitLast (first :: more) (items ++ [first]) = none := by
  obtain ⟨second, rest, rfl⟩ := List.exists_cons_of_ne_nil longer
  induction items with
  | nil => simp [splitLast, List.isPrefixOf]
  | cons item items ih =>
    rw [List.mem_cons, not_or] at clean
    rw [List.cons_append, splitLast, ih clean.2]
    simp [List.isPrefixOf, clean.1]

/-- An occurrence behind which there is none is the last one, whatever stands before it. -/
theorem splitLast_append (before : List α)
    (last : splitLast (first :: more) (more ++ behind) = none) :
    splitLast (first :: more) (before ++ (first :: more ++ behind)) = some (before, behind) := by
  induction before with
  | nil =>
    have begins : (first :: more).isPrefixOf (first :: (more ++ behind)) = true := by
      rw [List.isPrefixOf_iff_prefix]
      exact List.prefix_append (first :: more) behind
    rw [List.nil_append, List.cons_append, splitLast, last]
    simp [begins]
  | cons item before ih => rw [List.cons_append, splitLast, ih]

end Last

/-! ## Words -/

/-- The words of a text, as `split_whitespace` finds them. -/
def words (blank : Char → Bool) (text : String) : List String :=
  ((text.toList.splitOnP blank).filter fun word => !word.isEmpty).map String.ofList

section Words

variable {blank : Char → Bool} {space : Char}

/-- A word is not empty, and nothing in it is blank. -/
def IsWord (blank : Char → Bool) (word : String) : Prop :=
  word ≠ "" ∧ ∀ char ∈ word.toList, blank char = false

instance (word : String) : Decidable (IsWord blank word) :=
  @instDecidableAnd _ _ _ (List.decidableBAll _ word.toList)

theorem words_cons {word : String} (isWord : IsWord blank word) (isBlank : blank space = true)
    (rest : String) :
    words blank (word ++ String.singleton space ++ rest) = word :: words blank rest := by
  have filled : word.toList.isEmpty = false := by
    rw [List.isEmpty_eq_false_iff]
    exact fun empty => isWord.1 (String.toList_eq_nil_iff.mp empty)
  have split : (word.toList ++ space :: rest.toList).splitOnP blank =
      word.toList :: rest.toList.splitOnP blank := by
    rw [List.splitOnP_append_cons _ _ isBlank, List.splitOnP_eq_singleton isWord.2]
    rfl
  rw [words, String.toList_append, String.toList_append, String.toList_singleton,
    List.append_assoc, List.singleton_append, split, List.filter_cons, filled]
  simp [words]

@[simp] theorem words_empty : words blank "" = [] := by simp [words]

end Words

/-! ## Numbers -/

def withoutPlus : List Char → List Char
  | '+' :: digits => digits
  | digits => digits

/-- `parse` of an unsigned integer that is at most `limit`: digits, with or without a plus. -/
def parseUnsigned (limit : Nat) (text : String) : Option Nat :=
  let digits := withoutPlus text.toList
  if digits.isEmpty || !digits.all Char.isDigit then none
  else
    let value := Nat.ofDigitChars 10 digits 0
    if value ≤ limit then some value else none

theorem parseUnsigned_toString {limit value : Nat} (fits : value ≤ limit) :
    parseUnsigned limit (toString value) = some value := by
  have isDigit : ∀ char ∈ Nat.toDigits 10 value, char.isDigit = true := fun char member =>
    Nat.isDigit_of_mem_toDigits (by decide) (by decide) member
  have shown : withoutPlus (toString value).toList = Nat.toDigits 10 value := by
    rw [Nat.toString_eq_ofList_toDigits, String.toList_ofList, withoutPlus.eq_def]
    split
    next digits same =>
      have member : '+' ∈ Nat.toDigits 10 value := by
        rw [same]
        exact List.mem_cons_self
      cases isDigit '+' member
    next => rfl
  rw [parseUnsigned, shown]
  dsimp only
  rw [if_neg]
  · simp [Nat.ofDigitChars_ten_toDigits, fits]
  · simpa [Nat.toDigits_ne_nil] using isDigit

/-- What is read is within its limit. -/
theorem parseUnsigned_le {limit value : Nat} {text : String}
    (read : parseUnsigned limit text = some value) : value ≤ limit := by
  rw [parseUnsigned] at read
  dsimp only at read
  split at read
  · cases read
  · split at read
    next fits =>
      cases read
      exact fits
    next => cases read

end Nausicaa.Text
