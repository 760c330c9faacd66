import Mathlib.Data.List.Basic

/-! # Escaping

Texts in double quotes.  Replacing characters one after the other in whole texts is the
same as escaping each character (`replaces_eq`), and a reader that undoes the escape of
every character reads back any text (`readQuoted_escaped`). -/

namespace Nausicaa.Text

/-- `text.replace(pattern, by)` for a character. -/
def replace (pattern : Char) (replacement : String) (text : String) : String :=
  String.ofList (text.toList.flatMap fun char =>
    if char = pattern then replacement.toList else [char])

/-- One replacement after the other, in the order of the list. -/
def replaces (replacements : List (Char × String)) (text : String) : String :=
  replacements.foldl (fun text entry => replace entry.1 entry.2 text) text

/-- What becomes of one character. -/
def escaped (replacements : List (Char × String)) (char : Char) : List Char :=
  (replaces replacements (String.ofList [char])).toList

theorem replace_append (pattern : Char) (replacement first second : String) :
    replace pattern replacement (first ++ second) =
      replace pattern replacement first ++ replace pattern replacement second := by
  simp [replace, String.toList_append, String.ofList_append]

theorem replaces_append (replacements : List (Char × String)) (first second : String) :
    replaces replacements (first ++ second) =
      replaces replacements first ++ replaces replacements second := by
  induction replacements generalizing first second with
  | nil => rfl
  | cons entry replacements ih =>
    simp only [replaces, List.foldl_cons, replace_append]
    exact ih _ _

theorem replaces_empty (replacements : List (Char × String)) : replaces replacements "" = "" := by
  induction replacements with
  | nil => rfl
  | cons entry replacements ih =>
    have same : replace entry.1 entry.2 "" = "" := rfl
    simpa only [replaces, List.foldl_cons, same] using ih

/-- Replacing in turn escapes each character on its own. -/
theorem replaces_eq (replacements : List (Char × String)) (text : String) :
    (replaces replacements text).toList = text.toList.flatMap (escaped replacements) := by
  have chars : ∀ chars : List Char, (replaces replacements (String.ofList chars)).toList =
      chars.flatMap (escaped replacements) := by
    intro chars
    induction chars with
    | nil =>
      have nothing : replaces replacements (String.ofList []) = "" := replaces_empty replacements
      rw [nothing]
      rfl
    | cons char chars ih =>
      have split : String.ofList (char :: chars) = String.ofList [char] ++ String.ofList chars := by
        rw [← String.ofList_append, List.singleton_append]
      rw [split, replaces_append, String.toList_append, ih, List.flatMap_cons]
      rfl
  simpa using chars text.toList

/-! ## Reading -/

/-- The text up to the first unescaped quote, and what follows it. -/
def readQuoted (unescape : Char → Char) : List Char → Option (List Char × List Char)
  | [] => none
  | '"' :: rest => some ([], rest)
  | ['\\'] => none
  | '\\' :: char :: rest =>
    (readQuoted unescape rest).map fun read => (unescape char :: read.1, read.2)
  | char :: rest => (readQuoted unescape rest).map fun read => (char :: read.1, read.2)

/-- The escape of a character is undone by the reader: it stays as it is where nothing is
meant by it, or stands behind a backslash. -/
def Undone (unescape : Char → Char) (escape : Char → List Char) (char : Char) : Prop :=
  (escape char = [char] ∧ char ≠ '"' ∧ char ≠ '\\') ∨
    ∃ letter, escape char = ['\\', letter] ∧ unescape letter = char

section Reading

variable {unescape : Char → Char} {escape : Char → List Char}

theorem readQuoted_plain {char : Char} (notQuote : char ≠ '"') (notEscape : char ≠ '\\')
    (rest : List Char) : readQuoted unescape (char :: rest) =
      (readQuoted unescape rest).map fun read => (char :: read.1, read.2) := by
  rw [readQuoted.eq_def]
  split
  next same => cases same
  next same => cases same; exact absurd rfl notQuote
  next same => cases same; exact absurd rfl notEscape
  next same => cases same; exact absurd rfl notEscape
  next same => cases same; rfl

/-- Whatever text is escaped, the reader finds it before the closing quote. -/
theorem readQuoted_escaped (undone : ∀ char, Undone unescape escape char) (text rest : List Char) :
    readQuoted unescape (text.flatMap escape ++ '"' :: rest) = some (text, rest) := by
  induction text with
  | nil => rfl
  | cons char text ih =>
    rw [List.flatMap_cons, List.append_assoc]
    cases undone char with
    | inl plain =>
      obtain ⟨same, notQuote, notEscape⟩ := plain
      rw [same, List.singleton_append, readQuoted_plain notQuote notEscape, ih]
      rfl
    | inr marked =>
      obtain ⟨letter, same, back⟩ := marked
      rw [same, List.cons_append, List.singleton_append, readQuoted, ih, Option.map_some, back]

end Reading

end Nausicaa.Text
