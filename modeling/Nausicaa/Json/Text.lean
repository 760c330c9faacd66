import Mathlib.Data.List.Basic
import Nausicaa.Json.Value

/-! # JSON text

The compact text of a value, and a reader of such texts.  Reading a printed value gives it
back (`readValue_chars`), so a text is read exactly if it is what is printed for the value
read (`parse_eq_some`).  Floats have no text here: values without them are `Plain`. -/

namespace Nausicaa.Json

/-! ## Digits -/

def digits (value : Nat) : List Char := Nat.toDigits 10 value

/-- The number at the start of a text. -/
def readDigits (text : List Char) : Option (Nat × List Char) :=
  match text.takeWhile Char.isDigit with
  | [] => none
  | digits => some (Nat.ofDigitChars 10 digits 0, text.dropWhile Char.isDigit)

/-- The text does not go on with a digit. -/
def NoDigit (rest : List Char) : Prop := ∀ char ∈ rest.head?, char.isDigit = false

theorem NoDigit.cons {char : Char} (other : char.isDigit = false) (rest : List Char) :
    NoDigit (char :: rest) := by
  intro first same
  cases same
  exact other

theorem readDigits_digits (value : Nat) {rest : List Char} (stops : NoDigit rest) :
    readDigits (digits value ++ rest) = some (value, rest) := by
  have all : ∀ char ∈ digits value, char.isDigit = true :=
    fun char member => Nat.isDigit_of_mem_toDigits (by decide) (by decide) member
  have behind : rest.takeWhile Char.isDigit = [] ∧ rest.dropWhile Char.isDigit = rest := by
    cases rest with
    | nil => exact ⟨rfl, rfl⟩
    | cons char rest => simp [stops char rfl]
  have back : Nat.ofDigitChars 10 (digits value) 0 = value := Nat.ofDigitChars_ten_toDigits
  rw [readDigits, List.takeWhile_append_of_pos all, List.dropWhile_append_of_pos all, behind.1,
    behind.2, List.append_nil]
  split
  next none => exact absurd none Nat.toDigits_ne_nil
  next => rw [back]

/-! ## Strings -/

/-- The characters with a short escape. -/
def shortEscapes : List (Char × Char) :=
  [('"', '"'), ('\\', '\\'), ('\x08', 'b'), ('\x0c', 'f'), ('\n', 'n'), ('\r', 'r'), ('\t', 't')]

/-- How a character of a string is printed. -/
def escape (char : Char) : List Char :=
  match shortEscapes.find? fun entry => entry.1 = char with
  | some (_, code) => ['\\', code]
  | none =>
    if char.toNat < 0x20 then
      ['\\', 'u', '0', '0', Nat.digitChar (char.toNat / 16), Nat.digitChar (char.toNat % 16)]
    else [char]

def quoted (text : String) : List Char := '"' :: text.toList.flatMap escape ++ ['"']

def hexValue (char : Char) : Option Nat :=
  (List.range 16).find? fun value => value.digitChar = char

/-- The characters up to the closing quote. -/
def readChars : List Char → Option (List Char × List Char)
  | [] => none
  | '"' :: rest => some ([], rest)
  | '\\' :: 'u' :: _ :: _ :: high :: low :: rest =>
    match hexValue high, hexValue low with
    | some high, some low =>
      (readChars rest).map fun read => (Char.ofNat (high * 16 + low) :: read.1, read.2)
    | _, _ => none
  | '\\' :: code :: rest =>
    match shortEscapes.find? fun entry => entry.2 = code with
    | some (char, _) => (readChars rest).map fun read => (char :: read.1, read.2)
    | none => none
  | char :: rest => (readChars rest).map fun read => (char :: read.1, read.2)

theorem hexValue_digitChar : ∀ value < 16, hexValue value.digitChar = some value := by decide

theorem shortEscapes_back : ∀ entry ∈ shortEscapes, entry.2 ≠ 'u' ∧
    (shortEscapes.find? fun other => other.2 = entry.2) = some entry := by
  decide

theorem shortEscapes_quotes : ∀ char : Char,
    (shortEscapes.find? fun entry => entry.1 = char) = none → char ≠ '"' ∧ char ≠ '\\' := by
  intro char none
  simp only [shortEscapes, List.find?_eq_none, List.mem_cons, decide_eq_true_eq] at none
  exact ⟨fun same => none ('"', '"') (by simp) same.symm,
    fun same => none ('\\', '\\') (by simp) same.symm⟩

theorem readChars_escape (char : Char) (rest : List Char) :
    readChars (escape char ++ rest) =
      (readChars rest).map fun read => (char :: read.1, read.2) := by
  rw [escape]
  cases short : shortEscapes.find? fun entry => entry.1 = char with
  | some entry =>
    obtain ⟨other, code⟩ := entry
    have same : other = char := by simpa using List.find?_some short
    obtain ⟨noHex, back⟩ := shortEscapes_back _ (List.mem_of_find?_eq_some short)
    subst same
    have noHex : code ≠ 'u' := noHex
    simp only [List.cons_append, List.nil_append]
    rw [readChars, back]
    intro _ _ _ _ _ hex _
    exact noHex hex
  | none =>
    obtain ⟨noQuote, noEscape⟩ := shortEscapes_quotes char short
    by_cases control : char.toNat < 0x20
    · have high := hexValue_digitChar (char.toNat / 16) (by omega)
      have low := hexValue_digitChar (char.toNat % 16) (by omega)
      have value : char.toNat / 16 * 16 + char.toNat % 16 = char.toNat := by omega
      simp [control, readChars, high, low, value]
    · simp only [control, ↓reduceIte, List.cons_append, List.nil_append]
      rw [readChars]
      · exact noQuote
      · intro _ _ _ _ _ same _
        exact noEscape same
      · intro _ _ same _
        exact noEscape same

theorem readChars_quoted (text : String) (rest : List Char) :
    readChars (text.toList.flatMap escape ++ '"' :: rest) = some (text.toList, rest) := by
  induction text.toList with
  | nil => rfl
  | cons char chars ih =>
    rw [List.flatMap_cons, List.append_assoc, readChars_escape, ih]
    rfl

/-! ## Values -/

namespace Value

mutual
/-- The compact text of a value. -/
def chars : Value → List Char
  | .null => ['n', 'u', 'l', 'l']
  | .bool true => ['t', 'r', 'u', 'e']
  | .bool false => ['f', 'a', 'l', 's', 'e']
  | .number (.posInt value) => digits value
  | .number (.negInt value) => '-' :: digits value.natAbs
  | .number (.float _) => []
  | .string text => quoted text
  | .array [] => ['[', ']']
  | .array (item :: items) => '[' :: item.chars ++ tailChars items
  | .object [] => ['\x7b', '\x7d']
  | .object ((key, value) :: members) =>
    '\x7b' :: quoted key ++ ':' :: value.chars ++ memberChars members

/-- The further items and the end of an array. -/
def tailChars : List Value → List Char
  | [] => [']']
  | item :: items => ',' :: item.chars ++ tailChars items

/-- The further members and the end of an object. -/
def memberChars : List (String × Value) → List Char
  | [] => ['\x7d']
  | (key, value) :: members => ',' :: quoted key ++ ':' :: value.chars ++ memberChars members
end

mutual
/-- Values without floats. -/
def Plain : Value → Prop
  | .null | .bool _ | .string _ | .number (.posInt _) => True
  | .number (.negInt value) => value < 0
  | .number (.float _) => False
  | .array items => PlainItems items
  | .object members => PlainMembers members

def PlainItems : List Value → Prop
  | [] => True
  | item :: items => item.Plain ∧ PlainItems items

def PlainMembers : List (String × Value) → Prop
  | [] => True
  | (_, value) :: members => value.Plain ∧ PlainMembers members
end

theorem plainItems_iff {items : List Value} : PlainItems items ↔ ∀ item ∈ items, item.Plain := by
  induction items with
  | nil => simp [PlainItems]
  | cons item items ih => rw [PlainItems, ih, List.forall_mem_cons]

end Value

/-- A key and the colon behind it. -/
def readKey : List Char → Option (String × List Char)
  | '"' :: rest =>
    match readChars rest with
    | some (key, ':' :: rest) => some (String.ofList key, rest)
    | _ => none
  | _ => none

mutual
/-- The value at the start of a text; the fuel bounds its length. -/
def readValue : Nat → List Char → Option (Value × List Char)
  | 0, _ => none
  | fuel + 1, text =>
    match text with
    | 'n' :: 'u' :: 'l' :: 'l' :: rest => some (.null, rest)
    | 't' :: 'r' :: 'u' :: 'e' :: rest => some (.bool true, rest)
    | 'f' :: 'a' :: 'l' :: 's' :: 'e' :: rest => some (.bool false, rest)
    | '"' :: rest => (readChars rest).map fun read => (.string (String.ofList read.1), read.2)
    | '-' :: rest => (readDigits rest).map fun read => (.number (.negInt (-read.1)), read.2)
    | '[' :: ']' :: rest => some (.array [], rest)
    | '[' :: rest =>
      match readValue fuel rest with
      | some (item, rest) =>
        (readTail fuel rest).map fun read => (.array (item :: read.1), read.2)
      | none => none
    | '\x7b' :: '\x7d' :: rest => some (.object [], rest)
    | '\x7b' :: rest =>
      match readKey rest with
      | some (key, rest) =>
        match readValue fuel rest with
        | some (value, rest) =>
          (readMembers fuel rest).map fun read => (.object ((key, value) :: read.1), read.2)
        | none => none
      | none => none
    | text => (readDigits text).map fun read => (.number (.posInt read.1), read.2)

def readTail : Nat → List Char → Option (List Value × List Char)
  | 0, _ => none
  | fuel + 1, text =>
    match text with
    | ']' :: rest => some ([], rest)
    | ',' :: rest =>
      match readValue fuel rest with
      | some (item, rest) => (readTail fuel rest).map fun read => (item :: read.1, read.2)
      | none => none
    | _ => none

def readMembers : Nat → List Char → Option (List (String × Value) × List Char)
  | 0, _ => none
  | fuel + 1, text =>
    match text with
    | '\x7d' :: rest => some ([], rest)
    | ',' :: rest =>
      match readKey rest with
      | some (key, rest) =>
        match readValue fuel rest with
        | some (value, rest) =>
          (readMembers fuel rest).map fun read => ((key, value) :: read.1, read.2)
        | none => none
      | none => none
    | _ => none
end

theorem readKey_quoted (key : String) (rest : List Char) :
    readKey (quoted key ++ ':' :: rest) = some (key, rest) := by
  simp only [quoted, readKey, List.cons_append, List.append_assoc, List.nil_append,
    readChars_quoted, String.ofList_toList]

theorem digits_cons (value : Nat) :
    ∃ digit more, digits value = digit :: more ∧ digit.isDigit = true := by
  cases shown : digits value with
  | nil => exact absurd shown Nat.toDigits_ne_nil
  | cons digit more =>
    have member : digit ∈ Nat.toDigits 10 value := by
      rw [digits] at shown
      simp [shown]
    exact ⟨digit, more, rfl, Nat.isDigit_of_mem_toDigits (by decide) (by decide) member⟩

/-- A text that starts with a digit is read as a number. -/
theorem readValue_digits (fuel value : Nat) {rest : List Char} (stops : NoDigit rest) :
    readValue (fuel + 1) (digits value ++ rest) = some (.number (.posInt value), rest) := by
  have read := readDigits_digits value stops
  obtain ⟨digit, more, shown, isDigit⟩ := digits_cons value
  rw [shown, List.cons_append] at read ⊢
  have other : ∀ char : Char, char.isDigit = false → digit ≠ char := by
    intro char no same
    rw [same, no] at isDigit
    cases isDigit
  rw [readValue]
  · rw [read]
    rfl
  all_goals
    intro _ same
    exact other _ (by decide) (List.cons.inj same).1

namespace Value

/-- What no value starts with. -/
theorem chars_head (value : Value) (plain : value.Plain) :
    ∃ char rest, value.chars = char :: rest ∧ char ≠ ']' := by
  cases value with
  | null => exact ⟨_, _, rfl, by decide⟩
  | bool value => cases value <;> exact ⟨_, _, rfl, by decide⟩
  | number number =>
    cases number with
    | posInt value =>
      obtain ⟨digit, more, shown, isDigit⟩ := digits_cons value
      refine ⟨digit, more, shown, ?_⟩
      intro same
      rw [same] at isDigit
      cases isDigit
    | negInt value => exact ⟨_, _, rfl, by decide⟩
    | float value => exact plain.elim
  | string text => exact ⟨_, _, rfl, by decide⟩
  | array items => cases items <;> exact ⟨_, _, rfl, by decide⟩
  | object members => cases members <;> exact ⟨_, _, rfl, by decide⟩

theorem noDigit_tailChars (items : List Value) (rest : List Char) :
    NoDigit (tailChars items ++ rest) := by
  cases items <;> exact NoDigit.cons (by decide) _

theorem noDigit_memberChars (members : List (String × Value)) (rest : List Char) :
    NoDigit (memberChars members ++ rest) := by
  cases members <;> exact NoDigit.cons (by decide) _

mutual
theorem readValue_chars : (value : Value) → value.Plain → ∀ (fuel : Nat) (rest : List Char),
    value.chars.length ≤ fuel → NoDigit rest →
      readValue fuel (value.chars ++ rest) = some (value, rest)
  | .null, _, fuel + 1, rest, _, _ => by rfl
  | .bool true, _, fuel + 1, rest, _, _ => by rfl
  | .bool false, _, fuel + 1, rest, _, _ => by rfl
  | .number (.posInt value), _, fuel + 1, rest, _, stops => readValue_digits fuel value stops
  | .number (.posInt value), _, 0, rest, enough, _ => by
    obtain ⟨digit, more, shown, _⟩ := digits_cons value
    rw [chars, shown] at enough
    cases enough
  | .number (.negInt value), plain, fuel + 1, rest, _, stops => by
    have negative : value < 0 := plain
    have back : -(value.natAbs : Int) = value := by omega
    rw [chars, List.cons_append, readValue, readDigits_digits _ stops]
    simp only [Option.map_some, back]
  | .string text, _, fuel + 1, rest, _, _ => by
    simp only [chars, quoted, List.cons_append, List.append_assoc, List.nil_append, readValue,
      readChars_quoted, Option.map_some, String.ofList_toList]
  | .array [], _, fuel + 1, rest, _, _ => by rfl
  | .array (item :: items), plain, fuel + 1, rest, enough, _ => by
    simp only [chars, List.cons_append, List.length_cons, List.length_append,
      Nat.add_le_add_iff_right] at enough
    have first := readValue_chars item plain.1 fuel (tailChars items ++ rest) (by omega)
      (noDigit_tailChars items rest)
    have others := readTail_chars items plain.2 fuel rest (by omega)
    obtain ⟨char, more, shown, other⟩ := chars_head item plain.1
    simp only [chars, List.cons_append, List.append_assoc]
    rw [shown, List.cons_append] at first ⊢
    rw [readValue, first]
    · simp only [others, Option.map_some]
    · intro _ same
      exact other (List.cons.inj same).1
  | .object [], _, fuel + 1, rest, _, _ => by rfl
  | .object ((key, value) :: members), plain, fuel + 1, rest, enough, _ => by
    simp only [chars, List.cons_append, List.length_cons, List.length_append,
      Nat.add_le_add_iff_right] at enough
    have first := readValue_chars value plain.1 fuel (memberChars members ++ rest) (by omega)
      (noDigit_memberChars members rest)
    have others := readMembers_chars members plain.2 fuel rest (by omega)
    have key' := readKey_quoted key (value.chars ++ (memberChars members ++ rest))
    simp only [chars, List.cons_append, List.append_assoc]
    rw [quoted, List.cons_append] at key' ⊢
    rw [readValue]
    · simp only [List.cons_append, List.append_assoc] at key' ⊢
      simp only [key', first, others, Option.map_some]
    · intro _ same
      cases (List.cons.inj same).1

theorem readTail_chars : (items : List Value) → PlainItems items →
    ∀ (fuel : Nat) (rest : List Char), (tailChars items).length ≤ fuel →
      readTail fuel (tailChars items ++ rest) = some (items, rest)
  | [], _, fuel + 1, rest, _ => by rfl
  | item :: items, plain, fuel + 1, rest, enough => by
    simp only [tailChars, List.cons_append, List.length_cons, List.length_append,
      Nat.add_le_add_iff_right] at enough
    have first := readValue_chars item plain.1 fuel (tailChars items ++ rest) (by omega)
      (noDigit_tailChars items rest)
    have others := readTail_chars items plain.2 fuel rest (by omega)
    simp only [tailChars, List.cons_append, List.append_assoc, readTail, first, others,
      Option.map_some]

theorem readMembers_chars : (members : List (String × Value)) → PlainMembers members →
    ∀ (fuel : Nat) (rest : List Char), (memberChars members).length ≤ fuel →
      readMembers fuel (memberChars members ++ rest) = some (members, rest)
  | [], _, fuel + 1, rest, _ => by rfl
  | (key, value) :: members, plain, fuel + 1, rest, enough => by
    simp only [memberChars, List.cons_append, List.length_cons, List.length_append,
      Nat.add_le_add_iff_right] at enough
    have first := readValue_chars value plain.1 fuel (memberChars members ++ rest) (by omega)
      (noDigit_memberChars members rest)
    have others := readMembers_chars members plain.2 fuel rest (by omega)
    have key' := readKey_quoted key (value.chars ++ (memberChars members ++ rest))
    simp only [memberChars, List.cons_append, List.append_assoc, readMembers, key', first,
      others, Option.map_some]
end

/-! ## Texts -/

/-- The text that is written for a value. -/
def text (value : Value) : String := String.ofList value.chars

end Value

/-- The value that is written as the text. -/
def parse (text : String) : Option Value :=
  match readValue text.toList.length text.toList with
  | some (value, []) => if value.text = text then some value else none
  | _ => none

theorem parse_text {value : Value} (plain : value.Plain) : parse value.text = some value := by
  have read := value.readValue_chars plain value.chars.length [] (Nat.le_refl _)
    (by intro char none; cases none)
  rw [List.append_nil] at read
  rw [parse, Value.text, String.toList_ofList, read]
  simp [Value.text]

theorem text_of_parse {text : String} {value : Value} (parsed : parse text = some value) :
    value.text = text := by
  rw [parse] at parsed
  split at parsed
  next read =>
    split at parsed
    next same =>
      cases parsed
      exact same
    next => cases parsed
  next => cases parsed

/-! ## No control characters -/

/-- No control character. -/
def Visible (chars : List Char) : Prop := ∀ char ∈ chars, 0x20 ≤ char.toNat

section Visible

variable {first second : List Char} {char : Char}

@[simp] theorem visible_nil : Visible [] := by
  intro char none
  cases none

@[simp] theorem visible_cons : Visible (char :: first) ↔ 0x20 ≤ char.toNat ∧ Visible first := by
  simp [Visible]

@[simp] theorem visible_append : Visible (first ++ second) ↔ Visible first ∧ Visible second := by
  simp only [Visible, List.mem_append]
  constructor
  · intro all
    exact ⟨fun char member => all char (.inl member), fun char member => all char (.inr member)⟩
  · intro both char member
    exact member.elim (both.1 char) (both.2 char)

@[simp] theorem visible_digits (value : Nat) : Visible (digits value) := by
  intro char member
  have isDigit := Nat.isDigit_of_mem_toDigits (by decide) (by decide) member
  simp only [Char.isDigit, Bool.and_eq_true, decide_eq_true_eq] at isDigit
  have bound : 48 ≤ char.toNat := isDigit.1
  omega

theorem visible_escape (char : Char) : Visible (escape char) := by
  rw [escape]
  cases short : shortEscapes.find? fun entry => entry.1 = char with
  | some entry =>
    have visible : ∀ entry ∈ shortEscapes, 0x20 ≤ entry.2.toNat := by decide
    simpa using visible entry (List.mem_of_find?_eq_some short)
  | none =>
    have hex : ∀ value < 16, 0x20 ≤ value.digitChar.toNat := by decide
    by_cases control : char.toNat < 0x20
    · simpa [control] using ⟨hex _ (by omega), hex _ (by omega)⟩
    · simpa [control] using Nat.le_of_not_lt control

@[simp] theorem visible_quoted (text : String) : Visible (quoted text) := by
  have body : Visible (text.toList.flatMap escape) := by
    intro char member
    obtain ⟨original, _, there⟩ := List.mem_flatMap.mp member
    exact visible_escape original char there
  simp [quoted, body]

end Visible

namespace Value

mutual
theorem visible_chars : (value : Value) → Visible value.chars
  | .null | .bool true | .bool false => by simp [chars]
  | .number (.posInt value) => by simp [chars]
  | .number (.negInt value) => by simp [chars]
  | .number (.float value) => by simp [chars]
  | .string text => by simp [chars]
  | .array [] => by simp [chars]
  | .array (item :: items) => by simp [chars, visible_chars item, visible_tailChars items]
  | .object [] => by simp [chars]
  | .object ((key, value) :: members) => by
    simp [chars, visible_chars value, visible_memberChars members]

theorem visible_tailChars : (items : List Value) → Visible (tailChars items)
  | [] => by simp [tailChars]
  | item :: items => by simp [tailChars, visible_chars item, visible_tailChars items]

theorem visible_memberChars : (members : List (String × Value)) → Visible (memberChars members)
  | [] => by simp [memberChars]
  | (key, value) :: members => by
    simp [memberChars, visible_chars value, visible_memberChars members]
end

/-- A printed value has one line. -/
theorem newline_not_mem_text (value : Value) : '\n' ∉ value.text.toList := by
  intro member
  rw [text, String.toList_ofList] at member
  have visible := value.visible_chars '\n' member
  simp at visible

theorem getLast?_memberChars (members : List (String × Value)) :
    (memberChars members).getLast? = some '\x7d' := by
  induction members with
  | nil => rfl
  | cons member members ih =>
    obtain ⟨key, value⟩ := member
    rw [memberChars, List.getLast?_append, ih]
    rfl

/-- An object is printed between braces. -/
theorem braces (members : List (String × Value)) :
    (object members).text.toList.head? = some '\x7b' ∧
      (object members).text.toList.getLast? = some '\x7d' := by
  rw [text, String.toList_ofList]
  cases members with
  | nil => exact ⟨rfl, rfl⟩
  | cons member members =>
    obtain ⟨key, value⟩ := member
    refine ⟨rfl, ?_⟩
    rw [chars, List.getLast?_append, getLast?_memberChars]
    rfl

end Value

end Nausicaa.Json
