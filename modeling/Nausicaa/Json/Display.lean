import Nausicaa.Json.Text

/-! # What is displayed of a value

`Display` of a value escapes quotes, backslashes and the characters below U+0020 in strings, and
nothing else (`Compact`).  So the control characters that it shows are those of the strings that are
not below U+0020 (`display_control`). -/

namespace Nausicaa.Json

/-- `char::is_control`: the characters of the category Cc. -/
def isControl (char : Char) : Bool :=
  char.toNat < 0x20 || 0x7F ≤ char.toNat && char.toNat < 0xA0

namespace Value

mutual
/-- The strings and the keys of a value. -/
def strings : Value → List String
  | .string text => [text]
  | .array items => itemStrings items
  | .object members => memberStrings members
  | .null | .bool _ | .number _ => []

def itemStrings : List Value → List String
  | [] => []
  | item :: items => item.strings ++ itemStrings items

def memberStrings : List (String × Value) → List String
  | [] => []
  | (key, value) :: members => key :: value.strings ++ memberStrings members
end

end Value

/-- The compact display of values.  How numbers look is left open. -/
structure Compact (display : Value → String) : Prop where
  null : display .null = "null"
  bool : ∀ value, display (.bool value) = if value then "true" else "false"
  number : ∀ number, ∀ char ∈ (display (.number number)).toList, isControl char = false
  string : ∀ text, (display (.string text)).toList = quoted text
  array : ∀ items, (display (.array items)).toList =
    '[' :: [','].intercalate (items.map fun item => (display item).toList) ++ [']']
  object : ∀ members, (display (.object members)).toList =
    '\x7b' :: [','].intercalate (members.map fun member =>
      quoted member.1 ++ ':' :: (display member.2).toList) ++ ['\x7d']

section Control

variable {char : Char} (control : isControl char = true)

include control

theorem control_ne {other : Char} (visible : isControl other = false) : char ≠ other := by
  rintro rfl
  rw [visible] at control
  cases control

/-- A control character is displayed where it is not escaped. -/
theorem mem_escape (other : Char) : char ∈ escape other ↔ 0x20 ≤ char.toNat ∧ char = other := by
  constructor
  · intro member
    refine ⟨visible_escape other char member, ?_⟩
    rw [escape] at member
    cases short : shortEscapes.find? fun entry => entry.1 = other with
    | some entry =>
      rw [short] at member
      have codes : ∀ entry ∈ shortEscapes, isControl entry.2 = false := by decide
      have code := codes entry (List.mem_of_find?_eq_some short)
      obtain rfl | rfl : char = '\\' ∨ char = entry.2 := by simpa using member
      · cases control
      · exact absurd rfl (control_ne control code)
    | none =>
      rw [short] at member
      dsimp only at member
      split at member
      next low =>
        have hex : ∀ value < 16, isControl value.digitChar = false := by decide
        have high' := control_ne control (hex (other.toNat / 16) (by omega))
        have low' := control_ne control (hex (other.toNat % 16) (by omega))
        have backslash := control_ne control (show isControl '\\' = false by decide)
        have unicode := control_ne control (show isControl 'u' = false by decide)
        have zero := control_ne control (show isControl '0' = false by decide)
        simp [high', low', backslash, unicode, zero] at member
      next => exact List.mem_singleton.mp member
  · rintro ⟨high, rfl⟩
    -- No character from U+0020 on that is escaped is a control character.
    have plain : (shortEscapes.find? fun entry => entry.1 = char) = none := by
      rw [List.find?_eq_none]
      intro entry member same
      have short : ∀ entry ∈ shortEscapes, isControl entry.1 = true → entry.1.toNat < 0x20 := by
        decide
      have low := short entry member
      rw [of_decide_eq_true same] at low
      exact absurd (low control) (Nat.not_lt.mpr high)
    rw [escape, plain]
    dsimp only
    rw [if_neg (Nat.not_lt.mpr high)]
    exact List.mem_singleton_self char

theorem mem_quoted (text : String) :
    char ∈ quoted text ↔ 0x20 ≤ char.toNat ∧ char ∈ text.toList := by
  have quote := control_ne control (show isControl '"' = false by decide)
  simp only [quoted, List.cons_append, List.mem_cons, quote, false_or, List.mem_append,
    List.not_mem_nil, or_false, List.mem_flatMap, mem_escape control]
  constructor
  · rintro ⟨other, member, high, rfl⟩
    exact ⟨high, member⟩
  · rintro ⟨high, member⟩
    exact ⟨char, member, high, rfl⟩

theorem mem_intercalate (texts : List (List Char)) :
    char ∈ [','].intercalate texts ↔ ∃ text ∈ texts, char ∈ text := by
  have comma := control_ne control (show isControl ',' = false by decide)
  induction texts with
  | nil => simp
  | cons text texts ih =>
    cases texts with
    | nil => simp
    | cons next texts =>
      rw [List.intercalate_cons_cons, List.mem_append, List.mem_append, List.mem_singleton,
        List.exists_mem_cons_iff]
      simp only [comma, or_false, ih]

end Control

/-! ## Values -/

section Display

variable {display : Value → String}

mutual
/-- The control characters that are displayed are those of the strings that are not escaped. -/
theorem display_control (compact : Compact display) {char : Char} (control : isControl char = true) :
    (value : Value) → (char ∈ (display value).toList ↔
      0x20 ≤ char.toNat ∧ ∃ text ∈ value.strings, char ∈ text.toList)
  | .null => by
    have visible : ∀ other ∈ "null".toList, isControl other = false := by
      simp [isControl]
    have nothing : char ∉ "null".toList := fun member =>
      absurd rfl (control_ne control (visible char member))
    rw [compact.null]
    simp only [nothing, Value.strings, List.not_mem_nil, false_and, exists_false, and_false]
  | .bool value => by
    have visible : ∀ other ∈ "true".toList ++ "false".toList, isControl other = false := by
      simp [isControl]
    have nothing : char ∉ "true".toList ++ "false".toList := fun member =>
      absurd rfl (control_ne control (visible char member))
    rw [List.mem_append, not_or] at nothing
    rw [compact.bool]
    cases value <;>
      simp only [nothing, Value.strings, List.not_mem_nil, false_and, exists_false, and_false,
        if_true, Bool.false_eq_true, if_false]
  | .number number => by
    have visible : char ∉ (display (.number number)).toList := fun member =>
      absurd rfl (control_ne control (compact.number number char member))
    simp [visible, Value.strings]
  | .string text => by
    rw [compact.string, mem_quoted control]
    simp [Value.strings]
  | .array items => by
    have opens := control_ne control (show isControl '[' = false by decide)
    have closes := control_ne control (show isControl ']' = false by decide)
    have inside := display_items compact control items
    rw [compact.array, Value.strings, ← inside]
    simp [opens, closes, mem_intercalate control]
  | .object members => by
    have opens := control_ne control (show isControl '\x7b' = false by decide)
    have closes := control_ne control (show isControl '\x7d' = false by decide)
    have colon := control_ne control (show isControl ':' = false by decide)
    have inside := display_members compact control members
    rw [compact.object, Value.strings, ← inside]
    simp only [List.cons_append, List.mem_cons, opens, false_or, List.mem_append, closes,
      List.not_mem_nil, or_false, mem_intercalate control, List.mem_map, exists_exists_and_eq_and,
      colon]

theorem display_items (compact : Compact display) {char : Char} (control : isControl char = true) :
    (items : List Value) → ((∃ item ∈ items, char ∈ (display item).toList) ↔
      0x20 ≤ char.toNat ∧ ∃ text ∈ Value.itemStrings items, char ∈ text.toList)
  | [] => by simp [Value.itemStrings]
  | item :: items => by
    rw [List.exists_mem_cons_iff, display_control compact control item,
      display_items compact control items, Value.itemStrings]
    simp only [List.mem_append, or_and_right, exists_or, and_or_left]

theorem display_members (compact : Compact display) {char : Char} (control : isControl char = true) :
    (members : List (String × Value)) → ((∃ member ∈ members,
        char ∈ quoted member.1 ∨ char ∈ (display member.2).toList) ↔
      0x20 ≤ char.toNat ∧ ∃ text ∈ Value.memberStrings members, char ∈ text.toList)
  | [] => by simp [Value.memberStrings]
  | (key, value) :: members => by
    rw [List.exists_mem_cons_iff, mem_quoted control, display_control compact control value,
      display_members compact control members, Value.memberStrings, List.cons_append,
      List.exists_mem_cons_iff]
    simp only [List.mem_append, or_and_right, exists_or, and_or_left, or_assoc]
end

end Display

/-! ## The text of a value -/

theorem tailChars_intercalate (item : Value) (items : List Value) :
    item.chars ++ Value.tailChars items =
      [','].intercalate ((item :: items).map Value.chars) ++ [']'] := by
  induction items generalizing item with
  | nil => simp [Value.tailChars]
  | cons next items ih =>
    rw [Value.tailChars, List.cons_append, ih, List.map_cons, List.map_cons, List.map_cons,
      List.intercalate_cons_cons]
    simp

theorem memberChars_intercalate (member : String × Value) (members : List (String × Value)) :
    quoted member.1 ++ ':' :: member.2.chars ++ Value.memberChars members =
      [','].intercalate ((member :: members).map fun member =>
        quoted member.1 ++ ':' :: member.2.chars) ++ ['\x7d'] := by
  induction members generalizing member with
  | nil => simp [Value.memberChars]
  | cons next members ih =>
    obtain ⟨key, value⟩ := next
    rw [Value.memberChars, List.map_cons, List.map_cons, List.intercalate_cons_cons]
    have rest := ih (key, value)
    rw [List.map_cons] at rest
    simp only [List.append_assoc, List.cons_append] at rest ⊢
    simp [rest]

theorem text_compact : Compact Value.text := by
  constructor
  · rfl
  · intro value
    cases value <;> rfl
  · intro number char member
    have digit : ∀ char : Char, char.isDigit = true → isControl char = false := by
      intro char isDigit
      simp only [Char.isDigit, Bool.and_eq_true, decide_eq_true_eq] at isDigit
      have lower : 48 ≤ char.toNat := isDigit.1
      have upper : char.toNat ≤ 57 := isDigit.2
      simp only [isControl, Bool.or_eq_false_iff, Bool.and_eq_false_iff, decide_eq_false_iff_not]
      omega
    have digits' : ∀ value, char ∈ digits value → isControl char = false := fun value member =>
      digit char (Nat.isDigit_of_mem_toDigits (by decide) (by decide) member)
    rw [Value.text, String.toList_ofList] at member
    cases number with
    | posInt value => exact digits' value member
    | negInt value =>
      obtain rfl | member := List.mem_cons.mp member
      · rfl
      · exact digits' _ member
    | float value => cases member
  · intro text
    rw [Value.text, String.toList_ofList, Value.chars]
  · intro items
    cases items with
    | nil => rfl
    | cons item items =>
      rw [Value.text, String.toList_ofList, Value.chars, List.cons_append,
        tailChars_intercalate]
      simp [Value.text]
  · intro members
    cases members with
    | nil => rfl
    | cons member members =>
      obtain ⟨key, value⟩ := member
      rw [Value.text, String.toList_ofList, Value.chars, List.cons_append,
        List.cons_append, memberChars_intercalate (key, value)]
      simp [Value.text]

end Nausicaa.Json
