import Nausicaa.Json.Text
import Nausicaa.Text.Utf8

/-! # Parts of objects

A scanner that knows only strings and brackets runs through every printed object
(`run_object`).  Behind a part of an object it never comes to the end of one, so that parts of
objects, one behind the other, are no object (`object_of_parts`). -/

namespace Nausicaa.Json

/-- Where the scanner is: before the object, or at a depth of brackets outside of strings, in a
string, behind a backslash, or right behind a string. -/
inductive Place where
  | start
  | outside (depth : Nat)
  | inString (depth : Nat)
  | escaped (depth : Nat)
  | closed (depth : Nat)

namespace Place

/-- What can stand behind a string: `,`, `:` and closing brackets. -/
def behindString (byte : UInt8) : Bool := byte ∈ [0x2C, 0x3A, 0x5D, 0x7D]

def outsideStep : Nat → UInt8 → Option Place
  | 0, _ => none
  | depth + 1, byte =>
    if byte = 0x22 then some (.inString (depth + 1))
    else if byte = 0x5B ∨ byte = 0x7B then some (.outside (depth + 2))
    else if byte = 0x5D ∨ byte = 0x7D then some (.outside depth)
    else some (.outside (depth + 1))

def step : Place → UInt8 → Option Place
  | .start, byte => if byte = 0x7B then some (.outside 1) else none
  | .outside depth, byte => outsideStep depth byte
  | .inString depth, byte =>
    if byte = 0x22 then some (.closed depth)
    else if byte = 0x5C then some (.escaped depth)
    else some (.inString depth)
  | .escaped depth, _ => some (.inString depth)
  | .closed depth, byte => if behindString byte then outsideStep depth byte else none

def run (place : Place) : List UInt8 → Option Place
  | [] => some place
  | byte :: rest =>
    match place.step byte with
    | none => none
    | some place => place.run rest

variable {depth : Nat} {place place' : Place} {byte : UInt8} {bytes rest : List UInt8}

theorem run_append (place : Place) (bytes rest : List UInt8) :
    place.run (bytes ++ rest) = (place.run bytes).bind fun place => place.run rest := by
  induction bytes generalizing place with
  | nil => rfl
  | cons byte bytes ih =>
    rw [List.cons_append, run, run]
    cases place.step byte with
    | none => rfl
    | some place => exact ih place

/-! ## Printed values -/

/-- Neither a quote nor a bracket. -/
def Ordinary (byte : UInt8) : Prop :=
  byte ≠ 0x22 ∧ byte ≠ 0x5B ∧ byte ≠ 0x7B ∧ byte ≠ 0x5D ∧ byte ≠ 0x7D

theorem run_ordinary (all : ∀ byte ∈ bytes, Ordinary byte) (rest : List UInt8) :
    (outside (depth + 1)).run (bytes ++ rest) = (outside (depth + 1)).run rest := by
  induction bytes with
  | nil => rfl
  | cons byte bytes ih =>
    obtain ⟨quote, bracket, brace, bracket', brace'⟩ := all byte List.mem_cons_self
    have stays : (outside (depth + 1)).step byte = some (outside (depth + 1)) := by
      simp [step, outsideStep, quote, bracket, brace, bracket', brace']
    rw [List.cons_append, run, stays]
    exact ih fun byte member => all byte (List.mem_cons_of_mem _ member)

theorem run_inner (all : ∀ byte ∈ bytes, byte ≠ 0x22 ∧ byte ≠ 0x5C) (rest : List UInt8) :
    (inString depth).run (bytes ++ rest) = (inString depth).run rest := by
  induction bytes with
  | nil => rfl
  | cons byte bytes ih =>
    obtain ⟨quote, backslash⟩ := all byte List.mem_cons_self
    have stays : (inString depth).step byte = some (inString depth) := by
      simp [step, quote, backslash]
    rw [List.cons_append, run, stays]
    exact ih fun byte member => all byte (List.mem_cons_of_mem _ member)

end Place

/-- The bytes of a text. -/
abbrev bytesOf (chars : List Char) : List UInt8 := chars.flatMap String.utf8EncodeChar

theorem encode_ofList (chars : List Char) :
    Text.encode (String.ofList chars) = bytesOf chars := by
  rw [Text.encode_eq_flatMap, String.toList_ofList]

theorem bytesOf_append (first second : List Char) :
    bytesOf (first ++ second) = bytesOf first ++ bytesOf second := List.flatMap_append

namespace Place

variable {depth : Nat} {rest : List UInt8}

theorem run_escape (char : Char) (rest : List UInt8) :
    (inString depth).run (bytesOf (escape char) ++ rest) = (inString depth).run rest := by
  rw [escape]
  cases short : shortEscapes.find? fun entry => entry.1 = char with
  | some entry =>
    have single : ∀ entry ∈ shortEscapes, (String.utf8EncodeChar entry.2).length = 1 := by decide
    obtain ⟨byte, code⟩ :=
      List.length_eq_one_iff.mp (single entry (List.mem_of_find?_eq_some short))
    show (inString depth).run (0x5C :: (String.utf8EncodeChar entry.2 ++ []) ++ rest) = _
    rw [code]
    rfl
  | none =>
    by_cases control : char.toNat < 0x20
    · have hex : ∀ value < 16, (String.utf8EncodeChar value.digitChar).all fun byte =>
          byte ≠ 0x22 ∧ byte ≠ 0x5C := by decide
      have digit (value : Nat) (small : value < 16) (byte : UInt8)
          (member : byte ∈ String.utf8EncodeChar value.digitChar) : byte ≠ 0x22 ∧ byte ≠ 0x5C :=
        of_decide_eq_true (List.all_eq_true.mp (hex value small) byte member)
      rw [if_pos control]
      -- The backslash and the `u` lead back into the string.
      show (inString depth).run (bytesOf ['0', '0', Nat.digitChar (char.toNat / 16),
        Nat.digitChar (char.toNat % 16)] ++ rest) = _
      apply run_inner
      intro byte member
      simp only [List.mem_flatMap, List.mem_cons, List.not_mem_nil, or_false] at member
      obtain ⟨char, rfl | rfl | rfl | rfl, member⟩ := member
      · exact digit 0 (by decide) byte member
      · exact digit 0 (by decide) byte member
      · exact digit _ (by omega) byte member
      · exact digit _ (by omega) byte member
    · obtain ⟨noQuote, noEscape⟩ := shortEscapes_quotes char short
      rw [if_neg control]
      apply run_inner
      intro byte member
      rw [bytesOf, List.flatMap_singleton] at member
      constructor
      · intro same
        subst same
        exact noQuote (Char.toNat_inj.mp (Text.mem_utf8EncodeChar (by decide) member))
      · intro same
        subst same
        exact noEscape (Char.toNat_inj.mp (Text.mem_utf8EncodeChar (by decide) member))

theorem run_quoted (text : String) (rest : List UInt8) :
    (outside (depth + 1)).run (bytesOf (quoted text) ++ rest) =
      (closed (depth + 1)).run rest := by
  have inner : ∀ chars : List Char,
      (inString (depth + 1)).run (bytesOf (chars.flatMap escape) ++ 0x22 :: rest) =
        (closed (depth + 1)).run rest := by
    intro chars
    induction chars with
    | nil => rfl
    | cons char chars ih =>
      rw [List.flatMap_cons, bytesOf_append, List.append_assoc, run_escape, ih]
  rw [quoted, List.cons_append, bytesOf, List.flatMap_cons, ← bytesOf, bytesOf_append,
    List.append_assoc, List.append_assoc]
  exact inner text.toList

/-- What follows can stand behind a string. -/
def Follows (rest : List UInt8) : Prop := ∃ byte more, rest = byte :: more ∧ behindString byte = true

/-- Behind a string the scanner goes on as outside of it. -/
theorem run_closed (follows : Follows rest) :
    (closed depth).run rest = (outside depth).run rest := by
  obtain ⟨byte, more, rfl, behind⟩ := follows
  have same : (closed depth).step byte = (outside depth).step byte := by
    rw [step, step, if_pos behind]
  rw [run, run, same]

theorem ordinary_digits (value : Nat) : ∀ byte ∈ bytesOf (digits value), Ordinary byte := by
  intro byte member
  obtain ⟨digit, present, member⟩ := List.mem_flatMap.mp member
  have isDigit := Nat.isDigit_of_mem_toDigits (by decide) (by decide) present
  simp only [Char.isDigit, Bool.and_eq_true, decide_eq_true_eq] at isDigit
  have low : 48 ≤ digit.toNat := isDigit.1
  have high : digit.toNat ≤ 57 := isDigit.2
  have other : ∀ special : UInt8, special.toNat < 0x80 →
      special.toNat < 48 ∨ 57 < special.toNat → byte ≠ special := by
    intro special ascii apart same
    subst same
    have value := Text.mem_utf8EncodeChar ascii member
    omega
  exact ⟨other _ (by decide) (by decide), other _ (by decide) (by decide),
    other _ (by decide) (by decide), other _ (by decide) (by decide),
    other _ (by decide) (by decide)⟩

theorem follows_tailChars (items : List Value) (rest : List UInt8) :
    Follows (bytesOf (Value.tailChars items) ++ rest) := by
  cases items <;> exact ⟨_, _, rfl, by decide⟩

theorem follows_memberChars (members : List (String × Value)) (rest : List UInt8) :
    Follows (bytesOf (Value.memberChars members) ++ rest) := by
  cases members with
  | nil => exact ⟨_, _, rfl, by decide⟩
  | cons member members =>
    obtain ⟨key, value⟩ := member
    exact ⟨_, _, rfl, by decide⟩

theorem run_key (key : String) (chars : List Char) (rest : List UInt8) :
    (outside (depth + 1)).run (bytesOf (quoted key) ++ (bytesOf (':' :: chars) ++ rest)) =
      (outside (depth + 1)).run (bytesOf chars ++ rest) := by
  have follows : Follows (bytesOf (':' :: chars) ++ rest) := ⟨_, _, rfl, by decide⟩
  rw [run_quoted, run_closed follows]
  rfl

mutual
theorem run_chars : (value : Value) → ∀ (depth : Nat) (rest : List UInt8), Follows rest →
    (outside (depth + 1)).run (bytesOf value.chars ++ rest) = (outside (depth + 1)).run rest
  | .null, depth, rest, _ => by rfl
  | .bool true, depth, rest, _ => by rfl
  | .bool false, depth, rest, _ => by rfl
  | .number (.posInt value), depth, rest, _ => run_ordinary (ordinary_digits value) rest
  | .number (.negInt value), depth, rest, _ => run_ordinary (ordinary_digits value.natAbs) rest
  | .number (.float value), depth, rest, _ => by rfl
  | .string text, depth, rest, follows => (run_quoted text rest).trans (run_closed follows)
  | .array [], depth, rest, _ => by rfl
  | .array (item :: items), depth, rest, _ => by
    have first := run_chars item (depth + 1) (bytesOf (Value.tailChars items) ++ rest)
      (follows_tailChars items rest)
    have others := run_tailChars items (depth + 1) rest
    rw [Value.chars, bytesOf_append, List.append_assoc]
    exact first.trans others
  | .object [], depth, rest, _ => by rfl
  | .object ((key, value) :: members), depth, rest, _ => by
    have first := run_chars value (depth + 1) (bytesOf (Value.memberChars members) ++ rest)
      (follows_memberChars members rest)
    have others := run_memberChars members (depth + 1) rest
    rw [Value.chars, bytesOf_append, bytesOf_append, List.append_assoc, List.append_assoc]
    exact (run_key key value.chars _).trans (first.trans others)

theorem run_tailChars : (items : List Value) → ∀ (depth : Nat) (rest : List UInt8),
    (outside (depth + 1)).run (bytesOf (Value.tailChars items) ++ rest) = (outside depth).run rest
  | [], depth, rest => by rfl
  | item :: items, depth, rest => by
    have first := run_chars item depth (bytesOf (Value.tailChars items) ++ rest)
      (follows_tailChars items rest)
    have others := run_tailChars items depth rest
    rw [Value.tailChars, bytesOf_append, List.append_assoc]
    exact first.trans others

theorem run_memberChars : (members : List (String × Value)) → ∀ (depth : Nat)
    (rest : List UInt8),
    (outside (depth + 1)).run (bytesOf (Value.memberChars members) ++ rest) =
      (outside depth).run rest
  | [], depth, rest => by rfl
  | (key, value) :: members, depth, rest => by
    have first := run_chars value depth (bytesOf (Value.memberChars members) ++ rest)
      (follows_memberChars members rest)
    have others := run_memberChars members depth rest
    rw [Value.memberChars, bytesOf_append, bytesOf_append, List.append_assoc, List.append_assoc]
    exact (run_key key value.chars _).trans (first.trans others)
end

/-- The scanner runs through an object. -/
theorem run_object (members : List (String × Value)) :
    start.run (Text.encode (Value.object members).text) = some (outside 0) := by
  rw [Value.text, encode_ofList]
  cases members with
  | nil => rfl
  | cons member members =>
    obtain ⟨key, value⟩ := member
    have first := run_chars value 0 (bytesOf (Value.memberChars members) ++ [])
      (follows_memberChars members [])
    have others := run_memberChars members 0 []
    rw [← List.append_nil (bytesOf _), Value.chars, bytesOf_append, bytesOf_append,
      List.append_assoc, List.append_assoc]
    exact (run_key key value.chars _).trans (first.trans others)

/-! ## Depth -/

/-- The object has begun and has not ended. -/
def Inside : Place → Prop
  | .start => False
  | .outside depth | .inString depth | .escaped depth | .closed depth => 0 < depth

/-- The same place with more brackets around it. -/
def deeper (more : Nat) : Place → Place
  | .start => .outside more
  | .outside depth => .outside (depth + more)
  | .inString depth => .inString (depth + more)
  | .escaped depth => .escaped (depth + more)
  | .closed depth => .closed (depth + more)

theorem inside_deeper (place : Place) (more : Nat) : (place.deeper (more + 1)).Inside := by
  cases place with
  | start => exact Nat.succ_pos _
  | _ depth => exact Nat.succ_pos _

variable {place place' : Place} {byte : UInt8} {bytes : List UInt8}

theorem outsideStep_inside (stepped : outsideStep depth byte = some place) :
    place.Inside ∨ place = .outside 0 := by
  cases depth with
  | zero => cases stepped
  | succ depth =>
    rw [outsideStep] at stepped
    split at stepped
    · cases stepped
      exact .inl (Nat.succ_pos _)
    · split at stepped
      · cases stepped
        exact .inl (Nat.succ_pos _)
      · split at stepped
        · cases stepped
          cases depth with
          | zero => exact .inr rfl
          | succ depth => exact .inl (Nat.succ_pos _)
        · cases stepped
          exact .inl (Nat.succ_pos _)

theorem step_inside (inside : place.Inside) (stepped : place.step byte = some place') :
    place'.Inside ∨ place' = .outside 0 := by
  cases place with
  | start => exact inside.elim
  | outside depth => exact outsideStep_inside stepped
  | inString depth =>
    rw [step] at stepped
    split at stepped
    · cases stepped
      exact .inl inside
    · split at stepped <;> cases stepped <;> exact .inl inside
  | escaped depth =>
    cases stepped
    exact .inl inside
  | closed depth =>
    rw [step] at stepped
    split at stepped
    · exact outsideStep_inside stepped
    · cases stepped

theorem run_inside (begun : place.Inside ∨ place = .outside 0)
    (ran : place.run bytes = some place') : place'.Inside ∨ place' = .outside 0 := by
  induction bytes generalizing place with
  | nil =>
    cases ran
    exact begun
  | cons byte bytes ih =>
    rw [run] at ran
    split at ran
    next => cases ran
    next next stepped =>
      cases begun with
      | inl inside => exact ih (step_inside inside stepped) ran
      | inr ended =>
        subst ended
        cases stepped

/-- Behind its first byte an object has begun. -/
theorem run_start (nonempty : bytes ≠ []) (ran : start.run bytes = some place) :
    place.Inside ∨ place = .outside 0 := by
  cases bytes with
  | nil => exact absurd rfl nonempty
  | cons byte bytes =>
    rw [run] at ran
    split at ran
    next => cases ran
    next next stepped =>
      rw [step] at stepped
      split at stepped
      · cases stepped
        have begun : (outside 1).Inside := Nat.one_pos
        exact run_inside (.inl begun) ran
      · cases stepped

theorem outsideStep_deeper {more : Nat} (stepped : outsideStep depth byte = some place) :
    outsideStep (depth + more) byte = some (place.deeper more) := by
  cases depth with
  | zero => cases stepped
  | succ depth =>
    rw [outsideStep] at stepped
    rw [Nat.add_right_comm, outsideStep]
    split at stepped
    next quote =>
      cases stepped
      rw [if_pos quote, deeper, Nat.add_right_comm]
    next other =>
      rw [if_neg other]
      split at stepped
      next opening =>
        cases stepped
        rw [if_pos opening, deeper, Nat.add_right_comm]
      next other =>
        rw [if_neg other]
        split at stepped
        next closing =>
          cases stepped
          rw [if_pos closing, deeper]
        next other =>
          cases stepped
          rw [if_neg other, deeper, Nat.add_right_comm]

theorem step_deeper {more : Nat} (stepped : place.step byte = some place') :
    (place.deeper (more + 1)).step byte = some (place'.deeper (more + 1)) := by
  cases place with
  | start =>
    rw [step] at stepped
    split at stepped
    next brace =>
      cases stepped
      subst brace
      rw [deeper, deeper, Nat.add_comm 1]
      rfl
    next => cases stepped
  | outside depth =>
    rw [deeper, step]
    exact outsideStep_deeper stepped
  | inString depth =>
    rw [step] at stepped
    rw [deeper, step]
    split at stepped
    next quote =>
      cases stepped
      rw [if_pos quote, deeper]
    next other =>
      rw [if_neg other]
      split at stepped
      next backslash =>
        cases stepped
        rw [if_pos backslash, deeper]
      next other =>
        cases stepped
        rw [if_neg other, deeper]
  | escaped depth =>
    cases stepped
    rfl
  | closed depth =>
    rw [step] at stepped
    rw [deeper, step]
    split at stepped
    next behind =>
      rw [if_pos behind]
      exact outsideStep_deeper stepped
    next => cases stepped

theorem run_deeper (more : Nat) (ran : place.run bytes = some place') :
    (place.deeper (more + 1)).run bytes = some (place'.deeper (more + 1)) := by
  induction bytes generalizing place with
  | nil =>
    cases ran
    rfl
  | cons byte bytes ih =>
    rw [run] at ran
    split at ran
    next => cases ran
    next next stepped =>
      rw [run, step_deeper stepped]
      exact ih ran

end Place

/-! ## Parts -/

/-- A printed object whose first key starts with a byte that cannot stand behind a string. -/
structure Printed (whole : List UInt8) : Prop where
  runs : Place.start.run whole = some (.outside 0)
  opens : ∃ byte rest, whole = 0x7B :: 0x22 :: byte :: rest ∧ Place.behindString byte = false

/-- A part of a printed object, from its start on. -/
def Part (part : List UInt8) : Prop := part ≠ [] ∧ ∃ whole, Printed whole ∧ part <+: whole

namespace Part

open Place

variable {part : List UInt8} {place place' : Place}

/-- Behind a part the scanner is in the object, or at its end. -/
theorem run_start (isPart : Part part) : ∃ place, start.run part = some place ∧
    (place.Inside ∨ place = .outside 0) := by
  obtain ⟨nonempty, _, ⟨runs, _⟩, rest, rfl⟩ := isPart
  rw [run_append] at runs
  obtain ⟨place, ran, _⟩ := Option.bind_eq_some_iff.mp runs
  exact ⟨place, ran, Place.run_start nonempty ran⟩

/-- At the end of the object nothing of it is missing. -/
theorem whole {whole : List UInt8} (printed : Printed whole) (begins : part <+: whole)
    (ended : start.run part = some (.outside 0)) : part = whole := by
  obtain ⟨rest, rfl⟩ := begins
  have runs := printed.runs
  rw [run_append, ended] at runs
  cases rest with
  | nil => rw [List.append_nil]
  | cons byte rest => cases runs

theorem head (isPart : Part part) : ∃ rest, part = 0x7B :: rest := by
  obtain ⟨nonempty, _, ⟨_, byte, rest, rfl, _⟩, behind, shown⟩ := isPart
  cases part with
  | nil => exact absurd rfl nonempty
  | cons first part =>
    cases (List.cons.inj shown).1
    exact ⟨part, rfl⟩

/-- A string cannot go on with another object. -/
theorem inString {depth : Nat} (isPart : Part part)
    (ran : (Place.inString (depth + 1)).run part = some place) : place.Inside := by
  obtain ⟨nonempty, _, ⟨_, third, rest, rfl, other⟩, behind, shown⟩ := isPart
  match part, nonempty with
  | [first], _ =>
    cases (List.cons.inj shown).1
    cases ran
    exact Nat.succ_pos _
  | [first, second], _ =>
    cases (List.cons.inj shown).1
    cases (List.cons.inj (List.cons.inj shown).2).1
    cases ran
    exact Nat.succ_pos _
  | first :: second :: byte :: more, _ =>
    cases (List.cons.inj shown).1
    cases (List.cons.inj (List.cons.inj shown).2).1
    cases (List.cons.inj (List.cons.inj (List.cons.inj shown).2).2).1
    have stuck : (closed (depth + 1)).step third = none := by
      rw [step, other]
      rfl
    have ran : (closed (depth + 1)).run (third :: more) = some place := ran
    rw [run, stuck] at ran
    cases ran

/-- From within an object, a part of another one leads no further out. -/
theorem run_inside (isPart : Part part) (inside : place.Inside)
    (ran : place.run part = some place') : place'.Inside := by
  obtain ⟨deep, begun, _⟩ := isPart.run_start
  match place, inside, ran with
  | .outside (depth + 1), _, ran =>
    have same := (run_deeper depth begun).symm
    have start : (Place.start.deeper (depth + 1)) = .outside (depth + 1) := rfl
    rw [start, ran] at same
    cases same
    exact inside_deeper _ _
  | .inString (depth + 1), _, ran => exact isPart.inString ran
  | .escaped (depth + 1), _, ran =>
    obtain ⟨rest, rfl⟩ := isPart.head
    exact isPart.inString ran
  | .closed (depth + 1), _, ran =>
    obtain ⟨rest, rfl⟩ := isPart.head
    cases ran

end Part

/-- Parts, one behind the other, lead from within an object no further out. -/
theorem parts_inside {parts : List (List UInt8)} (all : ∀ part ∈ parts, Part part)
    {place place' : Place} (inside : place.Inside) (ran : place.run parts.flatten = some place') :
    place'.Inside := by
  induction parts generalizing place with
  | nil =>
    cases ran
    exact inside
  | cons part parts ih =>
    rw [List.flatten_cons, Place.run_append] at ran
    obtain ⟨next, ran, rest⟩ := Option.bind_eq_some_iff.mp ran
    have within := (all part List.mem_cons_self).run_inside inside ran
    exact ih (fun part member => all part (List.mem_cons_of_mem _ member)) within rest

/-- Parts of objects, one behind the other, are an object only if there is one of them and
nothing of it is missing. -/
theorem object_of_parts {parts : List (List UInt8)} (all : ∀ part ∈ parts, Part part)
    {members : List (String × Value)}
    (joined : parts.flatten = Text.encode (Value.object members).text) :
    ∃ part, parts = [part] ∧ ∀ whole, Printed whole → part <+: whole → part = whole := by
  have runs := Place.run_object members
  rw [← joined] at runs
  cases parts with
  | nil => cases runs
  | cons part parts =>
    have isPart := all part List.mem_cons_self
    have others : ∀ part ∈ parts, Part part :=
      fun part member => all part (List.mem_cons_of_mem _ member)
    obtain ⟨place, ran, inside | ended⟩ := isPart.run_start
    · rw [List.flatten_cons, Place.run_append, ran] at runs
      have within := parts_inside others inside runs
      exact absurd within (Nat.lt_irrefl 0)
    · subst ended
      cases parts with
      | nil => exact ⟨part, rfl, fun whole printed begins => Part.whole printed begins ran⟩
      | cons next parts =>
        obtain ⟨rest, rfl⟩ := (others next List.mem_cons_self).head
        rw [List.flatten_cons, Place.run_append, ran] at runs
        cases runs

end Nausicaa.Json
