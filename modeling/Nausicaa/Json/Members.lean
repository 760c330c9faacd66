import Mathlib.Data.List.Basic
import Std.Data.TreeMap
import Nausicaa.Json.Value

/-! # Reading and writing objects

How a derived reader takes an object apart: a field is the one member under its name, an
optional field may be missing or null, other members are ignored.  A value can be nested
in an object exactly as deep as in each of its members (`depth_object_le`). -/

namespace Nausicaa.Json

variable {α : Type}

/-! ## Fields -/

/-- The values under a key. -/
def valuesAt (key : String) : List (String × Value) → List Value
  | [] => []
  | (name, value) :: members =>
    if name = key then value :: valuesAt key members else valuesAt key members

/-- A field that has to be there, once. -/
def field (members : List (String × Value)) (key : String) (read : Value → Option α) : Option α :=
  match valuesAt key members with
  | [value] => read value
  | _ => none

/-- What is found for a field of an optional type. -/
def readOptional (read : Value → Option α) : List Value → Option (Option α)
  | [] => some none
  | [.null] => some none
  | [value] => (read value).map some
  | _ => none

def optionalField (members : List (String × Value)) (key : String) (read : Value → Option α) :
    Option (Option α) :=
  readOptional read (valuesAt key members)

/-- A member that is skipped when there is nothing to write. -/
def optionalMember (key : String) : Option Value → List (String × Value)
  | none => []
  | some value => [(key, value)]

section Fields

variable {key name : String} {value : Value} {members more : List (String × Value)}
variable {read : Value → Option α}

@[simp] theorem valuesAt_nil : valuesAt key [] = [] := rfl

@[simp] theorem valuesAt_cons_self : valuesAt key ((key, value) :: members) =
    value :: valuesAt key members := by
  simp [valuesAt]

@[simp] theorem valuesAt_cons_ne (other : name ≠ key) :
    valuesAt key ((name, value) :: members) = valuesAt key members := by
  simp [valuesAt, other]

@[simp] theorem valuesAt_append :
    valuesAt key (members ++ more) = valuesAt key members ++ valuesAt key more := by
  induction members with
  | nil => rfl
  | cons member members ih =>
    obtain ⟨name, value⟩ := member
    by_cases same : name = key
    · simp [valuesAt, same, ih]
    · simp [valuesAt, same, ih]

@[simp] theorem valuesAt_optionalMember_self (value : Option Value) :
    valuesAt key (optionalMember key value) = value.toList := by
  cases value with
  | none => rfl
  | some value => simp [optionalMember]

@[simp] theorem valuesAt_optionalMember_ne (value : Option Value) (other : name ≠ key) :
    valuesAt key (optionalMember name value) = [] := by
  cases value with
  | none => rfl
  | some value => simp [optionalMember, other]

/-- Where nothing is written as null, an optional field is read as it was written. -/
theorem readOptional_written {write : α → Value} (reads : ∀ item, read (write item) = some item)
    (content : ∀ item, write item ≠ .null) (written : Option α) :
    readOptional read (written.map write).toList = some written := by
  cases written with
  | none => rfl
  | some item =>
    have found := reads item
    cases shown : write item with
    | null => exact absurd shown (content item)
    | bool _ | number _ | string _ | array _ | object _ =>
      rw [shown] at found
      simp [readOptional, shown, found]

/-- A value in an optional field is lost if it is null. -/
theorem readOptional_value (written : Option Value) :
    readOptional some written.toList = some (written.filter (· ≠ .null)) := by
  cases written with
  | none => rfl
  | some value =>
    cases value with
    | null => rfl
    | bool _ | number _ | string _ | array _ | object _ => simp [readOptional, Option.filter]

end Fields

/-! ## Values -/

namespace Value

def asString : Value → Option String
  | .string text => some text
  | _ => none

def asNat : Value → Option Nat
  | .number (.posInt value) => some value
  | _ => none

def asArray : Value → Option (List Value)
  | .array items => some items
  | _ => none

/-- The member of an object, the last one where the text had several. -/
def get (value : Value) (key : String) : Option Value :=
  match value with
  | .object members => (valuesAt key members).getLast?
  | _ => none

def isNull : Value → Bool
  | .null => true
  | _ => false

/-- A member that is not null. -/
def present (value : Value) (key : String) : Option Value :=
  (value.get key).filter fun item => !item.isNull

def asList (read : Value → Option α) : Value → Option (List α)
  | .array items => items.mapM read
  | _ => none

/-- One of `all`, by its name. -/
def asVariant (all : List α) (name : α → String) : Value → Option α
  | .string text => all.find? fun variant => name variant = text
  | _ => none

/-! ### Objects from maps -/

/-- The object with the members of a map, in the order of their names. -/
def ofMap (members : Std.TreeMap String Value) : Value := .object members.toList

theorem valuesAt_eq_nil {key : String} {members : List (String × Value)}
    (absent : ∀ value, (key, value) ∉ members) : valuesAt key members = [] := by
  induction members with
  | nil => rfl
  | cons member members ih =>
    obtain ⟨name, value⟩ := member
    have other : name ≠ key := by
      intro same
      exact absent value (same ▸ List.mem_cons_self)
    rw [valuesAt_cons_ne other]
    exact ih fun value' member => absent value' (List.mem_cons_of_mem _ member)

theorem valuesAt_of_mem {key : String} {value : Value} {members : List (String × Value)}
    (distinct : members.Pairwise fun first second => first.1 ≠ second.1)
    (member : (key, value) ∈ members) : valuesAt key members = [value] := by
  induction members with
  | nil => cases member
  | cons first members ih =>
    obtain ⟨apart, rest⟩ := List.pairwise_cons.mp distinct
    cases List.mem_cons.mp member with
    | inl same =>
      subst same
      rw [valuesAt_cons_self, valuesAt_eq_nil]
      intro value' later
      exact apart _ later rfl
    | inr later =>
      obtain ⟨name, value'⟩ := first
      have other : name ≠ key := apart _ later
      rw [valuesAt_cons_ne other]
      exact ih rest later

@[simp] theorem get_ofMap (members : Std.TreeMap String Value) (key : String) :
    (ofMap members).get key = members[key]? := by
  have distinct : members.toList.Pairwise fun first second => first.1 ≠ second.1 := by
    apply members.distinct_keys_toList.imp
    intro first second apart same
    exact apart (by rw [same]; exact Std.ReflCmp.compare_self)
  unfold ofMap Value.get
  cases present : members[key]? with
  | none =>
    have absent : ∀ value, (key, value) ∉ members.toList := by
      intro value member
      rw [Std.TreeMap.mem_toList_iff_getElem?_eq_some, present] at member
      cases member
    simp [valuesAt_eq_nil absent]
  | some value =>
    have member : (key, value) ∈ members.toList :=
      Std.TreeMap.mem_toList_iff_getElem?_eq_some.mpr present
    simp [valuesAt_of_mem distinct member]

theorem asList_map_mem {read : Value → Option α} {write : α → Value} {items : List α}
    (reads : ∀ item ∈ items, read (write item) = some item) :
    asList read (.array (items.map write)) = some items := by
  simp only [asList]
  induction items with
  | nil => rfl
  | cons item items ih =>
    rw [List.map_cons, List.mapM_cons, reads item List.mem_cons_self,
      ih fun item member => reads item (List.mem_cons_of_mem _ member)]
    rfl

theorem asList_map {read : Value → Option α} {write : α → Value}
    (reads : ∀ item, read (write item) = some item) (items : List α) :
    asList read (.array (items.map write)) = some items :=
  asList_map_mem fun item _ => reads item

/-! ## Nesting of arrays and objects -/

section Nesting

variable {items : List Value} {members : List (String × Value)} {bound : Nat}

@[simp] theorem depth_string (text : String) : (string text).depth = 0 := by rw [depth]

@[simp] theorem depth_number (value : Number) : (number value).depth = 0 := by rw [depth]

theorem depthItems_le : depthItems items ≤ bound ↔ ∀ item ∈ items, item.depth ≤ bound := by
  induction items with
  | nil => simp [depthItems]
  | cons item items ih => rw [depthItems, Nat.max_le, ih, List.forall_mem_cons]

theorem depthMembers_le :
    depthMembers members ≤ bound ↔ ∀ member ∈ members, member.2.depth ≤ bound := by
  induction members with
  | nil => simp [depthMembers]
  | cons member members ih => rw [depthMembers, Nat.max_le, ih, List.forall_mem_cons]

theorem depth_array_le : (array items).depth ≤ bound + 1 ↔ ∀ item ∈ items, item.depth ≤ bound := by
  rw [depth, Nat.add_le_add_iff_right, depthItems_le]

theorem depth_object_le :
    (object members).depth ≤ bound + 1 ↔ ∀ member ∈ members, member.2.depth ≤ bound := by
  rw [depth, Nat.add_le_add_iff_right, depthMembers_le]

theorem forall_optionalMember {key : String} {written : Option Value} :
    (∀ member ∈ optionalMember key written, member.2.depth ≤ bound) ↔
      ∀ value ∈ written, value.depth ≤ bound := by
  cases written with
  | none => simp [optionalMember]
  | some value => simp [optionalMember]

end Nesting

end Value

end Nausicaa.Json
