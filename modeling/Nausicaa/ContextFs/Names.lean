import Nausicaa.Core.Operation
import Nausicaa.Interaction.Fallible
import Nausicaa.Text.Utf8

/-! # The names of snapshots

`component` and `paths` of `context-fs/src/output.rs`.  Two ids have different components, and a
component is the name of a file in the directory it is joined to, whatever the id was. -/

namespace Nausicaa.ContextFs

open Core (ContextError ThreadId)
open Text (encode)

def readError (message : String) : ContextError := .read message

/-- `{byte:02x}`. -/
def hexByte (byte : UInt8) : List Char :=
  [Nat.digitChar (byte.toNat / 16), Nat.digitChar (byte.toNat % 16)]

def component (id : String) : Except ContextError String :=
  if id.isEmpty ∨ 96 < (encode id).length then
    .error (readError "archive IDs must contain 1..=96 UTF-8 bytes")
  else .ok (String.ofList ((encode id).flatMap hexByte))

/-- A file of a thread's directory under the root of the archive. -/
structure ArchivePath where
  directory : String
  file : String
  deriving DecidableEq, Repr

def paths (thread : ThreadId) (call : String) : Except ContextError ArchivePath := do
  let directory ← component thread.value
  let file ← component call
  return ⟨directory, file ++ ".json"⟩

/-- The name under which a snapshot is written before it is published. -/
def pendingName (id : String) : String := ".pending-" ++ id

/-- The path is that of a file that was not published, or not under this name. -/
def ArchivePath.Pending (path : ArchivePath) : Prop := ∃ id, path.file = pendingName id

/-- Joined to a directory, the name leads to an entry of it. -/
structure Plain (name : String) : Prop where
  filled : name ≠ ""
  whole : '/' ∉ name.toList
  notSelf : name ≠ "."
  notParent : name ≠ ".."

/-! ## Components -/

section Components

variable {id id' name : String} {thread thread' : ThreadId} {call call' : String}
variable {path path' : ArchivePath}

theorem digitChar_inj : ∀ digit < 16, ∀ digit' < 16,
    Nat.digitChar digit = Nat.digitChar digit' → digit = digit' := by decide

theorem digitChar_plain : ∀ digit < 16, Nat.digitChar digit ≠ '/' ∧ Nat.digitChar digit ≠ '.' := by
  decide

theorem hexByte_inj {byte byte' : UInt8} (same : hexByte byte = hexByte byte') : byte = byte' := by
  have bound := byte.toNat_lt
  have bound' := byte'.toNat_lt
  obtain ⟨high, low⟩ : _ ∧ _ := by simpa only [hexByte, List.cons.injEq, and_true] using same
  have high := digitChar_inj _ (by omega) _ (by omega) high
  have low := digitChar_inj _ (by omega) _ (by omega) low
  apply UInt8.toNat_inj.mp
  omega

theorem mem_hexByte {byte : UInt8} {char : Char} (member : char ∈ hexByte byte) :
    char ≠ '/' ∧ char ≠ '.' := by
  have bound := byte.toNat_lt
  simp only [hexByte, List.mem_cons, List.not_mem_nil, or_false] at member
  obtain rfl | rfl := member
  · exact digitChar_plain _ (by omega)
  · exact digitChar_plain _ (by omega)

theorem flatMap_hexByte_inj {bytes bytes' : List UInt8}
    (same : bytes.flatMap hexByte = bytes'.flatMap hexByte) : bytes = bytes' := by
  induction bytes generalizing bytes' with
  | nil =>
    cases bytes' with
    | nil => rfl
    | cons byte' bytes' => cases same
  | cons byte bytes ih =>
    cases bytes' with
    | nil => cases same
    | cons byte' bytes' =>
      obtain ⟨first, rest⟩ := List.append_inj same rfl
      rw [hexByte_inj first, ih rest]

theorem component_ok (found : component id = .ok name) :
    id ≠ "" ∧ name.toList = (encode id).flatMap hexByte := by
  rw [component] at found
  split at found
  next => cases found
  next valid =>
    cases found
    constructor
    · intro empty
      exact valid (.inl (by simp [empty]))
    · exact String.toList_ofList

theorem component_inj (found : component id = .ok name) (found' : component id' = .ok name) :
    id = id' := by
  have same := (component_ok found).2.symm.trans (component_ok found').2
  exact Text.encode_inj (flatMap_hexByte_inj same)

/-- A component has characters, and none of them is a dot or a separator. -/
theorem component_chars (found : component id = .ok name) :
    (∃ first rest, name.toList = first :: rest) ∧
      ∀ char ∈ name.toList, char ≠ '/' ∧ char ≠ '.' := by
  obtain ⟨filled, chars⟩ := component_ok found
  rw [chars]
  constructor
  · cases bytes : encode id with
    | nil => exact absurd (Text.encode_inj (bytes.trans Text.encode_empty.symm)) filled
    | cons byte bytes => exact ⟨_, _, rfl⟩
  · intro char member
    obtain ⟨byte, _, member⟩ := List.mem_flatMap.mp member
    exact mem_hexByte member

theorem paths_ok (found : paths thread call = .ok path) :
    component thread.value = .ok path.directory ∧
      ∃ name, component call = .ok name ∧ path.file = name ++ ".json" := by
  obtain ⟨directory, first, rest⟩ := Fallible.bind_ok.mp found
  obtain ⟨name, second, same⟩ := Fallible.bind_ok.mp rest
  cases same
  exact ⟨first, name, second, rfl⟩

theorem component_valid (filled : id ≠ "") (short : (encode id).length ≤ 96) :
    ∃ name, component id = .ok name := by
  refine ⟨_, if_neg ?_⟩
  intro invalid
  obtain empty | long := invalid
  · exact filled (String.isEmpty_iff.mp empty)
  · omega

theorem paths_valid (filled : thread.value ≠ "") (short : (encode thread.value).length ≤ 96)
    (filled' : call ≠ "") (short' : (encode call).length ≤ 96) :
    ∃ path, paths thread call = .ok path := by
  obtain ⟨directory, named⟩ := component_valid filled short
  obtain ⟨name, named'⟩ := component_valid filled' short'
  exact ⟨⟨directory, name ++ ".json"⟩, by rw [paths, named, named']; rfl⟩

theorem paths_directory_inj (found : paths thread call = .ok path)
    (found' : paths thread' call' = .ok path') (same : path.directory = path'.directory) :
    thread = thread' := by
  have first := (paths_ok found).1
  rw [same] at first
  have same := component_inj first (paths_ok found').1
  cases thread
  cases thread'
  exact congrArg Core.Id.mk same

/-- Two snapshots share no file. -/
theorem paths_inj (found : paths thread call = .ok path) (found' : paths thread' call' = .ok path) :
    thread = thread' ∧ call = call' := by
  refine ⟨paths_directory_inj found found' rfl, ?_⟩
  obtain ⟨_, name, named, file⟩ := paths_ok found
  obtain ⟨_, name', named', file'⟩ := paths_ok found'
  have same : name.toList = name'.toList := by
    have same := congrArg String.toList (file.symm.trans file')
    rw [String.toList_append, String.toList_append] at same
    exact List.append_cancel_right same
  rw [String.toList_inj.mp same] at named
  exact component_inj named named'

/-- A name that begins like a component leads to an entry of its own directory. -/
theorem plain_of_chars {first : Char} {rest : List Char} (chars : name.toList = first :: rest)
    (dotless : first ≠ '.') (separated : '/' ∉ name.toList) : Plain name where
  filled := by
    intro same
    rw [same] at chars
    cases chars
  whole := separated
  notSelf := by
    intro same
    rw [same] at chars
    exact dotless (List.cons.inj chars).1.symm
  notParent := by
    intro same
    rw [same] at chars
    exact dotless (List.cons.inj chars).1.symm

theorem paths_plain (found : paths thread call = .ok path) :
    Plain path.directory ∧ Plain path.file ∧ ¬ path.Pending := by
  obtain ⟨named, name, named', file⟩ := paths_ok found
  obtain ⟨⟨first, rest, chars⟩, plain⟩ := component_chars named
  obtain ⟨⟨first', rest', chars'⟩, plain'⟩ := component_chars named'
  have dotless : first' ≠ '.' := (plain' first' (by simp [chars'])).2
  have fileChars : path.file.toList = first' :: (rest' ++ ".json".toList) := by
    rw [file, String.toList_append, chars', List.cons_append]
  refine ⟨?_, ?_, ?_⟩
  · apply plain_of_chars chars (plain first (by simp [chars])).2
    intro member
    exact (plain _ member).1 rfl
  · apply plain_of_chars fileChars dotless
    intro member
    rw [file, String.toList_append, List.mem_append] at member
    cases member with
    | inl member => exact (plain' _ member).1 rfl
    | inr member => exact absurd member (by decide)
  · intro pending
    obtain ⟨id, same⟩ := pending
    rw [same, pendingName, String.toList_append] at fileChars
    exact dotless (List.cons.inj fileChars).1.symm

end Components

end Nausicaa.ContextFs
