import Nausicaa.Json.Text
import Nausicaa.Store.Serde
import Nausicaa.Task.Journal
import Nausicaa.Text.Utf8

/-! # Task records as JSON

What the `Serialize` and `Deserialize` derives of the crate `task` write and read.  With the
compact text of JSON values this is a `Codec`, and it is faithful for events without floats
and without null outputs (`serde_faithful`). -/

namespace Nausicaa.Task

open Core (ToolReceipt)
open Json (Value field)
open Json.Value (asString asNat asList Plain)

namespace ArtifactRef

def toJson (artifact : ArtifactRef) : Value := .object [
  ("id", .string artifact.id),
  ("content", .string artifact.content)]

def fromJson : Value → Option ArtifactRef
  | .object members => do
    return {
      id := ← field members "id" asString
      content := ← field members "content" asString }
  | _ => none

end ArtifactRef

namespace Criterion

def toJson (criterion : Criterion) : Value := .object [
  ("id", .string criterion.id),
  ("artifact_id", .string criterion.artifactId),
  ("expected", .string criterion.expected)]

def fromJson : Value → Option Criterion
  | .object members => do
    return {
      id := ← field members "id" asString
      artifactId := ← field members "artifact_id" asString
      expected := ← field members "expected" asString }
  | _ => none

end Criterion

namespace Budget

def toJson (budget : Budget) : Value := .object [
  ("max_attempts", .number (.posInt budget.maxAttempts))]

def fromJson : Value → Option Budget
  | .object members => do
    return { maxAttempts := ← field members "max_attempts" asNat }
  | _ => none

end Budget

namespace TaskSpec

def toJson (spec : TaskSpec) : Value := .object [
  ("objective", .string spec.objective),
  ("criteria", .array (spec.criteria.map Criterion.toJson)),
  ("budget", spec.budget.toJson)]

def fromJson : Value → Option TaskSpec
  | .object members => do
    return {
      objective := ← field members "objective" asString
      criteria := ← field members "criteria" (asList Criterion.fromJson)
      budget := ← field members "budget" Budget.fromJson }
  | _ => none

end TaskSpec

namespace TaskEvent

def toJson : TaskEvent → Value
  | .created spec => .object [("event", .string "created"), ("spec", spec.toJson)]
  | .attemptStarted turnId => .object [
    ("event", .string "attempt_started"), ("turn_id", .string turnId)]
  | .attemptChecked artifacts receipts => .object [
    ("event", .string "attempt_checked"),
    ("artifacts", .array (artifacts.map ArtifactRef.toJson)),
    ("receipts", .array (receipts.map ToolReceipt.toJson))]
  | .blocked reason => .object [("event", .string "blocked"), ("reason", .string reason)]

def fromJson : Value → Option TaskEvent
  | .object members => do
    match ← field members "event" asString with
    | "created" => return .created (← field members "spec" TaskSpec.fromJson)
    | "attempt_started" => return .attemptStarted (← field members "turn_id" asString)
    | "attempt_checked" =>
      return .attemptChecked
        (← field members "artifacts" (asList ArtifactRef.fromJson))
        (← field members "receipts" (asList ToolReceipt.fromJson))
    | "blocked" => return .blocked (← field members "reason" asString)
    | _ => none
  | _ => none

end TaskEvent

namespace Record

def toJson (record : Record) : Value := .object [
  ("version", .number (.posInt record.version)),
  ("sequence", .number (.posInt record.sequence)),
  ("payload", record.payload.toJson)]

def fromJson : Value → Option Record
  | .object members => do
    return {
      version := ← field members "version" asNat
      sequence := ← field members "sequence" asNat
      payload := ← field members "payload" TaskEvent.fromJson }
  | _ => none

end Record

/-- The line without its newline. -/
def withoutNewline (text : String) : String :=
  match text.toList.reverse with
  | '\n' :: rest => String.ofList rest.reverse
  | _ => text

/-- The texts of records, and nothing else, are read. -/
def serde : Codec where
  encode record := Text.encode record.toJson.text
  decode bytes :=
    match ((Text.decode bytes).bind fun text => Json.parse (withoutNewline text)).bind
        Record.fromJson with
    | some record => .ok record
    | none => .error "not a record"

/-! ## Reading back -/

@[simp] theorem ArtifactRef.fromJson_toJson (artifact : ArtifactRef) :
    fromJson artifact.toJson = some artifact := by
  simp [fromJson, toJson, field, asString]

@[simp] theorem Criterion.fromJson_toJson (criterion : Criterion) :
    fromJson criterion.toJson = some criterion := by
  simp [fromJson, toJson, field, asString]

@[simp] theorem TaskSpec.fromJson_toJson (spec : TaskSpec) :
    fromJson spec.toJson = some spec := by
  have criteria := Value.asList_map Criterion.fromJson_toJson spec.criteria
  simp [fromJson, toJson, field, asString, asNat, criteria, Budget.toJson, Budget.fromJson]

/-- The receipts in an event can be read back. -/
def TaskEvent.Readable : TaskEvent → Prop
  | .attemptChecked _ receipts => ∀ receipt ∈ receipts,
    receipt.toJson.Plain ∧ receipt.output ≠ some .null
  | .created _ | .attemptStarted _ | .blocked _ => True

/-- An output that is not null is not lost. -/
theorem readBack_eq {receipt : ToolReceipt} (content : receipt.output ≠ some .null) :
    receipt.readBack = receipt := by
  obtain ⟨callId, toolName, status, action, output, error⟩ := receipt
  cases output with
  | none => rfl
  | some value =>
    have content : value ≠ .null := fun null => content (congrArg some null)
    simp [ToolReceipt.readBack, Option.filter, content]

theorem TaskEvent.fromJson_toJson (event : TaskEvent) (reads : event.Readable) :
    fromJson event.toJson = some event := by
  cases event with
  | attemptChecked artifacts receipts =>
    have kept : ∀ receipt ∈ receipts, ToolReceipt.fromJson receipt.toJson = some receipt := by
      intro receipt member
      rw [ToolReceipt.fromJson_toJson, readBack_eq (reads receipt member).2]
    simp [fromJson, toJson, field, asString,
      Value.asList_map ArtifactRef.fromJson_toJson artifacts, Value.asList_map_mem kept]
  | created _ | attemptStarted _ | blocked _ => simp [fromJson, toJson, field, asString]

theorem Record.fromJson_toJson (record : Record) (reads : record.payload.Readable) :
    fromJson record.toJson = some record := by
  simp [fromJson, toJson, field, asNat, TaskEvent.fromJson_toJson record.payload reads]

/-! ## Plain values -/

theorem plain_array {α : Type} {write : α → Value} {items : List α}
    (plain : ∀ item ∈ items, (write item).Plain) : (Value.array (items.map write)).Plain := by
  rw [Plain, Value.plainItems_iff]
  intro value member
  obtain ⟨item, present, rfl⟩ := List.mem_map.mp member
  exact plain item present

theorem TaskEvent.plain (event : TaskEvent) (reads : event.Readable) : event.toJson.Plain := by
  cases event with
  | created spec =>
    have criteria : (Value.array (spec.criteria.map Criterion.toJson)).Plain :=
      plain_array fun criterion _ => by simp [Criterion.toJson, Plain, Value.PlainMembers]
    simp [toJson, TaskSpec.toJson, Budget.toJson, Plain, Value.PlainMembers]
    exact criteria
  | attemptChecked artifacts receipts =>
    have snapshots : (Value.array (artifacts.map ArtifactRef.toJson)).Plain :=
      plain_array fun artifact _ => by simp [ArtifactRef.toJson, Plain, Value.PlainMembers]
    have kept : (Value.array (receipts.map ToolReceipt.toJson)).Plain :=
      plain_array fun receipt member => (reads receipt member).1
    simp [toJson, Plain, Value.PlainMembers]
    exact ⟨snapshots, kept⟩
  | attemptStarted turnId => simp [toJson, Plain, Value.PlainMembers]
  | blocked reason => simp [toJson, Plain, Value.PlainMembers]

theorem Record.plain (record : Record) (reads : record.payload.Readable) :
    record.toJson.Plain := by
  simp [toJson, Plain, Value.PlainMembers, record.payload.plain reads]

/-- The derives, with the compact text, do what is asked of a codec. -/
theorem serde_faithful : serde.Faithful TaskEvent.Readable where
  decodes record reads := by
    have line : Text.encode "\n" = [newline] := by decide
    have decoded : Text.decode (serde.encode record ++ [newline]) =
        some (record.toJson.text ++ "\n") := by
      rw [serde, ← line, ← Text.encode_append, Text.decode_encode]
    have stripped : withoutNewline (record.toJson.text ++ "\n") = record.toJson.text := by
      simp [withoutNewline]
    simp only [serde] at decoded ⊢
    simp only [decoded, Option.bind_some, stripped, Json.parse_text (record.plain reads),
      record.fromJson_toJson reads]
  oneLine record _ := by
    intro member
    have member : UInt8.ofNat '\n'.toNat ∈ Text.encode record.toJson.text := member
    exact record.toJson.newline_not_mem_text (Text.mem_encode (by decide) member)

end Nausicaa.Task
