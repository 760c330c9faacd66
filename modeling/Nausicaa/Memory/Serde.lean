import Nausicaa.Memory.Journal
import Nausicaa.TaskLedger.Serde

/-! # Memory envelopes as JSON

What the `Serialize` and `Deserialize` derives of the memory crate write and read.  With the compact
text of JSON values this is a faithful `Codec` (`serde_faithful`). -/

namespace Nausicaa.Memory

open Json (Value field optionalField readOptional)
open Json.Value (asList asNat asString Plain)
open Std (ExtTreeSet)
open TaskLedger (orNull readOptional_orNull)

namespace MemoryRecord

def toJson (record : MemoryRecord) : Value := .object [
  ("id", .string record.id),
  ("text", .string record.text),
  ("tags", .array (record.tags.toList.map .string)),
  ("source", orNull (record.source.map .string)),
  ("created_at_unix_ms", .number (.posInt record.createdAtUnixMs)),
  ("updated_at_unix_ms", .number (.posInt record.updatedAtUnixMs))]

def fromJson : Value → Option MemoryRecord
  | .object members => do
    return {
      id := ← field members "id" asString
      text := ← field members "text" asString
      tags := ExtTreeSet.ofList (← field members "tags" (asList asString))
      source := ← optionalField members "source" asString
      createdAtUnixMs := ← field members "created_at_unix_ms" asNat
      updatedAtUnixMs := ← field members "updated_at_unix_ms" asNat }
  | _ => none

end MemoryRecord

namespace MemoryEvent

def toJson : MemoryEvent → Value
  | .upsert record => .object [("type", .string "upsert"), ("record", record.toJson)]
  | .forget id => .object [("type", .string "forget"), ("id", .string id)]

def fromJson : Value → Option MemoryEvent
  | .object members => do
    match ← field members "type" asString with
    | "upsert" => return .upsert (← field members "record" MemoryRecord.fromJson)
    | "forget" => return .forget (← field members "id" asString)
    | _ => none
  | _ => none

end MemoryEvent

namespace MemoryEnvelope

def toJson (envelope : MemoryEnvelope) : Value := .object [
  ("sequence", .number (.posInt envelope.sequence)),
  ("at_unix_ms", .number (.posInt envelope.atUnixMs)),
  ("event", envelope.event.toJson)]

def fromJson : Value → Option MemoryEnvelope
  | .object members => do
    return {
      sequence := ← field members "sequence" asNat
      atUnixMs := ← field members "at_unix_ms" asNat
      event := ← field members "event" MemoryEvent.fromJson }
  | _ => none

end MemoryEnvelope

/-- The texts of envelopes, and nothing else, are read. -/
def serde : Codec where
  encode envelope := envelope.toJson.text
  decode text :=
    match (Json.parse text).bind MemoryEnvelope.fromJson with
    | some envelope => .ok envelope
    | none => .error "not an envelope"

/-! ## Reading back -/

/-- A set is the set of its items. -/
theorem ofList_toList (tags : ExtTreeSet String) : ExtTreeSet.ofList tags.toList = tags := by
  apply ExtTreeSet.ext_mem
  intro tag
  simp

theorem MemoryRecord.fromJson_toJson (record : MemoryRecord) :
    fromJson record.toJson = some record := by
  have texts : ∀ text, asString (.string text) = some text := fun _ => rfl
  have source : readOptional asString [orNull (record.source.map .string)] = some record.source :=
    readOptional_orNull texts (by simp) _
  simp [fromJson, toJson, field, optionalField, asString, asNat, source,
    Json.Value.asList_map texts, ofList_toList]

theorem MemoryEvent.fromJson_toJson (event : MemoryEvent) : fromJson event.toJson = some event := by
  cases event with
  | upsert record => simp [fromJson, toJson, field, asString, record.fromJson_toJson]
  | forget id => simp [fromJson, toJson, field, asString]

theorem MemoryEnvelope.fromJson_toJson (envelope : MemoryEnvelope) :
    fromJson envelope.toJson = some envelope := by
  simp [fromJson, toJson, field, asNat, envelope.event.fromJson_toJson]

theorem plain_strings (texts : List String) : Json.Value.PlainItems (texts.map .string) := by
  rw [Json.Value.plainItems_iff]
  intro item member
  obtain ⟨text, _, rfl⟩ := List.mem_map.mp member
  simp [Plain]

theorem MemoryRecord.plain (record : MemoryRecord) : record.toJson.Plain := by
  cases source : record.source <;>
    simp [toJson, Plain, Json.Value.PlainMembers, orNull, plain_strings, source]

theorem MemoryEnvelope.plain (envelope : MemoryEnvelope) : envelope.toJson.Plain := by
  cases event : envelope.event with
  | upsert record =>
    simp [toJson, MemoryEvent.toJson, Plain, Json.Value.PlainMembers, record.plain, event]
  | forget id => simp [toJson, MemoryEvent.toJson, Plain, Json.Value.PlainMembers, event]

/-- The derives, with the compact text, do what is asked of a codec. -/
theorem serde_faithful : serde.Faithful where
  decodes envelope := by
    simp only [serde, Json.parse_text envelope.plain, Option.bind_some, envelope.fromJson_toJson]
  oneLine envelope := Json.Value.newline_not_mem_text envelope.toJson
  object _ := Json.Value.braces _

end Nausicaa.Memory
