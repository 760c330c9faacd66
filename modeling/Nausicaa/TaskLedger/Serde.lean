import Nausicaa.Json.Members
import Nausicaa.Json.Joined
import Nausicaa.TaskLedger.Reopening

/-! # Ledger envelopes as JSON

What the `Serialize` and `Deserialize` derives of the crate `task-ledger` write and read.
With the compact text of JSON values this is a `Codec`, and it is faithful for values
without floats (`serde_faithful`). -/

namespace Nausicaa.TaskLedger

open Json (Value field optionalField readOptional)
open Json.Value (asString asNat asVariant Plain)

/-- An optional field that is written as null where there is nothing. -/
def orNull : Option Value → Value
  | some value => value
  | none => .null

namespace TaskId

def toJson (id : TaskId) : Value := .string id.value

def fromJson (value : Value) : Option TaskId := value.asString.map .mk

end TaskId

namespace TaskStatus

def name : TaskStatus → String
  | .pending => "pending"
  | .running => "running"
  | .succeeded => "succeeded"
  | .failed => "failed"
  | .cancelled => "cancelled"
  | .unknown => "unknown"

def toJson (status : TaskStatus) : Value := .string status.name

def fromJson : Value → Option TaskStatus :=
  asVariant [.pending, .running, .succeeded, .failed, .cancelled, .unknown] name

end TaskStatus

namespace DeliveryState

def name : DeliveryState → String
  | .notReady => "not_ready"
  | .pending => "pending"
  | .acknowledged => "acknowledged"

def toJson (delivery : DeliveryState) : Value := .string delivery.name

def fromJson : Value → Option DeliveryState := asVariant [.notReady, .pending, .acknowledged] name

end DeliveryState

namespace TaskLease

def toJson (lease : TaskLease) : Value := .object [
  ("worker_id", .string lease.workerId),
  ("expires_at_unix_ms", .number (.posInt lease.expiresAtUnixMs))]

def fromJson : Value → Option TaskLease
  | .object members => do
    return {
      workerId := ← field members "worker_id" asString
      expiresAtUnixMs := ← field members "expires_at_unix_ms" asNat }
  | _ => none

end TaskLease

namespace TaskRecord

def toJson (task : TaskRecord) : Value := .object [
  ("id", task.id.toJson),
  ("idempotency_key", .string task.idempotencyKey),
  ("payload", task.payload),
  ("status", task.status.toJson),
  ("attempt", .number (.posInt task.attempt)),
  ("lease", orNull (task.lease.map TaskLease.toJson)),
  ("result", orNull task.result),
  ("error", orNull (task.error.map .string)),
  ("delivery", task.delivery.toJson),
  ("created_at_unix_ms", .number (.posInt task.createdAtUnixMs)),
  ("updated_at_unix_ms", .number (.posInt task.updatedAtUnixMs))]

def fromJson : Value → Option TaskRecord
  | .object members => do
    return {
      id := ← field members "id" TaskId.fromJson
      idempotencyKey := ← field members "idempotency_key" asString
      payload := ← field members "payload" some
      status := ← field members "status" TaskStatus.fromJson
      attempt := ← field members "attempt" asNat
      lease := ← optionalField members "lease" TaskLease.fromJson
      result := ← optionalField members "result" some
      error := ← optionalField members "error" asString
      delivery := ← field members "delivery" DeliveryState.fromJson
      createdAtUnixMs := ← field members "created_at_unix_ms" asNat
      updatedAtUnixMs := ← field members "updated_at_unix_ms" asNat }
  | _ => none

end TaskRecord

namespace LedgerEvent

def toJson : LedgerEvent → Value
  | .submitted task => .object [("type", .string "submitted"), ("task", task.toJson)]
  | .claimed taskId lease => .object [
    ("type", .string "claimed"), ("task_id", taskId.toJson), ("lease", lease.toJson)]
  | .heartbeat taskId expiresAtUnixMs => .object [
    ("type", .string "heartbeat"),
    ("task_id", taskId.toJson),
    ("expires_at_unix_ms", .number (.posInt expiresAtUnixMs))]
  | .succeeded taskId result => .object [
    ("type", .string "succeeded"), ("task_id", taskId.toJson), ("result", result)]
  | .failed taskId error => .object [
    ("type", .string "failed"), ("task_id", taskId.toJson), ("error", .string error)]
  | .cancelled taskId reason => .object [
    ("type", .string "cancelled"), ("task_id", taskId.toJson), ("reason", .string reason)]
  | .markedUnknown taskId reason => .object [
    ("type", .string "marked_unknown"), ("task_id", taskId.toJson), ("reason", .string reason)]
  | .deliveryAcknowledged taskId => .object [
    ("type", .string "delivery_acknowledged"), ("task_id", taskId.toJson)]

def fromJson : Value → Option LedgerEvent
  | .object members => do
    match ← field members "type" asString with
    | "submitted" => return .submitted (← field members "task" TaskRecord.fromJson)
    | "claimed" =>
      return .claimed
        (← field members "task_id" TaskId.fromJson)
        (← field members "lease" TaskLease.fromJson)
    | "heartbeat" =>
      return .heartbeat
        (← field members "task_id" TaskId.fromJson)
        (← field members "expires_at_unix_ms" asNat)
    | "succeeded" =>
      return .succeeded
        (← field members "task_id" TaskId.fromJson)
        (← field members "result" some)
    | "failed" =>
      return .failed
        (← field members "task_id" TaskId.fromJson)
        (← field members "error" asString)
    | "cancelled" =>
      return .cancelled
        (← field members "task_id" TaskId.fromJson)
        (← field members "reason" asString)
    | "marked_unknown" =>
      return .markedUnknown
        (← field members "task_id" TaskId.fromJson)
        (← field members "reason" asString)
    | "delivery_acknowledged" =>
      return .deliveryAcknowledged (← field members "task_id" TaskId.fromJson)
    | _ => none
  | _ => none

end LedgerEvent

namespace LedgerEnvelope

def toJson (envelope : LedgerEnvelope) : Value := .object [
  ("sequence", .number (.posInt envelope.sequence)),
  ("at_unix_ms", .number (.posInt envelope.atUnixMs)),
  ("event", envelope.event.toJson)]

def fromJson : Value → Option LedgerEnvelope
  | .object members => do
    return {
      sequence := ← field members "sequence" asNat
      atUnixMs := ← field members "at_unix_ms" asNat
      event := ← field members "event" LedgerEvent.fromJson }
  | _ => none

end LedgerEnvelope

/-- The texts of envelopes, and nothing else, are read. -/
def serde : Codec where
  encode envelope := envelope.toJson.text
  decode text :=
    match (Json.parse text).bind LedgerEnvelope.fromJson with
    | some envelope => .ok envelope
    | none => .error "not an envelope"

/-! ## Reading back -/

@[simp] theorem TaskId.fromJson_toJson (id : TaskId) : fromJson id.toJson = some id := rfl

@[simp] theorem TaskStatus.fromJson_toJson (status : TaskStatus) :
    fromJson status.toJson = some status := by
  cases status <;> rfl

@[simp] theorem DeliveryState.fromJson_toJson (delivery : DeliveryState) :
    fromJson delivery.toJson = some delivery := by
  cases delivery <;> rfl

@[simp] theorem TaskLease.fromJson_toJson (lease : TaskLease) :
    fromJson lease.toJson = some lease := by
  simp [fromJson, toJson, field, asString, asNat]

/-- A field that is null is read as nothing. -/
theorem readOptional_orNull {α : Type} {read : Value → Option α} {write : α → Value}
    (reads : ∀ item, read (write item) = some item) (content : ∀ item, write item ≠ .null)
    (written : Option α) : readOptional read [orNull (written.map write)] = some written := by
  cases written with
  | none => rfl
  | some item =>
    have kept := Json.readOptional_written reads content (some item)
    exact kept

theorem TaskRecord.fromJson_toJson (task : TaskRecord) (unfinished : task.result = none) :
    fromJson task.toJson = some task := by
  have lease : readOptional TaskLease.fromJson [orNull (task.lease.map TaskLease.toJson)] =
      some task.lease :=
    readOptional_orNull TaskLease.fromJson_toJson (by simp [TaskLease.toJson]) _
  have texts : ∀ text, asString (.string text) = some text := fun _ => rfl
  have error : readOptional asString [orNull (task.error.map .string)] = some task.error :=
    readOptional_orNull texts (by simp) _
  have result : readOptional some [orNull task.result] = some task.result := by
    rw [unfinished]
    rfl
  simp [fromJson, toJson, field, optionalField, asString, asNat, lease, error, result]

theorem LedgerEvent.fromJson_toJson (event : LedgerEvent) (reads : event.Readable Plain) :
    fromJson event.toJson = some event := by
  cases event with
  | submitted task =>
    simp [fromJson, toJson, field, asString, TaskRecord.fromJson_toJson task reads.2]
  | claimed _ _ | heartbeat _ _ | succeeded _ _ | failed _ _ | cancelled _ _ | markedUnknown _ _
  | deliveryAcknowledged _ => simp [fromJson, toJson, field, asString, asNat]

theorem LedgerEnvelope.fromJson_toJson (envelope : LedgerEnvelope)
    (reads : envelope.event.Readable Plain) : fromJson envelope.toJson = some envelope := by
  simp [fromJson, toJson, field, asNat, LedgerEvent.fromJson_toJson envelope.event reads]

/-! ## Plain values -/

theorem TaskRecord.plain (task : TaskRecord) (payload : task.payload.Plain)
    (unfinished : task.result = none) : task.toJson.Plain := by
  cases lease : task.lease <;> cases error : task.error <;>
    simp [toJson, Plain, Json.Value.PlainMembers, TaskId.toJson, TaskStatus.toJson,
      DeliveryState.toJson, TaskLease.toJson, orNull, payload, unfinished, lease, error]

theorem LedgerEvent.plain (event : LedgerEvent) (reads : event.Readable Plain) :
    event.toJson.Plain := by
  cases event with
  | submitted task =>
    simp [toJson, Plain, Json.Value.PlainMembers, task.plain reads.1 reads.2]
  | succeeded taskId result =>
    have reads : result.Plain := reads
    simp [toJson, Plain, Json.Value.PlainMembers, TaskId.toJson, reads]
  | claimed _ _ | heartbeat _ _ | failed _ _ | cancelled _ _ | markedUnknown _ _
  | deliveryAcknowledged _ =>
    simp [toJson, Plain, Json.Value.PlainMembers, TaskId.toJson, TaskLease.toJson]

theorem LedgerEnvelope.plain (envelope : LedgerEnvelope)
    (reads : envelope.event.Readable Plain) : envelope.toJson.Plain := by
  simp [toJson, Plain, Json.Value.PlainMembers, envelope.event.plain reads]

/-- The derives, with the compact text, do what is asked of a codec. -/
theorem serde_faithful : serde.Faithful Plain where
  decodes envelope reads := by
    simp only [serde, Json.parse_text (envelope.plain reads), Option.bind_some,
      envelope.fromJson_toJson reads]
  oneLine envelope _ := Json.Value.newline_not_mem_text envelope.toJson
  object _ _ := Json.Value.braces _

theorem LedgerEnvelope.printed (envelope : LedgerEnvelope) :
    Json.Printed (Text.encode (serde.encode envelope)) where
  runs := Json.Place.run_object _
  opens := by
    have bytes : Text.encode (serde.encode envelope) = Json.bytesOf envelope.toJson.chars :=
      Json.encode_ofList _
    rw [bytes]
    exact ⟨0x73, _, rfl, by decide⟩

/-- Parts of envelopes are no envelope. -/
theorem serde_unjoined (readable : Json.Value → Prop) : serde.Unjoined readable := by
  intro parts all incomplete text joined
  cases decoded : serde.decode text with
  | error message => exact ⟨message, rfl⟩
  | ok envelope =>
    have cut : ∀ part ∈ parts, Json.Part part := by
      intro part member
      obtain ⟨nonempty, envelope, _, begins⟩ := all part member
      exact ⟨nonempty, _, envelope.printed, begins⟩
    simp only [serde] at decoded
    split at decoded
    next envelope' read =>
      obtain ⟨value, parsed, read⟩ := Option.bind_eq_some_iff.mp read
      cases value with
      | object members =>
        have same : parts.flatten = Text.encode (Json.Value.object members).text := by
          rw [← joined, Json.text_of_parse parsed]
        obtain ⟨part, rfl, whole⟩ := Json.object_of_parts cut same
        obtain ⟨other, _, begins, missing⟩ := incomplete part rfl
        exact absurd (whole _ other.printed begins) missing
      | _ => cases read
    next => cases decoded

end Nausicaa.TaskLedger
