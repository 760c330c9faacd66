import Nausicaa.Core.Protocol
import Nausicaa.Json.Members

/-! # Event envelopes as JSON

What the `Serialize` and `Deserialize` derives of `event.rs`, `protocol.rs`, `model.rs` and
`approval.rs` write and read, with their field names, tags and skipped fields.  An envelope
is read back as it was written but for outputs that are null
(`EventEnvelope.fromJson_toJson`). -/

namespace Nausicaa.Core

open Json (Value field optionalField optionalMember readOptional readOptional_written
  readOptional_value)
open Json.Value (asString asNat asList asVariant)

/-! ## Identifiers and unit variants -/

def Id.toJson {kind : IdKind} (id : Id kind) : Value := .string id.value

def Id.fromJson {kind : IdKind} (value : Value) : Option (Id kind) := value.asString.map .mk

namespace EffectKind

def name : EffectKind → String
  | .readOnly => "read_only"
  | .workspaceWrite => "workspace_write"
  | .externalSideEffect => "external_side_effect"

def toJson (effect : EffectKind) : Value := .string effect.name

def fromJson : Value → Option EffectKind :=
  asVariant [.readOnly, .workspaceWrite, .externalSideEffect] name

end EffectKind

namespace RetrySafety

def name : RetrySafety → String
  | .safe => "safe"
  | .idempotent => "idempotent"
  | .unsafeRetry => "unsafe"

def toJson (safety : RetrySafety) : Value := .string safety.name

def fromJson : Value → Option RetrySafety := asVariant [.safe, .idempotent, .unsafeRetry] name

end RetrySafety

namespace ReceiptStatus

def name : ReceiptStatus → String
  | .succeeded => "succeeded"
  | .failed => "failed"
  | .denied => "denied"
  | .unknown => "unknown"

def toJson (status : ReceiptStatus) : Value := .string status.name

def fromJson : Value → Option ReceiptStatus :=
  asVariant [.succeeded, .failed, .denied, .unknown] name

end ReceiptStatus

namespace StopReason

def name : StopReason → String
  | .endTurn => "end_turn"
  | .toolUse => "tool_use"
  | .maxTokens => "max_tokens"
  | .other => "other"

def toJson (reason : StopReason) : Value := .string reason.name

def fromJson : Value → Option StopReason :=
  asVariant [.endTurn, .toolUse, .maxTokens, .other] name

end StopReason

namespace HookPoint

def name : HookPoint → String
  | .beforeModel => "before_model"
  | .beforeTool => "before_tool"
  | .afterTool => "after_tool"

def toJson (point : HookPoint) : Value := .string point.name

def fromJson : Value → Option HookPoint :=
  asVariant [.beforeModel, .beforeTool, .afterTool] name

end HookPoint

/-! ## Tool calls, receipts and approvals -/

namespace ToolCall

def toJson (call : ToolCall) : Value := .object [
  ("id", call.id.toJson),
  ("name", .string call.name),
  ("arguments", call.arguments)]

def fromJson : Value → Option ToolCall
  | .object members => do
    return {
      id := ← field members "id" Id.fromJson
      name := ← field members "name" asString
      arguments := ← field members "arguments" some }
  | _ => none

end ToolCall

namespace CanonicalAction

def toJson (action : CanonicalAction) : Value := .object ([
  ("tool_name", .string action.toolName),
  ("arguments", action.arguments),
  ("effect", action.effect.toJson),
  ("retry_safety", action.retrySafety.toJson)] ++
  optionalMember "scope" (action.scope.map .string))

def fromJson : Value → Option CanonicalAction
  | .object members => do
    return {
      toolName := ← field members "tool_name" asString
      arguments := ← field members "arguments" some
      effect := ← field members "effect" EffectKind.fromJson
      retrySafety := ← field members "retry_safety" RetrySafety.fromJson
      scope := ← optionalField members "scope" asString }
  | _ => none

end CanonicalAction

namespace PreparedToolCall

def toJson (prepared : PreparedToolCall) : Value := .object [
  ("call_id", prepared.callId.toJson),
  ("action", prepared.action.toJson)]

def fromJson : Value → Option PreparedToolCall
  | .object members => do
    return {
      callId := ← field members "call_id" Id.fromJson
      action := ← field members "action" CanonicalAction.fromJson }
  | _ => none

end PreparedToolCall

namespace ToolReceipt

def toJson (receipt : ToolReceipt) : Value := .object ([
  ("call_id", receipt.callId.toJson),
  ("tool_name", .string receipt.toolName),
  ("status", receipt.status.toJson)] ++
  optionalMember "action" (receipt.action.map CanonicalAction.toJson) ++
  optionalMember "output" receipt.output ++
  optionalMember "error" (receipt.error.map .string))

def fromJson : Value → Option ToolReceipt
  | .object members => do
    return {
      callId := ← field members "call_id" Id.fromJson
      toolName := ← field members "tool_name" asString
      status := ← field members "status" ReceiptStatus.fromJson
      action := ← optionalField members "action" CanonicalAction.fromJson
      output := ← optionalField members "output" some
      error := ← optionalField members "error" asString }
  | _ => none

end ToolReceipt

namespace TokenUsage

def toJson (usage : TokenUsage) : Value := .object [
  ("input_tokens", .number (.posInt usage.inputTokens)),
  ("output_tokens", .number (.posInt usage.outputTokens))]

def fromJson : Value → Option TokenUsage
  | .object members => do
    return {
      inputTokens := ← field members "input_tokens" asNat
      outputTokens := ← field members "output_tokens" asNat }
  | _ => none

end TokenUsage

namespace ApprovalRequest

def toJson (request : ApprovalRequest) : Value := .object [
  ("thread_id", request.threadId.toJson),
  ("turn_id", request.turnId.toJson),
  ("call_id", request.callId.toJson),
  ("action", request.action.toJson),
  ("reason", .string request.reason)]

def fromJson : Value → Option ApprovalRequest
  | .object members => do
    return {
      threadId := ← field members "thread_id" Id.fromJson
      turnId := ← field members "turn_id" Id.fromJson
      callId := ← field members "call_id" Id.fromJson
      action := ← field members "action" CanonicalAction.fromJson
      reason := ← field members "reason" asString }
  | _ => none

end ApprovalRequest

namespace ApprovalDecision

def toJson : ApprovalDecision → Value
  | .approved action => .object [("decision", .string "approved"), ("action", action.toJson)]
  | .denied reason => .object [("decision", .string "denied"), ("reason", .string reason)]

def fromJson : Value → Option ApprovalDecision
  | .object members => do
    match ← field members "decision" asString with
    | "approved" => return .approved (← field members "action" CanonicalAction.fromJson)
    | "denied" => return .denied (← field members "reason" asString)
    | _ => none
  | _ => none

end ApprovalDecision

/-! ## Events -/

namespace RuntimeEvent

def toJson : RuntimeEvent → Value
  | .threadStarted => .object [("type", .string "thread_started")]
  | .turnStarted => .object [("type", .string "turn_started")]
  | .userMessage content => .object [("type", .string "user_message"), ("content", .string content)]
  | .contextCompiled iteration promptSegments messageCount visibleTools => .object [
    ("type", .string "context_compiled"),
    ("iteration", .number (.posInt iteration)),
    ("prompt_segments", .number (.posInt promptSegments)),
    ("message_count", .number (.posInt messageCount)),
    ("visible_tools", .array (visibleTools.map .string))]
  | .modelRequestStarted iteration => .object [
    ("type", .string "model_request_started"),
    ("iteration", .number (.posInt iteration))]
  | .assistantMessage content toolCalls stopReason usage => .object [
    ("type", .string "assistant_message"),
    ("content", .string content),
    ("tool_calls", .array (toolCalls.map ToolCall.toJson)),
    ("stop_reason", stopReason.toJson),
    ("usage", usage.toJson)]
  | .toolPrepared prepared => .object [
    ("type", .string "tool_prepared"), ("prepared", prepared.toJson)]
  | .approvalRequested request => .object [
    ("type", .string "approval_requested"), ("request", request.toJson)]
  | .approvalResolved callId decision => .object [
    ("type", .string "approval_resolved"),
    ("call_id", callId.toJson),
    ("decision", decision.toJson)]
  | .toolExecutionStarted prepared => .object [
    ("type", .string "tool_execution_started"), ("prepared", prepared.toJson)]
  | .toolReceiptRecorded receipt => .object [
    ("type", .string "tool_receipt_recorded"), ("receipt", receipt.toJson)]
  | .hookFailed hook point reason => .object [
    ("type", .string "hook_failed"),
    ("hook", .string hook),
    ("point", point.toJson),
    ("reason", .string reason)]
  | .turnCompleted content => .object [
    ("type", .string "turn_completed"), ("content", .string content)]
  | .turnFailed error => .object [("type", .string "turn_failed"), ("error", .string error)]
  | .turnCancelled => .object [("type", .string "turn_cancelled")]

def fromJson : Value → Option RuntimeEvent
  | .object members => do
    match ← field members "type" asString with
    | "thread_started" => return .threadStarted
    | "turn_started" => return .turnStarted
    | "user_message" => return .userMessage (← field members "content" asString)
    | "context_compiled" =>
      return .contextCompiled
        (← field members "iteration" asNat)
        (← field members "prompt_segments" asNat)
        (← field members "message_count" asNat)
        (← field members "visible_tools" (asList asString))
    | "model_request_started" => return .modelRequestStarted (← field members "iteration" asNat)
    | "assistant_message" =>
      return .assistantMessage
        (← field members "content" asString)
        (← field members "tool_calls" (asList ToolCall.fromJson))
        (← field members "stop_reason" StopReason.fromJson)
        (← field members "usage" TokenUsage.fromJson)
    | "tool_prepared" => return .toolPrepared (← field members "prepared" PreparedToolCall.fromJson)
    | "approval_requested" =>
      return .approvalRequested (← field members "request" ApprovalRequest.fromJson)
    | "approval_resolved" =>
      return .approvalResolved
        (← field members "call_id" Id.fromJson)
        (← field members "decision" ApprovalDecision.fromJson)
    | "tool_execution_started" =>
      return .toolExecutionStarted (← field members "prepared" PreparedToolCall.fromJson)
    | "tool_receipt_recorded" =>
      return .toolReceiptRecorded (← field members "receipt" ToolReceipt.fromJson)
    | "hook_failed" =>
      return .hookFailed
        (← field members "hook" asString)
        (← field members "point" HookPoint.fromJson)
        (← field members "reason" asString)
    | "turn_completed" => return .turnCompleted (← field members "content" asString)
    | "turn_failed" => return .turnFailed (← field members "error" asString)
    | "turn_cancelled" => return .turnCancelled
    | _ => none
  | _ => none

end RuntimeEvent

namespace EventEnvelope

def toJson (envelope : EventEnvelope) : Value := .object ([
  ("id", envelope.id.toJson),
  ("sequence", .number (.posInt envelope.sequence)),
  ("at_unix_ms", .number (.posInt envelope.atUnixMs)),
  ("thread_id", envelope.threadId.toJson)] ++
  optionalMember "turn_id" (envelope.turnId.map Id.toJson) ++
  [("event", envelope.event.toJson)])

def fromJson : Value → Option EventEnvelope
  | .object members => do
    return {
      id := ← field members "id" Id.fromJson
      sequence := ← field members "sequence" asNat
      atUnixMs := ← field members "at_unix_ms" asNat
      threadId := ← field members "thread_id" Id.fromJson
      turnId := ← optionalField members "turn_id" Id.fromJson
      event := ← field members "event" RuntimeEvent.fromJson }
  | _ => none

end EventEnvelope

/-! ## Reading back -/

@[simp] theorem Id.fromJson_toJson {kind : IdKind} (id : Id kind) : fromJson id.toJson = some id :=
  rfl

@[simp] theorem EffectKind.fromJson_toJson (effect : EffectKind) :
    fromJson effect.toJson = some effect := by
  cases effect <;> rfl

@[simp] theorem RetrySafety.fromJson_toJson (safety : RetrySafety) :
    fromJson safety.toJson = some safety := by
  cases safety <;> rfl

@[simp] theorem ReceiptStatus.fromJson_toJson (status : ReceiptStatus) :
    fromJson status.toJson = some status := by
  cases status <;> rfl

@[simp] theorem StopReason.fromJson_toJson (reason : StopReason) :
    fromJson reason.toJson = some reason := by
  cases reason <;> rfl

@[simp] theorem HookPoint.fromJson_toJson (point : HookPoint) :
    fromJson point.toJson = some point := by
  cases point <;> rfl

@[simp] theorem ToolCall.fromJson_toJson (call : ToolCall) : fromJson call.toJson = some call := by
  simp [fromJson, toJson, field, asString]

/-- What is written as text is not null. -/
theorem readOptional_string (written : Option String) :
    readOptional asString (written.map .string).toList = some written := by
  apply readOptional_written
  · intro text
    rfl
  · intro text
    simp

@[simp] theorem CanonicalAction.fromJson_toJson (action : CanonicalAction) :
    fromJson action.toJson = some action := by
  simp [fromJson, toJson, field, optionalField, asString, readOptional_string]

@[simp] theorem PreparedToolCall.fromJson_toJson (prepared : PreparedToolCall) :
    fromJson prepared.toJson = some prepared := by
  simp [fromJson, toJson, field]

@[simp] theorem TokenUsage.fromJson_toJson (usage : TokenUsage) :
    fromJson usage.toJson = some usage := by
  simp [fromJson, toJson, field, asNat]

@[simp] theorem ApprovalRequest.fromJson_toJson (request : ApprovalRequest) :
    fromJson request.toJson = some request := by
  simp [fromJson, toJson, field, asString]

@[simp] theorem ApprovalDecision.fromJson_toJson (decision : ApprovalDecision) :
    fromJson decision.toJson = some decision := by
  cases decision with
  | approved action => simp [fromJson, toJson, field, asString]
  | denied reason => simp [fromJson, toJson, field, asString]

/-- A receipt as it is read back: an output that is null is taken for none. -/
def ToolReceipt.readBack (receipt : ToolReceipt) : ToolReceipt :=
  { receipt with output := receipt.output.filter (· ≠ .null) }

@[simp] theorem ToolReceipt.fromJson_toJson (receipt : ToolReceipt) :
    fromJson receipt.toJson = some receipt.readBack := by
  have action : readOptional CanonicalAction.fromJson
      (receipt.action.map CanonicalAction.toJson).toList = some receipt.action :=
    readOptional_written CanonicalAction.fromJson_toJson (by simp [CanonicalAction.toJson]) _
  simp [fromJson, toJson, field, optionalField, asString, action, readOptional_value,
    readOptional_string, readBack]

def RuntimeEvent.readBack : RuntimeEvent → RuntimeEvent
  | .toolReceiptRecorded receipt => .toolReceiptRecorded receipt.readBack
  | event => event

@[simp] theorem RuntimeEvent.fromJson_toJson (event : RuntimeEvent) :
    fromJson event.toJson = some event.readBack := by
  cases event with
  | contextCompiled _ _ _ visibleTools =>
    simp [fromJson, toJson, field, asString, asNat, readBack,
      Value.asList_map (fun _ => rfl : ∀ item, asString (.string item) = some item)]
  | assistantMessage _ toolCalls _ _ =>
    simp [fromJson, toJson, field, asString, readBack,
      Value.asList_map ToolCall.fromJson_toJson]
  | threadStarted | turnStarted | turnCancelled | userMessage _ | modelRequestStarted _
  | toolPrepared _ | approvalRequested _ | approvalResolved _ _ | toolExecutionStarted _
  | toolReceiptRecorded _ | hookFailed _ _ _ | turnCompleted _ | turnFailed _ =>
    simp [fromJson, toJson, field, asString, asNat, readBack]

def EventEnvelope.readBack (envelope : EventEnvelope) : EventEnvelope :=
  { envelope with event := envelope.event.readBack }

/-- The derives read an envelope back as it was written, but for an output that is null. -/
theorem EventEnvelope.fromJson_toJson (envelope : EventEnvelope) :
    fromJson envelope.toJson = some envelope.readBack := by
  have turnId : readOptional Id.fromJson (envelope.turnId.map Id.toJson).toList =
      some envelope.turnId :=
    readOptional_written Id.fromJson_toJson (by simp [Id.toJson]) _
  simp [fromJson, toJson, field, optionalField, asNat, turnId, readBack]

/-! ## Nesting -/

section Nesting

open Json.Value (depth_object_le depth_array_le forall_optionalMember)

variable {bound : Nat}

@[simp] theorem ToolCall.depth_le {call : ToolCall} :
    call.toJson.depth ≤ bound + 1 ↔ call.arguments.depth ≤ bound := by
  simp [toJson, depth_object_le, Id.toJson]

theorem CanonicalAction.depth_le {action : CanonicalAction} :
    action.toJson.depth ≤ bound + 1 ↔ action.arguments.depth ≤ bound := by
  rw [toJson, depth_object_le, List.forall_mem_append, forall_optionalMember]
  simp [EffectKind.toJson, RetrySafety.toJson]

theorem PreparedToolCall.depth_le {prepared : PreparedToolCall} :
    prepared.toJson.depth ≤ bound + 2 ↔ prepared.action.arguments.depth ≤ bound := by
  rw [toJson, depth_object_le]
  simp [Id.toJson, CanonicalAction.depth_le]

theorem ApprovalRequest.depth_le {request : ApprovalRequest} :
    request.toJson.depth ≤ bound + 2 ↔ request.action.arguments.depth ≤ bound := by
  rw [toJson, depth_object_le]
  simp [Id.toJson, CanonicalAction.depth_le]

theorem ToolReceipt.depth_le {receipt : ToolReceipt} :
    receipt.toJson.depth ≤ bound + 2 ↔
      (∀ action ∈ receipt.action, action.arguments.depth ≤ bound) ∧
        ∀ output ∈ receipt.output, output.depth ≤ bound + 1 := by
  rw [toJson, depth_object_le, List.forall_mem_append, List.forall_mem_append,
    List.forall_mem_append, forall_optionalMember, forall_optionalMember, forall_optionalMember]
  simp [Id.toJson, ReceiptStatus.toJson, CanonicalAction.depth_le]

/-- The JSON values an event carries are nested at most this deep; an output may be one
deeper than arguments, because nothing encloses it in its receipt. -/
def RuntimeEvent.Shallow (bound : Nat) : RuntimeEvent → Prop
  | .assistantMessage _ toolCalls _ _ => ∀ call ∈ toolCalls, call.arguments.depth ≤ bound
  | .toolPrepared prepared => prepared.action.arguments.depth ≤ bound
  | .approvalRequested request => request.action.arguments.depth ≤ bound
  | .approvalResolved _ (.approved action) => action.arguments.depth ≤ bound
  | .toolExecutionStarted prepared => prepared.action.arguments.depth ≤ bound
  | .toolReceiptRecorded receipt =>
    (∀ action ∈ receipt.action, action.arguments.depth ≤ bound) ∧
      ∀ output ∈ receipt.output, output.depth ≤ bound + 1
  | _ => True

theorem RuntimeEvent.depth_le {event : RuntimeEvent} :
    event.toJson.depth ≤ bound + 3 ↔ event.Shallow bound := by
  cases event with
  | assistantMessage content toolCalls stopReason usage =>
    rw [toJson, depth_object_le]
    simp [depth_array_le, StopReason.toJson, TokenUsage.toJson, depth_object_le, Shallow]
  | toolPrepared prepared =>
    rw [toJson, depth_object_le]
    simp [PreparedToolCall.depth_le, Shallow]
  | approvalRequested request =>
    rw [toJson, depth_object_le]
    simp [ApprovalRequest.depth_le, Shallow]
  | approvalResolved callId decision =>
    rw [toJson, depth_object_le]
    cases decision with
    | approved action =>
      simp [ApprovalDecision.toJson, depth_object_le, CanonicalAction.depth_le, Id.toJson, Shallow]
    | denied reason => simp [ApprovalDecision.toJson, depth_object_le, Id.toJson, Shallow]
  | toolExecutionStarted prepared =>
    rw [toJson, depth_object_le]
    simp [PreparedToolCall.depth_le, Shallow]
  | toolReceiptRecorded receipt =>
    rw [toJson, depth_object_le]
    simp [ToolReceipt.depth_le, Shallow]
  | contextCompiled _ _ _ visibleTools =>
    rw [toJson, depth_object_le]
    simp [depth_array_le, Shallow]
  | threadStarted | turnStarted | turnCancelled | userMessage _ | modelRequestStarted _
  | hookFailed _ _ _ | turnCompleted _ | turnFailed _ =>
    rw [toJson, depth_object_le]
    simp [HookPoint.toJson, Shallow]

theorem EventEnvelope.depth_le {envelope : EventEnvelope} :
    envelope.toJson.depth ≤ bound + 4 ↔ envelope.event.Shallow bound := by
  rw [toJson, depth_object_le, List.forall_mem_append, List.forall_mem_append,
    forall_optionalMember]
  simp [Id.toJson, RuntimeEvent.depth_le]

end Nesting

end Nausicaa.Core
