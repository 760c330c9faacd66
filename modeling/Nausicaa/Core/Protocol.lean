import Mathlib.Data.Finset.Basic
import Std.Data.TreeMap
import Std.Data.TreeSet
import Nausicaa.Json.Value

/-! # Protocol values of the core

Identifiers, tool calls and their receipts, transcripts, approvals and the events
of a thread's log (`id.rs`, `protocol.rs`, `model.rs`, `context.rs`,
`approval.rs`, `event.rs`). -/

namespace Nausicaa.Core

open Std (TransOrd LawfulEqOrd)

/-! ## Identifiers -/

inductive IdKind where
  | thread | turn | call | event
  deriving DecidableEq, Repr

/-- The four identifiers of `define_id!`: text that is compared as text. -/
structure Id (kind : IdKind) where
  value : String
  deriving DecidableEq, Repr

abbrev ThreadId := Id .thread
abbrev TurnId := Id .turn
abbrev CallId := Id .call
abbrev EventId := Id .event

instance {kind : IdKind} : Ord (Id kind) := ⟨fun a b => compare a.value b.value⟩

instance {kind : IdKind} : TransOrd (Id kind) :=
  inferInstanceAs (Std.TransCmp (compareOn Id.value))

instance {kind : IdKind} : LawfulEqOrd (Id kind) where
  eq_of_compare {a b} same := by
    cases a; cases b
    exact congrArg Id.mk (LawfulEqOrd.eq_of_compare (α := String) same)

/-- A call is identified by its turn and its id, because ids recur across turns. -/
abbrev CallKey := TurnId × CallId

instance : Ord CallKey := lexOrd

/-! ## Tool calls and receipts -/

structure ToolCall where
  id : CallId
  name : String
  arguments : Json.Value
  deriving DecidableEq

inductive EffectKind where
  | readOnly | workspaceWrite | externalSideEffect
  deriving DecidableEq, Repr

inductive RetrySafety where
  | safe | idempotent | unsafeRetry
  deriving DecidableEq, Repr

/-- The exact, normalized action that policy and approval bind to. -/
structure CanonicalAction where
  toolName : String
  arguments : Json.Value
  effect : EffectKind
  retrySafety : RetrySafety
  scope : Option String
  deriving DecidableEq

structure PreparedToolCall where
  callId : CallId
  action : CanonicalAction
  deriving DecidableEq

inductive ReceiptStatus where
  | succeeded | failed | denied | unknown
  deriving DecidableEq, Repr

/-- Durable result of a tool request. -/
structure ToolReceipt where
  callId : CallId
  toolName : String
  status : ReceiptStatus
  action : Option CanonicalAction
  output : Option Json.Value
  error : Option String
  deriving DecidableEq

namespace ToolReceipt

def succeeded (prepared : PreparedToolCall) (output : Json.Value) : ToolReceipt where
  callId := prepared.callId
  toolName := prepared.action.toolName
  status := .succeeded
  action := some prepared.action
  output := some output
  error := none

def failed (prepared : PreparedToolCall) (error : String) : ToolReceipt where
  callId := prepared.callId
  toolName := prepared.action.toolName
  status := .failed
  action := some prepared.action
  output := none
  error := some error

def denied (callId : CallId) (toolName : String) (action : Option CanonicalAction)
    (reason : String) : ToolReceipt where
  callId := callId
  toolName := toolName
  status := .denied
  action := action
  output := none
  error := some reason

def malformed (call : ToolCall) (error : String) : ToolReceipt where
  callId := call.id
  toolName := call.name
  status := .failed
  action := none
  output := none
  error := some error

def unknown (prepared : PreparedToolCall) (reason : String) : ToolReceipt where
  callId := prepared.callId
  toolName := prepared.action.toolName
  status := .unknown
  action := some prepared.action
  output := none
  error := some reason

end ToolReceipt

inductive TranscriptMessage where
  | user (content : String)
  | assistant (content : String) (toolCalls : List ToolCall)
  | tool (receipt : ToolReceipt)
  deriving DecidableEq

/-! ## Model and context -/

inductive StopReason where
  | endTurn | toolUse | maxTokens | other
  deriving DecidableEq, Repr

structure TokenUsage where
  inputTokens : Nat
  outputTokens : Nat
  deriving DecidableEq, Repr

structure ModelResponse where
  content : String
  toolCalls : List ToolCall
  stopReason : StopReason
  usage : TokenUsage
  deriving DecidableEq

inductive PromptLayer where
  | stable | rules | skills | memory | compaction | volatile
  deriving DecidableEq, Repr

structure PromptSegment where
  layer : PromptLayer
  name : String
  text : String
  deriving DecidableEq, Repr

structure ContextInput where
  threadId : ThreadId
  turnId : TurnId
  transcript : List TranscriptMessage
  deriving DecidableEq

structure CompiledContext where
  prompt : List PromptSegment
  messages : List TranscriptMessage
  deriving DecidableEq

structure ToolDefinition where
  name : String
  description : String
  inputSchema : Json.Value
  deriving DecidableEq

structure ModelRequest where
  threadId : ThreadId
  turnId : TurnId
  iteration : Nat
  context : CompiledContext
  tools : List ToolDefinition
  deriving DecidableEq

/-! ## Approvals -/

structure ApprovalRequest where
  threadId : ThreadId
  turnId : TurnId
  callId : CallId
  action : CanonicalAction
  reason : String
  deriving DecidableEq

inductive ApprovalDecision where
  | approved (action : CanonicalAction)
  | denied (reason : String)
  deriving DecidableEq

/-! ## Events -/

inductive HookPoint where
  | beforeModel | beforeTool | afterTool
  deriving DecidableEq, Repr

inductive RuntimeEvent where
  | threadStarted
  | turnStarted
  | userMessage (content : String)
  | contextCompiled (iteration promptSegments messageCount : Nat) (visibleTools : List String)
  | modelRequestStarted (iteration : Nat)
  | assistantMessage (content : String) (toolCalls : List ToolCall) (stopReason : StopReason)
      (usage : TokenUsage)
  | toolPrepared (prepared : PreparedToolCall)
  | approvalRequested (request : ApprovalRequest)
  | approvalResolved (callId : CallId) (decision : ApprovalDecision)
  | toolExecutionStarted (prepared : PreparedToolCall)
  | toolReceiptRecorded (receipt : ToolReceipt)
  | hookFailed (hook : String) (point : HookPoint) (reason : String)
  | turnCompleted (content : String)
  | turnFailed (error : String)
  | turnCancelled
  deriving DecidableEq

structure EventEnvelope where
  id : EventId
  sequence : Nat
  atUnixMs : Nat
  threadId : ThreadId
  turnId : Option TurnId
  event : RuntimeEvent
  deriving DecidableEq

end Nausicaa.Core
