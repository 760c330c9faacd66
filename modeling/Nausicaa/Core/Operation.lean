import Nausicaa.Interaction.Program
import Nausicaa.Core.Policy
import Nausicaa.Core.Tool

/-! # The seams of the runtime

Every point where `runtime.rs` and `recovery.rs` call a trait object, take the
active-thread lock or read the cancellation token is an `Operation`; its `Answer`
is the type the call returns.  The errors of `RuntimeError` and its sources are
here with the texts their `Display` gives them, since those texts end up in
receipts and events. -/

namespace Nausicaa.Core

/-! ## Errors -/

inductive StoreError where
  | io (message : String)
  | serialization (message : String)
  | corrupt (line : Nat) (message : String)
  | poisoned
  deriving DecidableEq, Repr

def StoreError.toString : StoreError → String
  | .io message => s!"event store I/O error: {message}"
  | .serialization message => s!"event serialization error: {message}"
  | .corrupt line message => s!"corrupt event at line {line}: {message}"
  | .poisoned => "event store lock was poisoned"

inductive ContextError where
  | tooLarge (actual maximum : Nat)
  | path (message : String)
  | read (message : String)
  deriving DecidableEq, Repr

def ContextError.toString : ContextError → String
  | .tooLarge actual maximum =>
    s!"context exceeds the configured character budget ({actual} > {maximum})"
  | .path message => s!"context path error: {message}"
  | .read message => s!"failed to read context source: {message}"

structure ModelError where
  message : String
  retryable : Bool
  deriving DecidableEq, Repr

def ModelError.toString (self : ModelError) : String :=
  let message := self.message
  s!"model request failed: {message}"

structure ApprovalError where
  message : String
  deriving DecidableEq, Repr

def ApprovalError.toString (self : ApprovalError) : String :=
  let message := self.message
  s!"approval provider failed: {message}"

structure HookError where
  hook : String
  point : String
  reason : String
  deriving DecidableEq, Repr

def HookError.toString (self : HookError) : String :=
  let hook := self.hook
  let point := self.point
  let reason := self.reason
  s!"hook `{hook}` rejected {point}: {reason}"

/-- The `Debug` text of a stop reason. -/
def StopReason.debug : StopReason → String
  | .endTurn => "EndTurn"
  | .toolUse => "ToolUse"
  | .maxTokens => "MaxTokens"
  | .other => "Other"

inductive RuntimeError where
  | store (source : StoreError)
  | context (source : ContextError)
  | model (source : ModelError)
  | hook (source : HookError)
  | unknownThread (threadId : ThreadId)
  | concurrentTurn (threadId : ThreadId)
  | duplicateTurn (threadId : ThreadId) (turnId : TurnId)
  | invalidModelResponse (turnId : TurnId) (reason : String)
  | incompleteModelResponse (turnId : TurnId) (stopReason : StopReason)
  | cancelled (turnId : TurnId)
  | maxModelIterations (turnId : TurnId) (maximum : Nat)
  | receiptPersistenceUnknown (callId : CallId) (toolName : String) (source : StoreError)
  deriving DecidableEq, Repr

def RuntimeError.toString : RuntimeError → String
  | .store source => source.toString
  | .context source => source.toString
  | .model source => source.toString
  | .hook source => source.toString
  | .unknownThread ⟨thread⟩ => s!"thread `{thread}` does not exist"
  | .concurrentTurn ⟨thread⟩ => s!"thread `{thread}` already has an active turn"
  | .duplicateTurn ⟨thread⟩ ⟨turn⟩ => s!"turn `{turn}` already exists in thread `{thread}`"
  | .invalidModelResponse ⟨turn⟩ reason =>
    s!"model returned an invalid response for turn `{turn}`: {reason}"
  | .incompleteModelResponse ⟨turn⟩ stopReason =>
    let reason := stopReason.debug
    s!"model stopped without a complete response for turn `{turn}`: {reason}"
  | .cancelled ⟨turn⟩ => s!"turn `{turn}` was cancelled"
  | .maxModelIterations ⟨turn⟩ maximum => s!"turn `{turn}` exceeded {maximum} model iterations"
  | .receiptPersistenceUnknown ⟨call⟩ tool source =>
    let reason := source.toString
    s!"tool `{tool}` may have changed external state, but receipt `{call}` could not be persisted: {reason}"

/-! ## Handles and contexts of the seams -/

/-- A registered hook; what its three callbacks answer is up to the surroundings. -/
structure Hook where
  handle : Nat
  name : String
  deriving DecidableEq, Repr

/-- A registered event observer. -/
structure EventObserver where
  handle : Nat
  deriving DecidableEq, Repr

/-- The model progress observer of a runtime. -/
structure ModelProgressObserver where
  handle : Nat
  deriving DecidableEq, Repr

structure ModelControl where
  cancellation : CancellationToken
  observer : Option ModelProgressObserver
  deriving DecidableEq, Repr

structure HookContext where
  threadId : ThreadId
  turnId : TurnId
  iteration : Nat
  deriving DecidableEq, Repr

/-! ## Operations -/

inductive Operation where
  /-- `ThreadId::new()`. -/
  | newThreadId
  | storeAppend (threadId : ThreadId) (turnId : Option TurnId) (event : RuntimeEvent)
  | loadThread (threadId : ThreadId)
  /-- Insert into `active_threads` under its lock; answers whether it was absent. -/
  | activeInsert (threadId : ThreadId)
  /-- `ActiveThread::drop`. -/
  | activeRemove (threadId : ThreadId)
  | isCancelled (token : CancellationToken)
  | compile (input : ContextInput)
  | beforeModel (hook : Hook) (context : HookContext) (compiled : CompiledContext)
  | beforeTool (hook : Hook) (context : HookContext) (prepared : PreparedToolCall)
  | afterTool (hook : Hook) (context : HookContext) (receipt : ToolReceipt)
  | completeControlled (request : ModelRequest) (control : ModelControl)
  | prepare (tool : Tool) (call : ToolCall) (context : ToolExecutionContext)
  | requestApproval (request : ApprovalRequest)
  | execute (tool : Tool) (prepared : PreparedToolCall) (context : ToolExecutionContext)
  | onEvent (observer : EventObserver) (envelope : EventEnvelope)

abbrev Answer : Operation → Type
  | .newThreadId => ThreadId
  | .storeAppend .. => Except StoreError EventEnvelope
  | .loadThread _ => Except StoreError (List EventEnvelope)
  | .activeInsert _ => Except StoreError Bool
  | .activeRemove _ => Unit
  | .isCancelled _ => Bool
  | .compile _ => Except ContextError CompiledContext
  | .beforeModel .. => Except String Unit
  | .beforeTool .. => Except String Unit
  | .afterTool .. => Except String Unit
  | .completeControlled .. => Except ModelError ModelResponse
  | .prepare .. => Except ToolError PreparedToolCall
  | .requestApproval _ => Except ApprovalError ApprovalDecision
  | .execute .. => Except ToolError ToolOutput
  | .onEvent .. => Unit

/-- Code of the runtime: a program over the seams that may fail with `ε`. -/
abbrev Attempt (ε : Type) := Interaction.Fallible Operation Answer ε

/-- Issue an operation of the runtime. -/
def perform {ε : Type} (op : Operation) : Attempt ε (Answer op) := Interaction.request op

end Nausicaa.Core
