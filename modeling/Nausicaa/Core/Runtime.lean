import Nausicaa.Core.Recovery

/-! # The agent runtime

`runtime.rs`.  Each method is the code of the source over the seams of
`Operation`; the model adapter, event store, context compiler, approval provider
and executor have no field here because their answers are the answers of the
operations. -/

namespace Nausicaa.Core

open Interaction (outcome mapError)
open Std (TreeMap TreeSet)

structure RuntimeConfig where
  maxModelIterations : Nat
  workspace : Option String
  toolMetadata : TreeMap String String

structure TurnOutcome where
  threadId : ThreadId
  turnId : TurnId
  content : String
  modelIterations : Nat
  deriving DecidableEq, Repr

structure AgentRuntime where
  tools : ToolRegistry
  policy : ToolPolicy
  policyContext : PolicyContext
  parentCapabilities : Option CapabilityProjection
  hooks : List Hook
  observers : List EventObserver
  modelObserver : Option ModelProgressObserver
  config : RuntimeConfig

/-! ## Free functions -/

/-- What an event contributes to the transcript. -/
def RuntimeEvent.message : RuntimeEvent → Option TranscriptMessage
  | .userMessage content => some (.user content)
  | .assistantMessage content toolCalls _ _ => some (.assistant content toolCalls)
  | .toolReceiptRecorded receipt => some (.tool receipt)
  | _ => none

def transcriptFromEvents (events : List EventEnvelope) : List TranscriptMessage :=
  events.filterMap fun envelope => envelope.event.message

/-- The loop of `validate_tool_calls`, with the ids of this response so far. -/
def validateFrom (previouslySeen current : TreeSet CallId) : List ToolCall → Except String Unit
  | [] => .ok ()
  | call :: calls =>
    let id := call.id.value
    if isBlank id then
      .error "model returned a tool call with an empty id"
    else if isBlank call.name then
      .error s!"tool call `{id}` has an empty tool name"
    else if previouslySeen.contains call.id || current.contains call.id then
      .error s!"tool call id `{id}` was reused within the same turn"
    else
      validateFrom previouslySeen (current.insert call.id) calls

def validateToolCalls (calls : List ToolCall) (previouslySeen : TreeSet CallId) :
    Except String Unit :=
  validateFrom previouslySeen ∅ calls

/-- The error of a stop that neither completes the turn nor asks for tools. -/
def stopError (turnId : TurnId) (response : ModelResponse) : Option RuntimeError :=
  match response.stopReason with
  | .maxTokens | .other => some (.incompleteModelResponse turnId response.stopReason)
  | .toolUse =>
    if response.toolCalls.isEmpty then
      some (.invalidModelResponse turnId "tool-use stop has no tool calls")
    else none
  | .endTurn =>
    if response.toolCalls.isEmpty then none
    else some (.invalidModelResponse turnId "end-turn stop contains tool calls")

/-- The receipt of an execution. -/
def executionReceipt (prepared : PreparedToolCall) : Except ToolError ToolOutput → ToolReceipt
  | .ok output => .succeeded prepared output.value
  | .error (.outcomeUnknown reason) => .unknown prepared reason
  | .error error => .failed prepared error.toString

/-- `HookSet`: ask the hooks in order and stop at the first that rejects. -/
def runHooks (point : String) (ask : Hook → Attempt RuntimeError (Except String Unit)) :
    List Hook → Attempt RuntimeError (Except HookError Unit)
  | [] => return .ok ()
  | hook :: hooks => do
    match ← ask hook with
    | .error reason => return .error ⟨hook.name, point, reason⟩
    | .ok () => runHooks point ask hooks

/-- What `run_turn` fixes once before its loop. -/
structure Turn where
  threadId : ThreadId
  turnId : TurnId
  cancellation : CancellationToken
  capabilities : CapabilityProjection
  visibleNames : List String
  visibleTools : List ToolDefinition

namespace AgentRuntime

variable (rt : AgentRuntime)

def capabilities : CapabilityProjection :=
  projectCapabilities rt.tools.names rt.policy rt.policyContext rt.parentCapabilities

/-! ## Appending and notifying -/

def notifyEach (envelope : EventEnvelope) : List EventObserver → Attempt RuntimeError Unit
  | [] => return ()
  | observer :: observers => do
    perform (.onEvent observer envelope)
    notifyEach envelope observers

def notify (envelope : EventEnvelope) : Attempt RuntimeError Unit :=
  notifyEach envelope rt.observers

def append (threadId : ThreadId) (turnId : Option TurnId) (event : RuntimeEvent) :
    Attempt RuntimeError EventEnvelope := do
  match ← perform (.storeAppend threadId turnId event) with
  | .error error => throw (.store error)
  | .ok envelope =>
    rt.notify envelope
    return envelope

def failTurn (threadId : ThreadId) (turnId : TurnId) (error : String) :
    Attempt RuntimeError Unit := do
  let _ ← rt.append threadId (some turnId) (.turnFailed error)

def recordReceipt (threadId : ThreadId) (turnId : TurnId) (receipt : ToolReceipt)
    (executionCrossed : Bool) : Attempt RuntimeError Unit := do
  match ← outcome (rt.append threadId (some turnId) (.toolReceiptRecorded receipt)) with
  | .ok _ => return ()
  | .error (.store source) =>
    if executionCrossed then
      throw (.receiptPersistenceUnknown receipt.callId receipt.toolName source)
    else
      throw (.store source)
  | .error error => throw error

def recordHookFailure (threadId : ThreadId) (turnId : TurnId) (point : HookPoint)
    (error : HookError) : Attempt RuntimeError Unit := do
  let _ ← rt.append threadId (some turnId) (.hookFailed error.hook point error.reason)

/-- A denied receipt for each of `calls`. -/
def denyCalls (threadId : ThreadId) (turnId : TurnId) (reason : String) :
    List ToolCall → Attempt RuntimeError Unit
  | [] => return ()
  | call :: calls => do
    rt.recordReceipt threadId turnId (.denied call.id call.name none reason) false
    denyCalls threadId turnId reason calls

def cancelTurn {α : Type} (threadId : ThreadId) (turnId : TurnId)
    (unhandledCalls : List ToolCall) : Attempt RuntimeError α := do
  rt.denyCalls threadId turnId "turn was cancelled before tool preparation" unhandledCalls
  let _ ← rt.append threadId (some turnId) .turnCancelled
  throw (.cancelled turnId)

/-! ## Threads -/

def startThread : Attempt RuntimeError ThreadId := do
  let threadId ← perform .newThreadId
  let _ ← rt.append threadId none .threadStarted
  return threadId

def loadThread (threadId : ThreadId) : Attempt RuntimeError (List EventEnvelope) := do
  match ← perform (.loadThread threadId) with
  | .error error => throw (.store error)
  | .ok events => return events

def ensureThread (threadId : ThreadId) : Attempt RuntimeError Unit := do
  let events ← loadThread threadId
  if events.any fun envelope => envelope.event = .threadStarted then
    return ()
  else
    throw (.unknownThread threadId)

def ensureTurnUnused (threadId : ThreadId) (turnId : TurnId) : Attempt RuntimeError Unit := do
  let events ← loadThread threadId
  if events.any fun envelope => envelope.turnId = some turnId then
    throw (.duplicateTurn threadId turnId)
  else
    return ()

def acquireThread (threadId : ThreadId) : Attempt RuntimeError Unit := do
  match ← perform (.activeInsert threadId) with
  | .error error => throw (.store error)
  | .ok true => return ()
  | .ok false => throw (.concurrentTurn threadId)

/-- Run `body` under the active-thread guard, which is dropped on every way out. -/
def holding {α : Type} (threadId : ThreadId) (body : Attempt RuntimeError α) :
    Attempt RuntimeError α := do
  acquireThread threadId
  let result ← outcome body
  perform (.activeRemove threadId)
  match result with
  | .ok value => return value
  | .error error => throw error

/-! ## Recovery under the guard -/

/-- `saturating_add(1)` on the 64-bit sequence. -/
def nextSequence (sequence : Nat) : Nat := min (sequence + 1) 0xFFFFFFFFFFFFFFFF

def notifyFrom (before : Nat) : List EventEnvelope → Attempt RuntimeError Unit
  | [] => return ()
  | envelope :: envelopes => do
    if before ≤ envelope.sequence then
      rt.notify envelope
      notifyFrom before envelopes
    else
      notifyFrom before envelopes

def recoverExclusive (threadId : ThreadId) : Attempt RuntimeError RecoveryReport := do
  let events ← loadThread threadId
  let before := (events.getLast?.map fun event => nextSequence event.sequence).getD 0
  let report ← mapError .store (recoverThread threadId)
  if report.receiptsRecorded.isEmpty && report.turnsMarkedFailed.isEmpty then
    return report
  else
    let events ← loadThread threadId
    rt.notifyFrom before events
    return report

def recover (threadId : ThreadId) : Attempt RuntimeError RecoveryReport := do
  ensureThread threadId
  holding threadId (rt.recoverExclusive threadId)

/-! ## Tool calls -/

/-- Ask for approval of exactly `prepared.action`; answers why it was not given. -/
def resolveApproval (turn : Turn) (call : ToolCall) (prepared : PreparedToolCall) :
    Attempt RuntimeError (Option String) := do
  let request : ApprovalRequest :=
    ⟨turn.threadId, turn.turnId, call.id, prepared.action,
      "effective tool policy requires approval"⟩
  let _ ← rt.append turn.threadId (some turn.turnId) (.approvalRequested request)
  let answer ← perform (.requestApproval request)
  let decision := match answer with
    | .ok decision => decision
    | .error error => .denied error.toString
  let _ ← rt.append turn.threadId (some turn.turnId) (.approvalResolved call.id decision)
  match decision with
  | .approved action =>
    if action = prepared.action then
      return none
    else
      return some "approval did not match the exact canonical action; execution was denied"
  | .denied reason => return some reason

/-- Cross the executor boundary and record what came back. -/
def executePrepared (turn : Turn) (iteration : Nat) (tool : Tool) (prepared : PreparedToolCall)
    (context : ToolExecutionContext) : Attempt RuntimeError ToolReceipt := do
  let _ ← rt.append turn.threadId (some turn.turnId) (.toolExecutionStarted prepared)
  let answer ← perform (.execute tool prepared context)
  let receipt := executionReceipt prepared answer
  rt.recordReceipt turn.threadId turn.turnId receipt true
  let hookContext : HookContext := ⟨turn.threadId, turn.turnId, iteration⟩
  match ← runHooks "after_tool" (fun hook => perform (.afterTool hook hookContext receipt))
      rt.hooks with
  | .error error =>
    rt.recordHookFailure turn.threadId turn.turnId .afterTool error
    rt.failTurn turn.threadId turn.turnId error.toString
    throw (.hook error)
  | .ok () => return receipt

/-- What follows a preparation that kept the call id and the tool name. -/
def runPrepared (turn : Turn) (iteration : Nat) (call : ToolCall) (access : Access) (tool : Tool)
    (prepared : PreparedToolCall) (context : ToolExecutionContext) :
    Attempt RuntimeError ToolReceipt := do
  let _ ← rt.append turn.threadId (some turn.turnId) (.toolPrepared prepared)
  let hookContext : HookContext := ⟨turn.threadId, turn.turnId, iteration⟩
  match ← runHooks "before_tool" (fun hook => perform (.beforeTool hook hookContext prepared))
      rt.hooks with
  | .error error =>
    rt.recordHookFailure turn.threadId turn.turnId .beforeTool error
    let receipt := ToolReceipt.denied call.id call.name (some prepared.action) error.toString
    rt.recordReceipt turn.threadId turn.turnId receipt false
    return receipt
  | .ok () =>
    if access = .ask then
      match ← rt.resolveApproval turn call prepared with
      | some reason =>
        let receipt := ToolReceipt.denied call.id call.name (some prepared.action) reason
        rt.recordReceipt turn.threadId turn.turnId receipt false
        return receipt
      | none => rt.executePrepared turn iteration tool prepared context
    else
      rt.executePrepared turn iteration tool prepared context

def executionContext (turn : Turn) : ToolExecutionContext :=
  ⟨turn.threadId, turn.turnId, rt.config.workspace, turn.cancellation, rt.config.toolMetadata⟩

def handleToolCall (turn : Turn) (iteration : Nat) (call : ToolCall) :
    Attempt RuntimeError ToolReceipt := do
  let access := turn.capabilities.access call.name
  match rt.tools.get call.name with
  | none =>
    let receipt := ToolReceipt.denied call.id call.name none "tool is not registered"
    rt.recordReceipt turn.threadId turn.turnId receipt false
    return receipt
  | some tool =>
    if access = .deny then
      let receipt := ToolReceipt.denied call.id call.name none
        "tool is denied by the effective capability projection"
      rt.recordReceipt turn.threadId turn.turnId receipt false
      return receipt
    else
      match ← perform (.prepare tool call (rt.executionContext turn)) with
      | .error error =>
        let receipt := ToolReceipt.malformed call error.toString
        rt.recordReceipt turn.threadId turn.turnId receipt false
        return receipt
      | .ok prepared =>
        if prepared.callId ≠ call.id ∨ prepared.action.toolName ≠ call.name then
          let receipt := ToolReceipt.malformed call
            "tool preparation changed the call id or tool name"
          rt.recordReceipt turn.threadId turn.turnId receipt false
          return receipt
        else
          rt.runPrepared turn iteration call access tool prepared (rt.executionContext turn)

/-- The loop over the calls of one response; answers the extended transcript. -/
def runToolCalls (turn : Turn) (iteration : Nat) :
    List ToolCall → List TranscriptMessage → Attempt RuntimeError (List TranscriptMessage)
  | [], transcript => return transcript
  | call :: calls, transcript => do
    if ← perform (.isCancelled turn.cancellation) then
      rt.cancelTurn turn.threadId turn.turnId (call :: calls)
    else
      let receipt ← rt.handleToolCall turn iteration call
      runToolCalls turn iteration calls (transcript ++ [.tool receipt])

/-! ## Turns -/

/-- What follows a model response; `next` is the following iteration. -/
def respond (turn : Turn) (iteration : Nat) (transcript : List TranscriptMessage)
    (seenCallIds : TreeSet CallId) (response : ModelResponse)
    (next : List TranscriptMessage → TreeSet CallId → Attempt RuntimeError TurnOutcome) :
    Attempt RuntimeError TurnOutcome := do
  match validateToolCalls response.toolCalls seenCallIds with
  | .error reason =>
    rt.failTurn turn.threadId turn.turnId reason
    throw (.invalidModelResponse turn.turnId reason)
  | .ok () =>
    let seenCallIds := seenCallIds.insertMany (response.toolCalls.map ToolCall.id)
    let _ ← rt.append turn.threadId (some turn.turnId)
      (.assistantMessage response.content response.toolCalls response.stopReason response.usage)
    let transcript := transcript ++ [.assistant response.content response.toolCalls]
    match stopError turn.turnId response with
    | some error =>
      rt.denyCalls turn.threadId turn.turnId error.toString response.toolCalls
      rt.failTurn turn.threadId turn.turnId error.toString
      throw error
    | none =>
      if ← perform (.isCancelled turn.cancellation) then
        rt.cancelTurn turn.threadId turn.turnId response.toolCalls
      else if response.toolCalls.isEmpty then
        let _ ← rt.append turn.threadId (some turn.turnId) (.turnCompleted response.content)
        return ⟨turn.threadId, turn.turnId, response.content, iteration + 1⟩
      else
        let transcript ← rt.runToolCalls turn iteration response.toolCalls transcript
        next transcript seenCallIds

/-- One model request; `received` is what follows its response. -/
def requestModel (turn : Turn) (iteration : Nat) (compiled : CompiledContext)
    (received : ModelResponse → Attempt RuntimeError TurnOutcome) :
    Attempt RuntimeError TurnOutcome := do
  let _ ← rt.append turn.threadId (some turn.turnId)
    (.contextCompiled iteration compiled.prompt.length compiled.messages.length turn.visibleNames)
  let _ ← rt.append turn.threadId (some turn.turnId) (.modelRequestStarted iteration)
  match ← perform (.completeControlled
      ⟨turn.threadId, turn.turnId, iteration, compiled, turn.visibleTools⟩
      ⟨turn.cancellation, rt.modelObserver⟩) with
  | .error error =>
    if ← perform (.isCancelled turn.cancellation) then
      rt.cancelTurn turn.threadId turn.turnId []
    else
      rt.failTurn turn.threadId turn.turnId error.toString
      throw (.model error)
  | .ok response => received response

def turnLoop (turn : Turn) :
    (remaining iteration : Nat) → List TranscriptMessage → TreeSet CallId →
      Attempt RuntimeError TurnOutcome
  | 0, _, _, _ => do
    let maximum := rt.config.maxModelIterations
    rt.failTurn turn.threadId turn.turnId s!"maximum model iterations ({maximum}) exceeded"
    throw (.maxModelIterations turn.turnId maximum)
  | remaining + 1, iteration, transcript, seenCallIds => do
    if ← perform (.isCancelled turn.cancellation) then
      rt.cancelTurn turn.threadId turn.turnId []
    else
      match ← perform (.compile ⟨turn.threadId, turn.turnId, transcript⟩) with
      | .error error =>
        rt.failTurn turn.threadId turn.turnId error.toString
        throw (.context error)
      | .ok compiled =>
        let hookContext : HookContext := ⟨turn.threadId, turn.turnId, iteration⟩
        match ← runHooks "before_model"
            (fun hook => perform (.beforeModel hook hookContext compiled)) rt.hooks with
        | .error error =>
          rt.recordHookFailure turn.threadId turn.turnId .beforeModel error
          rt.failTurn turn.threadId turn.turnId error.toString
          throw (.hook error)
        | .ok () =>
          rt.requestModel turn iteration compiled fun response =>
            rt.respond turn iteration transcript seenCallIds response
              (turnLoop turn remaining (iteration + 1))

/-- What `run_turn` does once it holds the thread. -/
def runTurnExclusive (threadId : ThreadId) (turnId : TurnId) (input : String)
    (cancellation : CancellationToken) : Attempt RuntimeError TurnOutcome := do
  ensureTurnUnused threadId turnId
  let _ ← rt.recoverExclusive threadId
  let _ ← rt.append threadId (some turnId) .turnStarted
  let _ ← rt.append threadId (some turnId) (.userMessage input)
  let events ← loadThread threadId
  let capabilities := rt.capabilities
  let visibleNames := capabilities.visibleNames
  let turn : Turn := {
    threadId, turnId, cancellation, capabilities, visibleNames
    visibleTools := rt.tools.definitionsFor visibleNames }
  rt.turnLoop turn rt.config.maxModelIterations 0 (transcriptFromEvents events) ∅

def runTurnWithIdAndCancellation (threadId : ThreadId) (turnId : TurnId) (input : String)
    (cancellation : CancellationToken) : Attempt RuntimeError TurnOutcome := do
  ensureThread threadId
  holding threadId (rt.runTurnExclusive threadId turnId input cancellation)

end AgentRuntime

end Nausicaa.Core
