import Nausicaa.Json.Text
import Nausicaa.Core.Tool
import Nausicaa.Text.Trim
import Nausicaa.Tui.Progress

/-! # The state of the terminal

`tui/src/lib.rs`: what the terminal does with runtime events, streamed text, approvals, keys and the
result of a turn, and its loop over these beside the runtime (`Step`).  How JSON is displayed is a
parameter. -/

namespace Nausicaa.Tui

open Core (ApprovalDecision ApprovalRequest EventEnvelope ReceiptStatus RuntimeEvent ThreadId TurnId
  isWhitespace)
open Json (Value)

/-- `UiState` without its clocks.  A cancellation token is whether it is cancelled. -/
structure UiState where
  threadId : ThreadId
  currentTurn : Option TurnId
  iteration : Nat
  settled : Bool
  terminalReported : Bool
  draft : String
  phase : String
  input : String
  logs : List String
  running : Bool
  cancellation : Option Bool
  currentApproval : Option ApprovalRequest
  queuedApprovals : List ApprovalRequest
  /-- The decisions that were sent. -/
  decisions : List (ApprovalRequest × ApprovalDecision)

namespace UiState

def pushLog (state : UiState) (line : String) : UiState :=
  { state with logs := state.logs ++ [line] }

def new (threadId : ThreadId) : UiState where
  threadId := threadId
  currentTurn := none
  iteration := 0
  settled := true
  terminalReported := false
  draft := ""
  phase := "ready"
  input := ""
  logs := ["Type a message. /cancel stops the active turn; /quit exits."]
  running := false
  cancellation := none
  currentApproval := none
  queuedApprovals := []
  decisions := []

def isCancelled (state : UiState) : Bool := state.cancellation = some true

/-- `while state.logs.len() > maximum_logs { state.logs.pop_front(); }` -/
def trimLogs (state : UiState) (maximumLogs : Nat) : UiState :=
  { state with logs := state.logs.drop (state.logs.length - maximumLogs) }

/-! ## Approvals -/

def resolveApproval (state : UiState) (approve : Bool) : UiState :=
  let state := match state.currentApproval with
    | none => state
    | some request =>
      let decision : ApprovalDecision :=
        if approve then .approved request.action else .denied "denied in TUI"
      let verb := if approve then "approved" else "denied"
      { state.pushLog s!"{verb}: {request.action.toolName}" with
        decisions := state.decisions ++ [(request, decision)] }
  { state with
    currentApproval := state.queuedApprovals.head?
    queuedApprovals := state.queuedApprovals.tail }

/-- `deny_pending`: the current approval, and then the queue. -/
def denyAll (state : UiState) : List ApprovalRequest → UiState
  | [] => state.resolveApproval false
  | _ :: queued => denyAll (state.resolveApproval false) queued

def denyPending (state : UiState) : UiState :=
  if state.currentApproval.isSome then state.denyAll state.queuedApprovals else state

def receiveApproval (state : UiState) (request : ApprovalRequest) : UiState :=
  if state.isCancelled then
    { state with decisions := state.decisions ++ [(request, .denied "turn cancelled in TUI")] }
  else if state.currentApproval.isNone then { state with currentApproval := some request }
  else { state with queuedApprovals := state.queuedApprovals ++ [request] }

def drainApprovals (state : UiState) (approvals : List ApprovalRequest) : UiState :=
  approvals.foldl receiveApproval state

/-! ## Turns -/

def finishTurn (state : UiState) (result : Except String String) : UiState :=
  let state := { state with running := false, cancellation := none, draft := "" }
  match result with
  | .error error =>
    if state.terminalReported then state else state.pushLog s!"turn failed: {error}"
  | .ok _ => state

def cancel (state : UiState) : UiState :=
  let state := match state.cancellation with
    | some _ => { state with cancellation := some true, draft := "" }.pushLog "cancellation requested"
    | none => state
  state.denyPending

/-! ## Progress -/

def milliseconds : Option Nat → String
  | some value => s!"{value}ms"
  | none => "unknown"

def reportLine (iteration : Nat) (timings : RequestTimings) (outcome : String) : String :=
  let dns := milliseconds timings.dnsMs
  let tcp := milliseconds timings.tcpConnectMs
  let tls := milliseconds timings.tlsMs
  let firstByte := milliseconds timings.firstByteMs
  let firstText := milliseconds timings.firstTextMs
  s!"request {iteration} {outcome}: DNS {dns} TCP {tcp} TLS {tls} | " ++
    s!"first byte {firstByte} first text {firstText} | total {timings.totalMs}ms"

/-- A draft that is shown belongs to the request that is running. -/
def Accepts (state : UiState) (event : ModelProgressEvent) : Prop :=
  event.threadId = state.threadId ∧ some event.turnId = state.currentTurn ∧
    event.iteration = state.iteration ∧ state.settled = false ∧ state.isCancelled = false

instance (state : UiState) (event : ModelProgressEvent) : Decidable (state.Accepts event) := by
  unfold Accepts
  infer_instance

def showDraft (state : UiState) (draft : Option ModelProgressEvent) : UiState :=
  match draft with
  | none => state
  | some event =>
    if state.Accepts event then
      match event.progress with
      | .textDelta text =>
        { state with draft := appendBounded state.draft text, phase := "receiving model text" }
      | _ => state
    else state

def reportRequest (state : UiState) (event : ModelProgressEvent) : UiState :=
  if event.threadId = state.threadId then
    match event.progress with
    | .finished timings outcome => state.pushLog (reportLine event.iteration timings outcome)
    | _ => state
  else state

/-- `drain_progress`, of the snapshot that was taken. -/
def drainProgress (state : UiState) (snapshot : Snapshot) : UiState :=
  let state := snapshot.completed.foldl reportRequest (state.showDraft snapshot.draft)
  match snapshot.error with
  | some error => state.pushLog error
  | none => state

/-! ## Events -/

section Events

variable (display : Value → String)

def statusText : ReceiptStatus → String
  | .succeeded => "ok"
  | .failed => "failed"
  | .denied => "denied"
  | .unknown => "unknown"

def formatEvent : RuntimeEvent → Option String
  | .assistantMessage content toolCalls _ _ =>
    if content ≠ "" then some s!"assistant: {content}"
    else if toolCalls ≠ [] then
      some ("assistant requested: " ++ ", ".intercalate (toolCalls.map fun call => call.name))
    else none
  | .toolPrepared prepared =>
    some s!"prepared {prepared.action.toolName}: {display prepared.action.arguments}"
  | .toolReceiptRecorded receipt =>
    let text := ((receipt.output.map display).or receipt.error).getD ""
    some s!"tool {receipt.toolName} [{statusText receipt.status}]: {text}"
  | .turnCompleted _ => some "turn complete"
  | .turnCancelled => some "turn cancelled"
  | .turnFailed error => some s!"turn failed: {error}"
  | _ => none

/-- The event ends its turn. -/
def isTerminal : RuntimeEvent → Bool
  | .turnCompleted _ | .turnCancelled | .turnFailed _ => true
  | _ => false

def enterPhase (state : UiState) (turnId : Option TurnId) : RuntimeEvent → UiState
  | .turnStarted => { state with currentTurn := turnId, draft := "", settled := true }
  | .modelRequestStarted iteration =>
    { state with iteration, settled := false, draft := "", phase := "waiting for model" }
  | .assistantMessage .. | .turnCompleted _ | .turnCancelled | .turnFailed _ =>
    { state with settled := true, draft := "", phase := "processing" }
  | .toolExecutionStarted _ => { state with phase := "executing tool" }
  | .approvalRequested _ => { state with phase := "awaiting approval" }
  | _ => state

/-- One event of `drain_events`. -/
def receiveEvent (state : UiState) (event : EventEnvelope) : UiState :=
  if event.threadId = state.threadId then
    let state := if isTerminal event.event then { state with terminalReported := true } else state
    let state := state.enterPhase event.turnId event.event
    match formatEvent display event.event with
    | some line => state.pushLog line
    | none => state
  else state

def drainEvents (maximumLogs : Nat) (state : UiState) (events : List EventEnvelope) : UiState :=
  (events.foldl (receiveEvent display) state).trimLogs maximumLogs

end Events

/-! ## Keys -/

inductive Key where
  | controlC
  | char (character : Char)
  | backspace
  | enter
  | escape
  | other

/-- What a key does: the state, and whether the loop ends. -/
structure Pressed where
  state : UiState
  quit : Bool

def popInput (state : UiState) : UiState :=
  { state with input := String.ofList state.input.toList.dropLast }

/-- A message that was typed. -/
def submit (state : UiState) (input : String) : Pressed :=
  if input = "" then ⟨state, false⟩
  else if input = "/quit" ∨ input = "/exit" then ⟨state, true⟩
  else if input = "/cancel" then ⟨state.cancel, false⟩
  else if state.running then ⟨state.pushLog "a turn is already running", false⟩
  else
    let state := { state with
      running := true
      terminalReported := false
      phase := "preparing"
      draft := ""
      cancellation := some false }
    ⟨state.pushLog s!"you: {input}", false⟩

/-- The branches of `handle_key` behind Ctrl+C and approvals. -/
def pressKey (state : UiState) : Key → Pressed
  | .escape => ⟨state, true⟩
  | .char character => ⟨{ state with input := state.input.push character }, false⟩
  | .backspace => ⟨state.popInput, false⟩
  | .enter => { state with input := "" }.submit (Text.trim isWhitespace state.input)
  | .controlC | .other => ⟨state, false⟩

def answerKey (state : UiState) : Key → UiState
  | .char character =>
    if character = 'y' ∨ character = 'Y' then state.resolveApproval true
    else if character = 'n' ∨ character = 'N' then state.resolveApproval false
    else state
  | .escape => state.resolveApproval false
  | _ => state

def handleKey (maximumLogs : Nat) (state : UiState) (key : Key) : Pressed :=
  match key with
  | .controlC => if state.running then ⟨state.cancel, false⟩ else ⟨state, true⟩
  | key =>
    if state.currentApproval.isSome then ⟨state.answerKey key, false⟩
    else
      let pressed := state.pressKey key
      if pressed.quit then pressed else ⟨pressed.state.trimLogs maximumLogs, false⟩

end UiState

/-! ## The loop -/

/-- Where the loop of the terminal stands. -/
inductive Place where
  | events | progress | approvals | result | key | stopped
  deriving DecidableEq

/-- The terminal, with the channels and the buffer that it reads. -/
structure Terminal where
  state : UiState
  place : Place
  events : List EventEnvelope
  buffer : Snapshot
  approvals : List ApprovalRequest
  results : List (Except String String)

/-- What happens next: the runtime sends something, or the loop takes a step; at its last step
there may be a key. -/
inductive Action where
  | event (event : EventEnvelope)
  | progress (event : ModelProgressEvent) (failure : Option String)
  | approval (request : ApprovalRequest)
  | result (result : Except String String)
  | loop (key : Option UiState.Key)

namespace Terminal

variable (display : Value → String) (maximumLogs : Nat)

/-- One step of the loop. -/
def advance (terminal : Terminal) (key : Option UiState.Key) : Terminal :=
  match terminal.place with
  | .events =>
    { terminal with
      state := terminal.state.drainEvents display maximumLogs terminal.events
      events := []
      place := .progress }
  | .progress =>
    { terminal with
      state := terminal.state.drainProgress terminal.buffer
      buffer := .empty
      place := .approvals }
  | .approvals =>
    { terminal with
      state := terminal.state.drainApprovals terminal.approvals
      approvals := []
      place := .result }
  | .result =>
    match terminal.results with
    | [] => { terminal with place := .key }
    | result :: results =>
      -- The events that were sent before the result are drained again.
      let state := terminal.state.drainEvents display maximumLogs terminal.events
      { terminal with state := state.finishTurn result, events := [], results, place := .key }
  | .key =>
    match key with
    | none => { terminal with place := .events }
    | some key =>
      let pressed := terminal.state.handleKey maximumLogs key
      if pressed.quit then
        let state := pressed.state.denyPending
        { terminal with
          state := { state with cancellation := state.cancellation.map fun _ => true }
          place := .stopped }
      else { terminal with state := pressed.state, place := .events }
  | .stopped => terminal

def step (terminal : Terminal) : Action → Terminal
  | .event event => { terminal with events := terminal.events ++ [event] }
  | .progress event failure =>
    { terminal with buffer := terminal.buffer.onProgress event failure }
  | .approval request => { terminal with approvals := terminal.approvals ++ [request] }
  | .result result => { terminal with results := terminal.results ++ [result] }
  | .loop key => terminal.advance display maximumLogs key

def run (terminal : Terminal) (actions : List Action) : Terminal :=
  actions.foldl (step display maximumLogs) terminal

end Terminal

end Nausicaa.Tui
