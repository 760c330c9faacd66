import Nausicaa.Executor.Editing
import Nausicaa.Executor.Sandbox

/-! # The shell tool

`ShellTool::prepare` of `executor-process/src/lib.rs`.  What was prepared is what is run, once and not
for much longer than its timeout, whatever the operating system answers (`ShellTool.runs_prepared`). -/

namespace Nausicaa.Executor

open Core (PreparedToolCall ToolCall ToolDefinition ToolError ToolExecutionContext ToolOutput isBlank)
open Interaction (Contract)
open Json (Value)
open Posix (Path Place)

namespace ShellTool

/-- `ShellTool` with what it prepares calls from. -/
structure Configured extends ShellTool where
  workspace : Place
  maximumTimeoutMs : Nat
  positive : 0 < maximumTimeoutMs
  bounded : maximumTimeoutMs < 2 ^ 64

def definition : ToolDefinition where
  name := "shell"
  description := "Run a shell command in the configured execution backend"
  inputSchema := .object [
    ("additionalProperties", .bool false),
    ("properties", .object [
      ("command", .object [("type", .string "string")]),
      ("timeout_ms", .object [("minimum", .number (.posInt 1)), ("type", .string "integer")])]),
    ("required", .array [.string "command"]),
    ("type", .string "object")]

def preparedArguments (command : String) (workspace : Place) (timeoutMs : Nat) : Value :=
  .object [("command", .string command), ("timeout_ms", .number (.posInt timeoutMs)),
    ("working_directory", pathValue workspace)]

namespace Configured

variable (tool : Configured)

/-- Thirty seconds, unless the call asks for less or more. -/
def timeoutMs (call : ToolCall) : Nat :=
  -- What is no `u64` counts as not asked for.
  max 1 (min (((call.arguments.get "timeout_ms").bind Value.asNat).getD 30000)
    tool.maximumTimeoutMs)

def prepare (call : ToolCall) : Except ToolError PreparedToolCall := do
  let command ← stringArgument call.arguments "command"
  if isBlank command then throw (.invalidArguments "`command` cannot be empty")
  return {
    callId := call.id
    action := {
      toolName := "shell"
      arguments := preparedArguments command tool.workspace (tool.timeoutMs call)
      effect := .workspaceWrite
      retrySafety := .unsafeRetry
      scope := some (Path.ofPlace tool.workspace).text } }

/-- The request that a prepared call is decoded to. -/
def request (command : String) (timeoutMs : Nat) : ProcessRequest where
  command
  workingDirectory := Path.parse (Path.ofPlace tool.workspace).text
  timeoutMs

end Configured

/-- Requests are decoded from what they are prepared as, if their timeouts fit into `u64`. -/
def Decodes (decoding : Decoding) : Prop :=
  ∀ (tool : Configured) (command : String) (timeoutMs : Nat), timeoutMs < 2 ^ 64 →
    decoding.fromValue (preparedArguments command tool.workspace timeoutMs) =
      .ok (tool.request command timeoutMs)

namespace CallSample

def tool : Configured where
  runner := .bubblewrap ⟨"bwrap", [], 65536, false, []⟩
  workspace := []
  maximumTimeoutMs := 120000
  positive := by decide
  bounded := by decide

def call : ToolCall where
  id := ⟨"call"⟩
  name := "shell"
  arguments := .object [("command", .string "make"), ("timeout_ms", .number (.posInt 600000))]

def prepared : PreparedToolCall where
  callId := ⟨"call"⟩
  action := {
    toolName := "shell"
    arguments := preparedArguments "make" [] 120000
    effect := .workspaceWrite
    retrySafety := .unsafeRetry
    scope := some "/" }

def decoding : Decoding where
  fromValue value :=
    match value.get "command", value.get "timeout_ms", value.get "working_directory" with
    | some (.string command), some (.number (.posInt timeoutMs)), some (.string path) =>
      .ok ⟨command, Path.parse path, timeoutMs⟩
    | _, _, _ => .error "missing field"
  lossy bytes := (Text.decode bytes).getD "\uFFFD"

def context : ToolExecutionContext := ⟨⟨"thread"⟩, ⟨"turn"⟩, none, ⟨0⟩, ∅⟩

theorem decodes : Decodes decoding := fun _ _ _ _ => rfl

theorem prepares : tool.prepare call = .ok prepared := by rfl

end CallSample

/-! ## Runs -/

variable {tool : Configured} {decoding : Decoding} {call : ToolCall} {prepared : PreparedToolCall}

theorem Configured.timeoutMs_bounds (tool : Configured) (call : ToolCall) :
    1 ≤ tool.timeoutMs call ∧ tool.timeoutMs call ≤ tool.maximumTimeoutMs := by
  have positive := tool.positive
  rw [timeoutMs]
  omega

theorem Configured.prepare_ok (prepares : tool.prepare call = .ok prepared) :
    ∃ command, stringArgument call.arguments "command" = .ok command ∧ isBlank command = false ∧
      prepared.action.arguments =
        preparedArguments command tool.workspace (tool.timeoutMs call) := by
  rw [prepare] at prepares
  cases asked : stringArgument call.arguments "command" with
  | error error =>
    rw [asked] at prepares
    cases prepares
  | ok command =>
    rw [asked] at prepares
    refine ⟨command, rfl, ?_⟩
    cases blank : isBlank command with
    | true =>
      simp only [bind, Except.bind, blank] at prepares
      cases prepares
    | false =>
      simp only [bind, Except.bind, blank] at prepares
      cases prepares
      exact ⟨rfl, rfl⟩

/-- Whatever was decoded, one command is spawned for it at most, and it is supervised. -/
theorem tries_execute_supervised (shell : ShellTool) (turns : Nat) (context : ToolExecutionContext)
    {processRequest : ProcessRequest}
    (decoded : decoding.fromValue prepared.action.arguments = .ok processRequest) :
    (supervising (shell.runner.Spawns processRequest ·)
        (turnLimit (max processRequest.timeoutMs 1 * 1000000))).Tries
      (shell.execute decoding turns prepared context)
      (fun answer told => ∃ output, answer = ⟨output.toValue⟩ ∧
        Reports decoding.lossy shell.runner.maximum output told)
      (fun _ => Settled) .idle := by
  -- Until the runner is called nothing is spawned, so that every error is settled.
  have never : Settled Supervision.idle := .never rfl
  have free : Supervision.idle.Permits (shell.runner.Spawns processRequest ·)
    (turnLimit (max processRequest.timeoutMs 1 * 1000000))
    (.isCancelled context.cancellation) := trivial
  apply tries_tell free
  intro cancelled _
  apply Contract.Tries.bind
  apply tries_ensure
  case fails => exact fun _ => never
  intro _
  apply Contract.Tries.bind
  rw [decoded]
  apply Contract.Tries.pure
  apply Contract.Tries.bind
  apply Contract.Tries.mapError
  apply Contract.Tries.mono (shell.runner.tries_runControlled decoding.lossy turns
    (fun _ spawned => spawned) (Nat.le_refl _))
  · intro output told reports
    exact Contract.Tries.pure ⟨output, rfl, reports⟩
  · exact fun _ _ settled => settled

/-- Every call that is prepared is run as it was asked for.  The operating system may answer anything:
the only command that is spawned, at most once, is the one for the request, with a timeout within the
maximum; no call waits for the child or its pipes; no signal goes to a child that was reaped; the loop
sleeps less often than `turnLimit` allows.  An output tells what the child wrote and how it ended, and
it is reaped then; where there is none, nothing was spawned, or the child was reaped or is waited for. -/
theorem runs_prepared (turns : Nat) (context : ToolExecutionContext) (decodes : Decodes decoding)
    (prepares : tool.prepare call = .ok prepared) :
    ∃ command timeoutMs, stringArgument call.arguments "command" = .ok command ∧
      isBlank command = false ∧ 1 ≤ timeoutMs ∧ timeoutMs ≤ tool.maximumTimeoutMs ∧
      (supervising (tool.runner.Spawns (tool.request command timeoutMs) ·)
          (turnLimit (timeoutMs * 1000000))).Tries
        (tool.execute decoding turns prepared context)
        (fun answer told => ∃ output, answer = ⟨output.toValue⟩ ∧
          Reports decoding.lossy tool.runner.maximum output told)
        (fun _ => Settled) .idle := by
  obtain ⟨command, asked, filled, arguments⟩ := Configured.prepare_ok prepares
  obtain ⟨positive, within⟩ := tool.timeoutMs_bounds call
  refine ⟨command, tool.timeoutMs call, asked, filled, positive, within, ?_⟩
  have decoded : decoding.fromValue prepared.action.arguments =
      .ok (tool.request command (tool.timeoutMs call)) := by
    rw [arguments]
    exact decodes tool command _ (Nat.lt_of_le_of_lt within tool.bounded)
  have tries := tries_execute_supervised tool.toShellTool turns context decoded
  -- The timeout that is run with is at least a millisecond, as the prepared one is already.
  have same : max (tool.request command (tool.timeoutMs call)).timeoutMs 1 = tool.timeoutMs call :=
    Nat.max_eq_left positive
  rw [same] at tries
  exact tries

/-- Ten minutes are asked for, and two are granted. -/
theorem runs_prepared_make :
    ∃ command timeoutMs, stringArgument CallSample.call.arguments "command" = .ok command ∧
      isBlank command = false ∧ 1 ≤ timeoutMs ∧ timeoutMs ≤ 120000 ∧
      (supervising
          (CallSample.tool.runner.Spawns (CallSample.tool.request command timeoutMs) ·)
          (turnLimit (timeoutMs * 1000000))).Tries
        (CallSample.tool.execute CallSample.decoding 13000 CallSample.prepared CallSample.context)
        (fun answer told => ∃ output, answer = ⟨output.toValue⟩ ∧
          Reports CallSample.decoding.lossy 65536 output told)
        (fun _ => Settled) .idle :=
  runs_prepared 13000 CallSample.context CallSample.decodes CallSample.prepares

end ShellTool

end Nausicaa.Executor
