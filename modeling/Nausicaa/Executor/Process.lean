import Mathlib.Algebra.Group.Nat.Defs
import Nausicaa.Executor.Capture
import Nausicaa.Executor.WriteFile
import Nausicaa.TaskLedger.Serde

/-! # The tool that runs commands

`ShellTool` of `executor-process/src/lib.rs` with its runners, and `run_command` as it is on Unix: a
`Program` over the calls of the operating system. -/

namespace Nausicaa.Executor

open Core (CancellationToken PreparedToolCall ToolError ToolExecutionContext ToolOutput)
open Interaction (Contract Fallible mapError outcome request)
open Json (Value)
open Posix (IoError Path Place)
open TaskLedger (orNull)

/-! ## Requests and outputs -/

inductive ProcessError where
  | cancelled
  | io (message : String)
  | invalid (message : String)
  deriving DecidableEq, Repr

def ProcessError.toString : ProcessError → String
  | .cancelled => "process cancelled; effects before termination may have occurred"
  | .io message => s!"process I/O error: {message}"
  | .invalid message => s!"invalid process request: {message}"

structure ProcessRequest where
  command : String
  workingDirectory : Path
  timeoutMs : Nat

structure ProcessOutput where
  exitCode : Option Int
  stdout : String
  stderr : String
  timedOut : Bool
  stdoutTruncated : Bool
  stderrTruncated : Bool

def integer : Int → Value
  | .ofNat value => .number (.posInt value)
  | .negSucc value => .number (.negInt (.negSucc value))

/-- `serde_json::to_value`. -/
def ProcessOutput.toValue (output : ProcessOutput) : Value := .object [
  ("exit_code", orNull (output.exitCode.map integer)),
  ("stderr", .string output.stderr),
  ("stderr_truncated", .bool output.stderrTruncated),
  ("stdout", .string output.stdout),
  ("stdout_truncated", .bool output.stdoutTruncated),
  ("timed_out", .bool output.timedOut)]

/-- `serde_json::from_value` for requests, and `String::from_utf8_lossy`. -/
structure Decoding where
  fromValue : Value → Except String ProcessRequest
  lossy : List UInt8 → String

/-! ## Operations -/

structure Command where
  program : String
  args : List String
  currentDir : Option Path
  envClear : Bool

/-- A spawned process, the leader of its own group. -/
structure Child where
  id : Nat

inductive Stream where
  | stdout | stderr
  deriving DecidableEq, Repr

def Stream.name : Stream → String
  | .stdout => "stdout"
  | .stderr => "stderr"

/-- What time is measured from: the start, or the moment when the group was killed. -/
inductive Since where
  | start | cleanup

inductive Errno where
  | interrupted | noSuchProcess
  | other (message : String)
  deriving DecidableEq, Repr

def Errno.toString : Errno → String
  | .interrupted => "Interrupted system call (os error 4)"
  | .noSuchProcess => "No such process (os error 3)"
  | .other message => message

inductive ProcessOp where
  | isCancelled (token : CancellationToken)
  | canonicalize (path : Path)
  | pathExists (path : Path)
  /-- In a new group, with no input and with pipes for both outputs. -/
  | spawn (command : Command)
  | takePipe (child : Child) (stream : Stream)
  /-- Both calls of `fcntl`. -/
  | setNonblocking (child : Child) (stream : Stream)
  | read (child : Child) (stream : Stream)
  /-- Whether the child has exited is answered by its id, or by zero. -/
  | waitid (child : Child)
  | killGroup (child : Child)
  | kill (child : Child)
  | wait (child : Child)
  /-- `wait` on a thread of its own. -/
  | waitBehind (child : Child)
  /-- In nanoseconds. -/
  | elapsed (since : Since)
  | sleep
  /-- One more turn than are run. -/
  | more

abbrev ProcessOp.Answer : ProcessOp → Type
  | .isCancelled _ | .pathExists _ | .takePipe _ _ => Bool
  | .canonicalize _ => Except IoError Place
  | .spawn _ => Except Errno Child
  | .setNonblocking _ _ | .killGroup _ | .kill _ => Except Errno Unit
  | .read _ _ => ReadResult
  | .waitid _ => Except Errno Nat
  | .wait _ => Except Errno (Option Int)
  | .elapsed _ => Nat
  | .waitBehind _ | .sleep => Unit
  | .more => Empty

abbrev ProcessCode (ε : Type) := Fallible ProcessOp ProcessOp.Answer ε

/-- `map_err(io_error)?`. -/
def orIo {α : Type} : Except Errno α → ProcessCode ProcessError α
  | .ok value => pure value
  | .error errno => throw (.io errno.toString)

def resolved : Except IoError Place → ProcessCode ProcessError Place
  | .ok place => pure place
  | .error error => throw (.io error.toString)

/-! ## A child and its pipes -/

namespace Child

def killProcessGroup (child : Child) : ProcessCode ProcessError Unit := do
  ensure (child.id < 2 ^ 31) (.io "out of range integral type conversion attempted")
  match ← request (ProcessOp.killGroup child) with
  | .ok () | .error .noSuchProcess => pure ()
  | .error errno => throw (.io errno.toString)

def hasExited (child : Child) : ProcessCode ProcessError Bool := do
  match ← request (ProcessOp.waitid child) with
  | .ok id => return id != 0
  | .error .interrupted => return false
  | .error errno => throw (.io errno.toString)

/-- The pipe that was created, set to answer at once. -/
def capture (child : Child) (stream : Stream) (maximum : Nat) :
    ProcessCode ProcessError CapturedPipe := do
  let taken : Bool ← request (ProcessOp.takePipe child stream)
  ensure (taken = true) (.io s!"{stream.name} pipe was not created")
  orIo (← request (ProcessOp.setNonblocking child stream))
  return .new maximum

/-- `for _ in 0..32`, of which some rounds are left. -/
def drainLoop (child : Child) (stream : Stream) :
    Nat → CapturedPipe → ProcessCode ProcessError CapturedPipe
  | 0, pipe => return pipe
  | rounds + 1, pipe => do
    let after := { pipe with reads := pipe.reads + 1 }
    match ← request (ProcessOp.read child stream) with
    | .endOfFile => return { after with eof := true }
    | .data chunk => drainLoop child stream rounds (after.retain chunk.bytes)
    | .wouldBlock => return after
    | .interrupted => drainLoop child stream rounds after
    | .failed error => throw (.io error)

def drain (child : Child) (stream : Stream) (pipe : CapturedPipe) :
    ProcessCode ProcessError CapturedPipe :=
  if pipe.eof then return pipe else drainLoop child stream 32 pipe

/-- A pipe that answers as the reader does, the reads counted. -/
def reading (reader : Reader) (reads : Nat) : (op : ProcessOp) → Option op.Answer × Nat
  | .read _ _ => (some (reader reads), reads + 1)
  | _ => (none, reads)

/-- What a drained pipe is for the code around it. -/
def drained (drained : Drained) : Except ProcessError CapturedPipe :=
  match drained.result with
  | .ok () => .ok drained.pipe
  | .error error => .error (.io error)

theorem run_drainLoop (child : Child) (stream : Stream) (reader : Reader) (rounds : Nat)
    (pipe : CapturedPipe) :
    (child.drainLoop stream rounds pipe).run.run (reading reader) pipe.reads =
      (some (drained (CapturedPipe.drainLoop reader rounds pipe)),
        (CapturedPipe.drainLoop reader rounds pipe).pipe.reads) := by
  induction rounds generalizing pipe with
  | zero => rfl
  | succ rounds ih =>
    have asked (next : ReadResult → ProcessCode ProcessError CapturedPipe) :
        (request (ProcessOp.read child stream) >>= next).run.run (reading reader) pipe.reads =
          (next (reader pipe.reads)).run.run (reading reader) (pipe.reads + 1) := rfl
    rw [drainLoop, CapturedPipe.drainLoop, asked]
    cases reader pipe.reads with
    | data chunk => exact ih ({ pipe with reads := pipe.reads + 1 }.retain chunk.bytes)
    | interrupted => exact ih { pipe with reads := pipe.reads + 1 }
    | endOfFile | wouldBlock | failed _ => rfl

/-- Drained over the operating system, a pipe is what it is drained over its reader. -/
theorem run_drain (child : Child) (stream : Stream) (reader : Reader) (pipe : CapturedPipe) :
    (child.drain stream pipe).run.run (reading reader) pipe.reads =
      (some (drained (CapturedPipe.drain reader pipe)),
        (CapturedPipe.drain reader pipe).pipe.reads) := by
  rw [drain, CapturedPipe.drain]
  split
  · rfl
  · exact run_drainLoop child stream reader 32 pipe

end Child

/-! ## Running a command -/

/-- 250 milliseconds. -/
def outputCleanupTimeout : Nat := 250000000

/-- The variables of the loop in `capture_process`. -/
structure Capture where
  stdout : CapturedPipe
  stderr : CapturedPipe
  exited : Bool
  cleanupStarted : Bool
  timedOut : Bool
  cancelled : Bool

namespace Capture

def start (stdout stderr : CapturedPipe) : Capture := ⟨stdout, stderr, false, false, false, false⟩

variable (child : Child) (timeout : Nat) (token : CancellationToken)

/-- What the turn begins with: both pipes are drained, and the child is looked at. -/
def look (capture : Capture) : ProcessCode ProcessError Capture := do
  let stdout ← child.drain .stdout capture.stdout
  let stderr ← child.drain .stderr capture.stderr
  let exited ← if capture.exited then pure true else child.hasExited
  return { capture with stdout, stderr, exited }

/-- Whether it is time to kill the group. -/
def isDue (capture : Capture) : ProcessCode ProcessError Bool := do
  if capture.cleanupStarted then return false
  if capture.exited then return true
  let cancelled : Bool ← request (ProcessOp.isCancelled token)
  if cancelled then return true
  let elapsed : Nat ← request (ProcessOp.elapsed .start)
  return decide (timeout ≤ elapsed)

def cleanUp (capture : Capture) : ProcessCode ProcessError Capture := do
  let due ← capture.isDue timeout token
  if due then
    let cancelled : Bool ← request (ProcessOp.isCancelled token)
    child.killProcessGroup
    return { capture with
      cleanupStarted := true, cancelled, timedOut := !capture.exited && !cancelled }
  else return capture

/-- Whether the loop breaks behind the cleanup. -/
def isOver (capture : Capture) : ProcessCode ProcessError Bool := do
  if capture.exited && capture.stdout.eof && capture.stderr.eof then return true
  if capture.cleanupStarted then
    let elapsed : Nat ← request (ProcessOp.elapsed .cleanup)
    if outputCleanupTimeout ≤ elapsed then
      ensure (capture.exited = true) (.io "process did not exit within the cleanup deadline")
      return true
  return false

/-- The loop, of which some turns are run. -/
def turns : Nat → Capture → ProcessCode ProcessError Capture
  | 0, _ => do
    let never : Empty ← request ProcessOp.more
    nomatch never
  | count + 1, capture => do
    let looked ← capture.look child
    let cleaned ← looked.cleanUp child timeout token
    let ended ← cleaned.isOver
    if ended then return cleaned
    else
      request ProcessOp.sleep
      turns count cleaned

end Capture

variable (lossy : List UInt8 → String)

/-- `capture_process`, in at most this many turns of its loop. -/
def captureProcess (turns : Nat) (child : Child) (timeoutMs maximum : Nat)
    (token : CancellationToken) : ProcessCode ProcessError ProcessOutput := do
  let stdout ← child.capture .stdout maximum
  let stderr ← child.capture .stderr maximum
  let timeout := max timeoutMs 1 * 1000000
  let capture ← Capture.turns child timeout token turns (.start stdout stderr)
  ensure (capture.cancelled = false) .cancelled
  let exitCode ← orIo (← request (ProcessOp.wait child))
  return {
    exitCode
    stdout := (capture.stdout.report lossy).1
    stderr := (capture.stderr.report lossy).1
    timedOut := capture.timedOut
    stdoutTruncated := (capture.stdout.report lossy).2
    stderrTruncated := (capture.stderr.report lossy).2 }

def notCancelled (token : CancellationToken) : ProcessCode ProcessError Unit := do
  let cancelled : Bool ← request (ProcessOp.isCancelled token)
  ensure (cancelled = false) .cancelled

/-- What is done where a capture failed; what comes of it is not looked at. -/
def abandon (child : Child) : ProcessCode ProcessError Unit := do
  let _ ← outcome child.killProcessGroup
  let _ ← request (ProcessOp.kill child)
  request (ProcessOp.waitBehind child)

def runCommand (turns : Nat) (command : Command) (timeoutMs maximum : Nat)
    (token : CancellationToken) : ProcessCode ProcessError ProcessOutput := do
  notCancelled token
  let child ← orIo (← request (ProcessOp.spawn command))
  let result ← outcome (captureProcess lossy turns child timeoutMs maximum token)
  match result with
  | .ok _ => pure ()
  | .error _ => abandon child
  notCancelled token
  ofExcept result

/-! ## Runners -/

structure LocalProcessRunner where
  maximumOutputBytes : Nat

structure BubblewrapRunner where
  binary : String
  workspace : Place
  maximumOutputBytes : Nat
  allowNetwork : Bool
  additionalReadOnlyBinds : List Path

def LocalProcessRunner.runControlled (runner : LocalProcessRunner) (turns : Nat)
    (processRequest : ProcessRequest) (token : CancellationToken) :
    ProcessCode ProcessError ProcessOutput := do
  notCancelled token
  let command : Command := {
    program := "/bin/sh"
    args := ["-lc", processRequest.command]
    currentDir := some processRequest.workingDirectory
    envClear := false }
  runCommand lossy turns command processRequest.timeoutMs runner.maximumOutputBytes token

namespace BubblewrapRunner

/-- The directories of the system that are there. -/
def systemBinds : List String → ProcessCode ProcessError (List String)
  | [] => return []
  | path :: paths => do
    let present : Bool ← request (ProcessOp.pathExists (Path.parse path))
    let binds ← systemBinds paths
    return if present then ["--ro-bind", path, path] ++ binds else binds

def readOnlyBinds : List Path → ProcessCode ProcessError (List String)
  | [] => return []
  | path :: paths => do
    let canonical ← resolved (← request (ProcessOp.canonicalize path))
    let binds ← readOnlyBinds paths
    return ["--ro-bind", (Path.ofPlace canonical).text, (Path.ofPlace canonical).text] ++ binds

def runControlled (runner : BubblewrapRunner) (turns : Nat) (processRequest : ProcessRequest)
    (token : CancellationToken) : ProcessCode ProcessError ProcessOutput := do
  notCancelled token
  let cwd ← resolved (← request (ProcessOp.canonicalize processRequest.workingDirectory))
  let workspace := (Path.ofPlace runner.workspace).text
  ensure ((Path.ofPlace cwd).StartsWith (.ofPlace runner.workspace))
    (.invalid s!"working directory `{(Path.ofPlace cwd).text}` is outside sandbox workspace `{workspace}`")
  let system ← systemBinds ["/usr", "/bin", "/lib", "/lib64"]
  let additional ← readOnlyBinds runner.additionalReadOnlyBinds
  let command : Command := {
    program := runner.binary
    args := ["--die-with-parent", "--new-session", "--unshare-all"] ++
      (if runner.allowNetwork then ["--share-net"] else []) ++ system ++ additional ++
      ["--proc", "/proc", "--dev", "/dev", "--tmpfs", "/tmp", "--bind", workspace, workspace,
        "--chdir", (Path.ofPlace cwd).text, "/bin/sh", "-lc", processRequest.command]
    currentDir := none
    envClear := true }
  runCommand lossy turns command processRequest.timeoutMs runner.maximumOutputBytes token

end BubblewrapRunner

inductive ProcessRunner where
  | localProcess (runner : LocalProcessRunner)
  | bubblewrap (runner : BubblewrapRunner)

def ProcessRunner.runControlled (turns : Nat) (processRequest : ProcessRequest)
    (token : CancellationToken) : ProcessRunner → ProcessCode ProcessError ProcessOutput
  | .localProcess runner => runner.runControlled lossy turns processRequest token
  | .bubblewrap runner => runner.runControlled lossy turns processRequest token

/-! ## The tool -/

structure ShellTool where
  runner : ProcessRunner

namespace ShellTool

/-- Only a cancelled process is of unknown outcome. -/
def toolError : ProcessError → ToolError
  | .cancelled => .outcomeUnknown ProcessError.cancelled.toString
  | .io message => .execution (ProcessError.io message).toString
  | .invalid message => .execution (ProcessError.invalid message).toString

def execute (tool : ShellTool) (decoding : Decoding) (turns : Nat) (prepared : PreparedToolCall)
    (context : ToolExecutionContext) : ProcessCode ToolError ToolOutput := do
  let cancelled : Bool ← request (ProcessOp.isCancelled context.cancellation)
  ensure (cancelled = false) .cancelled
  let processRequest ← ofExcept ((decoding.fromValue prepared.action.arguments).mapError .execution)
  let output ← mapError toolError
    (tool.runner.runControlled decoding.lossy turns processRequest context.cancellation)
  return ⟨output.toValue⟩

end ShellTool

end Nausicaa.Executor
