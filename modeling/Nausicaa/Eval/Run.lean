import Nausicaa.Core.World
import Nausicaa.Executor.WriteFile
import Nausicaa.Task.Journal

/-! # Paired evaluation

`run` of `eval/src/lib.rs`: a fixture is given to the runtime turn by turn, until its task
needs no further attempt.  The file system, the store and the runtime's calls are operations;
a call of the runtime is its own program over a `Core.World`. -/

namespace Nausicaa.Eval

open Core (AgentRuntime CancellationToken CapabilityPolicy EventEnvelope Own RecoveryReport Reply
  RuntimeError StoreError ThreadId TokenUsage Tool ToolReceipt ToolRegistry TurnId TurnOutcome World
  machine)
open Interaction (Contract Program)
open Nausicaa.Task (ArtifactRef Budget CheckEvidence Codec Criterion Fault TaskError TaskEvent TaskJournal
  TaskSpec TaskState TaskStatus)

/-! ## Data -/

structure Fixture where
  version : Nat
  id : String
  split : String
  objective : String
  initial : String
  expected : String
  proposals : List String
  maxAttempts : Nat
  denyWrite : Bool
  interruptExecution : Bool
  deriving DecidableEq

inductive Mode where
  | coreOnly | task
  deriving DecidableEq, Repr

structure RunReport where
  fixture : Fixture
  mode : Mode
  model : String
  harnessVersion : String
  maxModelIterationsPerTurn : Nat
  artifactDirectory : String
  reportedSuccess : Bool
  verifiedSuccess : Bool
  falseCompletion : Bool
  attempts : Nat
  modelIterations : Nat
  elapsedMs : Nat
  tokens : TokenUsage
  liveModel : Bool
  interventions : Nat
  deniedReceipts : Nat
  unknownReceipts : Nat
  taskStatus : Option TaskStatus
  turnErrors : List String
  deriving DecidableEq

inductive EvalError where
  | message (text : String)
  | io (message : String)
  | task (source : TaskError)
  | store (source : StoreError)
  | process (message : String)
  | registry (source : Core.RegistryError)
  | runtime (source : RuntimeError)
  deriving DecidableEq

/-- What is written to a file, before it is printed as JSON. -/
inductive Contents where
  | text (text : String)
  | fixture (fixture : Fixture)
  | evidence (turnId : TurnId) (artifacts : List ArtifactRef) (checks : List CheckEvidence)
      (receipts : List ToolReceipt)
  | report (report : RunReport)
  deriving DecidableEq

/-! ## Operations -/

/-- How a turn stands after it was polled once: it is over, or waits, perhaps for the execution
of a tool. -/
inductive Polled where
  | ready (result : Except RuntimeError TurnOutcome)
  | pending (entered : Bool)

inductive Operation where
  | createDir (path : String)
  | write (path : String) (contents : Contents)
  | readToString (path : String)
  /-- A write of the task journal. -/
  | writeTask
  | openStore (path : String)
  /-- `WriteFileTool::new`. -/
  | openTool (workspace : String)
  | newTurnId
  | newCancellation
  | startThread (runtime : AgentRuntime)
  | runTurn (runtime : AgentRuntime) (threadId : ThreadId) (turnId : TurnId) (input : String)
      (cancellation : CancellationToken)
  /-- Poll the future of `runTurn` once, with an executor that never answers, and drop it. -/
  | pollTurn (runtime : AgentRuntime) (threadId : ThreadId) (turnId : TurnId) (input : String)
      (cancellation : CancellationToken)
  | recover (runtime : AgentRuntime) (threadId : ThreadId)
  | loadThread (threadId : ThreadId)
  | elapsed

abbrev Answer : Operation → Type
  | .createDir _ => Except String Unit
  | .write .. => Except String Unit
  | .readToString _ => Except String String
  | .writeTask => Option Fault
  | .openStore _ => Except StoreError Unit
  | .openTool _ => Except String Tool
  | .newTurnId => TurnId
  | .newCancellation => CancellationToken
  | .startThread _ => Except RuntimeError ThreadId
  | .runTurn .. => Except RuntimeError TurnOutcome
  | .pollTurn .. => Polled
  | .recover .. => Except RuntimeError RecoveryReport
  | .loadThread _ => Except StoreError (List EventEnvelope)
  | .elapsed => Nat

abbrev Attempt := Interaction.Fallible Operation Answer EvalError

def perform (op : Operation) : Attempt (Answer op) := Interaction.request op

/-- `?` on a result whose error is boxed. -/
def unwrap {ε α : Type} (wrap : ε → EvalError) : Except ε α → Attempt α
  | .ok value => pure value
  | .error error => throw (wrap error)

/-- `std::fs::write` and `?`. -/
def writeFile (path : String) (contents : Contents) : Attempt Unit := do
  unwrap .io (← perform (.write path contents))

/-! ## The code -/

def join (directory name : String) : String := directory ++ "/" ++ name

/-- What stays the same throughout a run. -/
structure Setup where
  debug : String → String
  codec : Codec
  fixture : Fixture
  mode : Mode
  directory : String
  modelId : String
  liveModel : Bool

namespace Setup

variable (setup : Setup)

def workspace : String := join setup.directory "workspace"

def source : String := join setup.workspace "lib.rs"

def spec : TaskSpec where
  objective := setup.fixture.objective
  criteria := [{
    id := "source-content-v1"
    artifactId := "lib.rs"
    expected := setup.fixture.expected }]
  budget := { maxAttempts := setup.fixture.maxAttempts }

/-- The runtime with its tool, policy and configuration. -/
def runtime (tools : ToolRegistry) : AgentRuntime where
  tools := tools
  policy := (CapabilityPolicy.denyByDefault.grant "write_file"
    (if setup.fixture.denyWrite then .deny else .allow)).access
  policyContext := ⟨none, none, none, none⟩
  parentCapabilities := none
  hooks := []
  observers := []
  modelObserver := none
  config := { maxModelIterations := 4, workspace := some setup.workspace, toolMetadata := ∅ }

end Setup

/-- The variables of the loop. -/
structure Loop where
  task : Option TaskJournal
  attempts : Nat
  normalCompletion : Bool
  verifiedSuccess : Bool
  turnErrors : List String
  input : String

section Code

variable (setup : Setup)

def createTask : Attempt (Option TaskJournal) :=
  match setup.mode with
  | .coreOnly => pure none
  | .task => do
    let fault ← perform .writeTask
    return some (← unwrap .task (TaskJournal.create setup.codec setup.spec fault).1)

/-- A transition of the task journal. -/
def advance (task : TaskJournal) (event : TaskEvent) : Attempt TaskJournal := do
  let fault ← perform .writeTask
  let (result, task) := task.transition setup.debug setup.codec event fault
  unwrap .task result
  return task

def startAttempt (turnId : TurnId) : Option TaskJournal → Attempt (Option TaskJournal)
  | none => pure none
  | some task => do return some (← advance setup task (.attemptStarted turnId.value))

/-- Run a turn, or interrupt it where its first tool would be executed.  The result tells whether
a turn completed, and the errors. -/
def runAttempt (runtime : AgentRuntime) (threadId : ThreadId) (turnId : TurnId) (current : Loop) :
    Attempt (Bool × List String) := do
  let cancellation ← perform .newCancellation
  if setup.fixture.interruptExecution then
    match ← perform (.pollTurn runtime threadId turnId current.input cancellation) with
    | .pending true =>
      let recovered ← perform (.recover runtime threadId)
      let _ ← unwrap .runtime recovered
      return (current.normalCompletion, current.turnErrors ++
        ["injected interruption at execution boundary; recovered without replay"])
    | _ => throw (.message "fault fixture failed to reach execution boundary")
  else
    match ← perform (.runTurn runtime threadId turnId current.input cancellation) with
    | .ok _ => return (true, current.turnErrors)
    | .error error =>
      let recovered ← perform (.recover runtime threadId)
      let _ ← unwrap .runtime recovered
      return (false, current.turnErrors ++ [error.toString])

/-- The receipts of a turn. -/
def receiptsOf (turnId : TurnId) (events : List EventEnvelope) : List ToolReceipt :=
  events.filterMap fun envelope =>
    if envelope.turnId = some turnId then
      match envelope.event with
      | .toolReceiptRecorded receipt => some receipt
      | _ => none
    else none

/-- What is left to do with the evidence of an attempt; the result tells whether there is another
attempt. -/
def settle (current : Loop) (artifacts : List ArtifactRef) (receipts : List ToolReceipt) :
    Option TaskJournal → Attempt (Loop × Bool)
  | none => return ({ current with task := none }, false)
  | some task => do
    let task ← advance setup task (.attemptChecked artifacts receipts)
    if task.state.status ≠ .needsRepair then
      return ({ current with task := some task }, false)
    else if !current.normalCompletion then
      let task ← advance setup task
        (.blocked "Core turn failed; host inspection required before further generation")
      return ({ current with task := some task }, false)
    else
      return ({ current with
        task := some task
        input := setup.fixture.objective ++ "\nVerification feedback:\n" ++
          "\n".intercalate task.state.remainingWork }, true)

/-- One turn of the loop. -/
def attempt (runtime : AgentRuntime) (threadId : ThreadId) (current : Loop) :
    Attempt (Loop × Bool) := do
  let turnId ← perform .newTurnId
  let task ← startAttempt setup turnId current.task
  let attempts := current.attempts + 1
  let (normalCompletion, turnErrors) ← runAttempt setup runtime threadId turnId current
  let loaded ← perform (.loadThread threadId)
  let events ← unwrap .store loaded
  let receipts := receiptsOf turnId events
  let read ← perform (.readToString setup.source)
  let content ← unwrap .io read
  let artifacts := [{ id := "lib.rs", content := content }]
  let checks := setup.spec.check setup.debug artifacts
  let verifiedSuccess := checks.all CheckEvidence.passed && !TaskState.anyUnknown receipts
  writeFile (join setup.directory s!"evidence-{attempts}.json")
    (.evidence turnId artifacts checks receipts)
  settle setup { current with attempts, normalCompletion, verifiedSuccess, turnErrors }
    artifacts receipts task

/-- The loop, for at most so many turns; without a result if they do not suffice. -/
def attempts (runtime : AgentRuntime) (threadId : ThreadId) : Nat → Loop → Attempt (Option Loop)
  | 0, _ => return none
  | turns + 1, current => do
    let (next, again) ← attempt setup runtime threadId current
    if again then attempts runtime threadId turns next else return some next

/-- The totals over a log. -/
structure Tally where
  tokens : TokenUsage
  iterations : Nat
  denied : Nat
  unknown : Nat

def Tally.count (tally : Tally) (envelope : EventEnvelope) : Tally :=
  match envelope.event with
  | .modelRequestStarted _ => { tally with iterations := tally.iterations + 1 }
  | .assistantMessage _ _ _ usage => { tally with
      tokens := {
        inputTokens := tally.tokens.inputTokens + usage.inputTokens
        outputTokens := tally.tokens.outputTokens + usage.outputTokens } }
  | .toolReceiptRecorded receipt =>
    match receipt.status with
    | .denied => { tally with denied := tally.denied + 1 }
    | .unknown => { tally with unknown := tally.unknown + 1 }
    | _ => tally
  | _ => tally

/-- The report on the loop's variables. -/
def report (current : Loop) (events : List EventEnvelope) (elapsedMs : Nat) : RunReport :=
  let tally := events.foldl Tally.count ⟨⟨0, 0⟩, 0, 0, 0⟩
  let taskStatus := current.task.map fun task => task.state.status
  let reportedSuccess := match taskStatus with
    | none => current.normalCompletion
    | some status => status = .succeeded
  { fixture := setup.fixture
    mode := setup.mode
    model := setup.modelId
    harnessVersion := "0.1.0"
    maxModelIterationsPerTurn := 4
    artifactDirectory := setup.directory
    reportedSuccess
    verifiedSuccess := current.verifiedSuccess
    falseCompletion := reportedSuccess && !current.verifiedSuccess
    attempts := current.attempts
    modelIterations := tally.iterations
    elapsedMs
    tokens := tally.tokens
    liveModel := setup.liveModel
    interventions := if tally.unknown > 0 ∨ taskStatus = some .blocked then 1 else 0
    deniedReceipts := tally.denied
    unknownReceipts := tally.unknown
    taskStatus
    turnErrors := current.turnErrors }

/-- The checks on the arguments. -/
def checkFixture : Attempt Unit :=
  if setup.fixture.version ≠ 1 ∨ setup.fixture.proposals = [] ∨ setup.fixture.maxAttempts = 0 then
    throw (.message "unsupported or invalid fixture")
  else if setup.liveModel && setup.fixture.interruptExecution then
    throw (.message "interruption injection requires the synchronous scripted model")
  else pure ()

/-- The directories and files of a run. -/
def layOut : Attempt Unit := do
  unwrap .io (← perform (.createDir setup.directory))
  unwrap .io (← perform (.createDir setup.workspace))
  writeFile setup.source (.text setup.fixture.initial)
  writeFile (join setup.directory "fixture.json") (.fixture setup.fixture)

/-- The runtime over its store, and its thread. -/
def connect : Attempt (AgentRuntime × ThreadId) := do
  unwrap .store (← perform (.openStore (join setup.directory "events.jsonl")))
  let tool ← unwrap .process (← perform (.openTool setup.workspace))
  let tools ← unwrap .registry (ToolRegistry.new.registerArc Executor.writeFileDefinition tool)
  let threadId ← unwrap .runtime (← perform (.startThread (setup.runtime tools)))
  return (setup.runtime tools, threadId)

/-- Everything up to the loop. -/
def begin : Attempt (Option TaskJournal × AgentRuntime × ThreadId) := do
  checkFixture setup
  layOut setup
  let task ← createTask setup
  let connected ← connect setup
  return (task, connected)

/-- Everything after the loop. -/
def finish (threadId : ThreadId) (current : Loop) :
    Attempt (Option (RunReport × Option TaskJournal)) := do
  let loaded ← perform (.loadThread threadId)
  let events ← unwrap .store loaded
  let elapsedMs ← perform .elapsed
  let report := report setup current events elapsedMs
  writeFile (join setup.directory "report.json") (.report report)
  return some (report, current.task)

/-- `run`: the report, and the task journal that is left.  Without a result the loop went on for
more turns than the fixture has attempts. -/
def run : Attempt (Option (RunReport × Option TaskJournal)) := do
  let (task, runtime, threadId) ← begin setup
  let input := setup.fixture.objective ++ "\nEdit lib.rs. Required exact source contents:\n" ++
    setup.fixture.expected
  let ended ← attempts setup runtime threadId setup.fixture.maxAttempts
    { task, attempts := 0, normalCompletion := false, verifiedSuccess := false, turnErrors := [],
      input }
  match ended with
  | none => return none
  | some current => finish setup threadId current

end Code

/-! ## Surroundings -/

abbrev RuntimeProgram := Program Core.Operation Core.Answer (Except RuntimeError Reply)

/-- A call of the runtime that runs to its end, with nothing else running. -/
inductive Completes : World → Own → RuntimeProgram → Except RuntimeError Reply → World → Prop
  | done {world : World} {own : Own} {reply : Except RuntimeError Reply} :
    Completes world own (.done reply) reply world
  | step {world world' world'' : World} {own own' : Own} {op : Core.Operation}
      {resume : Core.Answer op → RuntimeProgram} {answer : Core.Answer op}
      {reply : Except RuntimeError Reply} :
    machine.exec world own op answer world' own' → Completes world' own' (resume answer) reply world'' →
    Completes world own (.ask op resume) reply world''

/-- The operations that are awaited. -/
def IsAwaited : Core.Operation → Prop
  | .completeControlled .. | .requestApproval _ | .execute .. => True
  | _ => False

def isExecution : Core.Operation → Bool
  | .execute .. => true
  | _ => false

/-- A turn that is polled once: it goes on until it waits, at the latest for an execution, and is
dropped there. -/
inductive Polls : World → Own → RuntimeProgram → Polled → World → Prop
  | ready {world : World} {own : Own} {result : Except RuntimeError TurnOutcome} :
    Polls world own (.done (result.map .outcome)) (.ready result) world
  | pending {world : World} {own : Own} {op : Core.Operation}
      {resume : Core.Answer op → RuntimeProgram} :
    IsAwaited op →
    Polls world own (.ask op resume) (.pending (isExecution op)) (machine.release world own)
  | step {world world' world'' : World} {own own' : Own} {op : Core.Operation}
      {resume : Core.Answer op → RuntimeProgram} {answer : Core.Answer op} {polled : Polled} :
    isExecution op = false → machine.exec world own op answer world' own' →
    Polls world' own' (resume answer) polled world'' →
    Polls world own (.ask op resume) polled world''

/-- What an operation that is answered does to the world of the runtime. -/
def Changes (world world' : World) : (op : Operation) → Answer op → Prop
  | .startThread runtime, answer =>
    Completes world machine.idle (Core.Call.startThread.code runtime) (answer.map .thread) world'
  | .runTurn runtime threadId turnId input cancellation, answer =>
    Completes world machine.idle ((Core.Call.runTurn threadId turnId input cancellation).code runtime)
      (answer.map .outcome) world'
  | .pollTurn runtime threadId turnId input cancellation, polled =>
    Polls world machine.idle ((Core.Call.runTurn threadId turnId input cancellation).code runtime)
      polled world'
  | .recover runtime threadId, answer =>
    Completes world machine.idle ((Core.Call.recover threadId).code runtime) (answer.map .report)
      world'
  | .loadThread threadId, answer =>
    world' = world ∧ ∀ events, answer = .ok events → events = world.log threadId
  | _, _ => world' = world

/-- An operation of the evaluation and its answer. -/
abbrev Observation := (op : Operation) × Answer op

/-- The runtime's world, and what happened so far. -/
structure Surroundings where
  world : World
  history : List Observation

def Surroundings.extend (state : Surroundings) (observations : List Observation) (world : World) :
    Surroundings :=
  ⟨world, state.history ++ observations⟩

/-- Everything may fail, and the runtime does what its code does with any answers. -/
def surroundings : Contract Operation Answer Surroundings where
  permit _ _ := True
  step state op answer state' :=
    ∃ world, Changes state.world world op answer ∧ state' = state.extend [⟨op, answer⟩] world

end Nausicaa.Eval
