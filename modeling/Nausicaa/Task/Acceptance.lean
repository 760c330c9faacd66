import Nausicaa.Core.Tool

/-! # Task acceptance

The crate `task`: a task is accepted when its artifacts have the contents that its criteria
ask for, within a budget of attempts.  `debug` is what `{:?}` prints for a string. -/

namespace Nausicaa.Task

open Core (ReceiptStatus ToolReceipt isBlank)

/-! ## Data -/

structure ArtifactRef where
  id : String
  content : String
  deriving DecidableEq

structure Criterion where
  id : String
  artifactId : String
  expected : String
  deriving DecidableEq

structure Budget where
  maxAttempts : Nat
  deriving DecidableEq

structure TaskSpec where
  objective : String
  criteria : List Criterion
  budget : Budget
  deriving DecidableEq

structure CheckEvidence where
  criterionId : String
  artifactId : String
  passed : Bool
  feedback : String
  deriving DecidableEq

inductive TaskStatus where
  | ready
  | running
  | needsRepair
  | succeeded
  | budgetExhausted
  | blocked
  deriving DecidableEq, Repr

structure AttemptEvidence where
  attempt : Nat
  turnId : String
  artifacts : List ArtifactRef
  checks : List CheckEvidence
  receipts : List ToolReceipt
  deriving DecidableEq

structure TaskState where
  spec : TaskSpec
  status : TaskStatus
  attempts : Nat
  evidence : List AttemptEvidence
  remainingWork : List String
  activeTurn : Option String
  deriving DecidableEq

inductive TaskEvent where
  | created (spec : TaskSpec)
  | attemptStarted (turnId : String)
  | attemptChecked (artifacts : List ArtifactRef) (receipts : List ToolReceipt)
  | blocked (reason : String)
  deriving DecidableEq

inductive TaskError where
  | io (message : String)
  | json (message : String)
  | invalid (message : String)
  deriving DecidableEq, Repr

/-! ## Checks -/

/-- The criterion's artifact is there once, with the expected content. -/
def Criterion.passes (criterion : Criterion) (artifacts : List ArtifactRef) : Bool :=
  match artifacts.filter fun artifact => artifact.id = criterion.artifactId with
  | [artifact] => artifact.content = criterion.expected
  | _ => false

def Criterion.repair (debug : String → String) (criterion : Criterion) (found : Nat) : String :=
  s!"Repair artifact {debug criterion.artifactId} to satisfy criterion {debug criterion.id}: " ++
    s!"expected exact content {debug criterion.expected}; found {found} snapshot(s)"

/-- `CompletionGate::check`. -/
def TaskSpec.check (debug : String → String) (spec : TaskSpec) (artifacts : List ArtifactRef) :
    List CheckEvidence :=
  spec.criteria.map fun criterion =>
    let found := artifacts.filter fun artifact => artifact.id = criterion.artifactId
    { criterionId := criterion.id
      artifactId := criterion.artifactId
      passed := criterion.passes artifacts
      feedback :=
        if criterion.passes artifacts then "exact content verified" else criterion.repair debug found.length }

/-! ## States -/

/-- The loop of `initial_state`, with the ids seen so far. -/
def checkCriteria (ids : List String) : List Criterion → Except TaskError Unit
  | [] => .ok ()
  | criterion :: criteria =>
    if isBlank criterion.id ∨ isBlank criterion.artifactId ∨ criterion.id ∈ ids then
      .error (.invalid
        "criterion IDs must be nonempty and unique; artifact IDs must be nonempty")
    else
      checkCriteria (criterion.id :: ids) criteria

def initialState (spec : TaskSpec) : Except TaskError TaskState :=
  if isBlank spec.objective ∨ spec.criteria = [] ∨ spec.budget.maxAttempts = 0 then
    .error (.invalid "objective, required criteria and positive attempt budget are mandatory")
  else
    match checkCriteria [] spec.criteria with
    | .error error => .error error
    | .ok () =>
      .ok {
        spec
        status := .ready
        attempts := 0
        evidence := []
        remainingWork := spec.criteria.map Criterion.id
        activeTurn := none }

namespace TaskState

def attemptStarted (state : TaskState) (turnId : String) : Except TaskError Unit × TaskState :=
  if (state.status ≠ .ready ∧ state.status ≠ .needsRepair) ∨
      state.attempts ≥ state.spec.budget.maxAttempts ∨ isBlank turnId ∨
      ∃ evidence ∈ state.evidence, evidence.turnId = turnId then
    (.error (.invalid "attempt requires a ready task, fresh turn ID and remaining budget"), state)
  else
    (.ok (), { state with
      attempts := state.attempts + 1
      activeTurn := some turnId
      status := .running })

/-- Whether a tool call's outcome is unknown. -/
def anyUnknown (receipts : List ToolReceipt) : Bool :=
  receipts.any fun receipt => receipt.status = .unknown

/-- The status and the remaining work after a verification. -/
def verdict (state : TaskState) (checks : List CheckEvidence) (receipts : List ToolReceipt) :
    TaskState :=
  let failed := (checks.filter fun check => !check.passed).map CheckEvidence.feedback
  if anyUnknown receipts then
    { state with
      remainingWork := failed ++
        ["Reconcile unknown tool outcomes with the host; do not replay actions"]
      status := .blocked }
  else if checks.all CheckEvidence.passed then
    { state with remainingWork := failed, status := .succeeded }
  else if state.attempts = state.spec.budget.maxAttempts then
    { state with remainingWork := failed, status := .budgetExhausted }
  else
    { state with remainingWork := failed, status := .needsRepair }

def attemptChecked (debug : String → String) (state : TaskState) (artifacts : List ArtifactRef)
    (receipts : List ToolReceipt) : Except TaskError Unit × TaskState :=
  if state.status ≠ .running then
    (.error (.invalid "verification requires a running attempt"), state)
  else
    let checks := state.spec.check debug artifacts
    let state := state.verdict checks receipts
    match state.activeTurn with
    | none => (.error (.invalid "missing active turn"), state)
    | some turnId =>
      (.ok (), { state with
        activeTurn := none
        evidence := state.evidence ++ [⟨state.attempts, turnId, artifacts, checks, receipts⟩] })

def blockedBy (state : TaskState) (reason : String) : Except TaskError Unit × TaskState :=
  if (state.status ≠ .ready ∧ state.status ≠ .running ∧ state.status ≠ .needsRepair) ∨
      isBlank reason then
    (.error (.invalid "blocking requires a nonterminal task and a reason"), state)
  else
    (.ok (), { state with status := .blocked, remainingWork := state.remainingWork ++ [reason] })

/-- The result of `apply`, and the state as it leaves it. -/
def apply (debug : String → String) (state : TaskState) :
    TaskEvent → Except TaskError Unit × TaskState
  | .created _ => (.error (.invalid "task specification is immutable"), state)
  | .attemptStarted turnId => state.attemptStarted turnId
  | .attemptChecked artifacts receipts => state.attemptChecked debug artifacts receipts
  | .blocked reason => state.blockedBy reason

end TaskState

end Nausicaa.Task
