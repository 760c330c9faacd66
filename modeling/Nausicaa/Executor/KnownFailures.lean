import Nausicaa.Core.Runtime
import Nausicaa.Executor.Runners
import Nausicaa.Posix.Canonical

/-! # Known failures

A failure that is not of unknown outcome says that the call had no effect.  `ShellTool` and
`WriteFileTool` keep to that exactly as long as no step fails behind the effect (`known_failures`). -/

namespace Nausicaa.Executor

open Core (PreparedToolCall ReceiptStatus ToolError ToolExecutionContext ToolOutput executionReceipt)
open Interaction (Contract Watched mapError request)
open Posix (IoError Path Place Tree)

/-- A failure that says that nothing happened. -/
def KnownFailure (result : Except ToolError ToolOutput) : Prop :=
  ∃ error, result = .error error ∧ ∀ reason, error ≠ .outcomeUnknown reason

theorem KnownFailure.error_iff {error : ToolError} :
    KnownFailure (.error error) ↔ ∀ reason, error ≠ .outcomeUnknown reason := by
  constructor
  · rintro ⟨_, ⟨⟩, known⟩
    exact known
  · exact fun known => ⟨error, rfl, known⟩

/-- The runtime records a known failure, and only that, as failed. -/
theorem executionReceipt_failed (prepared : PreparedToolCall) (result : Except ToolError ToolOutput) :
    (executionReceipt prepared result).status = .failed ↔ KnownFailure result := by
  cases result with
  | ok output =>
    constructor
    · intro failed
      cases failed
    · rintro ⟨_, ⟨⟩, _⟩
  | error error =>
    rw [KnownFailure.error_iff]
    cases error with
    | outcomeUnknown reason =>
      constructor
      · intro failed
        cases failed
      · intro known
        exact absurd rfl (known reason)
    | _ => exact ⟨fun _ => nofun, fun _ => rfl⟩

/-! ## Commands -/

namespace ShellTool

/-- No question has been asked. -/
def idle : Process := ⟨false, false, false⟩

/-- Nothing is spawned where a failure is known, exactly if nothing failed behind the spawn or the
token was found cancelled. -/
def Tells (result : Except ToolError ToolOutput) (watched : Watched Process) : Prop :=
  (KnownFailure result → watched.state.spawned = false) ↔
    ¬ watched.marked ∨ watched.state.cancelled = true

theorem Tells.of_quiet {result : Except ToolError ToolOutput} {watched : Watched Process}
    (quiet : Quiet watched) : Tells result watched :=
  ⟨fun _ => .inl quiet.unmarked, fun _ _ => quiet.spawned⟩

theorem knownFailure_toolError {error : ProcessError} :
    KnownFailure (.error (toolError error)) ↔ error ≠ .cancelled := by
  rw [KnownFailure.error_iff]
  cases error with
  | cancelled => simp [toolError]
  | io message => simp [toolError]
  | invalid message => simp [toolError]

theorem execute_tells (tool : ShellTool) (decoding : Decoding) (turns : Nat)
    (prepared : PreparedToolCall) (context : ToolExecutionContext) :
    spawning.Meets (tool.execute decoding turns prepared context).run Tells ⟨idle, False⟩ := by
  have start : Quiet ⟨idle, False⟩ := ⟨rfl, id⟩
  have tries : spawning.Tries (tool.execute decoding turns prepared context)
      (fun output => Tells (.ok output)) (fun error => Tells (.error error)) ⟨idle, False⟩ := by
    apply Contract.Tries.bind
    apply Contract.Tries.request trivial
    intro cancelled watched₁ step
    have quiet₁ := start.step step nofun
    apply Contract.Tries.bind
    apply tries_ensure
    · intro _
      apply Contract.Tries.bind
      apply tries_ofExcept
      · intro processRequest _
        apply Contract.Tries.bind
        apply Contract.Tries.mapError
        apply Contract.Tries.mono (tries_runControlled tool.runner quiet₁)
        · intro output watched₂ unmarked
          exact ⟨fun _ => .inl unmarked, by rintro _ ⟨_, ⟨⟩, _⟩⟩
        · intro error watched₂ judged
          rw [Tells, knownFailure_toolError]
          exact judged
      · exact fun _ _ => .of_quiet quiet₁
    · exact fun _ => .of_quiet quiet₁
  apply Contract.Meets.mono tries
  intro result watched holds
  cases result with
  | ok output => exact holds
  | error error => exact holds

end ShellTool

/-! ## Files -/

namespace WriteFileTool

variable {workspace : Place} {tree base : Tree} {watched watched' : Watched Host} {α : Type}

/-- The answers that the tool cannot go on from. -/
def Fails (workspace : Place) : (op : FileOp) → op.Answer → Prop
  | .canonicalize _, .error _ | .openFile _, .error _ | .writeAll _ _, .error _
  | .syncData _, .error _ => True
  | .canonicalize _, .ok place => ¬ (Path.ofPlace place).StartsWith (.ofPlace workspace)
  | .isDirectory _, present => present = false
  | _, _ => False

/-- Marked is what fails where the tree is another than at the start. -/
def writing (workspace : Place) (tree : Tree) : Contract FileOp FileOp.Answer (Watched Host) :=
  faulty.watch fun _ op answer host => Fails workspace op answer ∧ host.tree ≠ tree

/-- The tree is the same where a failure is known, exactly if nothing failed in another tree. -/
def Tells (tree : Tree) (result : Except ToolError ToolOutput) (watched : Watched Host) : Prop :=
  (KnownFailure result → watched.state.tree = tree) ↔ ¬ watched.marked

/-- Nothing has failed, and this is the tree. -/
structure Calm (base : Tree) (watched : Watched Host) : Prop where
  tree : watched.state.tree = base
  unmarked : ¬ watched.marked

/-- What a failure leaves. -/
def Settled (tree : Tree) (watched : Watched Host) : Prop :=
  watched.state.tree = tree ↔ ¬ watched.marked

theorem Calm.settled (calm : Calm tree watched) : Settled tree watched :=
  ⟨fun _ => calm.unmarked, fun _ => calm.tree⟩

theorem Settled.tells {error : ToolError} (settled : Settled tree watched)
    (known : ∀ reason, error ≠ .outcomeUnknown reason) : Tells tree (.error error) watched := by
  rw [Tells, KnownFailure.error_iff]
  exact ⟨fun told => settled.mp (told known), fun unmarked _ => settled.mpr unmarked⟩

/-- An operation, with what is made of its answer. -/
theorem tries_answer {op : FileOp} {ε : Type} {next : op.Answer → FileCode ε α}
    {ok : α → Watched Host → Prop} {failed : ε → Watched Host → Prop} (unmarked : ¬ watched.marked)
    (fine : ∀ answer watched', watched.state.Answers op answer watched'.state →
      ¬ Fails workspace op answer → ¬ watched'.marked →
      (writing workspace tree).Tries (next answer) ok failed watched')
    (fails : ∀ answer watched', watched.state.Answers op answer watched'.state →
      Fails workspace op answer → Settled tree watched' →
      (writing workspace tree).Tries (next answer) ok failed watched') :
    (writing workspace tree).Tries (request op >>= next) ok failed watched := by
  apply Contract.Tries.watch trivial unmarked
  · intro answer watched' answers well unmarked'
    by_cases bad : Fails workspace op answer
    · have same : watched'.state.tree = tree := by
        by_contra other
        exact well ⟨bad, other⟩
      exact fails answer watched' answers bad ⟨fun _ => unmarked', fun _ => same⟩
    · exact fine answer watched' answers bad unmarked'
  · intro answer watched' answers bad marked
    exact fails answer watched' answers bad.1
      ⟨fun same => absurd same bad.2, fun unmarked' => absurd marked unmarked'⟩

/-! ### Checks -/

section Checks

variable {ok : Unit → Watched Host → Prop} {path target : Path}

/-- What only looks at the tree leaves it as it is. -/
theorem tries_looked {op : FileOp} {next : op.Answer → FileCode ToolError Unit}
    (calm : Calm base watched)
    (looks : ∀ (host : Host) answer host', host.Answers op answer host' → host' = host)
    (fine : ∀ answer watched', ¬ Fails workspace op answer → Calm base watched' →
      (writing workspace tree).Tries (next answer) ok (fun error => Tells tree (.error error)) watched')
    (fails : ∀ answer watched', Fails workspace op answer → Settled tree watched' →
      (writing workspace tree).Tries (next answer) ok (fun error => Tells tree (.error error)) watched') :
    (writing workspace tree).Tries (request op >>= next) ok (fun error => Tells tree (.error error)) watched := by
  apply tries_answer calm.unmarked
  · intro answer watched' answers bad unmarked
    exact fine answer watched' bad ⟨by rw [looks _ _ _ answers, calm.tree], unmarked⟩
  · intro answer watched' _ bad settled
    exact fails answer watched' bad settled

theorem tries_canonicalInside {outside : String} (calm : Calm base watched)
    (holds : ∀ watched', Calm base watched' → ok () watched') :
    (writing workspace tree).Tries (canonicalInside workspace path outside) ok
      (fun error => Tells tree (.error error)) watched := by
  apply tries_looked calm
  · intro host answer host' answers
    exact answers.1
  · intro answer watched' fine calm'
    cases answer with
    | error error => exact absurd trivial fine
    | ok place =>
      apply tries_ensure
      · intro _
        exact holds watched' calm'
      · intro outside
        exact absurd outside fine
  · intro answer watched' fails settled
    cases answer with
    | error error => exact Contract.Tries.throw (settled.tells nofun)
    | ok place =>
      apply tries_ensure
      · intro inside
        exact absurd inside fails
      · intro _
        exact settled.tells nofun

theorem tries_verifyAncestor (paths : List Path) (calm : Calm base watched)
    (holds : ∀ watched', Calm base watched' → ok () watched') :
    (writing workspace tree).Tries (verifyAncestor workspace paths) ok (fun error => Tells tree (.error error))
      watched := by
  induction paths generalizing watched with
  | nil => exact Contract.Tries.pure (holds watched calm)
  | cons path paths ih =>
    apply tries_looked calm
    · intro host answer host' answers
      exact answers.1
    · intro present watched' _ calm'
      cases present with
      | true => exact tries_canonicalInside calm' holds
      | false => exact ih calm'
    · intro present watched' fails _
      cases fails

/-- The check of the target fails by an answer, or, with nothing done yet, by its path. -/
theorem tries_verifyWriteTarget (calm : Calm base watched)
    (early : ¬ target.StartsWith (.ofPlace workspace) → base = tree)
    (holds : ∀ watched', target.StartsWith (.ofPlace workspace) → Calm base watched' →
      ok () watched') :
    (writing workspace tree).Tries (verifyWriteTarget workspace target) ok (fun error => Tells tree (.error error))
      watched := by
  apply Contract.Tries.bind
  apply tries_ensure
  · intro within
    apply Contract.Tries.bind
    apply tries_verifyAncestor _ calm
    intro watched₁ calm₁
    apply tries_looked calm₁
    · intro host answer host' answers
      exact answers.1
    · intro present watched₂ _ calm₂
      cases present with
      | true => exact tries_canonicalInside calm₂ fun watched' => holds watched' within
      | false => exact Contract.Tries.pure (holds watched₂ within calm₂)
    · intro present watched' fails _
      cases fails
  · intro without
    rw [early without] at calm
    exact calm.settled.tells nofun

end Checks

/-! ### Effects -/

/-- A directory that was not made is there, or the call ends. -/
theorem tries_settle {path : Path} {error : IoError} (unmarked : ¬ watched.marked) :
    (writing workspace tree).Tries (createDirAll.settle path error)
      (fun _ watched' => ¬ watched'.marked) (fun _ => Settled tree) watched := by
  apply tries_answer unmarked
  · intro present watched' _ fine unmarked'
    apply tries_ensure
    · intro _
      exact unmarked'
    · intro absent
      exact absurd (Bool.eq_false_of_not_eq_true absent) fine
  · intro present watched' _ absent settled
    apply tries_ensure
    · intro there
      have absent : present = false := absent
      rw [absent] at there
      cases there
    · intro _
      exact settled

theorem tries_createDirAll {path : Path} {ups : List Path} (calm : Calm tree watched) :
    (writing workspace tree).Tries (createDirAll path ups) (fun _ watched' => ¬ watched'.marked)
      (fun _ => Settled tree) watched := by
  induction ups generalizing path watched with
  | nil =>
    apply tries_answer calm.unmarked
    · intro made watched' answers _ unmarked
      cases made with
      | ok _ => exact Contract.Tries.pure unmarked
      | error error =>
        cases error with
        | notFound =>
          have same : watched'.state = watched.state := answers
          have calm' : Calm tree watched' := ⟨by rw [same, calm.tree], unmarked⟩
          exact Contract.Tries.throw calm'.settled
        | _ => exact tries_settle unmarked
    · intro made watched' _ fails _
      cases fails
  | cons up ups ih =>
    apply tries_answer calm.unmarked
    · intro made watched₁ answers _ unmarked
      cases made with
      | ok _ => exact Contract.Tries.pure unmarked
      | error error =>
        cases error with
        | notFound =>
          -- On the way up nothing is made; only then the parents are.
          have same : watched₁.state = watched.state := answers
          have calm₁ : Calm tree watched₁ := ⟨by rw [same, calm.tree], unmarked⟩
          apply Contract.Tries.bind
          apply Contract.Tries.mono (ih calm₁)
          · intro _ watched₂ unmarked₂
            apply tries_answer unmarked₂
            · intro made watched₃ _ _ unmarked₃
              cases made with
              | ok _ => exact Contract.Tries.pure unmarked₃
              | error error => exact tries_settle unmarked₃
            · intro made watched' _ fails _
              cases fails
          · exact fun _ _ settled => settled
        | _ => exact tries_settle unmarked
    · intro made watched' _ fails _
      cases fails

theorem tries_write {path : Path} {content : String} (unmarked : ¬ watched.marked) :
    (writing workspace tree).Tries (write path content) (fun _ watched' => ¬ watched'.marked)
      (fun error => Tells tree (.error error)) watched := by
  apply tries_answer unmarked
  · intro opened watched₁ _ fine unmarked₁
    cases opened with
    | error error => exact absurd trivial fine
    | ok file =>
      apply tries_answer unmarked₁
      · intro written watched₂ _ fine unmarked₂
        cases written with
        | error error => exact absurd trivial fine
        | ok _ =>
          apply tries_answer unmarked₂
          · intro synced watched₃ _ fine unmarked₃
            cases synced with
            | error error => exact absurd trivial fine
            | ok _ => exact Contract.Tries.pure unmarked₃
          · intro synced watched₃ _ fails settled
            cases synced with
            | error error => exact Contract.Tries.throw (settled.tells nofun)
            | ok _ => cases fails
      · intro written watched₂ _ fails settled
        cases written with
        | error error => exact Contract.Tries.throw (settled.tells nofun)
        | ok _ => cases fails
  · intro opened watched₁ _ fails settled
    cases opened with
    | error error => exact Contract.Tries.throw (settled.tells nofun)
    | ok file => cases fails

theorem tries_writeVerified {tool : WriteFileTool} {createDirectories : Bool} {path : Path}
    {content : String} (within : path.StartsWith (.ofPlace tool.workspace))
    (calm : Calm tree watched) :
    (writing tool.workspace tree).Tries (tool.writeVerified createDirectories path content)
      (fun _ watched' => ¬ watched'.marked) (fun error => Tells tree (.error error)) watched := by
  rw [writeVerified]
  cases path.parents with
  | nil => exact Contract.Tries.throw (calm.settled.tells nofun)
  | cons parent ancestors =>
    cases createDirectories with
    | false => exact tries_write calm.unmarked
    | true =>
      apply Contract.Tries.bind
      apply Contract.Tries.mapError
      apply Contract.Tries.mono (tries_createDirAll calm)
      · intro _ watched₁ unmarked₁
        apply Contract.Tries.bind
        apply tries_verifyWriteTarget ⟨rfl, unmarked₁⟩ fun without => absurd within without
        intro watched₂ _ calm₂
        exact tries_write calm₂.unmarked
      · exact fun _ _ settled => settled.tells nofun

theorem stringArgument_known {arguments : Json.Value} {name : String} {error : ToolError}
    (missing : stringArgument arguments name = .error error) (reason : String) :
    error ≠ .outcomeUnknown reason := by
  rw [stringArgument] at missing
  split at missing <;> cases missing
  exact nofun

theorem pathArgument_known {arguments : Json.Value} {name : String} {error : ToolError}
    (missing : pathArgument arguments name = .error error) :
    ∀ reason, error ≠ .outcomeUnknown reason := by
  rw [pathArgument] at missing
  cases found : stringArgument arguments name with
  | ok text =>
    rw [found] at missing
    cases missing
  | error error' =>
    rw [found] at missing
    cases missing
    exact stringArgument_known found

theorem execute_tells (tool : WriteFileTool) (tree : Tree) (prepared : PreparedToolCall)
    (context : ToolExecutionContext) :
    (writing tool.workspace tree).Meets (tool.execute prepared context).run (Tells tree)
      ⟨⟨tree, []⟩, False⟩ := by
  have start : Calm tree ⟨⟨tree, []⟩, False⟩ := ⟨rfl, id⟩
  have tries : (writing tool.workspace tree).Tries (tool.execute prepared context)
      (fun _ watched' => ¬ watched'.marked) (fun error => Tells tree (.error error)) ⟨⟨tree, []⟩, False⟩ := by
    apply tries_answer start.unmarked
    · intro cancelled watched₁ answers _ unmarked₁
      have same : watched₁.state = ⟨tree, []⟩ := answers
      have calm₁ : Calm tree watched₁ := ⟨by rw [same], unmarked₁⟩
      apply Contract.Tries.bind
      apply tries_ensure
      · intro _
        apply Contract.Tries.bind
        apply tries_ofExcept
        · intro path _
          apply Contract.Tries.bind
          apply tries_ofExcept
          · intro content _
            apply Contract.Tries.bind
            apply tries_verifyWriteTarget calm₁ fun _ => rfl
            intro watched₂ within calm₂
            exact tries_writeVerified within calm₂
          · intro error missing
            exact calm₁.settled.tells (stringArgument_known missing)
        · intro error missing
          exact calm₁.settled.tells (pathArgument_known missing)
      · exact fun _ => calm₁.settled.tells nofun
    · intro cancelled watched' _ fails _
      cases fails
  apply Contract.Meets.mono tries
  intro result watched holds
  cases result with
  | ok output => exact ⟨fun _ => holds, by rintro _ ⟨_, ⟨⟩, _⟩⟩
  | error error => exact holds

end WriteFileTool

/-! ## Both tools -/

/-- In every run, whichever steps of the operating system fail: a known failure of `ShellTool` means
that no command was spawned, exactly if no step failed behind the spawn or the token was found
cancelled, and a known failure of `WriteFileTool` means that the tree is what it was, exactly if no
step failed in another tree.  The runtime records known failures, and only these, as failed. -/
theorem known_failures (shell : ShellTool) (decoding : Decoding) (turns : Nat)
    (writer : WriteFileTool) (tree : Tree) (prepared : PreparedToolCall)
    (context : ToolExecutionContext) :
    spawning.Meets (shell.execute decoding turns prepared context).run
      (fun result watched => (KnownFailure result → watched.state.spawned = false) ↔
        ¬ watched.marked ∨ watched.state.cancelled = true)
      ⟨ShellTool.idle, False⟩ ∧
    (WriteFileTool.writing writer.workspace tree).Meets (writer.execute prepared context).run
      (fun result watched => (KnownFailure result → watched.state.tree = tree) ↔ ¬ watched.marked)
      ⟨⟨tree, []⟩, False⟩ ∧
    ∀ result, (executionReceipt prepared result).status = .failed ↔ KnownFailure result :=
  ⟨shell.execute_tells decoding turns prepared context,
    writer.execute_tells tree prepared context, executionReceipt_failed prepared⟩

/-! ## Failures with an effect -/

namespace FailureSample

/-- The child cannot be waited for, as where the signal of its exit is ignored. -/
def handle (process : Process) : (op : ProcessOp) → Option op.Answer × Process
  | .isCancelled _ => (some process.cancelled, process)
  | .spawn _ => (some (.ok ⟨7⟩), { process with spawned := true, exited := false })
  | .takePipe _ _ => (some true, process)
  | .setNonblocking _ _ | .killGroup _ | .kill _ => (some (.ok ()), process)
  | .read _ _ => (some .endOfFile, process)
  | .waitid _ => (some (.error (.other "No child processes (os error 10)")), process)
  | .waitBehind _ => (some (), process)
  | .canonicalize _ | .pathExists _ | .wait _ | .elapsed _ | .sleep | .more => (none, process)

def decoding : Decoding := ⟨fun _ => .ok ⟨"make", Path.parse "/", 1000⟩, fun _ => ""⟩

def shell : ShellTool := ⟨.localProcess ⟨65536⟩⟩

def command : PreparedToolCall where
  callId := ⟨"call"⟩
  action := {
    toolName := "shell"
    arguments := .object [("command", .string "make"), ("timeout_ms", .number (.posInt 1000)),
      ("working_directory", .string "/")]
    effect := .workspaceWrite
    retrySafety := .unsafeRetry
    scope := some "/" }

def name : Posix.Name := ⟨"a", by decide, by decide, by decide, by decide⟩

def tree : Tree := .single name (Text.encode "old")

/-- The device is full. -/
def serve (host : Host) (op : FileOp) : op.Answer × Host :=
  match op with
  | .writeAll file _ =>
    (.error (.other "No space left on device (os error 28)"), host.withBytes file [])
  | op => host.serve op

def writer : WriteFileTool := ⟨[], 100⟩

def write : PreparedToolCall where
  callId := ⟨"call"⟩
  action := {
    toolName := "write_file"
    arguments := WriteFileTool.preparedArguments "new" false (Path.ofPlace [name])
    effect := .workspaceWrite
    retrySafety := .idempotent
    scope := some "/" }

def context : ToolExecutionContext := ⟨⟨"thread"⟩, ⟨"turn"⟩, none, ⟨0⟩, ∅⟩

theorem handle_answers (process : Process) (op : ProcessOp) (answer : op.Answer)
    (answered : (handle process op).1 = some answer) :
    process.Answers op answer (handle process op).2 := by
  cases op <;> cases answered
  case isCancelled token => exact ⟨id, rfl⟩
  case spawn command => exact ⟨by decide, rfl⟩
  all_goals rfl

theorem serve_answers (host : Host) (op : FileOp) :
    host.Answers op (serve host op).1 (serve host op).2 := by
  cases op with
  | writeAll file bytes => exact ⟨[], List.nil_prefix, rfl⟩
  | _ => exact host.serve_answers _

end FailureSample

/-- The command is running when its capture fails, and the file is empty when the write fails; both
failures are told as known. -/
theorem failures_with_effect :
    ¬ processes.Meets (FailureSample.shell.execute FailureSample.decoding 1 FailureSample.command
        FailureSample.context).run
      (fun result process => KnownFailure result → process.spawned = false) ShellTool.idle ∧
    ¬ faulty.Meets (FailureSample.writer.execute FailureSample.write FailureSample.context).run
      (fun result host => KnownFailure result → host.tree = FailureSample.tree)
      ⟨FailureSample.tree, []⟩ := by
  constructor
  · intro meets
    have told := meets.run FailureSample.handle_answers rfl
    cases told ⟨_, rfl, nofun⟩
  · intro meets
    have told := Contract.Meets.eval meets FailureSample.serve_answers
    have same := told ⟨_, rfl, nofun⟩
    have content := congrArg (fun tree => tree.content [FailureSample.name]) same
    revert content
    decide

end Nausicaa.Executor
