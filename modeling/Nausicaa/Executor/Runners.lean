import Nausicaa.Executor.Spawned

/-! # Runners

What a runner tells of a failure that is not a cancellation: that nothing was spawned, unless a step
failed behind the spawn and the token was not found cancelled (`tries_runControlled`). -/

namespace Nausicaa.Executor

open Core (CancellationToken)
open Interaction (Contract Watched request)

variable {watched : Watched Process} {token : CancellationToken} {lossy : List UInt8 → String}
variable {turns timeoutMs maximum : Nat} {processRequest : ProcessRequest} {error : ProcessError}

/-! ## What is told -/

/-- Nothing is spawned. -/
structure Quiet (watched : Watched Process) : Prop where
  spawned : watched.state.spawned = false
  unmarked : ¬ watched.marked

/-- A failure that is not a cancellation tells that nothing was spawned, exactly if nothing failed
behind the spawn or the token was found cancelled. -/
def Judged (error : ProcessError) (watched : Watched Process) : Prop :=
  (error ≠ .cancelled → watched.state.spawned = false) ↔
    ¬ watched.marked ∨ watched.state.cancelled = true

theorem Quiet.judged (quiet : Quiet watched) : Judged error watched :=
  ⟨fun _ => .inl quiet.unmarked, fun _ _ => quiet.spawned⟩

theorem Quiet.step {op : ProcessOp} {answer : op.Answer} {watched' : Watched Process}
    (quiet : Quiet watched) (step : spawning.step watched op answer watched')
    (other : ∀ command, op ≠ .spawn command) : Quiet watched' := by
  obtain ⟨answers, marked⟩ := step
  have answers : watched.state.Answers op answer watched'.state := answers
  refine ⟨by rw [answers.spawned other, quiet.spawned], ?_⟩
  rw [marked]
  rintro (marked | ⟨spawned, _⟩)
  · exact quiet.unmarked marked
  · rw [quiet.spawned] at spawned
    cases spawned

/-! ## In front of the spawn -/

theorem quiet_request (op : ProcessOp) (other : ∀ command, op ≠ .spawn command) :
    spawning.Keeps Quiet (request op : ProcessCode ProcessError op.Answer) := by
  intro watched quiet
  apply Contract.Tries.request trivial
  intro answer watched' step
  exact quiet.step step other

/-- In front of the spawn every failure is told as it is. -/
theorem quiet_judged {α : Type} {code : ProcessCode ProcessError α} {ok : α → Watched Process → Prop}
    (keeps : spawning.Keeps Quiet code) (quiet : Quiet watched)
    (holds : ∀ value watched', Quiet watched' → ok value watched') :
    spawning.Tries code ok Judged watched :=
  (keeps watched quiet).mono holds fun _ _ quiet => quiet.judged

theorem quiet_ensure {condition : Prop} [Decidable condition] :
    spawning.Keeps Quiet (ensure condition error : ProcessCode ProcessError Unit) := by
  intro watched quiet
  exact tries_ensure (fun _ => quiet) (fun _ => quiet)

theorem quiet_notCancelled : spawning.Keeps Quiet (notCancelled token) :=
  (quiet_request (.isCancelled token) nofun).bind fun _ => quiet_ensure

theorem quiet_systemBinds (paths : List String) :
    spawning.Keeps Quiet (BubblewrapRunner.systemBinds paths) := by
  induction paths with
  | nil => exact .pure []
  | cons path paths ih =>
    apply (quiet_request (.pathExists (Posix.Path.parse path)) nofun).bind
    intro present
    exact ih.bind fun binds => .pure _

theorem quiet_readOnlyBinds (paths : List Posix.Path) :
    spawning.Keeps Quiet (BubblewrapRunner.readOnlyBinds paths) := by
  induction paths with
  | nil => exact .pure []
  | cons path paths ih =>
    apply (quiet_request (.canonicalize path) nofun).bind
    intro result
    cases result with
    | error error => exact .throw _
    | ok canonical => exact ih.bind fun binds => .pure _

/-! ## Behind the spawn -/

/-- An operation of the cleanup. -/
theorem tries_behind (op : ProcessOp) (other : ∀ command, op ≠ .spawn command)
    (broken : Broken error watched) {ok : op.Answer → Watched Process → Prop}
    {failed : ProcessError → Watched Process → Prop}
    (holds : ∀ answer watched', Broken error watched' → ok answer watched') :
    spawning.Tries (request op) ok failed watched := by
  apply Contract.Tries.request trivial
  intro answer watched' step
  exact holds answer watched' (broken.step step other)

/-- Whatever comes of the cleanup, a broken capture stays broken. -/
theorem tries_abandon {child : Child} (broken : Broken error watched)
    {failed : ProcessError → Watched Process → Prop} :
    spawning.Tries (abandon child) (fun _ => Broken error) failed watched := by
  have killed : spawning.Tries child.killProcessGroup (fun _ => Broken error)
      (fun _ => Broken error) watched := by
    apply Contract.Tries.bind
    apply tries_ensure
    · intro _
      apply Contract.Tries.bind
      apply tries_behind (.killGroup child) nofun broken
      intro answer watched' broken'
      cases answer with
      | ok _ => exact Contract.Tries.pure broken'
      | error errno =>
        cases errno with
        | noSuchProcess => exact Contract.Tries.pure broken'
        | interrupted | other _ => exact Contract.Tries.throw broken'
    · intro _
      exact broken
  have rest (watched' : Watched Process) (broken' : Broken error watched') :
      spawning.Tries (do
        let _ ← request (ProcessOp.kill child)
        request (ProcessOp.waitBehind child)) (fun _ => Broken error) failed watched' := by
    apply Contract.Tries.bind
    apply tries_behind (.kill child) nofun broken'
    intro _ watched₁ broken₁
    exact tries_behind (.waitBehind child) nofun broken₁ fun _ _ broken₂ => broken₂
  apply Contract.Tries.bind
  apply Contract.Tries.outcome
  exact killed.mono (fun _ => rest) (fun _ => rest)

/-- The last question turns what came of the capture into what is told. -/
theorem tries_told {result : Except ProcessError ProcessOutput}
    (came : match result with
      | .ok _ => ¬ watched.marked
      | .error error => Broken error watched) :
    spawning.Tries (do notCancelled token; ofExcept result) (fun _ watched' => ¬ watched'.marked)
      Judged watched := by
  apply Contract.Tries.bind
  apply Contract.Tries.bind
  apply Contract.Tries.request trivial
  intro cancelled watched' step
  have answers : watched.state.Answers (.isCancelled token) cancelled watched'.state := step.1
  apply tries_ensure
  · rintro rfl
    have unasked : watched'.state.cancelled = false := by rw [answers.2]
    cases result with
    | ok output =>
      apply Contract.Tries.pure
      rw [step.2]
      rintro (marked | ⟨_, fails⟩)
      · exact came marked
      · cases fails
    | error error =>
      apply Contract.Tries.throw
      have came : Broken error watched' := Broken.step came step nofun
      cases came with
      | cancelled same cancelled =>
        rw [unasked] at cancelled
        cases cancelled
      | stuck message same stuck =>
        subst same
        constructor
        · intro told
          have spawned := told nofun
          rw [stuck.spawned] at spawned
          cases spawned
        · rintro (unmarked | cancelled)
          · exact absurd stuck.marked unmarked
          · rw [unasked] at cancelled
            cases cancelled
  · intro cancelled
    have cancelled : watched'.state.cancelled = true := by
      rw [answers.2]
      simpa using cancelled
    exact ⟨fun _ => .inr cancelled, fun _ other => absurd rfl other⟩

theorem tries_runCommand {command : Command} (quiet : Quiet watched) :
    spawning.Tries (runCommand lossy turns command timeoutMs maximum token)
      (fun _ watched' => ¬ watched'.marked) Judged watched := by
  apply Contract.Tries.bind
  apply quiet_judged quiet_notCancelled quiet
  intro _ watched₁ quiet₁
  apply Contract.Tries.bind
  apply Contract.Tries.request trivial
  intro spawned watched₂ step
  have answers : watched₁.state.Answers (.spawn command) spawned watched₂.state := step.1
  have unmarked : ¬ watched₂.marked := by
    rw [step.2]
    rintro (marked | ⟨_, fails⟩)
    · exact quiet₁.unmarked marked
    · cases spawned <;> cases fails
  cases spawned with
  | error errno =>
    have same : watched₂.state = watched₁.state := answers
    have quiet₂ : Quiet watched₂ := ⟨by rw [same, quiet₁.spawned], unmarked⟩
    exact Contract.Tries.throw quiet₂.judged
  | ok child =>
    obtain ⟨small, same⟩ := answers
    have running : Running false false watched₂ := ⟨by rw [same], by rw [same], nofun, unmarked⟩
    apply Contract.Tries.bind
    apply Contract.Tries.pure
    apply Contract.Tries.bind
    apply Contract.Tries.outcome
    apply Contract.Tries.mono (tries_captureProcess small running)
    · intro output watched₃ unmarked
      exact tries_told unmarked
    · intro error watched₃ broken
      apply Contract.Tries.bind
      apply Contract.Tries.mono (tries_abandon broken)
      · intro _ watched₄ broken'
        exact tries_told broken'
      · exact fun _ _ judged => judged

/-! ## Both runners -/

/-- Whatever the runner, what it tells is so unless a step failed behind the spawn. -/
theorem tries_runControlled (runner : ProcessRunner) (quiet : Quiet watched) :
    spawning.Tries (runner.runControlled lossy turns processRequest token)
      (fun _ watched' => ¬ watched'.marked) Judged watched := by
  cases runner with
  | localProcess runner =>
    apply Contract.Tries.bind
    apply quiet_judged quiet_notCancelled quiet
    intro _ watched₁ quiet₁
    exact tries_runCommand quiet₁
  | bubblewrap runner =>
    apply Contract.Tries.bind
    apply quiet_judged quiet_notCancelled quiet
    intro _ watched₁ quiet₁
    apply Contract.Tries.bind
    apply quiet_judged (quiet_request (.canonicalize processRequest.workingDirectory) nofun) quiet₁
    intro canonical watched₂ quiet₂
    cases canonical with
    | error error => exact Contract.Tries.throw quiet₂.judged
    | ok cwd =>
      apply Contract.Tries.bind
      apply Contract.Tries.pure
      apply Contract.Tries.bind
      apply quiet_judged quiet_ensure quiet₂
      intro _ watched₃ quiet₃
      apply Contract.Tries.bind
      apply quiet_judged (quiet_systemBinds _) quiet₃
      intro system watched₄ quiet₄
      apply Contract.Tries.bind
      apply quiet_judged (quiet_readOnlyBinds _) quiet₄
      intro additional watched₅ quiet₅
      exact tries_runCommand quiet₅

end Nausicaa.Executor
