import Nausicaa.Executor.Checks
import Nausicaa.Executor.Process
import Nausicaa.Interaction.Watch

/-! # Commands that were spawned

The operating system behind a runner, where any call can fail (`Process.Answers`).  A capture ends
well where nothing fails behind the spawn, and says of a failure what it was
(`tries_captureProcess`). -/

namespace Nausicaa.Executor

open Core (CancellationToken)
open Interaction (Contract Watched request)

/-! ## The operating system -/

/-- Whether a command was spawned, and what was answered about the token and the exit. -/
structure Process where
  cancelled : Bool
  spawned : Bool
  exited : Bool

namespace Process

def Answers (process : Process) : (op : ProcessOp) → op.Answer → Process → Prop
  | .isCancelled _, answer, process' =>
    (process.cancelled = true → answer = true) ∧ process' = { process with cancelled := answer }
  | .spawn _, .ok child, process' =>
    child.id < 2 ^ 31 ∧ process' = { process with spawned := true, exited := false }
  | .waitid _, .ok id, process' =>
    process' = { process with exited := process.exited || id != 0 }
  | _, _, process' => process' = process

/-- The answers that a capture cannot go on from. -/
def Fails (process : Process) : (op : ProcessOp) → op.Answer → Prop
  | .takePipe _ _, present => present = false
  | .setNonblocking _ _, .error _ | .read _ _, .failed _ | .wait _, .error _ => True
  | .waitid _, .error errno => errno ≠ .interrupted
  | .killGroup _, .error errno => errno ≠ .noSuchProcess
  | .elapsed .cleanup, time => outputCleanupTimeout ≤ time ∧ process.exited = false
  | _, _ => False

variable {process process' : Process} {op : ProcessOp} {answer : op.Answer}

theorem Answers.spawned (answers : process.Answers op answer process')
    (other : ∀ command, op ≠ .spawn command) :
    process'.spawned = process.spawned := by
  cases op with
  | spawn command => exact absurd rfl (other command)
  | isCancelled token => rw [answers.2]
  | waitid child =>
    cases answer with
    | ok id => rw [show process' = _ from answers]
    | error errno => rw [show process' = _ from answers]
  | _ => rw [show process' = _ from answers]

theorem Answers.cancelled (answers : process.Answers op answer process')
    (before : process.cancelled = true) :
    process'.cancelled = true := by
  cases op with
  | isCancelled token => rw [answers.2, answers.1 before]
  | spawn command =>
    cases answer with
    | ok child => rw [answers.2, before]
    | error errno => rw [show process' = _ from answers, before]
  | waitid child =>
    cases answer with
    | ok id => rw [show process' = _ from answers, before]
    | error errno => rw [show process' = _ from answers, before]
  | _ => rw [show process' = _ from answers, before]

theorem Answers.exited (answers : process.Answers op answer process')
    (other : ∀ command, op ≠ .spawn command) (other' : ∀ child, op ≠ .waitid child) :
    process'.exited = process.exited := by
  cases op with
  | spawn command => exact absurd rfl (other command)
  | waitid child => exact absurd rfl (other' child)
  | isCancelled token => rw [answers.2]
  | _ => rw [show process' = _ from answers]

end Process

def processes : Contract ProcessOp ProcessOp.Answer Process where
  permit _ _ := True
  step := Process.Answers

/-- Marked is what fails behind the spawn. -/
def spawning : Contract ProcessOp ProcessOp.Answer (Watched Process) :=
  processes.watch fun process op answer _ => process.spawned = true ∧ process.Fails op answer

/-! ## Stages of a run -/

section Stages

variable {watched watched' : Watched Process} {exited cancelled : Bool} {error : ProcessError}
variable {op : ProcessOp} {answer : op.Answer}

/-- Nothing has failed since the command was spawned. -/
structure Running (exited cancelled : Bool) (watched : Watched Process) : Prop where
  spawned : watched.state.spawned = true
  exited : watched.state.exited = exited
  cancelled : cancelled = true → watched.state.cancelled = true
  unmarked : ¬ watched.marked

/-- A step failed behind the spawn. -/
structure Stuck (watched : Watched Process) : Prop where
  spawned : watched.state.spawned = true
  marked : watched.marked

/-- How a capture fails. -/
inductive Broken (error : ProcessError) (watched : Watched Process) : Prop
  | cancelled : error = .cancelled → watched.state.cancelled = true → Broken error watched
  | stuck (message : String) : error = .io message → Stuck watched → Broken error watched

theorem Running.answered (running : Running exited cancelled watched)
    (answers : watched.state.Answers op answer watched'.state) (unmarked : ¬ watched'.marked)
    (other : ∀ command, op ≠ .spawn command) (other' : ∀ child, op ≠ .waitid child) :
    Running exited cancelled watched' where
  spawned := by rw [answers.spawned other, running.spawned]
  exited := by rw [answers.exited other other', running.exited]
  cancelled before := answers.cancelled (running.cancelled before)
  unmarked := unmarked

/-- What failed stays failed. -/
theorem Broken.step (broken : Broken error watched)
    (step : spawning.step watched op answer watched') (other : ∀ command, op ≠ .spawn command) :
    Broken error watched' := by
  obtain ⟨answers, marked⟩ := step
  have answers : watched.state.Answers op answer watched'.state := answers
  cases broken with
  | cancelled same cancelled => exact .cancelled same (answers.cancelled cancelled)
  | stuck message same stuck =>
    exact .stuck message same
      ⟨by rw [answers.spawned other, stuck.spawned], marked.mpr (.inl stuck.marked)⟩

end Stages

/-! ## Captures -/

section Captures

variable {α : Type} {watched : Watched Process} {exited cancelled : Bool} {child : Child}
variable {token : CancellationToken} {timeout : Nat}

/-- Neither spawns a command nor tells of its exit. -/
def Plain : ProcessOp → Prop
  | .spawn _ | .waitid _ => False
  | _ => True

/-- A plain operation of a capture, with what is made of its answer. -/
theorem tries_answer {op : ProcessOp} {next : op.Answer → ProcessCode ProcessError α}
    {ok : α → Watched Process → Prop} (running : Running exited cancelled watched)
    (plain : Plain op)
    (fine : ∀ answer watched', ¬ watched.state.Fails op answer →
      Running exited cancelled watched' → spawning.Tries (next answer) ok Broken watched')
    (fails : ∀ answer watched', watched.state.Fails op answer → Stuck watched' →
      spawning.Tries (next answer) ok Broken watched') :
    spawning.Tries (request op >>= next) ok Broken watched := by
  have other : ∀ command, op ≠ .spawn command := by
    rintro command rfl
    exact plain
  have other' : ∀ child, op ≠ .waitid child := by
    rintro child rfl
    exact plain
  apply Contract.Tries.watch trivial running.unmarked
  · intro answer watched' answers well unmarked
    apply fine answer watched'
    · intro bad
      exact well ⟨running.spawned, bad⟩
    · exact running.answered answers unmarked other other'
  · intro answer watched' answers bad marked
    have answers : watched.state.Answers op answer watched'.state := answers
    exact fails answer watched' bad.2 ⟨by rw [answers.spawned other, running.spawned], marked⟩

theorem tries_io {ok : α → Watched Process → Prop} (stuck : Stuck watched) (message : String) :
    spawning.Tries (throw (.io message) : ProcessCode ProcessError α) ok Broken watched :=
  Contract.Tries.throw (.stuck message rfl stuck)

theorem carries_killProcessGroup (small : child.id < 2 ^ 31) :
    spawning.Carries (Running exited cancelled) Broken child.killProcessGroup := by
  intro watched running
  rw [Child.killProcessGroup, ensure, if_pos small]
  apply tries_answer running
  · trivial
  · intro answer watched' fine running'
    cases answer with
    | ok _ => exact Contract.Tries.pure running'
    | error errno =>
      cases errno with
      | noSuchProcess => exact Contract.Tries.pure running'
      | interrupted | other _ =>
        refine absurd ?_ fine
        rintro ⟨⟩
  · intro answer watched' fails stuck
    cases answer with
    | ok _ => cases fails
    | error errno =>
      cases errno with
      | noSuchProcess => exact absurd rfl fails
      | interrupted | other _ => exact tries_io stuck _

/-- The child is seen to exit, or not yet. -/
theorem tries_hasExited (running : Running false cancelled watched) :
    spawning.Tries child.hasExited (fun exited => Running exited cancelled) Broken watched := by
  apply Contract.Tries.watch trivial running.unmarked
  · intro answer watched' answers well unmarked
    have answers : watched.state.Answers (.waitid child) answer watched'.state := answers
    have spawned : watched'.state.spawned = true := by rw [answers.spawned nofun, running.spawned]
    have told : cancelled = true → watched'.state.cancelled = true :=
      fun before => answers.cancelled (running.cancelled before)
    cases answer with
    | ok id =>
      have same : watched'.state =
          { watched.state with exited := watched.state.exited || id != 0 } := answers
      have exited : watched'.state.exited = (id != 0) := by
        rw [same, running.exited]
        rfl
      exact Contract.Tries.pure ⟨spawned, exited, told, unmarked⟩
    | error errno =>
      have same : watched'.state = watched.state := answers
      cases errno with
      | interrupted =>
        exact Contract.Tries.pure ⟨spawned, by rw [same, running.exited], told, unmarked⟩
      | noSuchProcess | other _ => exact absurd ⟨running.spawned, nofun⟩ well
  · intro answer watched' answers bad marked
    have answers : watched.state.Answers (.waitid child) answer watched'.state := answers
    have spawned : watched'.state.spawned = true := by rw [answers.spawned nofun, running.spawned]
    cases answer with
    | ok id => cases bad.2
    | error errno =>
      cases errno with
      | interrupted => exact absurd rfl bad.2
      | noSuchProcess | other _ => exact tries_io ⟨spawned, marked⟩ _

theorem carries_capture (stream : Stream) (maximum : Nat) :
    spawning.Carries (Running exited cancelled) Broken (child.capture stream maximum) := by
  intro watched running
  apply tries_answer running
  · trivial
  · intro taken watched' fine running'
    have taken : taken = true := Bool.eq_true_of_not_eq_false fine
    rw [taken, ensure, if_pos rfl]
    apply tries_answer running'
    · trivial
    · intro answer last fine last'
      cases answer with
      | ok _ => exact Contract.Tries.pure last'
      | error errno => exact absurd trivial fine
    · intro answer last fails stuck
      cases answer with
      | ok _ => cases fails
      | error errno => exact tries_io stuck _
  · intro taken watched' fails stuck
    have taken : taken = false := fails
    rw [taken, ensure, if_neg Bool.false_ne_true]
    exact tries_io stuck _

theorem carries_drainLoop (stream : Stream) (rounds : Nat) (pipe : CapturedPipe) :
    spawning.Carries (Running exited cancelled) Broken (child.drainLoop stream rounds pipe) := by
  induction rounds generalizing pipe with
  | zero => exact Contract.Carries.pure pipe
  | succ rounds ih =>
    intro watched running
    apply tries_answer running
    · trivial
    · intro answer watched' fine running'
      cases answer with
      | endOfFile | wouldBlock => exact Contract.Tries.pure running'
      | data chunk => exact ih _ watched' running'
      | interrupted => exact ih _ watched' running'
      | failed error => exact absurd trivial fine
    · intro answer watched' fails stuck
      cases answer with
      | failed error => exact tries_io stuck _
      | endOfFile | wouldBlock | interrupted | data _ => cases fails

theorem carries_drain (stream : Stream) (pipe : CapturedPipe) :
    spawning.Carries (Running exited cancelled) Broken (child.drain stream pipe) := by
  rw [Child.drain]
  split
  · exact Contract.Carries.pure pipe
  · exact carries_drainLoop stream 32 pipe

/-! ### The loop -/

/-- The loop knows what was answered about the exit and, when it cleaned up, about the token. -/
def Tracks (capture : Capture) : Watched Process → Prop := Running capture.exited capture.cancelled

theorem tries_look {capture : Capture} (tracks : Tracks capture watched) :
    spawning.Tries (capture.look child) Tracks Broken watched := by
  apply (carries_drain .stdout capture.stdout).then_tries _ tracks
  intro stdout watched₁ running₁
  apply (carries_drain .stderr capture.stderr).then_tries _ running₁
  intro stderr watched₂ running₂
  cases exited : capture.exited with
  | true =>
    rw [exited] at running₂
    exact Contract.Tries.pure running₂
  | false =>
    rw [exited] at running₂
    apply Contract.Tries.bind
    apply Contract.Tries.mono (tries_hasExited running₂)
    · intro exited watched' running'
      exact Contract.Tries.pure running'
    · intro error watched' broken
      exact broken

/-- An operation that cannot fail. -/
theorem tries_sure {op : ProcessOp} {next : op.Answer → ProcessCode ProcessError α}
    {ok : α → Watched Process → Prop} (running : Running exited cancelled watched) (plain : Plain op)
    (sure : ∀ answer, ¬ watched.state.Fails op answer)
    (fine : ∀ answer watched', Running exited cancelled watched' →
      spawning.Tries (next answer) ok Broken watched') :
    spawning.Tries (request op >>= next) ok Broken watched := by
  apply tries_answer running plain
  · intro answer watched' _ running'
    exact fine answer watched' running'
  · intro answer watched' fails _
    exact absurd fails (sure answer)

theorem tries_isDue {capture : Capture} (tracks : Tracks capture watched) :
    spawning.Tries (capture.isDue timeout token) (fun _ => Tracks capture) Broken watched := by
  rw [Capture.isDue]
  cases capture.cleanupStarted with
  | true => exact Contract.Tries.pure tracks
  | false =>
    cases seen : capture.exited with
    | true => exact Contract.Tries.pure tracks
    | false =>
      apply tries_sure tracks
      · trivial
      · exact fun _ => id
      · intro cancelled watched₁ tracks₁
        cases cancelled with
        | true => exact Contract.Tries.pure tracks₁
        | false =>
          apply tries_sure tracks₁
          · trivial
          · exact fun _ => id
          · intro elapsed watched₂ tracks₂
            exact Contract.Tries.pure tracks₂

theorem tries_cleanUp (small : child.id < 2 ^ 31) {capture : Capture}
    (tracks : Tracks capture watched) :
    spawning.Tries (capture.cleanUp child timeout token) Tracks Broken watched := by
  apply Contract.Tries.bind
  apply Contract.Tries.mono (tries_isDue tracks)
  · intro due watched₁ tracks₁
    cases due with
    | false => exact Contract.Tries.pure tracks₁
    | true =>
      apply Contract.Tries.watch trivial tracks₁.unmarked
      · intro cancelled watched₂ answers _ unmarked
        have answers : watched₁.state.Answers (.isCancelled token) cancelled watched₂.state := answers
        have running := tracks₁.answered answers unmarked nofun nofun
        -- What was answered replaces what the loop knew of the token.
        have told : Running capture.exited cancelled watched₂ := by
          refine ⟨running.spawned, running.exited, ?_, unmarked⟩
          rintro rfl
          rw [answers.2]
        apply (carries_killProcessGroup small).then_tries _ told
        intro _ watched₃ running₃
        exact Contract.Tries.pure running₃
      · rintro cancelled watched₂ _ ⟨_, ⟨⟩⟩
  · intro error watched' broken
    exact broken

theorem tries_isOver {capture : Capture} (tracks : Tracks capture watched) :
    spawning.Tries capture.isOver (fun _ => Tracks capture) Broken watched := by
  rw [Capture.isOver]
  split
  · exact Contract.Tries.pure tracks
  cases capture.cleanupStarted with
  | false => exact Contract.Tries.pure tracks
  | true =>
    apply tries_answer tracks
    · trivial
    · intro elapsed watched' fine tracks'
      split
      next late =>
        -- The deadline has passed, so the child was seen to exit.
        have seen : capture.exited = true := by
          by_contra running
          apply fine
          exact ⟨late, by rw [tracks.exited]; simpa using running⟩
        rw [ensure, if_pos seen]
        exact Contract.Tries.pure tracks'
      next => exact Contract.Tries.pure tracks'
    · rintro elapsed watched' ⟨late, running⟩ stuck
      have unseen : ¬ capture.exited = true := by
        rw [← tracks.exited, running]
        exact Bool.false_ne_true
      rw [if_pos late, ensure, if_neg unseen]
      exact tries_io stuck _

theorem tries_turns (small : child.id < 2 ^ 31) (count : Nat) {capture : Capture}
    (tracks : Tracks capture watched) :
    spawning.Tries (Capture.turns child timeout token count capture) Tracks Broken watched := by
  induction count generalizing capture watched with
  | zero =>
    apply Contract.Tries.bind
    apply Contract.Tries.request trivial
    exact nofun
  | succ count ih =>
    apply Contract.Tries.bind
    apply Contract.Tries.mono (tries_look tracks)
    · intro looked watched₁ tracks₁
      apply Contract.Tries.bind
      apply Contract.Tries.mono (tries_cleanUp small tracks₁)
      · intro cleaned watched₂ tracks₂
        apply Contract.Tries.bind
        apply Contract.Tries.mono (tries_isOver tracks₂)
        · intro ended' watched₃ tracks₃
          cases ended' with
          | true => exact Contract.Tries.pure tracks₃
          | false =>
            apply tries_sure tracks₃
            · trivial
            · exact fun _ => id
            · intro _ watched₄ tracks₄
              exact ih tracks₄
        · exact fun _ _ broken => broken
      · exact fun _ _ broken => broken
    · exact fun _ _ broken => broken

/-- A capture ends well where nothing failed. -/
theorem tries_captureProcess {lossy : List UInt8 → String} {turns timeoutMs maximum : Nat}
    (small : child.id < 2 ^ 31) (running : Running false false watched) :
    spawning.Tries (captureProcess lossy turns child timeoutMs maximum token)
      (fun _ watched' => ¬ watched'.marked) Broken watched := by
  apply (carries_capture .stdout maximum).then_tries _ running
  intro stdout watched₁ running₁
  apply (carries_capture .stderr maximum).then_tries _ running₁
  intro stderr watched₂ running₂
  have tracks : Tracks (.start stdout stderr) watched₂ := running₂
  apply Contract.Tries.bind
  apply Contract.Tries.mono (tries_turns small turns tracks)
  · intro capture watched₃ tracks
    apply Contract.Tries.bind
    apply tries_ensure
    · intro _
      apply tries_answer tracks
      · trivial
      · intro status watched₄ fine running₄
        cases status with
        | ok exitCode => exact Contract.Tries.pure running₄.unmarked
        | error errno => exact absurd trivial fine
      · intro status watched₄ fails stuck
        cases status with
        | ok exitCode => cases fails
        | error errno => exact tries_io stuck _
    · intro cancelled
      exact .cancelled rfl (tracks.cancelled (by simpa using cancelled))
  · exact fun _ _ broken => broken

end Captures

end Nausicaa.Executor
