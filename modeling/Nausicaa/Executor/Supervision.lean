import Nausicaa.Executor.Checks
import Nausicaa.Executor.Process

/-! # Commands are supervised

What `run_command` does with its child, whatever the operating system answers: no call of it can wait
for the child or its pipes, no signal goes to a process that was reaped, and however it ends the group
was signalled and the child is reaped, or is being waited for (`tries_runCommand_supervised`).  The loop
is left soon after the timeout, since `permit` allows it only so many turns. -/

namespace Nausicaa.Executor

open Core (CancellationToken)
open Interaction (Contract request)

/-! ## What was told -/

/-- What has come out of a pipe. -/
structure Heard where
  bytes : List UInt8
  ended : Bool

/-- A command, as the answers to the calls for it tell. -/
structure Supervision where
  child : Option Child
  nonblocking : Stream → Bool
  heard : Stream → Heard
  exited : Bool
  /-- A signal to the group was tried, and one found the group or nothing of it. -/
  attempted : Bool
  signalled : Bool
  /-- A signal was sent before the exit was seen. -/
  early : Bool
  killed : Bool
  /-- The exit code that the child was reaped with. -/
  reaped : Option (Option Int)
  /-- The threads that wait for the child. -/
  behind : Nat
  sleeps : Nat
  /-- The sleeps before the last signal. -/
  sleepsBefore : Nat

namespace Supervision

def idle : Supervision where
  child := none
  nonblocking _ := false
  heard _ := ⟨[], false⟩
  exited := false
  attempted := false
  signalled := false
  early := false
  killed := false
  reaped := none
  behind := 0
  sleeps := 0
  sleepsBefore := 0

/-- The group has the signal, or is gone. -/
def reached : Except Errno Unit → Bool
  | .ok () | .error .noSuchProcess => true
  | .error _ => false

def hear (told : Supervision) (stream : Stream) (heard : Heard) : Supervision :=
  { told with heard := Function.update told.heard stream heard }

/-- The pipe answers at once. -/
def opened (told : Supervision) (stream : Stream) : Supervision :=
  { told with nonblocking := Function.update told.nonblocking stream true }

def signal (told : Supervision) (found : Bool) : Supervision :=
  { told with
    attempted := true
    signalled := told.signalled || found
    early := told.early || !told.exited
    sleepsBefore := told.sleeps }

def tell (told : Supervision) : (op : ProcessOp) → op.Answer → Supervision
  | .spawn _, .ok child => { told with child := some child }
  | .setNonblocking _ stream, .ok () => told.opened stream
  | .read _ stream, .data chunk =>
    told.hear stream ⟨(told.heard stream).bytes ++ chunk.bytes, (told.heard stream).ended⟩
  | .read _ stream, .endOfFile => told.hear stream ⟨(told.heard stream).bytes, true⟩
  -- `waitid` with `WNOHANG` answers zero as long as the child runs.
  | .waitid _, .ok id => { told with exited := told.exited || id != 0 }
  | .killGroup _, answer => told.signal (reached answer)
  -- What `kill` answers is not looked at: the child may have exited by itself.
  | .kill _, _ => { told with killed := true }
  | .wait _, .ok status => { told with reaped := some status }
  | .waitBehind _, _ => { told with behind := told.behind + 1 }
  | .sleep, _ => { told with sleeps := told.sleeps + 1 }
  | _, _ => told

/-- Ten milliseconds. -/
def pause : Nat := 10000000

/-- What is known of an answer: process ids are positive as `i32`, and time passes while one sleeps. -/
def Answers (told : Supervision) : (op : ProcessOp) → op.Answer → Prop
  | .spawn _, .ok child => child.id < 2 ^ 31
  | .elapsed .start, time => told.sleeps * pause ≤ time
  | .elapsed .cleanup, time => (told.sleeps - told.sleepsBefore) * pause ≤ time
  | _, _ => True

/-- The child is there, and nobody else waits for it, so that its id is not another process's. -/
structure Holds (told : Supervision) (child : Child) : Prop where
  child : told.child = some child
  reaped : told.reaped = none
  behind : told.behind = 0

/-- Pipes are read where they cannot block, and not behind their end.  The child is waited for when it
was seen to exit, and signalled while it was not reaped. -/
def Permits (told : Supervision) (allowed : Command → Prop) (limit : Nat) : ProcessOp → Prop
  | .spawn command => told.child = none ∧ allowed command
  | .takePipe child _ | .setNonblocking child _ => told.child = some child
  | .read child stream =>
    told.child = some child ∧ told.nonblocking stream = true ∧ (told.heard stream).ended = false
  | .waitid child | .killGroup child | .kill child => told.Holds child
  | .wait child => told.Holds child ∧ told.exited = true ∧ told.signalled = true
  -- A thread that waits takes the child over, so nothing may follow that needs its id.
  | .waitBehind child => told.Holds child ∧ told.attempted = true ∧ told.killed = true
  | .more => told.sleeps < limit
  | .isCancelled _ | .canonicalize _ | .pathExists _ | .elapsed _ | .sleep => True

end Supervision

/-- An operating system that may answer anything, in front of code that is careful. -/
def supervising (allowed : Command → Prop) (limit : Nat) :
    Contract ProcessOp ProcessOp.Answer Supervision where
  permit told op := told.Permits allowed limit op
  step told op answer told' := told.Answers op answer ∧ told' = told.tell op answer

variable {α : Type} {allowed : Command → Prop} {limit : Nat} {told : Supervision} {child : Child}
variable {stream : Stream} {pipe : CapturedPipe} {maximum timeout : Nat} {token : CancellationToken}

theorem tries_tell {ε : Type} {op : ProcessOp} {next : op.Answer → ProcessCode ε α}
    {ok : α → Supervision → Prop} {failed : ε → Supervision → Prop}
    (permitted : told.Permits allowed limit op)
    (continues : ∀ answer, told.Answers op answer →
      (supervising allowed limit).Tries (next answer) ok failed (told.tell op answer)) :
    (supervising allowed limit).Tries (request op >>= next) ok failed told := by
  apply Contract.Tries.bind
  apply Contract.Tries.request permitted
  rintro answer _ ⟨answers, rfl⟩
  exact continues answer answers

/-! ## Pipes -/

/-- The pipe has what was heard, up to its maximum. -/
structure CapturedPipe.Has (pipe : CapturedPipe) (maximum : Nat) (heard : Heard) : Prop where
  bound : pipe.maximum = maximum
  retained : pipe.retained = heard.bytes.take maximum
  truncated : pipe.truncated = decide (maximum < heard.bytes.length)
  eof : pipe.eof = heard.ended

theorem CapturedPipe.Has.new (maximum : Nat) :
    (CapturedPipe.new maximum).Has maximum ⟨[], false⟩ :=
  ⟨rfl, by simp [CapturedPipe.new], by simp [CapturedPipe.new], rfl⟩

theorem CapturedPipe.Has.counted {heard : Heard} (has : pipe.Has maximum heard) (reads : Nat) :
    { pipe with reads }.Has maximum heard :=
  ⟨has.bound, has.retained, has.truncated, has.eof⟩

theorem CapturedPipe.Has.retain {heard : Heard} (has : pipe.Has maximum heard)
    (bytes : List UInt8) : (pipe.retain bytes).Has maximum ⟨heard.bytes ++ bytes, heard.ended⟩ where
  bound := has.bound
  retained := by
    have room : maximum - (heard.bytes.take maximum).length = maximum - heard.bytes.length := by
      rw [List.length_take]
      omega
    show pipe.retained ++ bytes.take (min bytes.length (pipe.maximum - pipe.retained.length)) = _
    rw [has.retained, has.bound, room, List.take_append, Nat.min_comm, ← List.take_eq_take_min]
  truncated := by
    rw [CapturedPipe.retain, has.retained, has.truncated, has.bound, List.length_take,
      List.length_append, Bool.eq_iff_iff]
    simp only [Bool.or_eq_true, decide_eq_true_eq]
    omega
  eof := has.eof

/-- Only this pipe was read, and it has what was heard. -/
def Supervision.Hears (told : Supervision) (stream : Stream) (maximum : Nat) (pipe : CapturedPipe)
    (told' : Supervision) : Prop :=
  ∃ heard, told' = told.hear stream heard ∧ pipe.Has maximum heard

theorem Supervision.hear_self (told : Supervision) (stream : Stream) :
    told.hear stream (told.heard stream) = told := by
  rw [hear, Function.update_eq_self]

theorem Supervision.hear_hear (told : Supervision) (stream : Stream) (heard heard' : Heard) :
    (told.hear stream heard).hear stream heard' = told.hear stream heard' := by
  rw [hear, hear, hear, Function.update_idem]

theorem Supervision.Hears.refl (has : pipe.Has maximum (told.heard stream)) :
    told.Hears stream maximum pipe told :=
  ⟨_, (told.hear_self stream).symm, has⟩

theorem Supervision.Hears.behind {heard : Heard} {told' : Supervision}
    (hears : (told.hear stream heard).Hears stream maximum pipe told') :
    told.Hears stream maximum pipe told' := by
  obtain ⟨heard', rfl, has⟩ := hears
  exact ⟨heard', told.hear_hear stream heard heard', has⟩

theorem tries_drainLoop_supervised (rounds : Nat) (present : told.child = some child)
    (ready : told.nonblocking stream = true) (more : (told.heard stream).ended = false)
    (has : pipe.Has maximum (told.heard stream)) :
    (supervising allowed limit).Tries (child.drainLoop stream rounds pipe)
      (told.Hears stream maximum) (fun _ told' => ∃ heard, told' = told.hear stream heard) told := by
  -- On the rounds; that the pipe has what was heard is what each read keeps.
  induction rounds generalizing pipe told with
  | zero => exact Contract.Tries.pure (.refl has)
  | succ rounds ih =>
    have permitted : told.Permits allowed limit (.read child stream) := ⟨present, ready, more⟩
    apply tries_tell permitted
    intro answer _
    cases answer with
    | endOfFile =>
      have ended : ({ pipe with reads := pipe.reads + 1, eof := true } : CapturedPipe).Has maximum
          ⟨(told.heard stream).bytes, true⟩ := ⟨has.bound, has.retained, has.truncated, rfl⟩
      exact Contract.Tries.pure ⟨_, rfl, ended⟩
    | data chunk =>
      have longer := (has.counted (pipe.reads + 1)).retain chunk.bytes
      obtain ⟨heard, same⟩ : ∃ heard : Heard, heard =
        ⟨(told.heard stream).bytes ++ chunk.bytes, (told.heard stream).ended⟩ := ⟨_, rfl⟩
      rw [← same] at longer
      have present' : (told.hear stream heard).child = some child := present
      have rest := ih present' ready
        (by simpa [Supervision.hear, same] using more) (by simpa [Supervision.hear] using longer)
      rw [same] at rest
      apply Contract.Tries.mono rest
      · exact fun _ _ hears => hears.behind
      · rintro _ _ ⟨heard, rfl⟩
        exact ⟨heard, told.hear_hear stream _ _⟩
    -- Nothing is there now; the next look comes back to the pipe.
    | wouldBlock => exact Contract.Tries.pure (.refl (has.counted _))
    -- `EINTR` is tried again, and costs a round.
    | interrupted => exact ih present ready more (has.counted _)
    | failed error => exact Contract.Tries.throw ⟨_, (told.hear_self stream).symm⟩

theorem tries_drain_supervised (present : told.child = some child)
    (ready : told.nonblocking stream = true) (has : pipe.Has maximum (told.heard stream)) :
    (supervising allowed limit).Tries (child.drain stream pipe)
      (told.Hears stream maximum) (fun _ told' => ∃ heard, told' = told.hear stream heard) told := by
  rw [Child.drain]
  split
  · exact Contract.Tries.pure (.refl has)
  next more =>
    rw [has.eof, Bool.not_eq_true] at more
    exact tries_drainLoop_supervised 32 present ready more has

/-! ## The loop -/

/-- What the loop of `capture_process` knows of the child and the clock, up to some nanoseconds. -/
structure Follows (child : Child) (maximum timeout waiting cleaning : Nat) (capture : Capture)
    (told : Supervision) : Prop where
  holds : told.Holds child
  nonblocking : ∀ stream, told.nonblocking stream = true
  stdout : capture.stdout.Has maximum (told.heard .stdout)
  stderr : capture.stderr.Has maximum (told.heard .stderr)
  exited : capture.exited = told.exited
  cleaned : capture.cleanupStarted = told.signalled
  unhurried : capture.cleanupStarted = false → told.early = false
  early : capture.cleanupStarted = true → capture.cancelled = false → capture.timedOut = told.early
  waits : capture.cleanupStarted = false → told.sleeps * Supervision.pause < timeout + waiting
  cleans : capture.cleanupStarted = true → told.sleepsBefore ≤ told.sleeps ∧
    told.sleepsBefore * Supervision.pause < timeout + Supervision.pause ∧
    (told.sleeps - told.sleepsBefore) * Supervision.pause < outputCleanupTimeout + cleaning

variable {capture : Capture} {waiting cleaning : Nat}

theorem tries_hasExited_supervised (holds : told.Holds child) :
    (supervising allowed limit).Tries child.hasExited
      (fun exited told' => told' = { told with exited := told.exited || exited })
      (fun _ told' => told' = told) told := by
  have permitted : told.Permits allowed limit (.waitid child) := holds
  apply tries_tell permitted
  intro answer _
  cases answer with
  | ok id => exact Contract.Tries.pure rfl
  | error errno =>
    have same : { told with exited := told.exited || false } = told := by rw [Bool.or_false]
    cases errno with
    -- `EINTR` counts as not exited yet.
    | interrupted => exact Contract.Tries.pure same.symm
    | noSuchProcess | other _ => exact Contract.Tries.throw rfl

theorem Supervision.Holds.hear (holds : told.Holds child) (stream : Stream) (heard : Heard) :
    (told.hear stream heard).Holds child := ⟨holds.child, holds.reaped, holds.behind⟩

theorem Supervision.Holds.signal (holds : told.Holds child) (found : Bool) :
    (told.signal found).Holds child := ⟨holds.child, holds.reaped, holds.behind⟩

theorem Follows.hear_stdout {heard : Heard}
    (follows : Follows child maximum timeout waiting cleaning capture told)
    (has : pipe.Has maximum heard) :
    Follows child maximum timeout waiting cleaning { capture with stdout := pipe }
      (told.hear .stdout heard) :=
  { follows with
    holds := follows.holds.hear .stdout heard
    stdout := by simpa [Supervision.hear] using has
    stderr := by simpa [Supervision.hear] using follows.stderr }

theorem Follows.hear_stderr {heard : Heard}
    (follows : Follows child maximum timeout waiting cleaning capture told)
    (has : pipe.Has maximum heard) :
    Follows child maximum timeout waiting cleaning { capture with stderr := pipe }
      (told.hear .stderr heard) :=
  { follows with
    holds := follows.holds.hear .stderr heard
    stdout := by simpa [Supervision.hear] using follows.stdout
    stderr := by simpa [Supervision.hear] using has }

theorem tries_look_supervised (follows : Follows child maximum timeout waiting cleaning capture told) :
    (supervising allowed limit).Tries (capture.look child)
      (fun looked => Follows child maximum timeout waiting cleaning looked)
      (fun _ told' => told'.Holds child) told := by
  apply Contract.Tries.bind
  apply Contract.Tries.mono
    (tries_drain_supervised follows.holds.child (follows.nonblocking .stdout) follows.stdout)
  case weakenFailed =>
    rintro _ _ ⟨heard, rfl⟩
    exact follows.holds.hear .stdout heard
  rintro stdout _ ⟨heard, rfl, has⟩
  have follows := follows.hear_stdout has
  apply Contract.Tries.bind
  apply Contract.Tries.mono
    (tries_drain_supervised follows.holds.child (follows.nonblocking .stderr) follows.stderr)
  case weakenFailed =>
    rintro _ _ ⟨heard', rfl⟩
    exact follows.holds.hear .stderr heard'
  rintro stderr _ ⟨heard', rfl, has'⟩
  have follows := follows.hear_stderr has'
  -- The exit is asked for until it is seen, and not any more then.
  cases seen : capture.exited with
  | true =>
    apply Contract.Tries.pure
    exact { follows with exited := seen.symm.trans follows.exited }
  | false =>
    apply Contract.Tries.bind
    apply Contract.Tries.mono (tries_hasExited_supervised follows.holds)
    · rintro exited _ rfl
      apply Contract.Tries.pure
      have unseen := follows.exited.symm.trans seen
      exact { follows with
        holds := ⟨follows.holds.child, follows.holds.reaped, follows.holds.behind⟩
        exited := by rw [unseen, Bool.false_or] }
    · rintro _ _ rfl
      exact follows.holds

/-- Whether it is time for the cleanup depends on the exit, the token and the clock. -/
theorem tries_isDue_supervised :
    (supervising allowed limit).Tries (capture.isDue timeout token)
      (fun due told' => told' = told ∧ (due = true → capture.cleanupStarted = false) ∧
        (due = false → capture.cleanupStarted = false →
          capture.exited = false ∧ told.sleeps * Supervision.pause < timeout))
      (fun _ _ => False) told := by
  rw [Capture.isDue]
  cases capture.cleanupStarted with
  | true => exact Contract.Tries.pure ⟨rfl, nofun, fun _ => nofun⟩
  | false =>
    -- The clock is read last: only where it is early do the sleeps have a bound.
    cases capture.exited with
    | true => exact Contract.Tries.pure ⟨rfl, fun _ => rfl, nofun⟩
    | false =>
      have free : told.Permits allowed limit (.isCancelled token) := trivial
      apply tries_tell free
      intro cancelled _
      cases cancelled with
      | true => exact Contract.Tries.pure ⟨rfl, fun _ => rfl, nofun⟩
      | false =>
        have free : told.Permits allowed limit (.elapsed .start) := trivial
        apply tries_tell free
        intro time passed
        have passed : told.sleeps * Supervision.pause ≤ time := passed
        apply Contract.Tries.pure
        refine ⟨rfl, fun _ => rfl, fun early _ => ⟨rfl, ?_⟩⟩
        have early : ¬ timeout ≤ time := of_decide_eq_false early
        omega

theorem tries_killProcessGroup_supervised (small : child.id < 2 ^ 31) (holds : told.Holds child) :
    (supervising allowed limit).Tries child.killProcessGroup
      (fun _ told' => told' = told.signal true) (fun _ told' => told' = told.signal false) told := by
  rw [Child.killProcessGroup, ensure, if_pos small]
  have permitted : told.Permits allowed limit (.killGroup child) := holds
  apply tries_tell permitted
  intro answer _
  cases answer with
  | ok _ => exact Contract.Tries.pure rfl
  | error errno =>
    cases errno with
    -- `ESRCH`: nothing of the group is left to be signalled.
    | noSuchProcess => exact Contract.Tries.pure rfl
    | interrupted | other _ => exact Contract.Tries.throw rfl

/-- Behind the cleanup, which an exit always leads to. -/
theorem tries_cleanUp_supervised (small : child.id < 2 ^ 31)
    (follows : Follows child maximum timeout Supervision.pause Supervision.pause capture told) :
    (supervising allowed limit).Tries (capture.cleanUp child timeout token)
      (fun cleaned told' => Follows child maximum timeout 0 Supervision.pause cleaned told' ∧
        (cleaned.exited = true → cleaned.cleanupStarted = true))
      (fun _ told' => told'.Holds child) told := by
  apply Contract.Tries.bind
  apply Contract.Tries.mono tries_isDue_supervised
  case weakenFailed => exact fun _ _ => False.elim
  rintro due told ⟨rfl, fresh, waits⟩
  cases due with
  | false =>
    -- Either the cleanup is behind us, or the child runs within its time.
    apply Contract.Tries.pure
    refine ⟨{ follows with waits := fun open' => (waits rfl open').2 }, ?_⟩
    intro exited
    by_contra open'
    have running := (waits rfl (Bool.eq_false_iff.mpr open')).1
    rw [exited] at running
    cases running
  | true =>
    have fresh := fresh rfl
    have free : told.Permits allowed limit (.isCancelled token) := trivial
    apply tries_tell free
    intro cancelled _
    apply Contract.Tries.bind
    apply Contract.Tries.mono (tries_killProcessGroup_supervised small follows.holds)
    case weakenFailed =>
      rintro _ _ rfl
      exact follows.holds.signal false
    rintro _ _ rfl
    apply Contract.Tries.pure
    refine ⟨?_, fun _ => rfl⟩
    exact {
      holds := follows.holds.signal true
      nonblocking := follows.nonblocking
      stdout := follows.stdout
      stderr := follows.stderr
      exited := follows.exited
      cleaned := by simp [Supervision.signal]
      unhurried := nofun
      -- Not cancelled and due, the child has exited or its time is up.
      early := by
        intro _ unasked
        have unasked : cancelled = false := unasked
        simp [Supervision.signal, follows.unhurried fresh, follows.exited, unasked]
      waits := nofun
      cleans := by
        intro _
        refine ⟨Nat.le_refl _, follows.waits fresh, ?_⟩
        simp [Supervision.signal, Supervision.pause] }

theorem tries_isOver_supervised
    (follows : Follows child maximum timeout 0 Supervision.pause capture told)
    (due : capture.exited = true → capture.cleanupStarted = true) :
    (supervising allowed limit).Tries capture.isOver
      (fun ended told' => told' = told ∧
        (ended = true → capture.exited = true ∧ capture.cleanupStarted = true) ∧
        (ended = false → Follows child maximum timeout 0 0 capture told))
      (fun _ told' => told' = told) told := by
  rw [Capture.isOver]
  split
  next whole =>
    simp only [Bool.and_eq_true] at whole
    exact Contract.Tries.pure ⟨rfl, fun _ => ⟨whole.1.1, due whole.1.1⟩, nofun⟩
  cases cleaned : capture.cleanupStarted with
  | false =>
    apply Contract.Tries.pure
    refine ⟨rfl, nofun, fun _ => { follows with cleans := ?_ }⟩
    rw [cleaned]
    exact nofun
  | true =>
    have free : told.Permits allowed limit (.elapsed .cleanup) := trivial
    apply tries_tell free
    intro time passed
    have passed : (told.sleeps - told.sleepsBefore) * Supervision.pause ≤ time := passed
    split
    next late =>
      -- A pipe that is open still is held by a process outside the group.
      apply Contract.Tries.bind
      apply tries_ensure
      · intro exited
        exact Contract.Tries.pure ⟨rfl, fun _ => ⟨exited, rfl⟩, nofun⟩
      · intro _
        rfl
    next early =>
      apply Contract.Tries.pure
      refine ⟨rfl, nofun, fun _ => { follows with cleans := ?_ }⟩
      intro _
      obtain ⟨before, limits, _⟩ := follows.cleans cleaned
      exact ⟨before, limits, by omega⟩

/-- How often the loop can sleep with this timeout. -/
def turnLimit (timeout : Nat) : Nat := timeout / Supervision.pause + 28

theorem Follows.sleeps
    (follows : Follows child maximum timeout Supervision.pause Supervision.pause capture told) :
    told.sleeps < turnLimit timeout := by
  have waits := follows.waits
  have cleans := follows.cleans
  -- The sleeps before the signal are bounded by the timeout, and those behind it by the cleanup.
  simp only [turnLimit, Supervision.pause, outputCleanupTimeout] at *
  cases cleaned : capture.cleanupStarted with
  | false =>
    have waits := waits cleaned
    omega
  | true =>
    have cleans := cleans cleaned
    omega

/-- The loop ends with a child that has exited and a group that was signalled. -/
theorem tries_turns_supervised (small : child.id < 2 ^ 31) (enough : turnLimit timeout ≤ limit)
    (count : Nat)
    (follows : Follows child maximum timeout Supervision.pause Supervision.pause capture told) :
    (supervising allowed limit).Tries (Capture.turns child timeout token count capture)
      (fun last told' => Follows child maximum timeout 0 Supervision.pause last told' ∧
        last.exited = true ∧ last.cleanupStarted = true)
      (fun _ told' => told'.Holds child) told := by
  -- On the turns that are left; `Follows` with a pause of slack is the invariant.
  induction count generalizing capture told with
  | zero =>
    -- The loop of the source goes on here, and has slept less often than it may.
    have permitted : told.Permits allowed limit .more := Nat.lt_of_lt_of_le follows.sleeps enough
    apply tries_tell permitted
    exact nofun
  | succ count ih =>
    apply Contract.Tries.bind
    apply Contract.Tries.mono (tries_look_supervised follows)
    case weakenFailed => exact fun _ _ holds => holds
    intro looked told follows
    apply Contract.Tries.bind
    apply Contract.Tries.mono (tries_cleanUp_supervised small follows)
    case weakenFailed => exact fun _ _ holds => holds
    rintro cleaned told ⟨follows, due⟩
    apply Contract.Tries.bind
    apply Contract.Tries.mono (tries_isOver_supervised follows due)
    case weakenFailed =>
      rintro _ _ rfl
      exact follows.holds
    rintro ended told ⟨rfl, ends, more⟩
    cases ended with
    | true => exact Contract.Tries.pure ⟨follows, ends rfl⟩
    | false =>
      have follows := more rfl
      have free : told.Permits allowed limit .sleep := trivial
      apply tries_tell free
      intro _ _
      -- One pause more is between the last look at the clock and the next one.
      apply ih
      exact { follows with
        holds := ⟨follows.holds.child, follows.holds.reaped, follows.holds.behind⟩
        waits := by
          intro open'
          have waits := follows.waits open'
          show (told.sleeps + 1) * Supervision.pause < timeout + Supervision.pause
          rw [Nat.succ_mul]
          omega
        cleans := by
          intro cleaned
          obtain ⟨before, limits, since⟩ := follows.cleans cleaned
          refine ⟨Nat.le_succ_of_le before, limits, ?_⟩
          show (told.sleeps + 1 - told.sleepsBefore) * Supervision.pause <
            outputCleanupTimeout + Supervision.pause
          rw [Nat.succ_sub before, Nat.succ_mul]
          omega }

/-! ## The command -/

theorem tries_capture_supervised (holds : told.Holds child) (stream : Stream) (maximum : Nat) :
    (supervising allowed limit).Tries (child.capture stream maximum)
      (fun pipe told' => pipe = .new maximum ∧ told' = told.opened stream)
      (fun _ told' => told' = told) told := by
  have permitted : told.Permits allowed limit (.takePipe child stream) := holds.child
  apply tries_tell permitted
  intro taken _
  apply Contract.Tries.bind
  apply tries_ensure
  · intro _
    have permitted : told.Permits allowed limit (.setNonblocking child stream) := holds.child
    apply tries_tell permitted
    intro answer _
    apply Contract.Tries.bind
    cases answer with
    | ok _ => exact Contract.Tries.pure ⟨rfl, rfl⟩
    | error errno => exact Contract.Tries.throw rfl
  · intro _
    rfl

/-- The output tells what has become of the command, which is over. -/
structure Reports (lossy : List UInt8 → String) (maximum : Nat) (output : ProcessOutput)
    (told : Supervision) : Prop where
  exited : told.exited = true
  signalled : told.signalled = true
  reaped : told.reaped = some output.exitCode
  behind : told.behind = 0
  stdout : output.stdout = lossy ((told.heard .stdout).bytes.take maximum)
  stderr : output.stderr = lossy ((told.heard .stderr).bytes.take maximum)
  stdoutWhole : output.stdoutTruncated = false ↔
    (told.heard .stdout).ended = true ∧ (told.heard .stdout).bytes.length ≤ maximum
  stderrWhole : output.stderrTruncated = false ↔
    (told.heard .stderr).ended = true ∧ (told.heard .stderr).bytes.length ≤ maximum
  timedOut : output.timedOut = told.early

theorem CapturedPipe.Has.report {heard : Heard} (has : pipe.Has maximum heard)
    (lossy : List UInt8 → String) : (pipe.report lossy).1 = lossy (heard.bytes.take maximum) ∧
      ((pipe.report lossy).2 = false ↔ heard.ended = true ∧ heard.bytes.length ≤ maximum) := by
  rw [CapturedPipe.report, has.retained, has.truncated, has.eof]
  refine ⟨rfl, ?_⟩
  simp only [Bool.or_eq_false_iff, decide_eq_false_iff_not, Bool.not_eq_false', Nat.not_lt]
  exact and_comm

/-- A command that has just been spawned. -/
def Supervision.spawned (child : Child) : Supervision := { Supervision.idle with child := some child }

theorem tries_captureProcess_supervised (lossy : List UInt8 → String) (turns timeoutMs : Nat)
    (small : child.id < 2 ^ 31)
    (enough : turnLimit (max timeoutMs 1 * 1000000) ≤ limit) :
    (supervising allowed limit).Tries (captureProcess lossy turns child timeoutMs maximum token)
      (fun output => Reports lossy maximum output) (fun _ told' => told'.Holds child)
      (Supervision.spawned child) := by
  have holds : (Supervision.spawned child).Holds child := ⟨rfl, rfl, rfl⟩
  apply Contract.Tries.bind
  apply Contract.Tries.mono (tries_capture_supervised holds .stdout maximum)
  case weakenFailed =>
    rintro _ _ rfl
    exact holds
  rintro stdout told ⟨rfl, rfl⟩
  apply Contract.Tries.bind
  apply Contract.Tries.mono
    (tries_capture_supervised ⟨rfl, rfl, rfl⟩ .stderr maximum)
  case weakenFailed =>
    rintro _ _ rfl
    exact ⟨rfl, rfl, rfl⟩
  rintro stderr told ⟨rfl, rfl⟩
  have follows : Follows child maximum (max timeoutMs 1 * 1000000) Supervision.pause
      Supervision.pause (.start (.new maximum) (.new maximum))
      (((Supervision.spawned child).opened .stdout).opened .stderr) := {
    holds := ⟨rfl, rfl, rfl⟩
    nonblocking := by
      intro stream
      cases stream with
      | stdout | stderr => rfl
    stdout := .new maximum
    stderr := .new maximum
    exited := rfl
    cleaned := rfl
    unhurried := fun _ => rfl
    early := nofun
    waits := fun _ => by
      show 0 * Supervision.pause < _
      rw [Nat.zero_mul]
      exact Nat.add_pos_right _ (by decide)
    cleans := nofun }
  apply Contract.Tries.bind
  apply Contract.Tries.mono (tries_turns_supervised small enough turns follows)
  case weakenFailed => exact fun _ _ holds => holds
  rintro last told ⟨follows, exited, cleaned⟩
  apply Contract.Tries.bind
  apply tries_ensure
  case fails => exact fun _ => follows.holds
  intro unasked
  have gone := follows.exited.symm.trans exited
  have signalled := follows.cleaned.symm.trans cleaned
  have permitted : told.Permits allowed limit (.wait child) := ⟨follows.holds, gone, signalled⟩
  apply tries_tell permitted
  intro answer _
  apply Contract.Tries.bind
  cases answer with
  -- A child that could not be waited for is left to `abandon`.
  | error errno => exact Contract.Tries.throw follows.holds
  | ok exitCode =>
    obtain ⟨stdout, stdoutWhole⟩ := follows.stdout.report lossy
    obtain ⟨stderr, stderrWhole⟩ := follows.stderr.report lossy
    apply Contract.Tries.pure
    apply Contract.Tries.pure
    exact {
      exited := gone
      signalled
      reaped := rfl
      behind := follows.holds.behind
      stdout
      stderr
      stdoutWhole
      stderrWhole
      timedOut := follows.early cleaned unasked }

/-- What is left of a command that failed: nothing was spawned, or it is over, or its group was told to
stop and a thread waits for it. -/
inductive Settled (told : Supervision) : Prop
  | never : told.child = none → Settled told
  | ended : told.exited = true → told.signalled = true → told.reaped.isSome = true →
      told.behind = 0 → Settled told
  | left : told.attempted = true → told.killed = true → told.reaped = none → told.behind = 1 →
      Settled told

theorem tries_abandon_supervised (small : child.id < 2 ^ 31) (holds : told.Holds child) :
    (supervising allowed limit).Tries (abandon child) (fun _ => Settled) (fun _ _ => False) told := by
  apply Contract.Tries.bind
  apply Contract.Tries.outcome
  have rest (found : Bool) : (supervising allowed limit).Tries (do
      let _ ← request (ProcessOp.kill child)
      request (ProcessOp.waitBehind child)) (fun _ => Settled)
      (fun (_ : ProcessError) _ => False) (told.signal found) := by
    -- The child itself is killed as well, whether its group was found or not.
    have still := holds.signal found
    have permitted : (told.signal found).Permits allowed limit (.kill child) := still
    apply tries_tell permitted
    intro killed _
    apply Contract.Tries.request
    · exact ⟨⟨holds.child, holds.reaped, holds.behind⟩, rfl, rfl⟩
    · rintro _ _ ⟨_, rfl⟩
      exact .left rfl rfl holds.reaped (congrArg (· + 1) holds.behind)
  apply Contract.Tries.mono (tries_killProcessGroup_supervised small holds)
  · rintro _ _ rfl
    exact rest true
  · rintro _ _ rfl
    exact rest false

theorem tries_notCancelled_supervised {next : Unit → ProcessCode ProcessError α}
    {ok : α → Supervision → Prop} {failed : ProcessError → Supervision → Prop}
    (goes : (supervising allowed limit).Tries (next ()) ok failed told)
    (stops : failed .cancelled told) :
    (supervising allowed limit).Tries (notCancelled token >>= next) ok failed told := by
  apply Contract.Tries.bind
  have free : told.Permits allowed limit (.isCancelled token) := trivial
  apply tries_tell free
  intro cancelled _
  apply tries_ensure
  · exact fun _ => goes
  · exact fun _ => stops

/-- However a command ends, nothing is left of it that nobody looks after. -/
theorem tries_runCommand_supervised (lossy : List UInt8 → String) (turns timeoutMs maximum : Nat)
    {command : Command} (permitted : allowed command)
    (enough : turnLimit (max timeoutMs 1 * 1000000) ≤ limit) :
    (supervising allowed limit).Tries (runCommand lossy turns command timeoutMs maximum token)
      (fun output => Reports lossy maximum output) (fun _ => Settled) Supervision.idle := by
  apply tries_notCancelled_supervised
  case stops => exact .never rfl
  have permitted : Supervision.idle.Permits allowed limit (.spawn command) := ⟨rfl, permitted⟩
  apply tries_tell permitted
  intro spawned small
  apply Contract.Tries.bind
  cases spawned with
  | error errno => exact Contract.Tries.throw (.never rfl)
  | ok child =>
    apply Contract.Tries.pure
    apply Contract.Tries.bind
    apply Contract.Tries.outcome
    apply Contract.Tries.mono (tries_captureProcess_supervised lossy turns timeoutMs small enough)
    · intro output told reports
      have ended : Settled told := .ended reports.exited reports.signalled
        (by rw [reports.reaped]; rfl) reports.behind
      -- What was captured is not told where the token was cancelled meanwhile.
      apply tries_notCancelled_supervised
      · exact Contract.Tries.pure reports
      · exact ended
    · intro error told holds
      apply Contract.Tries.bind
      apply Contract.Tries.mono (tries_abandon_supervised small holds)
      · intro _ told settled
        apply tries_notCancelled_supervised
        · exact Contract.Tries.throw settled
        · exact settled
      · exact fun _ _ => False.elim

end Nausicaa.Executor
