import Nausicaa.Eval.Run
import Nausicaa.Task.Soundness

/-! # No false completion

What a report of `run` with a task promises (`Honest`), whatever the model, the tools and the
file system do. -/

namespace Nausicaa.Eval

open Core (AgentRuntime EventEnvelope ThreadId ToolReceipt TurnId World)
open Interaction (Contract)
open Interaction.Contract (Tries)
open Nausicaa.Task (ArtifactRef CheckEvidence TaskEvent TaskJournal TaskSpec TaskState)

/-! ## What is promised -/

/-- A turn was run, to its end or up to an execution. -/
def isTurn : Observation → Bool
  | ⟨.runTurn .., _⟩ | ⟨.pollTurn .., _⟩ => true
  | _ => false

def IsNewTurn : Observation → Prop
  | ⟨.newTurnId, _⟩ => True
  | _ => False

/-- The last attempt left the expected content, and no unknown receipt. -/
def Accepted (setup : Setup) (threadId : ThreadId) (state : Surroundings) : Prop :=
  ∃ turnId before after, state.history = before ++ ⟨.newTurnId, turnId⟩ :: after ∧
    (∀ observation ∈ after, ¬ IsNewTurn observation) ∧
    (⟨.readToString setup.source, .ok setup.fixture.expected⟩ : Observation) ∈ after ∧
    (∀ answer, (⟨.readToString setup.source, answer⟩ : Observation) ∈ after →
      answer = .ok setup.fixture.expected) ∧
    ∀ receipt ∈ receiptsOf turnId (state.world.log threadId), receipt.status ≠ .unknown

/-- What a report says is so. -/
structure Honest (setup : Setup) (report : RunReport) (task : Option TaskJournal)
    (state : Surroundings) : Prop where
  made : report.attempts = state.history.countP isTurn
  bounded : report.attempts ≤ setup.fixture.maxAttempts
  journal : task.map (fun task => task.state.attempts) = some report.attempts
  agrees : report.reportedSuccess = report.verifiedSuccess
  notFalse : report.falseCompletion = false
  accepted : report.reportedSuccess = true → ∃ runtime threadId,
    (⟨.startThread runtime, .ok threadId⟩ : Observation) ∈ state.history ∧
      Accepted setup threadId state

/-! ## Single operations -/

/-- Neither a new turn nor a reading of the artifact. -/
def IsPlain : Observation → Prop
  | ⟨.newTurnId, _⟩ | ⟨.readToString _, _⟩ => False
  | _ => True

section Operations

variable {α ε : Type} {setup : Setup} {state : Surroundings} {op : Operation}
variable {observations observations' : List Observation} {world world' : World}

@[simp] theorem extend_extend : (state.extend observations world).extend observations' world' =
    state.extend (observations ++ observations') world' := by
  simp [Surroundings.extend]

@[simp] theorem extend_world : (state.extend observations world).world = world := rfl

@[simp] theorem extend_history :
    (state.extend observations world).history = state.history ++ observations := rfl

/-- Nothing is promised about failures. -/
abbrev Leads (code : Attempt α) (ok : α → Surroundings → Prop) (state : Surroundings) : Prop :=
  surroundings.Tries code ok (fun _ _ => True) state

theorem leads_perform {ok : Answer op → Surroundings → Prop}
    (answered : ∀ answer world, Changes state.world world op answer →
      ok answer (state.extend [⟨op, answer⟩] world)) :
    Leads (perform op) ok state := by
  apply Tries.request trivial
  intro answer state' step
  obtain ⟨world, changes, same⟩ := step
  rw [same]
  exact answered answer world changes

theorem leads_unwrap {wrap : ε → EvalError} {result : Except ε α}
    {ok : α → Surroundings → Prop} (holds : ∀ value, result = .ok value → ok value state) :
    Leads (unwrap wrap result) ok state := by
  cases result with
  | ok value => exact Tries.pure (holds value rfl)
  | error error => exact Tries.throw trivial

/-- Writing a file changes nothing that counts. -/
theorem leads_writeFile {path : String} {contents : Contents} :
    Leads (writeFile path contents) (fun _ state' => ∃ observation : Observation,
      state' = state.extend [observation] state.world ∧ IsPlain observation ∧
      isTurn observation = false) state := by
  apply Tries.bind
  apply leads_perform
  intro written world changes
  have same : world = state.world := changes
  subst same
  apply leads_unwrap
  intro _ _
  exact ⟨_, rfl, trivial, rfl⟩

theorem leads_advance {task : TaskJournal} {event : TaskEvent}
    {ok : TaskJournal → Surroundings → Prop}
    (advanced : ∀ fault task' next, task.state.apply setup.debug event = (.ok (), next) →
      task'.state = next → ok task' (state.extend [⟨.writeTask, fault⟩] state.world)) :
    Leads (advance setup task event) ok state := by
  apply Tries.bind
  apply leads_perform
  intro fault world changes
  have same : world = state.world := changes
  subst same
  cases done : task.transition setup.debug setup.codec event fault with
  | mk result task' =>
    apply Tries.bind
    apply leads_unwrap
    intro value succeeded
    subst succeeded
    obtain ⟨next, applied, _, same⟩ := TaskJournal.transition_ok done
    exact Tries.pure (advanced fault task' next applied (by rw [same]))

end Operations

/-! ## One attempt -/

section Attempt

variable {setup : Setup} {runtime : AgentRuntime} {threadId : ThreadId} {current : Loop}
variable {state : Surroundings} {turnId : TurnId}

theorem IsPlain.not_newTurn {observation : Observation} (plain : IsPlain observation) :
    ¬ IsNewTurn observation := by
  obtain ⟨op, answer⟩ := observation
  cases op with
  | newTurnId => exact absurd plain id
  | _ => exact id

theorem checked_iff {content : String} :
    (setup.spec.check setup.debug [{ id := "lib.rs", content := content }]).all
      CheckEvidence.passed = true ↔ content = setup.fixture.expected := by
  rw [Task.all_passed_iff]
  simp [Setup.spec, Task.Criterion.Met]

/-- An attempt is accepted where plain operations stand around the reading of its artifact. -/
theorem accepted_of_verified (turnId : TurnId) (content : String)
    (before observations observations' : List Observation) (history : state.history = before ++ ⟨.newTurnId, turnId⟩ ::
      (observations ++ ⟨.readToString setup.source, .ok content⟩ :: observations'))
    (plain : ∀ observation ∈ observations, IsPlain observation)
    (plain' : ∀ observation ∈ observations', IsPlain observation)
    (verified : ((setup.spec.check setup.debug [{ id := "lib.rs", content := content }]).all
      CheckEvidence.passed &&
        !TaskState.anyUnknown (receiptsOf turnId (state.world.log threadId))) = true) :
    Accepted setup threadId state := by
  rw [Bool.and_eq_true, checked_iff, Bool.not_eq_true', Task.anyUnknown_iff] at verified
  obtain ⟨expected, known⟩ := verified
  subst expected
  refine ⟨turnId, before, _, history, ?_, ?_, ?_, known⟩
  · intro observation member
    rw [List.mem_append, List.mem_cons] at member
    obtain earlier | rfl | later := member
    · exact (plain observation earlier).not_newTurn
    · exact id
    · exact (plain' observation later).not_newTurn
  · exact List.mem_append_right _ List.mem_cons_self
  · intro answer member
    rw [List.mem_append, List.mem_cons] at member
    obtain earlier | same | later := member
    · exact absurd (plain _ earlier) id
    · cases same
      rfl
    · exact absurd (plain' _ later) id

/-- A turn is run once, whether it ends, fails or is interrupted. -/
theorem leads_runAttempt : Leads (runAttempt setup runtime threadId turnId current)
    (fun _ state' => ∃ observations world, state' = state.extend observations world ∧
      observations.countP isTurn = 1 ∧ ∀ observation ∈ observations, IsPlain observation) state := by
  apply Tries.bind
  apply leads_perform
  intro cancellation world _
  split
  next interrupted =>
    apply Tries.bind
    apply leads_perform
    intro polled world' _
    split
    · apply Tries.bind
      apply leads_perform
      intro recovered world'' _
      apply Tries.bind
      apply leads_unwrap
      intro report _
      apply Tries.pure
      rw [extend_extend, extend_extend]
      exact ⟨_, _, rfl, rfl, by simp [IsPlain]⟩
    · exact Tries.throw trivial
  next =>
    apply Tries.bind
    apply leads_perform
    intro result world' _
    cases result with
    | ok outcome =>
      apply Tries.pure
      rw [extend_extend]
      exact ⟨_, _, rfl, rfl, by simp [IsPlain]⟩
    | error error =>
      apply Tries.bind
      apply leads_perform
      intro recovered world'' _
      apply Tries.bind
      apply leads_unwrap
      intro report _
      apply Tries.pure
      rw [extend_extend, extend_extend]
      exact ⟨_, _, rfl, rfl, by simp [IsPlain]⟩

/-- What holds before each attempt. -/
structure Waiting (setup : Setup) (current : Loop) (state : Surroundings) : Prop where
  task : ∃ task, current.task = some task ∧ task.state.Sound setup.spec ∧
    task.state.attempts = current.attempts
  made : current.attempts = state.history.countP isTurn

/-- What holds when the loop has ended. -/
structure Ended (setup : Setup) (threadId : ThreadId) (current : Loop) (state : Surroundings) :
    Prop where
  task : ∃ task, current.task = some task ∧ task.state.attempts = current.attempts ∧
    (task.state.status = .succeeded ↔ current.verifiedSuccess = true)
  made : current.attempts = state.history.countP isTurn
  bounded : current.attempts ≤ setup.fixture.maxAttempts
  accepted : current.verifiedSuccess = true → Accepted setup threadId state

/-- What an attempt leaves. -/
def Left (setup : Setup) (threadId : ThreadId) (attempts : Nat) (result : Loop × Bool)
    (state : Surroundings) : Prop :=
  result.1.attempts = attempts ∧
    if result.2 then Waiting setup result.1 state ∧ attempts < setup.fixture.maxAttempts
    else Ended setup threadId result.1 state

/-- The journal judges as the loop does, so that the loop goes on or ends as it should. -/
theorem leads_settle {task : TaskJournal} {artifacts : List ArtifactRef}
    {receipts : List ToolReceipt} (sound : task.state.Sound setup.spec)
    (running : task.state.status = .running)
    (numbered : task.state.attempts = current.attempts)
    (made : current.attempts = state.history.countP isTurn)
    (verified : current.verifiedSuccess =
      ((setup.spec.check setup.debug artifacts).all CheckEvidence.passed &&
        !TaskState.anyUnknown receipts))
    (accepted : current.verifiedSuccess = true → ∀ observations,
      (∀ observation ∈ observations, IsPlain observation) →
      Accepted setup threadId (state.extend observations state.world)) :
    Leads (settle setup current artifacts receipts (some task))
      (Left setup threadId current.attempts) state := by
  unfold settle
  apply Tries.bind
  apply leads_advance
  intro fault task' next applied same
  subst same
  obtain ⟨activeTurn, _, checked⟩ := sound.verifies running setup.debug artifacts receipts
  have sound' := sound.attemptChecked applied
  have judged := (Prod.mk.inj (checked.symm.trans applied)).2
  have status : task'.state.status = .succeeded ↔ current.verifiedSuccess = true := by
    rw [← judged, verified, Bool.and_eq_true, Bool.not_eq_true', ← sound.sameSpec]
    exact TaskState.verdict_succeeded.trans and_comm
  have numbered' : task'.state.attempts = current.attempts := by
    rw [← judged]
    exact TaskState.verdict_attempts.trans numbered
  have bounded : current.attempts ≤ setup.fixture.maxAttempts := numbered' ▸ sound'.attempts
  have made' : current.attempts =
      (state.extend [⟨.writeTask, fault⟩] state.world).history.countP isTurn := by
    simpa [Surroundings.extend, isTurn] using made
  by_cases repair : task'.state.status = .needsRepair
  · rw [if_neg (not_not.mpr repair)]
    have failed : ¬ current.verifiedSuccess = true := by
      rw [← status, repair]
      decide
    cases completed : current.normalCompletion with
    | true =>
      rw [if_neg (by decide)]
      apply Tries.pure
      have unspent : current.attempts < setup.fixture.maxAttempts := numbered' ▸ sound'.repair repair
      exact ⟨rfl, ⟨⟨task', rfl, sound', numbered'⟩, made'⟩, unspent⟩
    | false =>
      rw [if_pos (by decide)]
      apply Tries.bind
      apply leads_advance
      intro fault' task'' next blocked same
      subst same
      apply Tries.pure
      have stopped := TaskState.blockedBy_ok blocked
      obtain ⟨same, stopped⟩ : task''.state.attempts = task'.state.attempts ∧
          task''.state.status = .blocked := by
        rw [stopped]
        exact ⟨rfl, rfl⟩
      refine ⟨rfl, ⟨⟨task'', rfl, same.trans numbered', ?_⟩, ?_, bounded, ?_⟩⟩
      · simp [stopped, failed]
      · simpa [Surroundings.extend, isTurn] using made
      · exact fun verified => absurd verified failed
  · rw [if_pos repair]
    apply Tries.pure
    exact ⟨rfl, ⟨task', rfl, numbered', status⟩, made', bounded,
      fun verified => accepted verified _ (by simp [IsPlain])⟩

theorem leads_startAttempt {task : TaskJournal} (sound : task.state.Sound setup.spec) :
    Leads (startAttempt setup turnId (some task)) (fun started state' => ∃ task' fault,
      started = some task' ∧ state' = state.extend [⟨.writeTask, fault⟩] state.world ∧
      task'.state.Sound setup.spec ∧ task'.state.status = .running ∧
      task'.state.attempts = task.state.attempts + 1) state := by
  have advanced : Leads (advance setup task (.attemptStarted turnId.value))
      (fun task' state' => ∃ fault, state' = state.extend [⟨.writeTask, fault⟩] state.world ∧
        task'.state.Sound setup.spec ∧ task'.state.status = .running ∧
        task'.state.attempts = task.state.attempts + 1) state := by
    apply leads_advance
    intro fault task' next applied same
    subst same
    obtain ⟨_, _, _, started⟩ := TaskState.attemptStarted_ok applied
    refine ⟨fault, rfl, sound.attemptStarted applied, ?_, ?_⟩
    · rw [started]
    · rw [started]
  apply Tries.bind
  apply advanced.mono
  · intro task' state' holds
    obtain ⟨fault, same, holds⟩ := holds
    exact Tries.pure ⟨task', fault, rfl, same, holds⟩
  · exact fun _ _ holds => holds

theorem leads_attempt (waiting : Waiting setup current state) :
    Leads (attempt setup runtime threadId current)
      (Left setup threadId (current.attempts + 1)) state := by
  obtain ⟨⟨task, present, sound, numbered⟩, made⟩ := waiting
  apply Tries.bind
  apply leads_perform
  intro turnId world changes
  have same : world = state.world := changes
  subst same
  rw [present]
  apply Tries.bind
  apply (leads_startAttempt sound).mono
  · intro started state' holds
    obtain ⟨task', fault, rfl, rfl, sound', running, numbered'⟩ := holds
    apply Tries.bind
    apply leads_runAttempt.mono
    · intro result state' holds
      obtain ⟨observations, world, rfl, once, plain⟩ := holds
      obtain ⟨normalCompletion, turnErrors⟩ := result
      apply Tries.bind
      apply leads_perform
      intro loaded world' loads
      obtain ⟨same, loads⟩ := loads
      subst same
      apply Tries.bind
      apply leads_unwrap
      intro events loaded'
      subst loaded'
      have logged := loads events rfl
      apply Tries.bind
      apply leads_perform
      intro read world'' changes
      have same : world'' = _ := changes
      subst same
      apply Tries.bind
      apply leads_unwrap
      intro content read'
      subst read'
      apply Tries.bind
      apply leads_writeFile.mono
      · intro _ state' written
        obtain ⟨noted, rfl, plainNote, noTurn⟩ := written
        have quiet : [noted].countP isTurn = 0 := by simpa using noTurn
        apply leads_settle sound' running (numbered'.trans (congrArg (· + 1) numbered))
        · simp only [extend_history, List.countP_append, once, quiet, made]
          rfl
        · rfl
        · intro verified observations' plain'
          rw [logged] at verified
          apply accepted_of_verified turnId content state.history
            (⟨.writeTask, fault⟩ :: observations ++ [⟨.loadThread threadId, .ok events⟩])
            (noted :: observations')
          · simp
          · simpa [or_imp, forall_and, IsPlain] using plain
          · simpa [or_imp, forall_and, plainNote] using plain'
          · exact verified
      · exact fun _ _ holds => holds
    · exact fun _ _ holds => holds
  · exact fun _ _ holds => holds

/-- The loop ends after as many turns as there are attempts left. -/
theorem leads_attempts {turns : Nat} (waiting : Waiting setup current state)
    (unspent : current.attempts < setup.fixture.maxAttempts)
    (enough : turns + current.attempts = setup.fixture.maxAttempts) :
    Leads (attempts setup runtime threadId turns current)
      (fun result state' => ∃ ended, result = some ended ∧ Ended setup threadId ended state')
      state := by
  induction turns generalizing current state with
  | zero => omega
  | succ turns ih =>
    apply Tries.bind
    apply (leads_attempt waiting).mono
    · intro result state' left
      obtain ⟨next, again⟩ := result
      obtain ⟨numbered, left⟩ := left
      cases again with
      | false => exact Tries.pure ⟨next, rfl, left⟩
      | true =>
        obtain ⟨waiting, unspent⟩ := left
        dsimp only at numbered
        exact ih waiting (by omega) (by omega)
    · exact fun _ _ holds => holds

end Attempt

/-! ## Whole runs -/

section Run

variable {setup : Setup} {threadId : ThreadId} {current : Loop} {state : Surroundings}
variable {events : List EventEnvelope} {elapsed : Nat}

/-- What the report says about a loop that has ended. -/
theorem report_honest (ended : Ended setup threadId current state) {runtime : AgentRuntime}
    (started : (⟨.startThread runtime, .ok threadId⟩ : Observation) ∈ state.history) :
    Honest setup (report setup current events elapsed) current.task state := by
  obtain ⟨task, present, numbered, succeeded⟩ := ended.task
  have agrees : (report setup current events elapsed).reportedSuccess = current.verifiedSuccess := by
    rw [Bool.eq_iff_iff, ← succeeded]
    simp [report, present]
  constructor
  · exact ended.made
  · exact ended.bounded
  · rw [present, Option.map_some, numbered]
    rfl
  · exact agrees
  · have both : (report setup current events elapsed).falseCompletion =
      ((report setup current events elapsed).reportedSuccess && !current.verifiedSuccess) := rfl
    rw [both, agrees, Bool.and_not_self]
  · intro reported
    exact ⟨runtime, threadId, started, ended.accepted (agrees.symm.trans reported)⟩

/-- Whatever is run, what happened before stays in the history. -/
theorem leads_grows {α : Type} {code : Attempt α} {ok : α → Surroundings → Prop}
    (leads : Leads code ok state) :
    Leads code (fun value state' => ok value state' ∧ state.history <+: state'.history) state := by
  have grows : ∀ (program : Interaction.Program Operation Answer (Except EvalError α)) post now,
      surroundings.Meets program post now → state.history <+: now.history →
      surroundings.Meets program
        (fun result later => post result later ∧ state.history <+: later.history) now := by
    intro program post
    induction program with
    | done result => exact fun now meets grown => ⟨meets, grown⟩
    | ask op resume ih =>
      intro now meets grown
      refine ⟨trivial, ?_⟩
      intro answer later step
      have meets' := meets.2 answer later step
      obtain ⟨world, _, same⟩ := step
      rw [same] at meets' ⊢
      exact ih answer _ meets' (grown.trans (List.prefix_append _ _))
  apply Contract.Meets.mono (grows _ _ _ leads (List.prefix_refl _))
  intro result later holds
  cases result with
  | ok value => exact holds
  | error error => trivial

/-- No turn was run so far. -/
def Quiet (state : Surroundings) : Prop := state.history.countP isTurn = 0

theorem Quiet.extend (quiet : Quiet state) {observation : Observation}
    (noTurn : isTurn observation = false) (world : World) :
    Quiet (state.extend [observation] world) := by
  rw [Quiet, extend_history, List.countP_append, List.countP_singleton, noTurn]
  exact quiet

theorem leads_checkFixture : Leads (checkFixture setup)
    (fun _ state' => state' = state ∧ 0 < setup.fixture.maxAttempts) state := by
  unfold checkFixture
  split
  next => exact Tries.throw trivial
  next valid =>
    split
    next => exact Tries.throw trivial
    next =>
      apply Tries.pure
      simp only [not_or] at valid
      exact ⟨rfl, Nat.pos_of_ne_zero valid.2.2⟩

theorem initial_of_create {codec : Task.Codec} {spec : TaskSpec} {fault : Option Task.Fault}
    {journal : TaskJournal} (created : (TaskJournal.create codec spec fault).1 = .ok journal) :
    Task.initialState spec = .ok journal.state := by
  unfold TaskJournal.create at created
  split at created
  next => cases created
  next state made =>
    cases fault with
    | none =>
      cases created
      exact made
    | some fault => cases created

theorem initialState_attempts {spec : TaskSpec} {made : TaskState}
    (initial : Task.initialState spec = .ok made) : made.attempts = 0 := by
  unfold Task.initialState at initial
  split at initial
  · cases initial
  · split at initial
    · cases initial
    · cases initial
      rfl

theorem leads_createTask (mode : setup.mode = .task) (quiet : Quiet state) :
    Leads (createTask setup) (fun result state' => Quiet state' ∧ ∃ journal,
      result = some journal ∧ journal.state.Sound setup.spec ∧ journal.state.attempts = 0) state := by
  unfold createTask
  rw [mode]
  apply Tries.bind
  apply leads_perform
  intro fault world _
  apply Tries.bind
  apply leads_unwrap
  intro journal created
  apply Tries.pure
  have initial := initial_of_create created
  exact ⟨quiet.extend rfl world, journal, rfl, TaskState.initialState_ok initial,
    initialState_attempts initial⟩

theorem quiet_perform {op : Operation} (noTurn : ∀ answer, isTurn ⟨op, answer⟩ = false) :
    surroundings.Carries Quiet (fun _ _ => True) (perform op) := by
  intro state quiet
  apply leads_perform
  intro answer world _
  exact quiet.extend (noTurn answer) world

theorem quiet_unwrap {α ε : Type} {wrap : ε → EvalError} {result : Except ε α} :
    surroundings.Carries Quiet (fun _ _ => True) (unwrap wrap result) := by
  intro state quiet
  exact leads_unwrap fun _ _ => quiet

theorem quiet_writeFile {path : String} {contents : Contents} :
    surroundings.Carries Quiet (fun _ _ => True) (writeFile path contents) :=
  (quiet_perform fun _ => rfl).bind fun _ => quiet_unwrap

theorem quiet_layOut : surroundings.Carries Quiet (fun _ _ => True) (layOut setup) :=
  (quiet_perform fun _ => rfl).bind fun _ => quiet_unwrap.bind fun _ =>
    (quiet_perform fun _ => rfl).bind fun _ => quiet_unwrap.bind fun _ =>
      quiet_writeFile.bind fun _ => quiet_writeFile

theorem leads_connect (quiet : Quiet state) :
    Leads (connect setup) (fun result state' => Quiet state' ∧
      (⟨.startThread result.1, .ok result.2⟩ : Observation) ∈ state'.history) state := by
  refine (quiet_perform fun _ => rfl).then_tries (fun opened state' quiet => ?_) quiet
  refine quiet_unwrap.then_tries (fun _ state' quiet => ?_) quiet
  refine (quiet_perform fun _ => rfl).then_tries (fun opened state' quiet => ?_) quiet
  refine quiet_unwrap.then_tries (fun tool state' quiet => ?_) quiet
  refine quiet_unwrap.then_tries (fun tools state' quiet => ?_) quiet
  apply Tries.bind
  apply leads_perform
  intro started world _
  apply Tries.bind
  apply leads_unwrap
  intro threadId succeeded
  subst succeeded
  exact Tries.pure ⟨quiet.extend rfl world, List.mem_append_right _ List.mem_cons_self⟩

/-- What is set up before the loop. -/
theorem leads_begin (mode : setup.mode = .task) (quiet : Quiet state) :
    Leads (begin setup) (fun result state' => ∃ journal runtime threadId,
      result = (some journal, runtime, threadId) ∧ journal.state.Sound setup.spec ∧
      journal.state.attempts = 0 ∧ 0 < setup.fixture.maxAttempts ∧ Quiet state' ∧
      (⟨.startThread runtime, .ok threadId⟩ : Observation) ∈ state'.history) state := by
  apply Tries.bind
  apply leads_checkFixture.mono
  · intro _ state' holds
    obtain ⟨rfl, budget⟩ := holds
    refine quiet_layOut.then_tries (fun _ state' quiet => ?_) quiet
    apply Tries.bind
    apply (leads_createTask mode quiet).mono
    · intro task state' holds
      obtain ⟨quiet, journal, rfl, sound, zero⟩ := holds
      apply Tries.bind
      apply (leads_connect quiet).mono
      · intro connected state' holds
        exact Tries.pure ⟨journal, _, _, rfl, sound, zero, budget, holds⟩
      · exact fun _ _ holds => holds
    · exact fun _ _ holds => holds
  · exact fun _ _ holds => holds

theorem Accepted.extend (accepted : Accepted setup threadId state) (observation : Observation)
    (plain : IsPlain observation) :
    Accepted setup threadId (state.extend [observation] state.world) := by
  obtain ⟨turnId, before, after, history, last, read, only, known⟩ := accepted
  refine ⟨turnId, before, after ++ [observation], ?_, ?_, List.mem_append_left _ read, ?_, known⟩
  · simp [history]
  · intro observation' member
    obtain earlier | later := List.mem_append.mp member
    · exact last observation' earlier
    · exact List.mem_singleton.mp later ▸ plain.not_newTurn
  · intro answer member
    obtain earlier | later := List.mem_append.mp member
    · exact only answer earlier
    · rw [← List.mem_singleton.mp later] at plain
      exact absurd plain id

/-- What has ended stays so while nothing but plain operations follow. -/
theorem Ended.extend (ended : Ended setup threadId current state) (observation : Observation)
    (plain : IsPlain observation) (quiet : isTurn observation = false) :
    Ended setup threadId current (state.extend [observation] state.world) where
  task := ended.task
  made := by
    rw [extend_history, List.countP_append, List.countP_singleton, quiet]
    exact ended.made
  bounded := ended.bounded
  accepted verified := (ended.accepted verified).extend observation plain

/-- The report is made of the log as it is, and written. -/
theorem leads_report {runtime : AgentRuntime} (ended : Ended setup threadId current state)
    (started : (⟨.startThread runtime, .ok threadId⟩ : Observation) ∈ state.history) :
    Leads (finish setup threadId current)
      (fun result state' => ∃ report task, result = some (report, task) ∧
        Honest setup report task state') state := by
  apply Tries.bind
  apply leads_perform
  intro loaded world loads
  obtain ⟨same, _⟩ := loads
  subst same
  apply Tries.bind
  apply leads_unwrap
  intro events loaded'
  subst loaded'
  apply Tries.bind
  apply leads_perform
  intro elapsed world changes
  have same : world = state.world := changes
  subst same
  apply Tries.bind
  apply leads_writeFile.mono
  · intro _ state' written
    obtain ⟨noted, rfl, plainNote, noTurn⟩ := written
    have afterLoad := ended.extend ⟨.loadThread threadId, .ok events⟩ trivial rfl
    have afterClock := afterLoad.extend ⟨.elapsed, elapsed⟩ trivial rfl
    have afterWrite := afterClock.extend noted plainNote noTurn
    exact Tries.pure ⟨_, _, rfl, report_honest afterWrite
      (List.mem_append_left _ (List.mem_append_left _ (List.mem_append_left _ started)))⟩
  · exact fun _ _ holds => holds

end Run

/-- Whatever the model, the tools and the file system do, a report on a task is honest. -/
theorem task_never_falsely_completed (setup : Setup) (world : World) :
    surroundings.Tries (run { setup with mode := .task })
      (fun result state => ∃ report task, result = some (report, task) ∧
        Honest { setup with mode := .task } report task state)
      (fun _ _ => True) ⟨world, []⟩ := by
  apply Tries.bind
  apply (leads_begin rfl (show Quiet ⟨world, []⟩ from rfl)).mono
  · intro begun state holds
    obtain ⟨journal, runtime, threadId, rfl, sound, zero, budget, quiet, started⟩ := holds
    apply Tries.bind
    refine Tries.mono (leads_grows (leads_attempts ⟨⟨journal, rfl, sound, zero⟩, quiet.symm⟩
      budget rfl)) ?_ (fun _ _ holds => holds)
    intro result state' holds
    obtain ⟨⟨ended, rfl, holds⟩, grown⟩ := holds
    exact leads_report holds (grown.subset started)
  · exact fun _ _ holds => holds

namespace Sample

def setup : Setup where
  debug := id
  codec := { encode := fun _ => [], decode := fun _ => .error "" }
  fixture := {
    version := 1, id := "repair", split := "development", objective := "repair", initial := "a"
    expected := "b", proposals := ["c", "b"], maxAttempts := 2, denyWrite := false
    interruptExecution := false }
  mode := .task
  directory := "run"
  modelId := "scripted-v1"
  liveModel := false

/-- Surroundings in which the proposals are written one after the other; the state counts the
turns. -/
def answer (turns : Nat) : (op : Operation) → Option (Answer op) × Nat
  | .createDir _ | .write .. => (some (.ok ()), turns)
  | .readToString _ => (some (.ok (setup.fixture.proposals.getD (turns - 1) "")), turns)
  | .writeTask => (some none, turns)
  | .openStore _ => (some (.ok ()), turns)
  | .openTool _ => (some (.ok ⟨0⟩), turns)
  | .newTurnId => (some ⟨toString turns⟩, turns + 1)
  | .newCancellation => (some ⟨0⟩, turns)
  | .startThread _ => (some (.ok ⟨"thread"⟩), turns)
  | .runTurn _ threadId turnId _ _ => (some (.ok ⟨threadId, turnId, "done", 2⟩), turns)
  | .pollTurn .. | .recover .. => (none, turns)
  | .loadThread _ => (some (.ok []), turns)
  | .elapsed => (some 0, turns)

end Sample

/-- The second attempt is accepted. -/
example : ((run Sample.setup).run.run Sample.answer 0).1.map (fun result =>
    result.toOption.join.map fun ended =>
      (ended.1.attempts, ended.1.reportedSuccess, ended.1.verifiedSuccess)) =
    some (some (2, true, true)) := by
  decide

end Nausicaa.Eval
