import Nausicaa.Task.Serde

/-! # Acceptance is sound

What holds in every state of a task (`TaskState.Sound`): the attempts keep to the budget, the
evidence is numbered, and the task has succeeded exactly if the last evidence meets the
criteria.  `apply` keeps it (`Sound.apply`), and so does every call on a journal
(`Calls.sound`). -/

namespace Nausicaa.Task

open Core (ReceiptStatus ToolReceipt isBlank)

/-! ## What is accepted -/

/-- The artifact that a criterion asks for is there exactly once, with its content. -/
def Criterion.Met (criterion : Criterion) (artifacts : List ArtifactRef) : Prop :=
  ∃ artifact, artifacts.filter (fun artifact => artifact.id = criterion.artifactId) = [artifact] ∧
    artifact.content = criterion.expected

/-- Every criterion is met, and no tool call's outcome is unknown. -/
structure TaskSpec.Accepts (spec : TaskSpec) (evidence : AttemptEvidence) : Prop where
  met : ∀ criterion ∈ spec.criteria, criterion.Met evidence.artifacts
  known : ∀ receipt ∈ evidence.receipts, receipt.status ≠ .unknown

/-- The task takes no further operation. -/
def TaskStatus.Final : TaskStatus → Prop
  | .succeeded | .budgetExhausted | .blocked => True
  | .ready | .running | .needsRepair => False

/-- What holds in every state of a task. -/
structure TaskState.Sound (spec : TaskSpec) (state : TaskState) : Prop where
  sameSpec : state.spec = spec
  attempts : state.attempts ≤ spec.budget.maxAttempts
  accepted : state.status = .succeeded ↔
    ∃ last, state.evidence.getLast? = some last ∧ spec.Accepts last
  numbered : state.evidence.map AttemptEvidence.attempt = List.range' 1 state.evidence.length
  distinct : (state.evidence.map AttemptEvidence.turnId).Nodup
  remaining : state.remainingWork = [] ↔ state.status = .succeeded
  running : state.status = .running → ∃ turnId, state.activeTurn = some turnId ∧
    turnId ∉ state.evidence.map AttemptEvidence.turnId ∧
    state.attempts = state.evidence.length + 1
  waiting : state.status = .ready ∨ state.status = .needsRepair →
    state.attempts = state.evidence.length
  repair : state.status = .needsRepair → state.attempts < spec.budget.maxAttempts

/-! ## Checks -/

section Checks

variable {debug : String → String} {spec : TaskSpec} {artifacts : List ArtifactRef}
variable {receipts : List ToolReceipt} {criterion : Criterion}

theorem passes_iff : criterion.passes artifacts = true ↔ criterion.Met artifacts := by
  rw [Criterion.passes, Criterion.Met]
  split
  next artifact found => simp [found]
  next other =>
    constructor
    · intro none
      cases none
    · intro met
      obtain ⟨artifact, found, _⟩ := met
      exact absurd found (other artifact)

theorem all_passed_iff : (spec.check debug artifacts).all CheckEvidence.passed = true ↔
    ∀ criterion ∈ spec.criteria, criterion.Met artifacts := by
  rw [TaskSpec.check, List.all_map, List.all_eq_true]
  exact forall₂_congr fun criterion _ => passes_iff

theorem anyUnknown_iff : TaskState.anyUnknown receipts = false ↔
    ∀ receipt ∈ receipts, receipt.status ≠ .unknown := by
  simp [TaskState.anyUnknown]

end Checks

namespace TaskState

section Steps

variable {debug : String → String} {spec : TaskSpec} {state state' : TaskState}
variable {reply : Except TaskError Unit} {event : TaskEvent}

/-! ## One event -/

theorem initialState_ok (made : initialState spec = .ok state) : state.Sound spec := by
  rw [initialState] at made
  split at made
  next => cases made
  next valid =>
    simp only [not_or] at valid
    split at made
    next => cases made
    next =>
      cases made
      have criteria : spec.criteria.map Criterion.id ≠ [] := by
        intro none
        exact valid.2.1 (List.map_eq_nil_iff.mp none)
      constructor <;> simp [criteria]

theorem attemptStarted_ok {turnId : String}
    (applied : state.attemptStarted turnId = (.ok (), state')) :
    (state.status = .ready ∨ state.status = .needsRepair) ∧
      state.attempts < state.spec.budget.maxAttempts ∧
      turnId ∉ state.evidence.map AttemptEvidence.turnId ∧
      state' = { state with
        attempts := state.attempts + 1, activeTurn := some turnId, status := .running } := by
  rw [attemptStarted] at applied
  split at applied
  next => cases applied
  next allowed =>
    cases applied
    simp only [not_or, not_and, not_not] at allowed
    obtain ⟨status, budget, _, fresh⟩ := allowed
    refine ⟨?_, Nat.lt_of_not_le budget, ?_, rfl⟩
    · by_cases ready : state.status = .ready
      · exact .inl ready
      · exact .inr (status ready)
    · intro member
      obtain ⟨evidence, present, same⟩ := List.mem_map.mp member
      exact fresh ⟨evidence, present, same⟩

theorem Sound.attemptStarted {turnId : String} (sound : state.Sound spec)
    (applied : state.attemptStarted turnId = (.ok (), state')) : state'.Sound spec := by
  obtain ⟨waiting, budget, fresh, rfl⟩ := attemptStarted_ok applied
  have unfinished : state.status ≠ .succeeded := by
    obtain ready | repair := waiting
    · simp [ready]
    · simp [repair]
  rw [sound.sameSpec] at budget
  refine ⟨sound.sameSpec, budget, ?_, sound.numbered, sound.distinct, ?_, ?_, ?_, ?_⟩
  · have same := sound.accepted
    simp only [unfinished, false_iff] at same
    simpa using same
  · have same := sound.remaining
    simp only [unfinished, iff_false] at same
    simpa using same
  · intro _
    exact ⟨turnId, rfl, fresh, congrArg (· + 1) (sound.waiting waiting)⟩
  · intro none
    simp at none
  · intro none
    cases none

theorem blockedBy_ok {reason : String} (applied : state.blockedBy reason = (.ok (), state')) :
    state' = { state with
      status := .blocked, remainingWork := state.remainingWork ++ [reason] } := by
  rw [TaskState.blockedBy] at applied
  split at applied
  next => cases applied
  next => exact (Prod.mk.inj applied).2.symm

theorem Sound.blockedBy {reason : String} (sound : state.Sound spec)
    (applied : state.blockedBy reason = (.ok (), state')) : state'.Sound spec := by
  rw [TaskState.blockedBy] at applied
  split at applied
  next => cases applied
  next allowed =>
    cases applied
    have unfinished : state.status ≠ .succeeded := by
      intro succeeded
      simp [succeeded] at allowed
    refine ⟨sound.sameSpec, sound.attempts, ?_, sound.numbered, sound.distinct, ?_, ?_, ?_, ?_⟩
    · have same := sound.accepted
      simp only [unfinished, false_iff] at same
      simpa using same
    · simp
    · intro none
      cases none
    · intro none
      simp at none
    · intro none
      cases none

/-! ## Verification -/

section Verdict

variable {checks : List CheckEvidence} {receipts : List ToolReceipt}

/-- A verdict changes the status and the remaining work only. -/
theorem verdict_others : (state.verdict checks receipts).spec = state.spec ∧
    (state.verdict checks receipts).attempts = state.attempts ∧
    (state.verdict checks receipts).evidence = state.evidence ∧
    (state.verdict checks receipts).activeTurn = state.activeTurn := by
  simp only [verdict]
  split
  · simp
  · split
    · simp
    · split <;> simp

@[simp] theorem verdict_spec : (state.verdict checks receipts).spec = state.spec :=
  verdict_others.1

@[simp] theorem verdict_attempts : (state.verdict checks receipts).attempts = state.attempts :=
  verdict_others.2.1

@[simp] theorem verdict_evidence : (state.verdict checks receipts).evidence = state.evidence :=
  verdict_others.2.2.1

@[simp] theorem verdict_activeTurn :
    (state.verdict checks receipts).activeTurn = state.activeTurn :=
  verdict_others.2.2.2

theorem verdict_succeeded : (state.verdict checks receipts).status = .succeeded ↔
    anyUnknown receipts = false ∧ checks.all CheckEvidence.passed = true := by
  simp only [verdict]
  split
  next unknown => simp [unknown]
  next known =>
    split
    next passed => simp [known, passed]
    next failed => split <;> simp [failed]

theorem verdict_remaining : (state.verdict checks receipts).remainingWork = [] ↔
    (state.verdict checks receipts).status = .succeeded := by
  have failed : (checks.filter fun check => !check.passed).map CheckEvidence.feedback = [] ↔
      checks.all CheckEvidence.passed = true := by
    simp [List.filter_eq_nil_iff]
  simp only [verdict]
  split
  next unknown => simp
  next known =>
    split
    next passed => simp [failed, passed]
    next some => split <;> simp [failed, some]

theorem verdict_status (state : TaskState) (checks : List CheckEvidence)
    (receipts : List ToolReceipt) : (state.verdict checks receipts).status ≠ .ready ∧
    (state.verdict checks receipts).status ≠ .running ∧
    ((state.verdict checks receipts).status = .needsRepair →
      state.attempts ≠ state.spec.budget.maxAttempts) := by
  simp only [verdict]
  split
  next => simp
  next =>
    split
    next => simp
    next =>
      split
      next => simp
      next unspent => simp [unspent]

end Verdict

/-- A running task has an active turn, so that it can be verified. -/
theorem Sound.verifies (sound : state.Sound spec) (running : state.status = .running)
    (debug : String → String) (artifacts : List ArtifactRef) (receipts : List ToolReceipt) :
    ∃ turnId, turnId ∉ state.evidence.map AttemptEvidence.turnId ∧
      state.attemptChecked debug artifacts receipts = (.ok (),
        { state.verdict (state.spec.check debug artifacts) receipts with
          activeTurn := none
          evidence := state.evidence ++ [⟨state.attempts, turnId, artifacts,
            state.spec.check debug artifacts, receipts⟩] }) := by
  obtain ⟨turnId, active, fresh, _⟩ := sound.running running
  refine ⟨turnId, fresh, ?_⟩
  rw [attemptChecked, if_neg (not_not.mpr running)]
  simp only [verdict_activeTurn, active, verdict_evidence, verdict_attempts]

theorem attemptChecked_running {artifacts : List ArtifactRef} {receipts : List ToolReceipt}
    (applied : state.attemptChecked debug artifacts receipts = (.ok (), state')) :
    state.status = .running := by
  rw [attemptChecked] at applied
  split at applied
  next => cases applied
  next running => exact not_not.mp running

theorem Sound.attemptChecked {artifacts : List ArtifactRef} {receipts : List ToolReceipt}
    (sound : state.Sound spec)
    (applied : state.attemptChecked debug artifacts receipts = (.ok (), state')) :
    state'.Sound spec := by
  have running := attemptChecked_running applied
  obtain ⟨turnId, fresh, checked⟩ := sound.verifies running debug artifacts receipts
  obtain ⟨_, _, _, number⟩ := sound.running running
  obtain ⟨notReady, notRunning, unspent⟩ :=
    verdict_status state (state.spec.check debug artifacts) receipts
  cases checked.symm.trans applied
  constructor
  · exact verdict_spec.trans sound.sameSpec
  · exact verdict_attempts.symm ▸ sound.attempts
  · rw [verdict_succeeded, anyUnknown_iff, all_passed_iff, sound.sameSpec]
    constructor
    · intro accepted
      exact ⟨_, List.getLast?_concat, accepted.2, accepted.1⟩
    · intro accepted
      obtain ⟨last, same, accepts⟩ := accepted
      rw [List.getLast?_concat] at same
      cases same
      exact ⟨accepts.known, accepts.met⟩
  · rw [List.map_append, sound.numbered, List.length_append, List.length_singleton,
      List.range'_1_concat, List.map_singleton, number, Nat.add_comm 1]
  · rw [List.map_append, List.map_singleton, ← List.concat_eq_append]
    exact List.Nodup.concat fresh sound.distinct
  · exact verdict_remaining
  · intro running'
    exact absurd running' notRunning
  · intro waiting
    rw [verdict_attempts, number, List.length_append, List.length_singleton]
  · intro repair
    have most := sound.attempts
    have other := unspent repair
    rw [sound.sameSpec] at other
    rw [verdict_attempts]
    omega

/-- What every event keeps. -/
theorem Sound.apply (sound : state.Sound spec)
    (applied : state.apply debug event = (.ok (), state')) : state'.Sound spec := by
  cases event with
  | created spec => cases applied
  | attemptStarted turnId => exact sound.attemptStarted applied
  | attemptChecked artifacts receipts => exact sound.attemptChecked applied
  | blocked reason => exact sound.blockedBy applied

/-- A task that has come to its end takes no event. -/
theorem apply_final (final : state.status.Final) (debug : String → String)
    (event : TaskEvent) :
    ∃ error, state.apply debug event = (.error error, state) := by
  obtain ⟨ready, running, repair⟩ : state.status ≠ .ready ∧ state.status ≠ .running ∧
      state.status ≠ .needsRepair := by
    cases status : state.status with
    | succeeded | budgetExhausted | blocked => simp
    | ready | running | needsRepair =>
      rw [status] at final
      exact final.elim
  cases event with
  | created spec => exact ⟨_, rfl⟩
  | attemptStarted turnId => exact ⟨_, if_pos (.inl ⟨ready, repair⟩)⟩
  | attemptChecked artifacts receipts => exact ⟨_, if_pos running⟩
  | blocked reason => exact ⟨_, if_pos (.inl ⟨ready, running, repair⟩)⟩

end Steps

end TaskState

/-! ## Runs -/

section Runs

variable {debug : String → String} {codec : Codec} {spec : TaskSpec}
variable {start journal : TaskJournal} {calls : List Call}

theorem create_ok {file : Option Bytes}
    (created : TaskJournal.create codec spec none = (.ok start, file)) :
    initialState spec = .ok start.state ∧ start =
      ⟨TaskJournal.line codec ⟨1, 0, .created spec⟩, start.state, 1, false⟩ := by
  rw [TaskJournal.create] at created
  split at created
  next error refused => cases created
  next state made =>
    cases created
    exact ⟨made, rfl⟩

/-- The states of an instance are sound. -/
theorem Calls.sound (made : Calls debug codec start calls journal)
    (sound : start.state.Sound spec) : journal.state.Sound spec := by
  induction made with
  | start => exact sound
  | @call calls journal journal' operation fault reply made done ih =>
    cases reply with
    | ok _ =>
      obtain ⟨next, applied, _, rfl⟩ := TaskJournal.transition_ok done
      exact ih.apply applied
    | error error =>
      obtain ⟨rfl, _⟩ | ⟨_, _, _, _, _, _, rfl⟩ := TaskJournal.transition_error done
      · exact ih
      · exact ih

/-- What a line of the file leaves is sound. -/
theorem line_sound {opening opening' : TaskJournal.Opening} {line : Bytes}
    (read : opening.line debug codec line = .ok opening')
    (sound : ∀ state ∈ opening.state, state.Sound state.spec) :
    ∀ state ∈ opening'.state, state.Sound state.spec := by
  intro state left
  rw [TaskJournal.Opening.line] at read
  split at read
  next message undecoded => cases read
  next record decoded =>
    split at read
    next misplaced => cases read
    next =>
      split at read
      next spec _ _ =>
        split at read
        next error refused => cases read
        next initial made =>
          cases read
          cases left
          have same := TaskState.initialState_ok made
          rwa [same.sameSpec]
      next current present =>
        split at read
        next error _ refused => cases read
        next next applied =>
          cases read
          cases left
          have same := (sound current present).apply applied
          rwa [same.sameSpec]
      next => cases read

theorem lines_sound {opening opening' : TaskJournal.Opening} {lines : List Bytes}
    (read : opening.lines debug codec lines = .ok opening')
    (sound : ∀ state ∈ opening.state, state.Sound state.spec) :
    ∀ state ∈ opening'.state, state.Sound state.spec := by
  induction lines generalizing opening with
  | nil =>
    cases read
    exact sound
  | cons line lines ih =>
    rw [TaskJournal.Opening.lines] at read
    split at read
    next error refused => cases read
    next next one => exact ih read (line_sound one sound)

/-- The state that a file gives is sound, whatever the file holds. -/
theorem openFile_sound {bytes : Bytes}
    (opened : TaskJournal.openFile debug codec bytes = .ok journal) :
    journal.state.Sound journal.state.spec := by
  rw [TaskJournal.openFile] at opened
  split at opened
  next => cases opened
  next =>
    split at opened
    next error refused => cases opened
    next => cases opened
    next state sequence read =>
      cases opened
      exact lines_sound read (by intro state none; cases none) state rfl

/-- Acceptance is sound and bounded. -/
theorem Calls.accepts {file : Option Bytes}
    (created : TaskJournal.create codec spec none = (.ok start, file))
    (made : Calls debug codec start calls journal) :
    journal.state.spec = spec ∧
    journal.state.attempts ≤ spec.budget.maxAttempts ∧
    (journal.state.status = .succeeded ↔
      ∃ last, journal.state.evidence.getLast? = some last ∧ spec.Accepts last) ∧
    journal.state.evidence.map AttemptEvidence.attempt =
      List.range' 1 journal.state.evidence.length ∧
    (journal.state.evidence.map AttemptEvidence.turnId).Nodup ∧
    (journal.state.remainingWork = [] ↔ journal.state.status = .succeeded) ∧
    (journal.state.status = .running → (∃ turnId, journal.state.activeTurn = some turnId) ∧
      ∀ artifacts receipts, ∃ state,
        journal.state.apply debug (.attemptChecked artifacts receipts) = (.ok (), state)) ∧
    (journal.state.status = .needsRepair →
      journal.state.attempts < spec.budget.maxAttempts) ∧
    (journal.state.status.Final → ∀ (operation : Operation) (fault : Option Fault), ∃ error,
      journal.transition debug codec operation.event fault = (.error error, journal)) := by
  have sound := made.sound (TaskState.initialState_ok (create_ok created).1)
  refine ⟨sound.sameSpec, sound.attempts, sound.accepted, sound.numbered, sound.distinct,
    sound.remaining, ?_, sound.repair, ?_⟩
  · intro running
    obtain ⟨turnId, active, _⟩ := sound.running running
    refine ⟨⟨turnId, active⟩, ?_⟩
    intro artifacts receipts
    obtain ⟨_, _, checked⟩ := sound.verifies running debug artifacts receipts
    exact ⟨_, checked⟩
  · intro final operation fault
    obtain ⟨error, refused⟩ := TaskState.apply_final final debug operation.event
    exact ⟨error, by rw [TaskJournal.transition, refused]⟩

end Runs

namespace Sample

/-- `{:?}` of a text without special characters. -/
def debug (text : String) : String := "\"" ++ text ++ "\""

def spec : TaskSpec where
  objective := "Fix addition"
  criteria := [⟨"addition", "lib.rs", "a + b"⟩]
  budget := ⟨2⟩

def journal : TaskJournal where
  file := TaskJournal.line serde ⟨1, 0, .created spec⟩
  state := ⟨spec, .ready, 0, [], ["addition"], none⟩
  sequence := 1
  writeFailed := false

/-- The call of a method. -/
def call (journal : TaskJournal) (operation : Operation) (fault : Option Fault) : Call where
  before := journal
  operation := operation
  fault := fault
  reply := (journal.transition debug serde operation.event fault).1
  after := (journal.transition debug serde operation.event fault).2

def started : Call := call journal (.startAttempt "turn-1") none

def failed : Call := call started.after (.verify [⟨"lib.rs", "a - b"⟩] []) none

def restarted : Call := call failed.after (.startAttempt "turn-2") none

def passed : Call := call restarted.after (.verify [⟨"lib.rs", "a + b"⟩] []) none

theorem created : TaskJournal.create serde spec none = (.ok journal, some journal.file) := by
  have made : initialState spec = .ok journal.state := rfl
  rw [TaskJournal.create, made]
  simp [TaskJournal.append, TaskJournal.record, journal]

theorem calls : Calls debug serde journal [passed, restarted, failed, started] passed.after :=
  .call (.call (.call (.call .start rfl) rfl) rfl) rfl

end Sample

theorem Calls.accepts_sample : Sample.passed.after.state.attempts ≤ 2 ∧
    ∃ last, Sample.passed.after.state.evidence.getLast? = some last ∧
      Sample.spec.Accepts last := by
  obtain ⟨_, budget, accepted, _⟩ := Calls.accepts Sample.created Sample.calls
  exact ⟨budget, accepted.mp (by decide)⟩

end Nausicaa.Task
