import Nausicaa.Core.TurnEnds
import Nausicaa.Core.Schedule

/-! # The result of a turn and its log

What `run_turn` returns agrees with the log at the moment it let go of its thread,
whatever was stored before, whatever the surroundings answer and wherever the store
fails.
-/

namespace Nausicaa.Core

open Interaction (Contract Reachable Sound)
open Interaction.Contract (Meets Tries)

/-- As the call left it, the log of its thread ends with `events` of the turn, and nothing
before them ends the turn. -/
def LeftWith (threadId : ThreadId) (turnId : TurnId) (events : List RuntimeEvent) (own : Own) :
    Prop :=
  ∃ log before, own.left = some (threadId, log) ∧ storedIn own.history <:+ log ∧
    turnLog log = before ++ events.map (fun event => (turnId, event)) ∧ ¬ Ended before turnId

/-- Nothing that the call stored completes or cancels the turn. -/
def Undecided (turnId : TurnId) (own : Own) : Prop :=
  ∀ event, (turnId, event) ∈ turnLog (storedIn own.history) →
    event ≠ .turnCancelled ∧ ∀ content, event ≠ .turnCompleted content

/-- A flag that is never reset, and that the token was read from, was not set when the
last response of the model arrived. -/
def Uncancelled (token : CancellationToken) (history : List Observation) : Prop :=
  ∃ place response, LastResponse history place response ∧
    ∀ flag : Nat → Prop, (∀ earlier later, earlier ≤ later → flag earlier → flag later) →
      Reads token history flag → ¬ flag place

/-- What a call on a turn returned agrees with what it stored. -/
def Agrees (threadId : ThreadId) (turnId : TurnId) (token : CancellationToken) (own : Own) :
    Except RuntimeError TurnOutcome → Prop
  | .ok outcome =>
    (outcome.threadId = threadId ∧ outcome.turnId = turnId) ∧
    (∃ usage, LeftWith threadId turnId [.assistantMessage outcome.content [] .endTurn usage,
      .turnCompleted outcome.content] own) ∧
    Uncancelled token own.history
  | .error (.cancelled turnId') =>
    turnId' = turnId ∧ LeftWith threadId turnId [.turnCancelled] own
  | .error (.store _) | .error (.receiptPersistenceUnknown ..) => Undecided turnId own
  | .error (.unknownThread _) | .error (.concurrentTurn _) | .error (.duplicateTurn ..) =>
    storedIn own.history = []
  | .error _ =>
    Undecided turnId own ∧ ∃ reason, LeftWith threadId turnId [.turnFailed reason] own

/-- The call on a turn and what it returned, if the call is one. -/
def Concluded (call : Call) (result : Except RuntimeError Reply) (own : Own) : Prop :=
  ∀ threadId turnId input token, call = .runTurn threadId turnId input token →
    ∃ result', result = result'.map .outcome ∧ Agrees threadId turnId token own result'

section Ends

variable {rt : AgentRuntime} {call : Call} {threadId : ThreadId} {turnId : TurnId}
variable {token : CancellationToken} {state : Local} {events : List RuntimeEvent}
variable {outcome : TurnOutcome} {error : RuntimeError}

theorem release_history :
    storedIn (state.release threadId).own.history = storedIn state.own.history := by
  have silent : ∀ observation ∈ ([⟨.activeRemove threadId, ()⟩] : List Observation),
      observation.envelope = none := by
    intro observation member
    rw [List.mem_singleton.mp member]
    rfl
  show storedIn (state.own.history ++ _) = _
  rw [storedIn_append, storedIn_silent silent, List.append_nil]

theorem Latest.left (latest : Latest threadId turnId events state) :
    LeftWith threadId turnId events (state.release threadId).own := by
  obtain ⟨before, split, unended⟩ := latest.logged
  refine ⟨state.log, before, rfl, ?_, split, unended⟩
  rw [release_history]
  exact latest.stored

theorem undecided_of_unended {own : Own}
    (unended : ¬ Ended (turnLog (storedIn own.history)) turnId) : Undecided turnId own := by
  intro event member
  constructor
  · intro same
    exact unended ⟨event, member, same ▸ trivial⟩
  · intro content same
    exact unended ⟨event, member, same ▸ trivial⟩

/-- A failed turn was neither completed nor cancelled. -/
theorem LeftWith.undecided {reason : String} {own : Own}
    (left : LeftWith threadId turnId [.turnFailed reason] own) : Undecided turnId own := by
  obtain ⟨log, before, _, ⟨base, stored⟩, split, unended⟩ := left
  intro event member
  have logged : (turnId, event) ∈ turnLog log := by
    rw [← stored, turnLog_append]
    exact List.mem_append_right _ member
  rw [split] at logged
  cases List.mem_append.mp logged with
  | inl earlier =>
    constructor
    · intro same
      exact unended ⟨event, earlier, same ▸ trivial⟩
    · intro content same
      exact unended ⟨event, earlier, same ▸ trivial⟩
  | inr last =>
    have same : (turnId, event) = (turnId, .turnFailed reason) := List.mem_singleton.mp last
    cases same
    exact ⟨nofun, nofun⟩

/-- A reading after the last response tells of the flag at that response. -/
theorem Completes.uncancelled (completes : Completes threadId turnId token outcome state) :
    Uncancelled token (state.release threadId).own.history := by
  obtain ⟨place, response, last, _, _, _, later, after, read⟩ := completes.response
  have goes : Goes state.own.history (state.release threadId).own.history := by
    refine ⟨[⟨.activeRemove threadId, ()⟩], rfl, ?_⟩
    intro observation member
    rw [List.mem_singleton.mp member]
    exact id
  refine ⟨place, response, last.go goes, ?_⟩
  intro flag monotone reads set
  have still := monotone place later (Nat.le_of_lt after) set
  have read : (state.release threadId).own.history[later]? = some ⟨.isCancelled token, false⟩ := by
    obtain ⟨bound, _⟩ := List.getElem?_eq_some_iff.mp read
    show (state.own.history ++ _)[later]? = _
    rw [List.getElem?_append_left bound, read]
  have isTrue := (reads later false read).mpr still
  cases isTrue

theorem Completes.answered (completes : Completes threadId turnId token outcome state) :
    Agrees threadId turnId token (state.release threadId).own (.ok outcome) := by
  obtain ⟨usage, latest⟩ := completes.latest
  exact ⟨completes.names, ⟨usage, latest.left⟩, completes.uncancelled⟩

theorem Stops.answered (stops : Stops threadId turnId error state) :
    Agrees threadId turnId token (state.release threadId).own (.error error) := by
  have undecided : ¬ Ended (turnLog (storedIn state.own.history)) turnId →
      Undecided turnId (state.release threadId).own := by
    intro unended
    apply undecided_of_unended
    rw [release_history]
    exact unended
  have failed : ∀ reason, Latest threadId turnId [.turnFailed reason] state →
      Undecided turnId (state.release threadId).own ∧
        ∃ reason, LeftWith threadId turnId [.turnFailed reason] (state.release threadId).own :=
    fun reason latest => ⟨latest.left.undecided, reason, latest.left⟩
  cases error with
  | store source => exact undecided stops
  | receiptPersistenceUnknown callId toolName source => exact undecided stops
  | unknownThread threadId' => exact stops.elim
  | concurrentTurn threadId' => exact stops.elim
  | duplicateTurn threadId' turnId' => exact release_history.trans stops
  | cancelled turnId' => exact ⟨stops.1, stops.2.left⟩
  | context source => exact failed _ stops.choose_spec
  | model source => exact failed _ stops.choose_spec
  | hook source => exact failed _ stops.choose_spec
  | invalidModelResponse turnId' reason => exact failed _ stops.choose_spec
  | incompleteModelResponse turnId' stopReason => exact failed _ stops.choose_spec
  | maxModelIterations turnId' maximum => exact failed _ stops.choose_spec

end Ends

/-! ## Whole calls -/

section Calls

variable {rt : AgentRuntime} {call : Call} {threadId : ThreadId} {turnId : TurnId}
variable {token : CancellationToken} {state : Local} {input : String}

/-- The turn under its guard, and what is left of it when the guard is gone. -/
theorem holding_answered (nothing : storedIn state.own.history = []) :
    (unchecked rt call).Tries
      (AgentRuntime.holding threadId (rt.runTurnExclusive threadId turnId input token))
      (fun outcome state' => Agrees threadId turnId token state'.own (.ok outcome))
      (fun error state' => Agrees threadId turnId token state'.own (.error error)) state := by
  have still : ∀ log answer, storedIn (Local.extend
      ⟨{ state.own with held := .guard threadId }, log⟩ []
        [⟨.activeInsert threadId, answer⟩]).own.history = [] := by
    intro log answer
    show storedIn (state.own.history ++ _) = []
    rw [storedIn_append, nothing]
    rfl
  apply Tries.bind
  apply Tries.bind
  apply perform_unchecked
  intro answer state' effect
  cases answer with
  | error source => exact effect.elim
  | ok absent =>
    cases absent with
    | false =>
      have same : state' = state := effect
      subst same
      exact Tries.throw (still [] (.ok false))
    | true =>
      obtain ⟨log, same⟩ := effect
      subst same
      apply Tries.pure
      apply Tries.bind
      apply Tries.outcome
      apply Tries.mono (runTurnExclusive_concludes rfl (still log (.ok true)))
      · intro outcome served completes
        apply Tries.bind
        apply perform_unchecked
        intro _ released same
        have same : released = _ := same
        subst same
        exact Tries.pure completes.answered
      · intro error served stops
        apply Tries.bind
        apply perform_unchecked
        intro _ released same
        have same : released = _ := same
        subst same
        exact Tries.throw stops.answered

theorem runTurn_answered :
    (unchecked rt call).Tries (rt.runTurnWithIdAndCancellation threadId turnId input token)
      (fun outcome state => Agrees threadId turnId token state.own (.ok outcome))
      (fun error state => Agrees threadId turnId token state.own (.error error)) Local.idle := by
  have still : ∀ answer : Except StoreError (List EventEnvelope), storedIn
      (Local.idle.extend [] [⟨.loadThread threadId, answer⟩]).own.history = [] :=
    fun answer => storedIn_silent (silent_load answer)
  apply Tries.bind
  apply Tries.bind
  apply loadThread_unchecked
  · intro events _
    split
    · exact Tries.pure (holding_answered (still _))
    · exact Tries.throw (still (.ok events))
  · intro source
    apply undecided_of_unended
    rw [still]
    intro ended
    obtain ⟨event, member, _⟩ := ended
    cases member

theorem code_concluded (call : Call) : (unchecked rt call).Meets (call.code rt)
    (fun result state => Concluded call result state.own) Local.idle := by
  cases call with
  | startThread => exact Meets.permissive (fun _ _ => trivial) fun _ _ _ _ _ _ same => nomatch same
  | recover threadId =>
    exact Meets.permissive (fun _ _ => trivial) fun _ _ _ _ _ _ same => nomatch same
  | runTurn threadId turnId input token =>
    apply Meets.bind
    apply Meets.mono runTurn_answered
    intro result state answered
    cases result with
    | ok outcome =>
      intro _ _ _ _ same
      cases same
      exact ⟨.ok outcome, rfl, answered⟩
    | error error =>
      intro _ _ _ _ same
      cases same
      exact ⟨.error error, rfl, answered⟩

end Calls

/-! ## Runs -/

section Runs

variable {rt : AgentRuntime} {world : World} {config : RuntimeConfiguration} {index : Nat}
variable {task : RuntimeTask} {result : Except RuntimeError Reply}

/-- Every call of a run that returned is concluded. -/
theorem Running.concluded (running : Running rt world config) (idle : world.active = ∅)
    (present : config.tasks[index]? = some task) (done : task.program = some (.done result)) :
    Concluded task.call result task.own := by
  have meets : ∀ call, (contract rt False call).Meets (call.code rt)
      (fun result state => Returned call result state.own ∧ Concluded call result state.own)
      Local.idle := by
    intro call
    have steps : ∀ state op answer state', (contract rt False call).step state op answer state' →
        (contract rt False call).step state op answer state' ∧
          (unchecked rt call).step state op answer state' := fun _ _ _ _ step => ⟨step, step⟩
    exact Meets.both (fun _ _ permitted _ => permitted) steps (code_meets call)
      (code_concluded call)
  have sound := Reachable.sound (discipline rt False) meets (owned_nil idle) running.runsFrom
  exact (sound.meets index task _ present done).2

end Runs

end Nausicaa.Core
