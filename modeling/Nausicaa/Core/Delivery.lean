import Nausicaa.Core.RecoverySpec
import Nausicaa.Core.Runs
import Nausicaa.Interaction.Selected

/-! # Observers and the durable log

`append` stores an event and then tells the observers; recovery stores its events first
and tells them afterwards, by their sequence numbers.  The runs here carry the trace of
everything that was asked and answered, so that what observers were told can be compared
with what the store took (`FollowLog`).

A call is only ever dropped at an `await`, or before it is first polled.
-/

namespace Nausicaa.Core

open Interaction (Built Machine Selection SelectedReachable)

/-! ## What a trace tells -/

/-- An observer and what it is told. -/
abbrev Notice := EventObserver × EventEnvelope

/-- The envelope that the store took. -/
def Observation.envelope : Observation → Option EventEnvelope
  | ⟨.storeAppend .., .ok envelope⟩ => some envelope
  | _ => none

def Observation.notice : Observation → Option Notice
  | ⟨.onEvent observer envelope, _⟩ => some (observer, envelope)
  | _ => none

/-- The envelopes that were stored, in order. -/
def storedIn (trace : List Observation) : List EventEnvelope :=
  trace.filterMap Observation.envelope

/-- What observers were told, in order. -/
def toldIn (trace : List Observation) : List Notice := trace.filterMap Observation.notice

/-- What was stored in a thread. -/
def appendedTo (threadId : ThreadId) (trace : List Observation) : List EventEnvelope :=
  (storedIn trace).filter fun envelope => envelope.threadId = threadId

/-- What was told about a thread. -/
def toldOf (threadId : ThreadId) (trace : List Observation) : List Notice :=
  (toldIn trace).filter fun notice => notice.2.threadId = threadId

/-- What one observer received about a thread. -/
def received (observer : EventObserver) (threadId : ThreadId) (trace : List Observation) :
    List EventEnvelope :=
  ((toldOf threadId trace).filter fun notice => notice.1 = observer).map Prod.snd

/-- Telling every observer of one envelope after the other. -/
def notices (observers : List EventObserver) (envelopes : List EventEnvelope) : List Notice :=
  envelopes.flatMap fun envelope => observers.map fun observer => (observer, envelope)

/-- Every envelope as often as an observer is registered. -/
def repeated (count : Nat) (envelopes : List EventEnvelope) : List EventEnvelope :=
  envelopes.flatMap (List.replicate count)

/-- What an observation adds to what a call has still to tell, and takes from it. -/
def owe (observers : List EventObserver) (due : List Notice) (observation : Observation) :
    List Notice :=
  match observation.envelope with
  | some envelope => due ++ notices observers [envelope]
  | none => if observation.notice.isSome then due.tail else due

/-- What a call has still to tell after what it did. -/
def dueAfter (observers : List EventObserver) (history : List Observation) : List Notice :=
  history.foldl (owe observers) []

/-! ## Runs with a trace -/

/-- The world, and everything that was asked and answered in it. -/
structure Watched where
  world : World
  trace : List Observation

/-- The machine of the runtime with its trace. -/
def watchedMachine : Machine Operation Answer Watched Own where
  idle := machine.idle
  exec watched own op answer watched' own' :=
    machine.exec watched.world own op answer watched'.world own' ∧
      watched'.trace = watched.trace ++ [⟨op, answer⟩]
  release watched own := { watched with world := machine.release watched.world own }
  abandon := machine.abandon

/-- The calls of the source that are awaited. -/
def Operation.IsAwaited : Operation → Prop
  | .completeControlled .. | .requestApproval _ | .execute .. => True
  | _ => False

/-- The sequence of a stored envelope is a `u64`. -/
def HasSequence : (op : Operation) → Answer op → Prop
  | .storeAppend .., .ok envelope => envelope.sequence ≤ 0xFFFFFFFFFFFFFFFF
  | _, _ => True

/-- What may be asked of a step: which call acts among what all of them own, and what is
answered to it. -/
abbrev StepCondition := List (Call × Own) → Nat → (op : Operation) → Answer op → Prop

def StepCondition.selection (condition : StepCondition) :
    Selection Operation Answer Watched Own Call where
  answers _ owned index op answer := HasSequence op answer ∧ condition owned index op answer
  drops own op := own.history = [] ∨ op.IsAwaited

abbrev WatchedConfiguration :=
  Interaction.Config Operation Answer Watched Own Call (Except RuntimeError Reply)

/-- What calls on one runtime reach from a world, every step of the run meeting a condition. -/
def Watches (rt : AgentRuntime) (condition : StepCondition) (world : World)
    (config : WatchedConfiguration) : Prop :=
  SelectedReachable watchedMachine (Call.code rt) condition.selection ⟨world, []⟩ config

/-- Envelopes in the order of their sequences, and the next one behind them. -/
structure World.Ordered (world : World) : Prop where
  sorted : world.events.Pairwise fun first second => first.sequence ≤ second.sequence
  below : ∀ envelope ∈ world.events, envelope.sequence < world.nextSequence

/-! ## What observers are promised -/

def Call.IsStart : Call → Prop
  | .startThread => True
  | _ => False

/-- The call is over, or it neither starts a thread nor holds this one. -/
def AtRest (threadId : ThreadId)
    (task : Interaction.Task Operation Answer Own Call (Except RuntimeError Reply)) : Prop :=
  (∀ op resume, task.program ≠ some (.ask op resume)) ∨
    (¬ task.call.IsStart ∧ task.own.held ≠ .guard threadId)

/-- Every registered observer receives, thread by thread, exactly what a run that began in
`world` stored: never before it is stored, in the order of the log, once for each time it
is registered, and all of it by the time no call is at work on the thread. -/
structure FollowLog (rt : AgentRuntime) (world : World) (config : WatchedConfiguration) : Prop where
  log : ∀ threadId, config.shared.world.log threadId =
    world.log threadId ++ appendedTo threadId config.shared.trace
  stored : Built (fun before observation => ∀ notice, observation.notice = some notice →
    notice.2 ∈ storedIn before) config.shared.trace
  inOrder : ∀ observer ∈ rt.observers, ∀ threadId,
    received observer threadId config.shared.trace <+:
      repeated (rt.observers.count observer) (appendedTo threadId config.shared.trace)
  all : ∀ observer ∈ rt.observers, ∀ threadId, (∀ task ∈ config.tasks, AtRest threadId task) →
    received observer threadId config.shared.trace =
      repeated (rt.observers.count observer) (appendedTo threadId config.shared.trace)

/-! ## When they get it -/

/-- The store refuses to append or to load. -/
def Refuses : (op : Operation) → Answer op → Prop
  | .storeAppend .., .error _ | .loadThread _, .error _ => True
  | _, _ => False

/-- The last thing the call did was to store an event. -/
def JustStored (history : List Observation) : Prop :=
  ∃ observation, history.getLast? = some observation ∧ observation.envelope.isSome

/-- The store does not refuse what directly follows a stored append of the same call, and
it takes an event only once no other call that starts the thread has observers to tell
of it. -/
structure Prompt (rt : AgentRuntime) (owned : List (Call × Own)) (index : Nat) (op : Operation)
    (answer : Answer op) : Prop where
  follows : Refuses op answer → rt.observers = [] ∨
    ∀ entry, owned[index]? = some entry → ¬ JustStored entry.2.history
  announced : ∀ envelope, Observation.envelope ⟨op, answer⟩ = some envelope →
    ∀ other entry, other ≠ index → owned[other]? = some entry → entry.1.IsStart →
      ∀ notice ∈ dueAfter rt.observers entry.2.history,
        notice.2.threadId ≠ envelope.threadId

/-! ## Traces that grow -/

section Traces

variable (observers : List EventObserver) (threadId : ThreadId) (trace : List Observation)
variable {observation : Observation} {envelope : EventEnvelope} {notice : Notice}

theorem dueAfter_snoc (history : List Observation) (observation : Observation) :
    dueAfter observers (history ++ [observation]) =
      owe observers (dueAfter observers history) observation := by
  simp [dueAfter]

theorem notices_append (first second : List EventEnvelope) :
    notices observers (first ++ second) = notices observers first ++ notices observers second := by
  simp [notices]

@[simp] theorem notices_nil (envelopes : List EventEnvelope) : notices [] envelopes = [] := by
  simp [notices]

theorem notices_singleton (envelope : EventEnvelope) : notices observers [envelope] =
    observers.map fun observer => (observer, envelope) := by
  simp [notices]

theorem notices_of_cons (first : EventEnvelope) (envelopes : List EventEnvelope) :
    notices observers (first :: envelopes) =
      notices observers [first] ++ notices observers envelopes := by
  rw [← notices_append]
  rfl

/-- Nobody registered, nothing to tell. -/
@[simp] theorem dueAfter_nobody (history : List Observation) : dueAfter [] history = [] := by
  induction history using List.reverseRecOn with
  | nil => rfl
  | append_singleton history observation ih =>
    rw [dueAfter_snoc, ih, owe]
    cases observation.envelope with
    | none => simp
    | some envelope => simp

theorem owe_stored {due : List Notice} (stores : observation.envelope = some envelope) :
    owe observers due observation = due ++ notices observers [envelope] := by
  simp [owe, stores]

theorem owe_told {due : List Notice} (tells : observation.notice = some notice)
    (keeps : observation.envelope = none) : owe observers due observation = due.tail := by
  simp [owe, tells, keeps]

theorem owe_silent {due : List Notice} (silent : observation.notice = none)
    (keeps : observation.envelope = none) : owe observers due observation = due := by
  simp [owe, silent, keeps]

/-- An observation that tells somebody stores nothing. -/
theorem envelope_of_notice (tells : observation.notice = some notice) :
    observation.envelope = none := by
  obtain ⟨op, answer⟩ := observation
  cases op with
  | onEvent => rfl
  | _ => cases tells

theorem appendedTo_snoc : appendedTo threadId (trace ++ [observation]) =
    appendedTo threadId trace ++
      observation.envelope.toList.filter fun envelope => envelope.threadId = threadId := by
  cases stores : observation.envelope <;> simp [appendedTo, storedIn, stores]

theorem toldOf_snoc : toldOf threadId (trace ++ [observation]) =
    toldOf threadId trace ++
      observation.notice.toList.filter fun notice => notice.2.threadId = threadId := by
  cases tells : observation.notice <;> simp [toldOf, toldIn, tells]

/-- Notices of an envelope are about its thread. -/
theorem filter_notices (envelope : EventEnvelope) :
    (notices observers [envelope]).filter (fun notice => notice.2.threadId = threadId) =
      notices observers ([envelope].filter fun envelope => envelope.threadId = threadId) := by
  by_cases same : envelope.threadId = threadId
  · simp [notices_singleton, List.filter_map, Function.comp_def, same]
  · have none : [envelope].filter (fun envelope => envelope.threadId = threadId) = [] := by
      simp [same]
    rw [none]
    simp [notices, same]

end Traces

end Nausicaa.Core
