import Nausicaa.Core.DeliverySpec

/-! # How a turn ends

Read on its own and in any surroundings, a call stores the event that decides a turn only
as the last thing it does under the guard.  Until then none of the events it stored
completes or cancels a turn (`Latest`), and what it returns names the event it stored
last.
-/

namespace Nausicaa.Core

open Interaction (Contract outcome mapError)
open Interaction.Contract (Carries Meets Tries)
open RecoveryState (scanLog)
open Std (TreeSet)

/-- A response of the model. -/
def IsResponse : Observation → Prop
  | ⟨.completeControlled .., .ok _⟩ => True
  | _ => False

/-- The response is the last one in the history. -/
def LastResponse (history : List Observation) (place : Nat) (response : ModelResponse) : Prop :=
  ∃ before request control since,
    history = before ++ ⟨.completeControlled request control, .ok response⟩ :: since ∧
    before.length = place ∧ ∀ observation ∈ since, ¬ IsResponse observation

/-- What was observed since holds no response of the model. -/
def Goes (history history' : List Observation) : Prop :=
  ∃ more, history' = history ++ more ∧ ∀ observation ∈ more, ¬ IsResponse observation

/-- Every reading of the token in the history tells whether the flag was set by then. -/
def Reads (token : CancellationToken) (history : List Observation) (flag : Nat → Prop) : Prop :=
  ∀ place answer, history[place]? = some ⟨.isCancelled token, answer⟩ →
    (answer = true ↔ flag place)

/-- The contract of a call in surroundings that permit everything. -/
def unchecked (rt : AgentRuntime) (call : Call) : Contract Operation Answer Local where
  permit _ _ := True
  step := (contract rt False call).step

/-- A call under the guard of its thread: what it stored is the end of the log, whose last
entries are these events of the turn, and nothing before them ends the turn. -/
structure Latest (threadId : ThreadId) (turnId : TurnId) (events : List RuntimeEvent)
    (state : Local) : Prop where
  guard : state.own.held = .guard threadId
  stored : storedIn state.own.history <:+ state.log
  logged : ∃ before, turnLog state.log = before ++ events.map (fun event => (turnId, event)) ∧
    ¬ Ended before turnId

/-- How a call on a turn stands when it stops with an error under the guard. -/
def Stops (threadId : ThreadId) (turnId : TurnId) : RuntimeError → Local → Prop
  | .store _, state | .receiptPersistenceUnknown .., state =>
    ¬ Ended (turnLog (storedIn state.own.history)) turnId
  | .unknownThread _, _ | .concurrentTurn _, _ => False
  | .duplicateTurn .., state => storedIn state.own.history = []
  | .cancelled turnId', state => turnId' = turnId ∧ Latest threadId turnId [.turnCancelled] state
  | _, state => ∃ reason, Latest threadId turnId [.turnFailed reason] state

/-- How a completed turn stands under the guard: the token was read after the last
response, and was not set. -/
structure Completes (threadId : ThreadId) (turnId : TurnId) (token : CancellationToken)
    (outcome : TurnOutcome) (state : Local) : Prop where
  names : outcome.threadId = threadId ∧ outcome.turnId = turnId
  latest : ∃ usage, Latest threadId turnId [.assistantMessage outcome.content [] .endTurn usage,
    .turnCompleted outcome.content] state
  response : ∃ place response, LastResponse state.own.history place response ∧
    response.content = outcome.content ∧ response.toolCalls = [] ∧ response.stopReason = .endTurn ∧
    ∃ later, place < later ∧ state.own.history[later]? = some ⟨.isCancelled token, false⟩

section Latest

variable {rt : AgentRuntime} {call : Call} {threadId : ThreadId} {turnId : TurnId}
variable {events : List RuntimeEvent} {event : RuntimeEvent} {state : Local}
variable {envelope : EventEnvelope} {observations : List Observation} {observation : Observation}

theorem storedIn_append (first second : List Observation) :
    storedIn (first ++ second) = storedIn first ++ storedIn second :=
  List.filterMap_append

theorem storedIn_silent (silent : ∀ observation ∈ observations, observation.envelope = none) :
    storedIn observations = [] := by
  rw [storedIn, List.filterMap_eq_nil_iff]
  exact silent

/-- Observations that store nothing. -/
theorem Latest.observe (latest : Latest threadId turnId events state)
    (silent : ∀ observation ∈ observations, observation.envelope = none) :
    Latest threadId turnId events (state.extend [] observations) where
  guard := latest.guard
  stored := by
    rw [Local.extend_history, storedIn_append, storedIn_silent silent, List.append_nil]
    simpa using latest.stored
  logged := by simpa using latest.logged

theorem storedIn_store (stores : observation.envelope = some envelope)
    (latest : storedIn state.own.history <:+ state.log) :
    storedIn (state.extend [envelope] [observation]).own.history <:+
      (state.extend [envelope] [observation]).log := by
  obtain ⟨base, log⟩ := latest
  refine ⟨base, ?_⟩
  rw [Local.extend_history, storedIn_append, Local.extend_log, ← log]
  simp [storedIn, stores]

/-- One more event of the turn. -/
theorem Latest.store (latest : Latest threadId turnId events state)
    (tagged : envelope.turnId = some turnId) (same : envelope.event = event)
    (stores : observation.envelope = some envelope) :
    Latest threadId turnId (events ++ [event]) (state.extend [envelope] [observation]) where
  guard := latest.guard
  stored := storedIn_store stores latest.stored
  logged := by
    obtain ⟨before, split, open_⟩ := latest.logged
    refine ⟨before, ?_, open_⟩
    simp [split, turnLog_singleton tagged same]

/-- An event of another turn, as recovery stores them. -/
theorem Latest.other {turnId' : TurnId} (latest : Latest threadId turnId [] state)
    (tagged : envelope.turnId = some turnId') (other : turnId' ≠ turnId)
    (stores : observation.envelope = some envelope) :
    Latest threadId turnId [] (state.extend [envelope] [observation]) where
  guard := latest.guard
  stored := storedIn_store stores latest.stored
  logged := by
    obtain ⟨before, split, open_⟩ := latest.logged
    refine ⟨before ++ [(turnId', envelope.event)], ?_, ?_⟩
    · simpa [turnLog_singleton tagged rfl] using split
    · intro ended
      cases ended_snoc.mp ended with
      | inl earlier => exact open_ earlier
      | inr last => exact other last.1.symm

/-- Events that do not end the turn need not be kept apart. -/
theorem Latest.forget (latest : Latest threadId turnId events state)
    (plain : ∀ event ∈ events, ¬ event.IsTerminal) : Latest threadId turnId [] state where
  guard := latest.guard
  stored := latest.stored
  logged := by
    obtain ⟨before, split, open_⟩ := latest.logged
    refine ⟨turnLog state.log, by simp, ?_⟩
    rw [split]
    intro ended
    obtain ⟨event, member, terminal⟩ := ended
    cases List.mem_append.mp member with
    | inl earlier => exact open_ ⟨event, earlier, terminal⟩
    | inr later =>
      obtain ⟨event', known, same⟩ := List.mem_map.mp later
      cases same
      exact plain _ known terminal

/-- Until the turn has ended the call stored nothing that ends it. -/
theorem Latest.unended (latest : Latest threadId turnId [] state) :
    ¬ Ended (turnLog (storedIn state.own.history)) turnId := by
  obtain ⟨before, split, open_⟩ := latest.logged
  obtain ⟨base, log⟩ := latest.stored
  intro ended
  obtain ⟨event, member, terminal⟩ := ended
  refine open_ ⟨event, ?_, terminal⟩
  rw [List.map_nil, List.append_nil] at split
  rw [← split, ← log, turnLog_append]
  exact List.mem_append_right _ member

theorem Latest.one (latest : Latest threadId turnId [event] state)
    (plain : ¬ event.IsTerminal) : Latest threadId turnId [] state := by
  apply latest.forget
  intro event' member
  rw [List.mem_singleton.mp member]
  exact plain

theorem Stops.failed {error : RuntimeError} {reason : String} (fails : error.FailsTurn)
    (latest : Latest threadId turnId [.turnFailed reason] state) :
    Stops threadId turnId error state := by
  cases error <;> first | exact fails.elim | exact ⟨reason, latest⟩

end Latest

/-! ## One operation -/

section Operations

variable {rt : AgentRuntime} {call : Call} {state : Local} {α : Type} {ε : Type} {op : Operation}
variable {threadId : ThreadId} {turnId : TurnId} {event : RuntimeEvent}
variable {events : List RuntimeEvent}

theorem perform_unchecked {ok : Answer op → Local → Prop} {failed : ε → Local → Prop}
    (answered : ∀ answer state', effect False state op answer state' →
      ok answer (state'.extend [] [⟨op, answer⟩])) :
    (unchecked rt call).Tries (perform op) ok failed state := by
  apply Tries.request trivial
  intro answer state' step
  obtain ⟨state'', effect, same⟩ := step
  subst same
  exact answered answer state'' effect

theorem envelope_seam (seam : op.IsSeam) (answer : Answer op) :
    Observation.envelope ⟨op, answer⟩ = none := by
  cases op with
  | storeAppend => exact seam.elim
  | _ => rfl

/-- A seam of the runtime leaves the thread as it is. -/
theorem seam_unchecked {ok : Answer op → Local → Prop} {failed : ε → Local → Prop}
    (seam : op.IsSeam) (answered : ∀ answer, ok answer (state.extend [] [⟨op, answer⟩])) :
    (unchecked rt call).Tries (perform op) ok failed state := by
  apply perform_unchecked
  intro answer state' effect
  have same := effect_seam seam effect
  subst same
  exact answered answer

theorem carries_perform {failed : ε → Local → Prop} (op : Operation) (seam : op.IsSeam) :
    (unchecked rt call).Carries (Latest threadId turnId events) failed
      (perform op : Attempt ε (Answer op)) := by
  intro state latest
  apply seam_unchecked seam
  intro answer
  apply latest.observe
  intro observation member
  rw [List.mem_singleton.mp member]
  exact envelope_seam seam answer

/-- Telling observers adds notes to the history. -/
theorem notifyEach_unchecked {envelope : EventEnvelope} {observers : List EventObserver}
    {ok : Unit → Local → Prop} {failed : RuntimeError → Local → Prop}
    (told : ∀ notes, (∀ observation ∈ notes, IsNote observation) → ok () (state.extend [] notes)) :
    (unchecked rt call).Tries (AgentRuntime.notifyEach envelope observers) ok failed state := by
  induction observers generalizing state with
  | nil =>
    apply Tries.pure
    simpa using told [] (by simp)
  | cons observer observers ih =>
    apply Tries.bind
    apply perform_unchecked
    intro answer state' same
    have same : state' = state := same
    subst same
    apply ih
    intro notes all
    rw [Local.extend_extend]
    apply told
    intro observation member
    cases List.mem_cons.mp member with
    | inl first => rw [first]; trivial
    | inr rest => exact all observation rest

/-- An append either stores its event at the end of the log and tells observers, or
stores nothing. -/
theorem append_unchecked {ok : EventEnvelope → Local → Prop}
    {failed : RuntimeError → Local → Prop} (guard : state.own.held = .guard threadId)
    (stored : ∀ envelope notes, envelope.turnId = some turnId → envelope.event = event →
      (∀ observation ∈ notes, IsNote observation) →
      ok envelope (state.extend [envelope]
        (⟨.storeAppend threadId (some turnId) event, .ok envelope⟩ :: notes)))
    (refused : ∀ source, failed (.store source)
      (state.extend [] [⟨.storeAppend threadId (some turnId) event, .error source⟩])) :
    (unchecked rt call).Tries (rt.append threadId (some turnId) event) ok failed state := by
  apply Tries.bind
  apply perform_unchecked
  intro answer state' effect
  cases answer with
  | error source =>
    have same : state' = state := effect
    subst same
    exact Tries.throw (refused source)
  | ok envelope =>
    obtain ⟨⟨_, tagged, same⟩, pushed, _⟩ := effect
    rw [pushed guard]
    apply Tries.bind
    apply notifyEach_unchecked
    intro notes all
    apply Tries.pure
    have extended := stored envelope notes tagged same all
    simpa [Local.extend] using extended

theorem envelope_note {observation : Observation} (note : IsNote observation) :
    observation.envelope = none := by
  obtain ⟨op, answer⟩ := observation
  cases op with
  | onEvent observer envelope => rfl
  | _ => exact note.elim

theorem isResponse_note {observation : Observation} (note : IsNote observation) :
    ¬ IsResponse observation := by
  obtain ⟨op, answer⟩ := observation
  cases op with
  | onEvent observer envelope => exact id
  | _ => exact note.elim

/-- The event becomes the latest one. -/
theorem append_latest {ok : EventEnvelope → Local → Prop} {failed : RuntimeError → Local → Prop}
    (latest : Latest threadId turnId events state)
    (stored : ∀ envelope state', Latest threadId turnId (events ++ [event]) state' →
      Goes state.own.history state'.own.history → ok envelope state')
    (refused : ∀ source state', Latest threadId turnId events state' →
      failed (.store source) state') :
    (unchecked rt call).Tries (rt.append threadId (some turnId) event) ok failed state := by
  apply append_unchecked latest.guard
  · intro envelope notes tagged same all
    apply stored
    · have stores : Observation.envelope
          ⟨.storeAppend threadId (some turnId) event, .ok envelope⟩ = some envelope := rfl
      have pushed := latest.store tagged same stores
      have observed := pushed.observe fun observation member =>
        envelope_note (all observation member)
      simpa using observed
    · refine ⟨_, rfl, ?_⟩
      intro observation member
      cases List.mem_cons.mp member with
      | inl first => rw [first]; exact id
      | inr rest => exact isResponse_note (all observation rest)
  · intro source
    apply refused
    apply latest.observe
    intro observation member
    rw [List.mem_singleton.mp member]
    rfl

end Operations

/-! ## The code of a turn -/

section Turns

variable {rt : AgentRuntime} {call : Call} {turn : Turn} {iteration : Nat} {α : Type}
variable {threadId : ThreadId} {turnId : TurnId} {event : RuntimeEvent} {state : Local}

/-- Code under the guard that goes on only while nothing is decided. -/
abbrev Proceeds (rt : AgentRuntime) (call : Call) (threadId : ThreadId) (turnId : TurnId)
    (code : Attempt RuntimeError α) : Prop :=
  (unchecked rt call).Carries (Latest threadId turnId []) (Stops threadId turnId) code

theorem proceeds_append (plain : ¬ event.IsTerminal) :
    Proceeds rt call threadId turnId (rt.append threadId (some turnId) event) := by
  intro state latest
  apply append_latest latest
  · intro envelope state' latest' _
    exact latest'.one plain
  · intro source state' latest'
    exact latest'.unended

/-- A turn that is failed stops with an error of that kind. -/
theorem failTurn_stops {ok : α → Local → Prop} {error : RuntimeError} {reason : String}
    (fails : error.FailsTurn) (latest : Latest threadId turnId [] state) :
    (unchecked rt call).Tries (do
      rt.failTurn threadId turnId reason
      throw error : Attempt RuntimeError α) ok (Stops threadId turnId) state := by
  apply Tries.bind
  apply Tries.bind
  apply append_latest latest
  · intro envelope state' latest' _
    apply Tries.pure
    exact Tries.throw (Stops.failed fails latest')
  · intro source state' latest'
    exact latest'.unended

theorem turnCancelled_stops {ok : α → Local → Prop} (latest : Latest threadId turnId [] state) :
    (unchecked rt call).Tries (do
      let _ ← rt.append threadId (some turnId) .turnCancelled
      throw (.cancelled turnId) : Attempt RuntimeError α) ok (Stops threadId turnId) state := by
  apply Tries.bind
  apply append_latest latest
  · intro envelope state' latest' _
    exact Tries.throw ⟨rfl, latest'⟩
  · intro source state' latest'
    exact latest'.unended

/-- A turn goes on only while nothing has ended it. -/
theorem endRules : TurnRules (unchecked rt call) rt turn (Latest turn.threadId turn.turnId [])
    (Stops turn.threadId turn.turnId) where
  seam op seam _ := carries_perform op seam
  append _ plain := proceeds_append plain
  lost _ _ _ _ stops := stops
  fail _ _ _ fails _ latest := failTurn_stops fails latest
  cancel _ _ latest := turnCancelled_stops latest

theorem loadThread_unchecked {ok : List EventEnvelope → Local → Prop}
    {failed : RuntimeError → Local → Prop}
    (loaded : ∀ events, (state.own.held = .guard threadId → events = state.log) →
      ok events (state.extend [] [⟨.loadThread threadId, .ok events⟩]))
    (unavailable : ∀ source,
      failed (.store source) (state.extend [] [⟨.loadThread threadId, .error source⟩])) :
    (unchecked rt call).Tries (AgentRuntime.loadThread threadId) ok failed state := by
  apply Tries.bind
  apply perform_unchecked
  intro answer state' effect
  cases answer with
  | error source =>
    have same : state' = state := effect
    subst same
    exact Tries.throw (unavailable source)
  | ok events =>
    obtain ⟨same, current⟩ := effect
    subst same
    exact Tries.pure (loaded events current)

theorem silent_load (answer : Except StoreError (List EventEnvelope)) :
    ∀ observation ∈ ([⟨.loadThread threadId, answer⟩] : List Observation),
      observation.envelope = none := by
  intro observation member
  rw [List.mem_singleton.mp member]
  rfl

theorem proceeds_loadThread : Proceeds rt call threadId turnId
    (AgentRuntime.loadThread threadId) := by
  intro state latest
  apply loadThread_unchecked
  · intro events _
    exact latest.observe (silent_load _)
  · intro source
    exact (latest.observe (silent_load _)).unended

/-- A turn that goes on from here completes or stops as it should. -/
def Concludes (rt : AgentRuntime) (call : Call) (turn : Turn)
    (code : Attempt RuntimeError TurnOutcome) : Prop :=
  ∀ state, Latest turn.threadId turn.turnId [] state →
    (unchecked rt call).Tries code (Completes turn.threadId turn.turnId turn.cancellation)
      (Stops turn.threadId turn.turnId) state

theorem Concludes.proceed {β : Type} {code : Attempt RuntimeError β}
    {next : β → Attempt RuntimeError TurnOutcome}
    (proceeds : Proceeds rt call turn.threadId turn.turnId code)
    (concludes : ∀ value, Concludes rt call turn (next value)) :
    Concludes rt call turn (code >>= next) := by
  intro state latest
  exact Carries.then_tries proceeds concludes latest

theorem Concludes.ask (op : Operation) (seam : op.IsSeam)
    {next : Answer op → Attempt RuntimeError TurnOutcome}
    (concludes : ∀ answer, Concludes rt call turn (next answer)) :
    Concludes rt call turn (perform op >>= next) :=
  Concludes.proceed (carries_perform op seam) concludes

theorem Concludes.cancel {calls : List ToolCall} :
    Concludes rt call turn (rt.cancelTurn turn.threadId turn.turnId calls) :=
  Concludes.proceed endRules.denyCalls fun _ _ latest => turnCancelled_stops latest

theorem Concludes.fail {error : RuntimeError} {reason : String} (fails : error.FailsTurn) :
    Concludes rt call turn (do rt.failTurn turn.threadId turn.turnId reason; throw error) :=
  fun _ latest => failTurn_stops fails latest

theorem LastResponse.go {history history' : List Observation} {place : Nat}
    {response : ModelResponse} (last : LastResponse history place response)
    (goes : Goes history history') : LastResponse history' place response := by
  obtain ⟨before, request, control, since, rfl, counted, none⟩ := last
  obtain ⟨more, rfl, none'⟩ := goes
  refine ⟨before, request, control, since ++ more, by simp, counted, ?_⟩
  intro observation member
  cases List.mem_append.mp member with
  | inl earlier => exact none observation earlier
  | inr later => exact none' observation later

theorem LastResponse.lt_length {history : List Observation} {place : Nat}
    {response : ModelResponse} (last : LastResponse history place response) :
    place < history.length := by
  obtain ⟨before, request, control, since, rfl, counted, _⟩ := last
  simp only [List.length_append, List.length_cons]
  omega

/-- The end of a turn: the reply is stored, the token read, and the turn completed. -/
theorem completion_concludes {response : ModelResponse} {place : Nat}
    {calls : Attempt RuntimeError TurnOutcome}
    (latest : Latest turn.threadId turn.turnId [] state)
    (last : LastResponse state.own.history place response)
    (proper : stopError turn.turnId response = none)
    (handled : response.toolCalls.isEmpty = false → Concludes rt call turn calls) :
    (unchecked rt call).Tries (do
      let _ ← rt.append turn.threadId (some turn.turnId)
        (.assistantMessage response.content response.toolCalls response.stopReason response.usage)
      if ← perform (.isCancelled turn.cancellation) then
        rt.cancelTurn turn.threadId turn.turnId response.toolCalls
      else if response.toolCalls.isEmpty then
        let _ ← rt.append turn.threadId (some turn.turnId) (.turnCompleted response.content)
        return ⟨turn.threadId, turn.turnId, response.content, iteration + 1⟩
      else calls) (Completes turn.threadId turn.turnId turn.cancellation)
      (Stops turn.threadId turn.turnId) state := by
  have plain : ∀ event ∈ ([.assistantMessage response.content response.toolCalls
      response.stopReason response.usage] : List RuntimeEvent), ¬ event.IsTerminal := by
    intro event member
    rw [List.mem_singleton.mp member]
    exact id
  apply Tries.bind
  apply append_latest latest
  · intro envelope told message goes
    have last := last.go goes
    have seam : (Operation.isCancelled turn.cancellation).IsSeam := trivial
    apply Tries.bind
    apply seam_unchecked seam
    intro cancelled
    have silent : ∀ observation ∈
        ([⟨.isCancelled turn.cancellation, cancelled⟩] : List Observation),
        observation.envelope = none := by
      intro observation member
      rw [List.mem_singleton.mp member]
      rfl
    have message := message.observe silent
    cases cancelled with
    | true => exact Concludes.cancel _ (message.forget plain)
    | false =>
      by_cases finished : response.toolCalls.isEmpty = true
      · simp only [finished, ↓reduceIte]
        have empty : response.toolCalls = [] := List.isEmpty_iff.mp finished
        apply Tries.bind
        apply append_latest message
        · intro envelope' ended completed goes'
          apply Tries.pure
          have read : Goes told.own.history (told.extend []
              [⟨.isCancelled turn.cancellation, false⟩]).own.history :=
            ⟨_, rfl, fun observation member => by rw [List.mem_singleton.mp member]; exact id⟩
          have early := last.lt_length
          have last := (last.go read).go goes'
          obtain ⟨more, grown, _⟩ := goes'
          have endTurn : response.stopReason = .endTurn := by
            rw [stopError_eq_none proper, finished]
            rfl
          exact {
            names := ⟨rfl, rfl⟩
            latest := ⟨response.usage, by simpa [empty, endTurn] using completed⟩
            response := ⟨place, response, last, rfl, empty, endTurn, told.own.history.length,
              early, by simp [grown]⟩ }
        · intro source state' latest'
          exact (latest'.forget plain).unended
      · have some : response.toolCalls.isEmpty = false := by simpa using finished
        simp only [some]
        exact handled some _ (message.forget plain)
  · intro source state' latest'
    exact latest'.unended

theorem respond_concludes {transcript : List TranscriptMessage} {seen : TreeSet CallId}
    {response : ModelResponse} {place : Nat}
    {next : List TranscriptMessage → TreeSet CallId → Attempt RuntimeError TurnOutcome}
    (latest : Latest turn.threadId turn.turnId [] state)
    (last : LastResponse state.own.history place response)
    (continues : ∀ transcript seen, Concludes rt call turn (next transcript seen)) :
    (unchecked rt call).Tries (rt.respond turn iteration transcript seen response next)
      (Completes turn.threadId turn.turnId turn.cancellation)
      (Stops turn.threadId turn.turnId) state := by
  unfold AgentRuntime.respond
  split
  · exact failTurn_stops trivial latest
  · dsimp only
    cases stopped : stopError turn.turnId response with
    | some error =>
      simp only
      have concludes : Concludes rt call turn (do
          let _ ← rt.append turn.threadId (some turn.turnId) (.assistantMessage response.content
            response.toolCalls response.stopReason response.usage)
          rt.denyCalls turn.threadId turn.turnId error.toString response.toolCalls
          rt.failTurn turn.threadId turn.turnId error.toString
          throw error) := by
        apply Concludes.proceed (proceeds_append id)
        intro _
        apply Concludes.proceed endRules.denyCalls
        intro _
        exact Concludes.fail (stopError_fails stopped)
      exact concludes state latest
    | none =>
      simp only
      apply completion_concludes latest last stopped
      intro _
      apply Concludes.proceed endRules.runToolCalls
      intro transcript
      exact continues _ _

theorem requestModel_concludes {compiled : CompiledContext}
    {received : ModelResponse → Attempt RuntimeError TurnOutcome}
    (continues : ∀ response place state, Latest turn.threadId turn.turnId [] state →
      LastResponse state.own.history place response →
      (unchecked rt call).Tries (received response)
        (Completes turn.threadId turn.turnId turn.cancellation)
        (Stops turn.threadId turn.turnId) state) :
    Concludes rt call turn (rt.requestModel turn iteration compiled received) := by
  apply Concludes.proceed (proceeds_append id)
  intro _
  apply Concludes.proceed (proceeds_append id)
  intro _ state latest
  let request : ModelRequest :=
    ⟨turn.threadId, turn.turnId, iteration, compiled, turn.visibleTools⟩
  let control : ModelControl := ⟨turn.cancellation, rt.modelObserver⟩
  have seam : (Operation.completeControlled request control).IsSeam := trivial
  apply Tries.bind
  apply seam_unchecked seam
  intro answer
  have latest : Latest turn.threadId turn.turnId []
      (state.extend [] [⟨.completeControlled request control, answer⟩]) := by
    apply latest.observe
    intro observation member
    rw [List.mem_singleton.mp member]
    rfl
  cases answer with
  | error error =>
    have concludes : Concludes rt call turn (do
        if ← perform (.isCancelled turn.cancellation) then
          rt.cancelTurn turn.threadId turn.turnId []
        else
          rt.failTurn turn.threadId turn.turnId error.toString
          throw (.model error)) := by
      apply Concludes.ask (.isCancelled _) trivial
      intro cancelled
      cases cancelled with
      | true => exact Concludes.cancel
      | false => exact Concludes.fail trivial
    exact concludes _ latest
  | ok response =>
    exact continues response _ _ latest
      ⟨state.own.history, request, control, [], rfl, rfl, by simp⟩

theorem turnLoop_concludes {remaining : Nat} {transcript : List TranscriptMessage}
    {seen : TreeSet CallId} :
    Concludes rt call turn (rt.turnLoop turn remaining iteration transcript seen) := by
  induction remaining generalizing iteration transcript seen with
  | zero => exact Concludes.fail trivial
  | succ remaining ih =>
    apply Concludes.ask (.isCancelled _) trivial
    intro cancelled
    cases cancelled with
    | true => exact Concludes.cancel
    | false =>
      apply Concludes.ask (.compile _) trivial
      intro answer
      cases answer with
      | error error => exact Concludes.fail trivial
      | ok compiled =>
        apply Concludes.proceed (TurnRules.hooks fun hook =>
          carries_perform (.beforeModel ..) trivial)
        intro accepted
        cases accepted with
        | error error =>
          apply Concludes.proceed endRules.recordHookFailure
          intro _
          exact Concludes.fail trivial
        | ok =>
          apply requestModel_concludes
          intro response place state latest last
          apply respond_concludes latest last
          intro transcript seen
          exact ih

end Turns

/-! ## The turn under its guard -/

section Guarded

variable {rt : AgentRuntime} {call : Call} {threadId : ThreadId} {turnId : TurnId}
variable {state : Local}

theorem proceeds_notifyFrom {before : Nat} {envelopes : List EventEnvelope} :
    Proceeds rt call threadId turnId (rt.notifyFrom before envelopes) := by
  induction envelopes with
  | nil => exact Carries.pure _
  | cons envelope envelopes ih =>
    unfold AgentRuntime.notifyFrom
    split
    · apply Carries.bind _ fun _ => ih
      intro state latest
      apply notifyEach_unchecked
      intro notes all
      exact latest.observe fun observation member => envelope_note (all observation member)
    · exact ih

/-- Recovery stores events of other turns only. -/
theorem appendAll_others {entries : TurnLog} (others : ∀ entry ∈ entries, entry.1 ≠ turnId) :
    (unchecked rt call).Carries (Latest threadId turnId []) (fun _ => Latest threadId turnId [])
      (appendAll threadId entries) := by
  induction entries with
  | nil => exact Carries.pure _
  | cons entry entries ih =>
    apply Carries.bind _ fun _ => ih fun later member => others later (List.mem_cons_of_mem _ member)
    intro state latest
    apply Tries.bind
    apply perform_unchecked
    intro answer state' effect
    cases answer with
    | error source =>
      have same : state' = state := effect
      subst same
      apply Tries.throw
      apply latest.observe
      intro observation member
      rw [List.mem_singleton.mp member]
      rfl
    | ok envelope =>
      obtain ⟨⟨_, tagged, _⟩, pushed, _⟩ := effect
      rw [pushed latest.guard]
      have stores : Observation.envelope
          ⟨.storeAppend threadId (some entry.1) entry.2, .ok envelope⟩ = some envelope := rfl
      have stored := latest.other tagged (others entry List.mem_cons_self) stores
      apply Tries.pure
      simpa [Local.extend] using stored

/-- Recovery before a turn that does not occur yet. -/
theorem recoverThread_others (latest : Latest threadId turnId [] state)
    (unused : ¬ Occurs (turnLog state.log) turnId) :
    (unchecked rt call).Tries (recoverThread threadId) (fun _ => Latest threadId turnId [])
      (fun _ => Latest threadId turnId []) state := by
  rw [recoverThread_eq]
  apply Tries.bind
  apply perform_unchecked
  intro answer state' effect
  cases answer with
  | error source =>
    have same : state' = state := effect
    subst same
    exact Tries.throw (latest.observe (silent_load _))
  | ok events =>
    obtain ⟨same, current⟩ := effect
    subst same
    rw [current latest.guard]
    have others : ∀ entry ∈ (scanLog (turnLog state'.log)).plan, entry.1 ≠ turnId := by
      intro entry member same
      exact unused (same ▸ RecoveryState.occurs_of_plan member)
    apply Carries.then_tries (appendAll_others others)
    · intro _ state'' latest'
      exact Tries.pure latest'
    · exact latest.observe (silent_load _)

theorem recoverExclusive_others (latest : Latest threadId turnId [] state)
    (unused : ¬ Occurs (turnLog state.log) turnId) :
    (unchecked rt call).Tries (rt.recoverExclusive threadId)
      (fun _ => Latest threadId turnId []) (Stops threadId turnId) state := by
  apply Tries.bind
  apply loadThread_unchecked
  · intro events _
    have loaded : Latest threadId turnId []
        (state.extend [] [⟨.loadThread threadId, .ok events⟩]) := latest.observe (silent_load _)
    apply Tries.bind
    apply Tries.mapError
    apply Tries.mono (recoverThread_others loaded (by simpa using unused))
    · intro report recovered latest'
      split
      · exact Tries.pure latest'
      · apply Carries.then_tries proceeds_loadThread _ latest'
        intro events reloaded latest'
        apply Carries.then_tries proceeds_notifyFrom _ latest'
        intro _ notified latest'
        exact Tries.pure latest'
    · intro error state' latest'
      exact latest'.unended
  · intro source
    exact (latest.observe (silent_load _)).unended

/-- A turn id that occurs stops the call before it stores anything; otherwise the turn
runs, and completes or stops as it should. -/
theorem runTurnExclusive_concludes {input : String} {cancellation : CancellationToken}
    (guard : state.own.held = .guard threadId) (nothing : storedIn state.own.history = []) :
    (unchecked rt call).Tries (rt.runTurnExclusive threadId turnId input cancellation)
      (Completes threadId turnId cancellation) (Stops threadId turnId) state := by
  have still : ∀ answer : Except StoreError (List EventEnvelope), storedIn
      (state.extend [] [⟨.loadThread threadId, answer⟩]).own.history = [] := by
    intro answer
    rw [Local.extend_history, storedIn_append, nothing, storedIn_silent (silent_load _)]
    rfl
  apply Tries.bind
  apply Tries.bind
  apply loadThread_unchecked
  · intro events current
    rw [current guard]
    split
    next used => exact Tries.throw (still _)
    next unused =>
      have absent : ¬ Occurs (turnLog state.log) turnId := by
        intro occurs
        obtain ⟨event, member⟩ := occurs
        obtain ⟨envelope, known, tagged⟩ := List.mem_filterMap.mp member
        obtain ⟨turn, same, entry⟩ := Option.map_eq_some_iff.mp tagged
        cases entry
        refine unused (List.any_eq_true.mpr ⟨envelope, known, ?_⟩)
        simpa using same
      have latest : Latest threadId turnId []
          (state.extend [] [⟨.loadThread threadId, .ok state.log⟩]) := {
        guard := guard
        stored := by rw [still]; exact List.nil_suffix
        logged := by
          refine ⟨turnLog state.log, by simp, ?_⟩
          intro ended
          obtain ⟨event, member, _⟩ := ended
          exact absent ⟨event, member⟩ }
      apply Tries.pure
      apply Tries.bind
      apply Tries.mono (recoverExclusive_others latest (by simpa using absent))
      · intro report state' latest'
        let turn : Turn := {
          threadId, turnId, cancellation
          capabilities := rt.capabilities
          visibleNames := rt.capabilities.visibleNames
          visibleTools := rt.tools.definitionsFor rt.capabilities.visibleNames }
        have served : Concludes rt call turn (do
            let _ ← rt.append threadId (some turnId) .turnStarted
            let _ ← rt.append threadId (some turnId) (.userMessage input)
            let events ← AgentRuntime.loadThread threadId
            rt.turnLoop turn rt.config.maxModelIterations 0 (transcriptFromEvents events) ∅) := by
          apply Concludes.proceed (proceeds_append id)
          intro _
          apply Concludes.proceed (proceeds_append id)
          intro _
          apply Concludes.proceed proceeds_loadThread
          intro events
          exact turnLoop_concludes
        exact served state' latest'
      · intro error state' stops
        exact stops
  · intro source
    have stored := still (.error source)
    show ¬ Ended (turnLog (storedIn _)) turnId
    rw [stored]
    intro ended
    obtain ⟨event, member, _⟩ := ended
    cases member

end Guarded

end Nausicaa.Core
