import Nausicaa.Core.Contract
import Nausicaa.Core.InTurn

/-! # Serving a turn

The state of a call between two of its operations while it holds its thread, and the
rules for the steps every part of a turn is made of: asking a seam, appending an
event and telling the observers.
-/

namespace Nausicaa.Core

open Interaction (Adjacent Contract)
open Interaction.Contract (Meets Tries)
open Std (TreeSet)

/-! ## Histories of calls that may go on -/

/-- No append failed and the call was not rejected. -/
structure Progressing (call : Call) (history : List Observation) : Prop where
  calm : Calm history
  notActive : ∀ threadId, ¬ FoundActive history threadId
  newTurn : ∀ threadId turnId, call.Serves threadId turnId → ¬ FoundTurn history threadId turnId
  checked : ∀ observation, history.getLast? = some observation → ¬ IsInsert observation

/-- Nothing that happened keeps the call from going on: it progresses, and no
execution still waits for its receipt. -/
structure Unhindered (call : Call) (history : List Observation) : Prop
    extends Progressing call history where
  recorded : ∀ observation, history.getLast? = some observation → ¬ IsExecution observation

section Histories

variable {call : Call} {history more : List Observation} {op : Operation}
variable {observation : Observation} {prepared : PreparedToolCall} {source : StoreError}

theorem isQuiet_note (note : IsNote observation) : IsQuiet observation := by
  obtain ⟨op, answer⟩ := observation
  cases op with
  | onEvent observer envelope => exact ⟨id, id, id⟩
  | _ => exact note.elim

theorem Unhindered.not_executing (unhindered : Unhindered call history)
    {context : ToolExecutionContext} : ¬ Executing history prepared context := by
  intro ⟨tool, answer, last⟩
  exact unhindered.recorded _ last trivial

/-- An unhindered call may ask anything but for another guard. -/
theorem Unhindered.orderly (unhindered : Unhindered call history)
    (other : ∀ threadId, op ≠ .activeInsert threadId) : Orderly call history op where
  acquires threadId same := absurd same (other threadId)
  appends _ := ⟨unhindered.notActive, unhindered.newTurn⟩
  outward _ := unhindered.calm
  records _ _ executing := absurd executing unhindered.not_executing

theorem foundTurn_snoc {threadId : ThreadId} {turnId : TurnId} {last : Observation}
    (checked : ∀ observation, history.getLast? = some observation → ¬ IsInsert observation)
    (found : FoundTurn (history ++ [last]) threadId turnId) : FoundTurn history threadId turnId := by
  obtain ⟨events, adjacent, used⟩ := found
  cases Adjacent.snoc_iff.mp adjacent with
  | inl earlier => exact ⟨events, earlier, used⟩
  | inr ends => exact absurd trivial (checked _ ends.1)

theorem Progressing.snoc (progressing : Progressing call history) (kept : ¬ IsInsert observation)
    (stored : ¬ IsFailedAppend observation) : Progressing call (history ++ [observation]) where
  calm := by
    intro observation' member
    cases List.mem_append.mp member with
    | inl earlier => exact progressing.calm observation' earlier
    | inr last => rw [List.mem_singleton.mp last]; exact stored
  notActive threadId found := by
    cases List.mem_append.mp found with
    | inl earlier => exact progressing.notActive threadId earlier
    | inr last => rw [← List.mem_singleton.mp last] at kept; exact kept trivial
  newTurn threadId turnId serves found :=
    progressing.newTurn threadId turnId serves (foundTurn_snoc progressing.checked found)
  checked observation' last := by
    have same : observation = observation' := by simpa using last
    exact same ▸ kept

theorem Progressing.unhindered (progressing : Progressing call history)
    (quiet : IsQuiet observation) : Unhindered call (history ++ [observation]) where
  toProgressing := progressing.snoc quiet.1 quiet.2.2
  recorded observation' last := by
    have same : observation = observation' := by simpa using last
    exact same ▸ quiet.2.1

theorem Unhindered.extend (unhindered : Unhindered call history)
    (quiet : ∀ observation ∈ more, IsQuiet observation) : Unhindered call (history ++ more) := by
  induction more using List.reverseRecOn with
  | nil => simpa using unhindered
  | append_singleton before last ih =>
    rw [← List.append_assoc]
    refine (ih ?_).unhindered (quiet last (by simp))
    intro observation member
    exact quiet observation (List.mem_append_left _ member)

theorem lostReceipt_snoc {last : Observation} (lost : LostReceipt (history ++ [last]) prepared source) :
    LostReceipt history prepared source ∨
      ((∃ context, Executing history prepared context) ∧
        ∃ threadId turnId event, last = ⟨.storeAppend threadId turnId event, .error source⟩) := by
  obtain ⟨tool, context, answer, threadId, turnId, event, adjacent⟩ := lost
  cases Adjacent.snoc_iff.mp adjacent with
  | inl earlier => exact .inl ⟨tool, context, answer, threadId, turnId, event, earlier⟩
  | inr ends => exact .inr ⟨⟨context, tool, answer, ends.1⟩, threadId, turnId, event, ends.2.symm⟩

/-- Without an execution no receipt can be lost. -/
theorem Unhindered.not_lost_snoc {last : Observation} (unhindered : Unhindered call history) :
    ¬ LostReceipt (history ++ [last]) prepared source := by
  intro lost
  cases lostReceipt_snoc lost with
  | inl earlier =>
    obtain ⟨_, _, _, _, _, _, adjacent⟩ := earlier
    exact unhindered.calm _ adjacent.second_mem trivial
  | inr ends =>
    obtain ⟨⟨context, executing⟩, _⟩ := ends
    exact unhindered.not_executing executing

theorem not_executing_snoc {context : ToolExecutionContext} {last : Observation}
    (other : ¬ IsExecution last) : ¬ Executing (history ++ [last]) prepared context := by
  intro ⟨tool, answer, ends⟩
  have same : last = ⟨.execute tool prepared context, answer⟩ := by simpa using ends
  rw [same] at other
  exact other trivial

theorem Calm.not_lost (calm : Calm history) : ¬ LostReceipt history prepared source := by
  intro ⟨_, _, _, _, _, _, adjacent⟩
  exact calm _ adjacent.second_mem trivial

end Histories

/-! ## States of a call that serves a turn -/

/-- Between two steps of a turn: `seen` covers the ids accepted so far, `waiting` are
the calls without a receipt, and `transcript` is what the log shows. -/
structure Serving (call : Call) (threadId : ThreadId) (turnId : TurnId) (stop : StopReason)
    (seen : TreeSet CallId) (waiting : List ToolCall) (transcript : List TranscriptMessage) (state : Local) : Prop where
  guard : state.own.held = .guard threadId
  unhindered : Unhindered call state.own.history
  inTurn : InTurn (turnLog state.log) turnId stop waiting none
  seen : ∀ toolCall, Accepted (turnLog state.log) turnId toolCall → toolCall.id ∈ seen
  shown : transcriptFromEvents state.log = transcript

/-- The turn was just ended by `event`. -/
structure Closed (call : Call) (threadId : ThreadId) (turnId : TurnId) (event : RuntimeEvent)
    (state : Local) : Prop where
  guard : state.own.held = .guard threadId
  unhindered : Unhindered call state.own.history
  ends : (turnLog state.log).getLast? = some (turnId, event)

/-- What an error says about a call that still holds its thread. -/
structure Stopped (call : Call) (threadId : ThreadId) (error : RuntimeError) (state : Local) :
    Prop where
  guard : state.own.held = .guard threadId
  notActive : ∀ threadId, ¬ FoundActive state.own.history threadId
  duplicate : ∀ threadId turnId, call.Serves threadId turnId →
    FoundTurn state.own.history threadId turnId → error = .duplicateTurn threadId turnId
  lost : ∀ prepared source, LostReceipt state.own.history prepared source →
    error = .receiptPersistenceUnknown prepared.callId prepared.action.toolName source
  recorded : ∀ prepared context, ¬ Executing state.own.history prepared context

/-- The errors that follow a `TurnFailed`. -/
def RuntimeError.FailsTurn : RuntimeError → Prop
  | .context _ | .model _ | .hook _ | .invalidModelResponse .. | .incompleteModelResponse ..
  | .maxModelIterations .. => True
  | _ => False

/-- What an error says about how the turn's log ends. -/
def EndsTurn (turnId : TurnId) (error : RuntimeError) (log : TurnLog) : Prop :=
  match error with
  | .store _ | .receiptPersistenceUnknown .. => ¬ Ended log turnId
  | .cancelled turnId' => turnId' = turnId ∧ log.getLast? = some (turnId, .turnCancelled)
  | error => error.FailsTurn ∧ ∃ reason, log.getLast? = some (turnId, .turnFailed reason)

/-- A stopped call may still let go of its thread. -/
theorem Stopped.orderly {call : Call} {threadId : ThreadId} {error : RuntimeError} {state : Local}
    (stopped : Stopped call threadId error state) :
    Orderly call state.own.history (.activeRemove threadId) where
  acquires _ same := by cases same
  appends append := append.elim
  outward outward := outward.elim
  records prepared context executing := absurd executing (stopped.recorded prepared context)

/-- A turn that was started and stopped with an error. -/
structure StoppedTurn (call : Call) (threadId : ThreadId) (turnId : TurnId) (error : RuntimeError)
    (state : Local) : Prop extends Stopped call threadId error state where
  ends : EndsTurn turnId error (turnLog state.log)

section States

variable {call : Call} {threadId : ThreadId} {turnId : TurnId} {stop : StopReason}
variable {seen : TreeSet CallId}
variable {waiting : List ToolCall} {transcript : List TranscriptMessage} {state : Local}
variable {event : RuntimeEvent} {error : RuntimeError} {source : StoreError}
variable {envelope : EventEnvelope} {observations : List Observation}

theorem Unhindered.stopped (unhindered : Unhindered call state.own.history)
    (guard : state.own.held = .guard threadId) : Stopped call threadId error state where
  guard := guard
  notActive := unhindered.notActive
  duplicate threadId turnId serves found :=
    absurd found (unhindered.newTurn threadId turnId serves)
  lost _ _ lost := absurd lost unhindered.calm.not_lost
  recorded _ _ := unhindered.not_executing

theorem Closed.failed {reason : String}
    (closed : Closed call threadId turnId (.turnFailed reason) state) (fails : error.FailsTurn) :
    StoppedTurn call threadId turnId error state where
  toStopped := closed.unhindered.stopped closed.guard
  ends := by
    cases error <;> first | exact fails.elim | exact ⟨trivial, reason, closed.ends⟩

theorem Closed.cancelled (closed : Closed call threadId turnId .turnCancelled state) :
    StoppedTurn call threadId turnId (.cancelled turnId) state where
  toStopped := closed.unhindered.stopped closed.guard
  ends := ⟨rfl, closed.ends⟩

/-- The store refused an append while nothing was being executed. -/
theorem Unhindered.interrupted (unhindered : Unhindered call state.own.history)
    (guard : state.own.held = .guard threadId) {threadId' : ThreadId} {turnId' : Option TurnId} :
    Stopped call threadId error
      (state.extend [] [⟨.storeAppend threadId' turnId' event, .error source⟩]) where
  guard := guard
  notActive threadId'' found :=
    unhindered.notActive threadId'' (by simpa [FoundActive] using found)
  duplicate threadId'' turnId'' serves found :=
    absurd (foundTurn_snoc unhindered.checked found) (unhindered.newTurn threadId'' turnId'' serves)
  lost _ _ lost := absurd lost unhindered.not_lost_snoc
  recorded _ _ := not_executing_snoc id

/-- As `interrupted`, in a turn that was not ended. -/
theorem Unhindered.refused (unhindered : Unhindered call state.own.history)
    (guard : state.own.held = .guard threadId) (notEnded : ¬ Ended (turnLog state.log) turnId)
    {threadId' : ThreadId} {turnId' : Option TurnId} :
    StoppedTurn call threadId turnId (.store source)
      (state.extend [] [⟨.storeAppend threadId' turnId' event, .error source⟩]) where
  toStopped := unhindered.interrupted guard
  ends := by simpa [EndsTurn] using notEnded

theorem Serving.observe
    (serving : Serving call threadId turnId stop seen waiting transcript state)
    (quiet : ∀ observation ∈ observations, IsQuiet observation) :
    Serving call threadId turnId stop seen waiting transcript (state.extend [] observations) where
  guard := serving.guard
  unhindered := serving.unhindered.extend quiet
  inTurn := by simpa using serving.inTurn
  seen := by simpa using serving.seen
  shown := by simpa using serving.shown

/-- A further event of the turn. -/
theorem Serving.append {stop' : StopReason} {waiting' : List ToolCall} {seen' : TreeSet CallId}
    (serving : Serving call threadId turnId stop seen waiting transcript state)
    (tagged : envelope.turnId = some turnId) (same : envelope.event = event)
    (quiet : ∀ observation ∈ observations, IsQuiet observation)
    (inTurn : InTurn (turnLog state.log ++ [(turnId, event)]) turnId stop' waiting' none)
    (seen : ∀ toolCall, Accepted (turnLog state.log ++ [(turnId, event)]) turnId toolCall →
      toolCall.id ∈ seen') :
    Serving call threadId turnId stop' seen' waiting' (transcript ++ event.message.toList)
      (state.extend [envelope] observations) where
  guard := serving.guard
  unhindered := serving.unhindered.extend quiet
  inTurn := by simpa [turnLog_singleton tagged same] using inTurn
  seen := by simpa [turnLog_singleton tagged same] using seen
  shown := by
    cases shown : event.message <;>
      simp [transcriptFromEvents, same, shown, ← serving.shown]

end States

/-! ## Rules for single operations -/

section Rules

variable {rt : AgentRuntime} {strict : Prop} {call : Call} {state : Local} {ε : Type}
variable {threadId : ThreadId} {turnId : TurnId} {event : RuntimeEvent}

theorem perform_tries {op : Operation} {ok : Answer op → Local → Prop} {failed : ε → Local → Prop}
    (orderly : Orderly call state.own.history op) (permitted : permit rt strict call state op)
    (answered : ∀ answer state', effect strict state op answer state' →
      ok answer (state'.extend [] [⟨op, answer⟩])) :
    (contract rt strict call).Tries (perform op) ok failed state := by
  refine Tries.request ⟨orderly, permitted⟩ ?_
  intro answer state' ⟨state'', effect, same⟩
  subst same
  exact answered answer state'' effect

theorem notifyEach_tries (envelope : EventEnvelope) (observers : List EventObserver)
    {ok : Unit → Local → Prop} {failed : RuntimeError → Local → Prop}
    (unhindered : Unhindered call state.own.history)
    (notified : ∀ notes, (∀ observation ∈ notes, IsNote observation) →
      ok () (state.extend [] notes)) :
    (contract rt strict call).Tries (AgentRuntime.notifyEach envelope observers) ok failed state := by
  induction observers generalizing state with
  | nil => exact Tries.pure (by simpa [Local.extend] using notified [] (by simp))
  | cons observer observers ih =>
    refine Tries.bind (perform_tries (unhindered.orderly (by simp)) trivial ?_)
    intro answer state' same
    have same : state' = state := same
    subst same
    have told : IsNote ⟨.onEvent observer envelope, answer⟩ := trivial
    refine ih (unhindered.unhindered (isQuiet_note told)) ?_
    intro notes all
    rw [Local.extend_extend]
    refine notified _ ?_
    intro observation member
    cases List.mem_append.mp member with
    | inl first => rw [List.mem_singleton.mp first]; exact told
    | inr later => exact all observation later

/-- What an append by the holder of the thread leaves behind. -/
theorem append_tries {ok : EventEnvelope → Local → Prop} {failed : RuntimeError → Local → Prop}
    (guard : state.own.held = .guard threadId)
    (progressing : Progressing call state.own.history)
    (orderly : Orderly call state.own.history (.storeAppend threadId (some turnId) event))
    (permitted : permit rt strict call state (.storeAppend threadId (some turnId) event))
    (stored : ∀ envelope notes, envelope.turnId = some turnId → envelope.event = event →
      (∀ observation ∈ notes, IsNote observation) →
      ok envelope (state.extend [envelope]
        (⟨.storeAppend threadId (some turnId) event, .ok envelope⟩ :: notes)))
    (refused : ∀ source, failed (.store source)
      (state.extend [] [⟨.storeAppend threadId (some turnId) event, .error source⟩])) :
    (contract rt strict call).Tries (rt.append threadId (some turnId) event) ok failed state := by
  refine Tries.bind (perform_tries orderly permitted ?_)
  intro answer state' effect
  cases answer with
  | error source =>
    have same : state' = state := effect
    subst same
    exact Tries.throw (refused source)
  | ok envelope =>
    obtain ⟨⟨_, tagged, same⟩, pushed, _⟩ := effect
    rw [pushed guard]
    refine Tries.bind (notifyEach_tries envelope rt.observers (progressing.unhindered ?_) ?_)
    · exact ⟨id, id, id⟩
    · intro notes all
      have extended := stored envelope notes tagged same all
      exact Tries.pure (by simpa [Local.extend] using extended)

end Rules

/-! ## Rules for the steps of a turn -/

section Turn

variable {rt : AgentRuntime} {strict : Prop} {call : Call} {state : Local} {α : Type}
variable {threadId : ThreadId} {turnId : TurnId} {stop : StopReason} {seen : TreeSet CallId}
variable {waiting : List ToolCall} {transcript : List TranscriptMessage} {event : RuntimeEvent}

/-- Ask a seam that leaves the runtime's state alone. -/
theorem Serving.ask_tries {op : Operation} {ok : Answer op → Local → Prop}
    (serving : Serving call threadId turnId stop seen waiting transcript state)
    (permitted : permit rt strict call state op) (seam : ∀ answer, IsQuiet ⟨op, answer⟩)
    (unchanged : ∀ answer state', effect strict state op answer state' → state' = state)
    (answered : ∀ answer, Serving call threadId turnId stop seen waiting transcript
      (state.extend [] [⟨op, answer⟩]) → ok answer (state.extend [] [⟨op, answer⟩]))
    (other : ∀ threadId, op ≠ .activeInsert threadId) :
    (contract rt strict call).Tries (perform op) ok (StoppedTurn call threadId turnId) state := by
  refine perform_tries (serving.unhindered.orderly other) permitted ?_
  intro answer state' effect
  rw [unchanged answer state' effect]
  refine answered answer (serving.observe ?_)
  intro observation member
  rw [List.mem_singleton.mp member]
  exact seam answer

/-- Append an allowed event of the turn. -/
theorem Serving.append_tries {ok : EventEnvelope → Local → Prop}
    (serving : Serving call threadId turnId stop seen waiting transcript state)
    (allowed : Allowed (turnLog state.log) (turnId, event))
    (closing : strict → event.IsTerminal → Settled (turnLog state.log))
    (stored : ∀ envelope notes, envelope.turnId = some turnId → envelope.event = event →
      (∀ observation ∈ notes, IsNote observation) →
      ok envelope (state.extend [envelope]
        (⟨.storeAppend threadId (some turnId) event, .ok envelope⟩ :: notes))) :
    (contract rt strict call).Tries (rt.append threadId (some turnId) event) ok
      (StoppedTurn call threadId turnId) state := by
  refine Nausicaa.Core.append_tries serving.guard serving.unhindered.toProgressing
    (serving.unhindered.orderly (by simp)) ⟨serving.guard, fun _ => allowed, closing⟩ stored ?_
  intro source
  exact serving.unhindered.refused serving.guard serving.inTurn.notEnded

theorem quiet_stored {envelope : EventEnvelope} {notes : List Observation}
    (all : ∀ observation ∈ notes, IsNote observation) :
    ∀ observation ∈ (⟨.storeAppend threadId (some turnId) event, .ok envelope⟩ : Observation) :: notes,
      IsQuiet observation := by
  intro observation member
  cases List.mem_cons.mp member with
  | inl first => rw [first]; exact ⟨id, id, id⟩
  | inr later => exact isQuiet_note (all observation later)

/-- As `append_tries`, when it does not matter who was told. -/
theorem Serving.store_tries {ok : EventEnvelope → Local → Prop}
    (serving : Serving call threadId turnId stop seen waiting transcript state)
    (allowed : Allowed (turnLog state.log) (turnId, event))
    (closing : strict → event.IsTerminal → Settled (turnLog state.log))
    (stored : ∀ envelope observations, envelope.turnId = some turnId → envelope.event = event →
      (∀ observation ∈ observations, IsQuiet observation) →
      ok envelope (state.extend [envelope] observations)) :
    (contract rt strict call).Tries (rt.append threadId (some turnId) event) ok
      (StoppedTurn call threadId turnId) state := by
  refine serving.append_tries allowed closing ?_
  intro envelope notes tagged same all
  exact stored envelope _ tagged same (quiet_stored all)

/-- Append an event that neither accepts, answers, starts nor ends anything and says
nothing to the model. -/
theorem Serving.skip_tries {ok : EventEnvelope → Local → Prop}
    (serving : Serving call threadId turnId stop seen waiting transcript state)
    (allowed : Allowed (turnLog state.log) (turnId, event)) (silent : event.message = none)
    (accepts : event.acceptedCalls = [])
    (records : ∀ receipt, event ≠ .toolReceiptRecorded receipt)
    (starts : ∀ prepared, event ≠ .toolExecutionStarted prepared) (ends : ¬ event.IsTerminal)
    (stored : ∀ envelope observations,
      Serving call threadId turnId stop seen waiting transcript
        (state.extend [envelope] observations) →
      turnLog [envelope] = [(turnId, event)] → (∀ observation ∈ observations, IsQuiet observation) →
      ok envelope (state.extend [envelope] observations)) :
    (contract rt strict call).Tries (rt.append threadId (some turnId) event) ok
      (StoppedTurn call threadId turnId) state := by
  refine serving.store_tries allowed (fun _ terminal => absurd terminal ends) ?_
  intro envelope observations tagged same quiet
  refine stored envelope observations ?_ (turnLog_singleton tagged same) quiet
  have shown : transcript = transcript ++ event.message.toList := by simp [silent]
  rw [shown]
  refine serving.append tagged same quiet
    (serving.inTurn.skip accepts records starts ends) ?_
  intro toolCall accepted
  rw [accepted_snoc, accepts] at accepted
  exact serving.seen toolCall (by simpa using accepted)

/-- Append the event that ends the turn. -/
theorem Serving.close_tries {ok : EventEnvelope → Local → Prop}
    (serving : Serving call threadId turnId stop seen waiting transcript state)
    (terminal : event.IsTerminal) (closing : strict → Settled (turnLog state.log))
    (stored : ∀ envelope observations,
      Closed call threadId turnId event (state.extend [envelope] observations) →
      turnLog [envelope] = [(turnId, event)] → (∀ observation ∈ observations, IsQuiet observation) →
      ok envelope (state.extend [envelope] observations)) :
    (contract rt strict call).Tries (rt.append threadId (some turnId) event) ok
      (StoppedTurn call threadId turnId) state := by
  have allowed : Allowed (turnLog state.log) (turnId, event) := by
    refine allowed_of_inTurn serving.inTurn.current ?_
    cases event <;> first | exact serving.inTurn.notEnded | exact terminal.elim
  refine serving.store_tries allowed (fun isStrict _ => closing isStrict) ?_
  intro envelope observations tagged same quiet
  refine stored envelope observations ?_ (turnLog_singleton tagged same) quiet
  exact {
    guard := serving.guard
    unhindered := serving.unhindered.extend quiet
    ends := by simp [turnLog_singleton tagged same] }

theorem Serving.failTurn_tries {reason : String} {ok : Unit → Local → Prop}
    (serving : Serving call threadId turnId stop seen waiting transcript state)
    (closing : strict → Settled (turnLog state.log))
    (failed : ∀ state', Closed call threadId turnId (.turnFailed reason) state' → ok () state') :
    (contract rt strict call).Tries (rt.failTurn threadId turnId reason) ok
      (StoppedTurn call threadId turnId) state := by
  refine Tries.bind (serving.close_tries trivial closing ?_)
  intro envelope observations closed _ _
  exact Tries.pure (failed _ closed)

/-- `fail_turn` and the error that is returned after it. -/
theorem Serving.fail_tries {reason : String} {error : RuntimeError} {ok : α → Local → Prop}
    (serving : Serving call threadId turnId stop seen waiting transcript state)
    (closing : strict → Settled (turnLog state.log)) (fails : error.FailsTurn) :
    (contract rt strict call).Tries
      (do rt.failTurn threadId turnId reason; throw error : Attempt RuntimeError α) ok
      (StoppedTurn call threadId turnId) state := by
  refine Tries.bind (serving.failTurn_tries closing ?_)
  intro state' closed
  exact Tries.throw (closed.failed fails)

/-- A hook's rejection that ends the turn. -/
theorem Serving.rejectTurn_tries {point : HookPoint} {error : HookError} {ok : α → Local → Prop}
    (serving : Serving call threadId turnId stop seen waiting transcript state)
    (closing : strict → Settled (turnLog state.log)) :
    (contract rt strict call).Tries
      (do
        rt.recordHookFailure threadId turnId point error
        rt.failTurn threadId turnId error.toString
        throw (.hook error) : Attempt RuntimeError α) ok
      (StoppedTurn call threadId turnId) state := by
  refine Tries.bind (Tries.bind (serving.skip_tries ?_ rfl rfl (by simp) (by simp) id ?_))
  · exact allowed_of_inTurn serving.inTurn.current serving.inTurn.notEnded
  · intro envelope observations serving' logged _
    refine Tries.pure (serving'.fail_tries ?_ trivial)
    intro isStrict turnId' toolCall accepted
    have earlier : Accepted (turnLog state.log) turnId' toolCall := by
      simpa [logged, accepted_snoc, RuntimeEvent.acceptedCalls] using accepted
    simpa using (closing isStrict turnId' toolCall earlier).append _

/-- A receipt for the call being handled, when nothing was executed for it. -/
theorem Serving.recordReceipt_tries {toolCall : ToolCall} {receipt : ToolReceipt}
    {ok : Unit → Local → Prop}
    (serving : Serving call threadId turnId stop seen (toolCall :: waiting) transcript state)
    (sameId : receipt.callId = toolCall.id) (sameName : receipt.toolName = toolCall.name)
    (unexecuted : receipt.status = .denied ∨ receipt.status = .failed)
    (recorded : ∀ state', Serving call threadId turnId stop seen waiting
      (transcript ++ [.tool receipt]) state' → ok () state') :
    (contract rt strict call).Tries (rt.recordReceipt threadId turnId receipt false) ok
      (StoppedTurn call threadId turnId) state := by
  have truthful : Truthful (turnLog state.log) turnId receipt := by
    refine ⟨fun _ => sameId ▸ serving.inTurn.not_started List.mem_cons_self, ?_⟩
    intro executed
    obtain denied | failed := unexecuted
    · simp [denied] at executed
    · simp [failed] at executed
  have allowed := serving.inTurn.allowed_receipt List.mem_cons_self sameId sameName truthful
  have nonterminal : ¬ (RuntimeEvent.toolReceiptRecorded receipt).IsTerminal := id
  have stored : (contract rt strict call).Tries
      (rt.append threadId (some turnId) (.toolReceiptRecorded receipt))
      (fun _ => Serving call threadId turnId stop seen waiting (transcript ++ [.tool receipt]))
      (StoppedTurn call threadId turnId) state := by
    refine serving.store_tries allowed (fun _ terminal => absurd terminal nonterminal) ?_
    intro envelope observations tagged same quiet
    refine serving.append tagged same quiet
      (serving.inTurn.receipt sameId (by simp)) ?_
    intro toolCall accepted
    exact serving.seen toolCall (by simpa [accepted_snoc, RuntimeEvent.acceptedCalls] using accepted)
  refine Tries.bind (Tries.outcome (Tries.mono stored ?_ ?_))
  · intro envelope state' serving'
    exact Tries.pure (recorded state' serving')
  · intro error state' stopped
    cases error <;> exact Tries.throw stopped

/-- Denied receipts for all waiting calls. -/
theorem Serving.denyCalls_tries {reason : String} {ok : Unit → Local → Prop}
    (serving : Serving call threadId turnId stop seen waiting transcript state)
    (denied : ∀ state' transcript', Serving call threadId turnId stop seen [] transcript' state' →
      ok () state') :
    (contract rt strict call).Tries (rt.denyCalls threadId turnId reason waiting) ok
      (StoppedTurn call threadId turnId) state := by
  induction waiting generalizing state transcript with
  | nil => exact Tries.pure (denied state transcript serving)
  | cons toolCall waiting ih =>
    refine Tries.bind (serving.recordReceipt_tries rfl rfl (.inl rfl) ?_)
    intro state' serving'
    exact ih serving'

/-- `cancel_turn` closes every call that is left before it ends the turn. -/
theorem Serving.cancelTurn_tries {ok : α → Local → Prop}
    (serving : Serving call threadId turnId stop seen waiting transcript state) :
    (contract rt strict call).Tries (rt.cancelTurn threadId turnId waiting) ok
      (StoppedTurn call threadId turnId) state := by
  refine Tries.bind (serving.denyCalls_tries ?_)
  intro state' transcript' serving'
  refine Tries.bind (serving'.close_tries trivial (fun _ => serving'.inTurn.settled) ?_)
  intro envelope observations closed _ _
  exact Tries.throw closed.cancelled

end Turn

end Nausicaa.Core
