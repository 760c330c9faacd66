import Nausicaa.Core.Runtime
import Nausicaa.Interaction.History

/-! # The turn protocol of a thread's log

The abstract side of the runtime.  A thread's log is read as its list of
`(turn, event)` pairs, and `Allowed` states which event may follow a given log:
calls are accepted once, executed one at a time, closed by exactly one truthful
receipt, and a turn starts only when everything before it is closed.

Nothing here is about the code.  That `run_turn` and `recover` append only allowed
events is `Nausicaa.Core.Runs`; what logs built this way look like is proved in the
second half of this module and in `Nausicaa.Core.LogSpec`.
-/

namespace Nausicaa.Core

open Interaction (Built)

/-- An event of a turn, without the envelope's id, sequence and time. -/
abbrev TurnEntry := TurnId × RuntimeEvent

abbrev TurnLog := List TurnEntry

def turnEntry (envelope : EventEnvelope) : Option TurnEntry :=
  envelope.turnId.map fun turnId => (turnId, envelope.event)

/-- The turn-tagged events of a log, in log order. -/
def turnLog (events : List EventEnvelope) : TurnLog := events.filterMap turnEntry

/-- The events after which a turn is over. -/
def RuntimeEvent.IsTerminal : RuntimeEvent → Prop
  | .turnCompleted _ | .turnFailed _ | .turnCancelled => True
  | _ => False

instance : DecidablePred RuntimeEvent.IsTerminal := fun event => by
  cases event <;> unfold RuntimeEvent.IsTerminal <;> infer_instance

/-- The calls an event accepts. -/
def RuntimeEvent.acceptedCalls : RuntimeEvent → List ToolCall
  | .assistantMessage _ toolCalls _ _ => toolCalls
  | _ => []

/-! ## What a log says -/

section Reading

variable (log : TurnLog) (turnId : TurnId)

def Occurs : Prop := ∃ event, (turnId, event) ∈ log

def Accepted (call : ToolCall) : Prop :=
  ∃ event, (turnId, event) ∈ log ∧ call ∈ event.acceptedCalls

/-- The call stands in a message of the turn with this stop reason. -/
def Requested (stop : StopReason) (call : ToolCall) : Prop :=
  ∃ content toolCalls usage, call ∈ toolCalls ∧
    (turnId, .assistantMessage content toolCalls stop usage) ∈ log

def Prepared (prepared : PreparedToolCall) : Prop := (turnId, .toolPrepared prepared) ∈ log

def Started (prepared : PreparedToolCall) : Prop := (turnId, .toolExecutionStarted prepared) ∈ log

def Receipted (callId : CallId) : Prop :=
  ∃ receipt, (turnId, .toolReceiptRecorded receipt) ∈ log ∧ receipt.callId = callId

def Ended : Prop := ∃ event, (turnId, event) ∈ log ∧ event.IsTerminal

/-- The last event of the log belongs to the turn. -/
def Current : Prop := log.getLast?.map Prod.fst = some turnId

/-- Every accepted call has a receipt. -/
def Settled : Prop := ∀ turnId call, Accepted log turnId call → Receipted log turnId call.id

/-- No execution is waiting for its receipt. -/
def Idle : Prop := ∀ turnId prepared, Started log turnId prepared →
  Receipted log turnId prepared.callId

/-- The turn has an accepted call with this id and name and no receipt for it. -/
def Awaits (callId : CallId) (toolName : String) : Prop :=
  (∃ call, Accepted log turnId call ∧ call.id = callId ∧ call.name = toolName) ∧
    ¬ Receipted log turnId callId

/-- A receipt says what the log says about the execution of its call. -/
def Truthful (receipt : ToolReceipt) : Prop :=
  (receipt.status = .denied →
    ∀ prepared, Started log turnId prepared → prepared.callId ≠ receipt.callId) ∧
  (receipt.status = .succeeded ∨ receipt.status = .unknown →
    ∃ prepared, Started log turnId prepared ∧ prepared.callId = receipt.callId ∧
      receipt.action = some prepared.action)

/-- What may follow `log` within the turn it last spoke of. -/
def AllowedInTurn : RuntimeEvent → Prop
  | .threadStarted | .turnStarted => False
  | .userMessage _ | .contextCompiled .. | .modelRequestStarted _ =>
    ¬ Ended log turnId ∧ Settled log
  | .assistantMessage _ toolCalls _ _ =>
    ¬ Ended log turnId ∧ Settled log ∧ (toolCalls.map ToolCall.id).Nodup ∧
      ∀ call ∈ toolCalls, ∀ earlier, Accepted log turnId earlier → earlier.id ≠ call.id
  | .toolPrepared prepared =>
    ¬ Ended log turnId ∧ Awaits log turnId prepared.callId prepared.action.toolName
  | .approvalRequested _ | .approvalResolved .. | .hookFailed .. => ¬ Ended log turnId
  | .toolExecutionStarted prepared =>
    ¬ Ended log turnId ∧ Awaits log turnId prepared.callId prepared.action.toolName ∧ Idle log
  | .toolReceiptRecorded receipt =>
    Awaits log turnId receipt.callId receipt.toolName ∧ Truthful log turnId receipt
  | .turnCompleted _ | .turnFailed _ | .turnCancelled => ¬ Ended log turnId

end Reading

/-- What may follow `log`: the start of a new turn once everything is closed, or an
event of the turn the log last spoke of. -/
def Allowed (log : TurnLog) : TurnEntry → Prop
  | (turnId, .turnStarted) =>
    ¬ Occurs log turnId ∧ Settled log ∧ ∀ turnId, Occurs log turnId → Ended log turnId
  | (turnId, event) => Current log turnId ∧ AllowedInTurn log turnId event

/-- Logs in which every event was allowed where it stands. -/
def Conforms (log : TurnLog) : Prop := Built Allowed log

/-! ## One more event -/

section Snoc

variable {log : TurnLog} {turnId turnId' : TurnId} {event : RuntimeEvent}

@[simp] theorem turnLog_append (events more : List EventEnvelope) :
    turnLog (events ++ more) = turnLog events ++ turnLog more :=
  List.filterMap_append

theorem turnLog_singleton {envelope : EventEnvelope} (tagged : envelope.turnId = some turnId)
    (same : envelope.event = event) : turnLog [envelope] = [(turnId, event)] := by
  simp [turnLog, turnEntry, tagged, same]

@[simp] theorem occurs_snoc : Occurs (log ++ [(turnId, event)]) turnId' ↔
    Occurs log turnId' ∨ turnId' = turnId := by
  simp [Occurs, exists_or]

theorem accepted_snoc {call : ToolCall} : Accepted (log ++ [(turnId, event)]) turnId' call ↔
    Accepted log turnId' call ∨ (turnId' = turnId ∧ call ∈ event.acceptedCalls) := by
  constructor
  · rintro ⟨event', member, accepts⟩
    rcases List.mem_append.mp member with earlier | last
    · exact .inl ⟨event', earlier, accepts⟩
    · obtain ⟨rfl, rfl⟩ := Prod.mk.inj (List.mem_singleton.mp last)
      exact .inr ⟨rfl, accepts⟩
  · rintro (⟨event', member, accepts⟩ | ⟨rfl, accepts⟩)
    · exact ⟨event', List.mem_append_left _ member, accepts⟩
    · exact ⟨event, by simp, accepts⟩

theorem started_snoc {prepared : PreparedToolCall} :
    Started (log ++ [(turnId, event)]) turnId' prepared ↔
      Started log turnId' prepared ∨
        (turnId' = turnId ∧ event = .toolExecutionStarted prepared) := by
  simp only [Started, List.mem_append, List.mem_singleton, Prod.mk.injEq]
  constructor <;> rintro (earlier | ⟨rfl, same⟩) <;> simp_all

theorem prepared_snoc {prepared : PreparedToolCall} :
    Prepared (log ++ [(turnId, event)]) turnId' prepared ↔
      Prepared log turnId' prepared ∨ (turnId' = turnId ∧ event = .toolPrepared prepared) := by
  simp only [Prepared, List.mem_append, List.mem_singleton, Prod.mk.injEq]
  constructor <;> rintro (earlier | ⟨rfl, same⟩) <;> simp_all

theorem receipted_snoc {callId : CallId} : Receipted (log ++ [(turnId, event)]) turnId' callId ↔
    Receipted log turnId' callId ∨
      (turnId' = turnId ∧ ∃ receipt, event = .toolReceiptRecorded receipt ∧
        receipt.callId = callId) := by
  constructor
  · rintro ⟨receipt, member, same⟩
    rcases List.mem_append.mp member with earlier | last
    · exact .inl ⟨receipt, earlier, same⟩
    · obtain ⟨rfl, rfl⟩ := Prod.mk.inj (List.mem_singleton.mp last)
      exact .inr ⟨rfl, receipt, rfl, same⟩
  · rintro (⟨receipt, member, same⟩ | ⟨rfl, receipt, rfl, same⟩)
    · exact ⟨receipt, List.mem_append_left _ member, same⟩
    · exact ⟨receipt, by simp, same⟩

theorem ended_snoc : Ended (log ++ [(turnId, event)]) turnId' ↔
    Ended log turnId' ∨ (turnId' = turnId ∧ event.IsTerminal) := by
  constructor
  · rintro ⟨event', member, terminal⟩
    rcases List.mem_append.mp member with earlier | last
    · exact .inl ⟨event', earlier, terminal⟩
    · obtain ⟨rfl, rfl⟩ := Prod.mk.inj (List.mem_singleton.mp last)
      exact .inr ⟨rfl, terminal⟩
  · rintro (⟨event', member, terminal⟩ | ⟨rfl, terminal⟩)
    · exact ⟨event', List.mem_append_left _ member, terminal⟩
    · exact ⟨event, by simp, terminal⟩

@[simp] theorem current_snoc : Current (log ++ [(turnId, event)]) turnId' ↔ turnId = turnId' := by
  simp [Current]

theorem Current.occurs (current : Current log turnId) : Occurs log turnId := by
  obtain ⟨⟨turnId', event⟩, last, same⟩ := Option.map_eq_some_iff.mp current
  cases same
  exact ⟨event, List.mem_of_getLast? last⟩

theorem Current.eq (current : Current log turnId) (current' : Current log turnId') :
    turnId = turnId' := Option.some.inj (current.symm.trans current')

theorem Requested.accepted {stop : StopReason} {call : ToolCall}
    (requested : Requested log turnId stop call) : Accepted log turnId call := by
  obtain ⟨content, toolCalls, usage, member, logged⟩ := requested
  exact ⟨_, logged, member⟩

theorem Requested.append {stop : StopReason} {call : ToolCall} (more : TurnLog)
    (requested : Requested log turnId stop call) : Requested (log ++ more) turnId stop call := by
  obtain ⟨content, toolCalls, usage, member, logged⟩ := requested
  exact ⟨content, toolCalls, usage, member, List.mem_append_left _ logged⟩

/-- A receipt once recorded stays recorded. -/
theorem Receipted.append {callId : CallId} (more : TurnLog)
    (receipted : Receipted log turnId callId) : Receipted (log ++ more) turnId callId := by
  obtain ⟨receipt, member, same⟩ := receipted
  exact ⟨receipt, List.mem_append_left _ member, same⟩

/-- An allowed event starts its turn or continues the current one. -/
theorem allowed_cases (allowed : Allowed log (turnId, event)) :
    (event = .turnStarted ∧ ¬ Occurs log turnId ∧ Settled log ∧
      ∀ turnId, Occurs log turnId → Ended log turnId) ∨
    (event ≠ .turnStarted ∧ Current log turnId ∧ AllowedInTurn log turnId event) := by
  cases event <;> simp_all [Allowed]

theorem allowed_of_inTurn (current : Current log turnId)
    (allowed : AllowedInTurn log turnId event) : Allowed log (turnId, event) := by
  cases event <;> first | exact ⟨current, allowed⟩ | exact allowed.elim

end Snoc

/-! ## Consequences for conforming logs -/

section Conforming

variable {log : TurnLog} {turnId turnId' : TurnId}

/-- A turn without a terminal event is the one the log last spoke of. -/
theorem current_of_not_ended (conforms : Conforms log) (occurs : Occurs log turnId)
    (notEnded : ¬ Ended log turnId) : Current log turnId := by
  induction conforms using Built.snoc_induction generalizing turnId with
  | empty => simp [Occurs] at occurs
  | step before entry built allowed ih =>
    obtain ⟨turnId', event⟩ := entry
    rw [ended_snoc, not_or] at notEnded
    rcases occurs_snoc.mp occurs with earlier | rfl
    · rcases allowed_cases allowed with ⟨_, _, _, closed⟩ | ⟨_, current, _⟩
      · exact absurd (closed turnId earlier) notEnded.1
      · exact current_snoc.mpr (current.eq (ih earlier notEnded.1))
    · exact current_snoc.mpr rfl

/-- An accepted call without a receipt belongs to the turn the log last spoke of. -/
theorem current_of_unreceipted (conforms : Conforms log) {call : ToolCall}
    (accepted : Accepted log turnId call) (unreceipted : ¬ Receipted log turnId call.id) :
    Current log turnId := by
  induction conforms using Built.snoc_induction generalizing turnId with
  | empty => simp [Accepted] at accepted
  | step before entry built allowed ih =>
    obtain ⟨turnId', event⟩ := entry
    rw [receipted_snoc, not_or] at unreceipted
    rcases accepted_snoc.mp accepted with earlier | ⟨rfl, _⟩
    · rcases allowed_cases allowed with ⟨_, _, settled, _⟩ | ⟨_, current, _⟩
      · exact absurd (settled turnId call earlier) unreceipted.1
      · exact current_snoc.mpr (current.eq (ih earlier unreceipted.1))
    · exact current_snoc.mpr rfl

/-- Whatever was prepared or started was accepted under the same id and name. -/
theorem accepted_of_prepared (conforms : Conforms log) {prepared : PreparedToolCall}
    (known : Prepared log turnId prepared ∨ Started log turnId prepared) :
    ∃ call, Accepted log turnId call ∧ call.id = prepared.callId ∧
      call.name = prepared.action.toolName := by
  induction conforms using Built.snoc_induction generalizing turnId with
  | empty => simp [Prepared, Started] at known
  | step before entry built allowed ih =>
    obtain ⟨turnId', event⟩ := entry
    rw [prepared_snoc, started_snoc] at known
    have later : (∃ call, Accepted before turnId call ∧ call.id = prepared.callId ∧
        call.name = prepared.action.toolName) →
        ∃ call, Accepted (before ++ [(turnId', event)]) turnId call ∧
          call.id = prepared.callId ∧ call.name = prepared.action.toolName := by
      rintro ⟨call, accepted, same⟩
      exact ⟨call, accepted_snoc.mpr (.inl accepted), same⟩
    rcases known with (earlier | ⟨rfl, rfl⟩) | (earlier | ⟨rfl, rfl⟩)
    · exact later (ih (.inl earlier))
    · exact later allowed.2.2.1
    · exact later (ih (.inr earlier))
    · exact later allowed.2.2.1.1

/-- A turn's first event is its start, and it has no other. -/
theorem turnStarted_first (conforms : Conforms log) {before after : TurnLog} {event : RuntimeEvent}
    (split : log = before ++ (turnId, event) :: after) :
    event = .turnStarted ↔ ¬ Occurs before turnId := by
  rcases allowed_cases (conforms before _ after split) with ⟨rfl, fresh, _⟩ | ⟨other, current, _⟩
  · exact ⟨fun _ => fresh, fun _ => rfl⟩
  · exact ⟨fun same => absurd same other, fun fresh => absurd current.occurs fresh⟩

end Conforming

end Nausicaa.Core
