import Nausicaa.Tui.State

/-! # What decides about the draft

The part of the terminal's state that decides what the draft shows, and what each function makes of
it (`standing_drainEvents`, `standing_drainProgress`, `standing_handleKey`).  Logs, approvals and
typed text do not matter. -/

namespace Nausicaa.Tui

open Core (ApprovalRequest EventEnvelope RuntimeEvent ThreadId TurnId)
open Json (Value)

structure Standing where
  threadId : ThreadId
  currentTurn : Option TurnId
  iteration : Nat
  settled : Bool
  draft : String
  running : Bool
  cancellation : Option Bool

namespace Standing

/-- An event of the thread begins a turn, begins a request, or settles one. -/
def receive (standing : Standing) (event : EventEnvelope) : Standing :=
  if event.threadId = standing.threadId then
    match event.event with
    | .turnStarted =>
      { standing with currentTurn := event.turnId, draft := "", settled := true }
    | .modelRequestStarted iteration => { standing with iteration, settled := false, draft := "" }
    | .assistantMessage .. | .turnCompleted _ | .turnCancelled | .turnFailed _ =>
      { standing with settled := true, draft := "" }
    | _ => standing
  else standing

def Accepts (standing : Standing) (event : ModelProgressEvent) : Prop :=
  event.threadId = standing.threadId ∧ some event.turnId = standing.currentTurn ∧
    event.iteration = standing.iteration ∧ standing.settled = false ∧
      standing.cancellation ≠ some true

instance (standing : Standing) (event : ModelProgressEvent) : Decidable (standing.Accepts event) := by
  unfold Accepts
  infer_instance

/-- What is taken from the buffer. -/
def showDraft (standing : Standing) (draft : Option ModelProgressEvent) : Standing :=
  match draft with
  | none => standing
  | some event =>
    if standing.Accepts event then
      match event.progress with
      | .textDelta text => { standing with draft := appendBounded standing.draft text }
      | _ => standing
    else standing

def finish (standing : Standing) : Standing :=
  { standing with running := false, cancellation := none, draft := "" }

def cancel (standing : Standing) : Standing :=
  match standing.cancellation with
  | some _ => { standing with cancellation := some true, draft := "" }
  | none => standing

def submit (standing : Standing) : Standing :=
  { standing with running := true, draft := "", cancellation := some false }

end Standing

namespace UiState

def standing (state : UiState) : Standing where
  threadId := state.threadId
  currentTurn := state.currentTurn
  iteration := state.iteration
  settled := state.settled
  draft := state.draft
  running := state.running
  cancellation := state.cancellation

variable {state : UiState}

@[simp] theorem standing_pushLog (line : String) : (state.pushLog line).standing = state.standing :=
  rfl

@[simp] theorem standing_trimLogs (maximumLogs : Nat) :
    (state.trimLogs maximumLogs).standing = state.standing := rfl

@[simp] theorem standing_resolveApproval (approve : Bool) :
    (state.resolveApproval approve).standing = state.standing := by
  rw [resolveApproval]
  cases state.currentApproval with
  | none => rfl
  | some request => rfl

@[simp] theorem standing_denyAll (queued : List ApprovalRequest) :
    (state.denyAll queued).standing = state.standing := by
  induction queued generalizing state with
  | nil => simp [denyAll]
  | cons request queued ih => rw [denyAll, ih, standing_resolveApproval]

@[simp] theorem standing_denyPending : state.denyPending.standing = state.standing := by
  rw [denyPending]
  split
  · simp
  · rfl

@[simp] theorem standing_receiveApproval (request : ApprovalRequest) :
    (state.receiveApproval request).standing = state.standing := by
  rw [receiveApproval]
  split
  · rfl
  · split <;> rfl

@[simp] theorem standing_drainApprovals (approvals : List ApprovalRequest) :
    (state.drainApprovals approvals).standing = state.standing := by
  rw [drainApprovals]
  induction approvals generalizing state with
  | nil => rfl
  | cons request approvals ih => rw [List.foldl_cons, ih, standing_receiveApproval]

@[simp] theorem standing_finishTurn (result : Except String String) :
    (state.finishTurn result).standing = state.standing.finish := by
  cases result with
  | ok content => rfl
  | error error =>
    rw [finishTurn]
    dsimp only
    split <;> rfl

@[simp] theorem standing_cancel : state.cancel.standing = state.standing.cancel := by
  rw [cancel, standing_denyPending]
  cases token : state.cancellation with
  | none => simp [Standing.cancel, standing, token]
  | some cancelled => simp [Standing.cancel, standing, token, pushLog]

theorem accepts_standing {event : ModelProgressEvent} :
    state.Accepts event ↔ state.standing.Accepts event := by
  simp [Accepts, Standing.Accepts, isCancelled, standing]

@[simp] theorem standing_showDraft (draft : Option ModelProgressEvent) :
    (state.showDraft draft).standing = state.standing.showDraft draft := by
  cases draft with
  | none => rfl
  | some event =>
    rw [showDraft, Standing.showDraft]
    by_cases accepted : state.Accepts event
    · rw [if_pos accepted, if_pos (accepts_standing.mp accepted)]
      cases event.progress <;> rfl
    · rw [if_neg accepted, if_neg (mt accepts_standing.mpr accepted)]

@[simp] theorem standing_reportRequest (event : ModelProgressEvent) :
    (state.reportRequest event).standing = state.standing := by
  rw [reportRequest]
  split
  · cases event.progress <;> rfl
  · rfl

theorem standing_drainProgress (snapshot : Snapshot) :
    (state.drainProgress snapshot).standing = state.standing.showDraft snapshot.draft := by
  have reported : ∀ (completed : List ModelProgressEvent) (state : UiState),
      (completed.foldl reportRequest state).standing = state.standing := by
    intro completed
    induction completed with
    | nil => intro state; rfl
    | cons event completed ih => intro state; rw [List.foldl_cons, ih, standing_reportRequest]
  rw [drainProgress]
  cases snapshot.error with
  | none => rw [reported, standing_showDraft]
  | some error => rw [standing_pushLog, reported, standing_showDraft]

theorem standing_receiveEvent (display : Value → String) (event : EventEnvelope) :
    (state.receiveEvent display event).standing = state.standing.receive event := by
  rw [receiveEvent, Standing.receive]
  by_cases own : event.threadId = state.threadId
  · have own' : event.threadId = state.standing.threadId := own
    rw [if_pos own, if_pos own']
    dsimp only
    -- A line that is logged does not matter.
    have entered : ((if isTerminal event.event then { state with terminalReported := true }
        else state : UiState).enterPhase event.turnId event.event).standing =
        state.standing.receive event := by
      rw [Standing.receive, if_pos own']
      cases event.event <;> rfl
    rw [Standing.receive, if_pos own'] at entered
    cases formatEvent display event.event with
    | none => exact entered
    | some line => exact entered
  · have other : event.threadId ≠ state.standing.threadId := own
    rw [if_neg own, if_neg other]

theorem standing_drainEvents (display : Value → String) (maximumLogs : Nat)
    (events : List EventEnvelope) : (state.drainEvents display maximumLogs events).standing =
      events.foldl Standing.receive state.standing := by
  rw [drainEvents, standing_trimLogs]
  induction events generalizing state with
  | nil => rfl
  | cons event events ih => rw [List.foldl_cons, List.foldl_cons, ih, standing_receiveEvent]

theorem standing_submit (input : String) : (state.submit input).state.standing = state.standing ∨
    (state.submit input).state.standing = state.standing.cancel ∨
    state.running = false ∧ (state.submit input).state.standing = state.standing.submit := by
  rw [submit]
  split
  · exact .inl rfl
  · split
    · exact .inl rfl
    · split
      · exact .inr (.inl standing_cancel)
      · split
        next running => exact .inl rfl
        next idle => exact .inr (.inr ⟨by simpa using idle, rfl⟩)

theorem standing_answerKey (key : Key) : (state.answerKey key).standing = state.standing := by
  cases key with
  | char character =>
    rw [answerKey]
    split
    · simp
    · split
      · simp
      · rfl
  | escape => exact standing_resolveApproval false
  | controlC | backspace | enter | other => rfl

/-- A key leaves the standing as it is, cancels the turn, or begins one where none is running. -/
theorem standing_handleKey (maximumLogs : Nat) (key : Key) :
    (state.handleKey maximumLogs key).state.standing = state.standing ∨
    (state.handleKey maximumLogs key).state.standing = state.standing.cancel ∨
    state.running = false ∧
      (state.handleKey maximumLogs key).state.standing = state.standing.submit := by
  have trimmed : ∀ pressed : Pressed, (if pressed.quit then pressed
      else ⟨pressed.state.trimLogs maximumLogs, false⟩ : Pressed).state.standing =
      pressed.state.standing := by
    intro pressed
    split <;> rfl
  cases key with
  | controlC =>
    rw [handleKey]
    split
    · exact .inr (.inl standing_cancel)
    · exact .inl rfl
  | enter =>
    rw [handleKey]
    · split
      · exact .inl (standing_answerKey .enter)
      · dsimp only
        rw [trimmed]
        exact standing_submit _
    · simp
  | char character | backspace | escape | other =>
    rw [handleKey]
    · split
      · exact .inl (standing_answerKey _)
      · dsimp only
        rw [trimmed]
        exact .inl rfl
    · simp

end UiState

end Nausicaa.Tui
