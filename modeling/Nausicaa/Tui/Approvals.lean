import Nausicaa.Tui.Settled

/-! # Approvals

Requests for approval wait in the terminal in the order in which they were sent.  Each of them is
answered once and in that order, and it is approved only by a key that was pressed while it was the
one that is asked about (`Session.answers`).  What is left when the terminal goes away is denied, or
its provider is told that nobody answers. -/

namespace Nausicaa.Tui

open Core (ApprovalDecision ApprovalRequest EventEnvelope ThreadId)
open Json (Value)

/-! ## A queue of requests -/

/-- What was answered, what waits, and the token of the turn. -/
structure Docket where
  answered : List (ApprovalRequest × ApprovalDecision)
  waiting : List ApprovalRequest
  cancellation : Option Bool

namespace Docket

def decision (approve : Bool) (request : ApprovalRequest) : ApprovalRequest × ApprovalDecision :=
  (request, if approve then .approved request.action else .denied "denied in TUI")

/-- The first request is answered, if there is one. -/
def answer (docket : Docket) (approve : Bool) : Docket :=
  match docket.waiting with
  | [] => docket
  | request :: waiting =>
    { docket with answered := docket.answered ++ [decision approve request], waiting }

def denyAll (docket : Docket) : Docket :=
  { docket with
    answered := docket.answered ++ docket.waiting.map (decision false)
    waiting := [] }

def receive (docket : Docket) (request : ApprovalRequest) : Docket :=
  if docket.cancellation = some true then
    { docket with answered := docket.answered ++ [(request, .denied "turn cancelled in TUI")] }
  else { docket with waiting := docket.waiting ++ [request] }

/-- A turn that is cancelled has its requests denied. -/
def cancel (docket : Docket) : Docket :=
  { docket with cancellation := docket.cancellation.map fun _ => true }.denyAll

/-- All requests, in the order in which they came. -/
def requests (docket : Docket) : List ApprovalRequest :=
  docket.answered.map Prod.fst ++ docket.waiting

/-- Nothing waits for a turn that is cancelled. -/
def Calm (docket : Docket) : Prop := docket.cancellation = some true → docket.waiting = []

/-- Only denials are added to the answers. -/
def Denies (docket docket' : Docket) : Prop :=
  ∃ denials, docket'.answered = docket.answered ++ denials ∧
    ∀ denial ∈ denials, ∀ action, denial.2 ≠ .approved action

variable {docket docket' docket'' : Docket}

theorem Denies.refl : docket.Denies docket := ⟨[], by simp, by simp⟩

theorem Denies.of_answered (same : docket'.answered = docket.answered) : docket.Denies docket' :=
  ⟨[], by simp [same], by simp⟩

theorem Denies.trans (first : docket.Denies docket') (second : docket'.Denies docket'') :
    docket.Denies docket'' := by
  obtain ⟨earlier, added, denied⟩ := first
  obtain ⟨later, added', denied'⟩ := second
  refine ⟨earlier ++ later, by rw [added', added, List.append_assoc], ?_⟩
  intro denial member
  cases List.mem_append.mp member with
  | inl early => exact denied denial early
  | inr late => exact denied' denial late

@[simp] theorem requests_answer (approve : Bool) :
    (docket.answer approve).requests = docket.requests := by
  rw [answer]
  cases waiting : docket.waiting with
  | nil => rfl
  | cons request rest => simp [requests, decision, waiting]

@[simp] theorem requests_denyAll : docket.denyAll.requests = docket.requests := by
  simp [denyAll, requests, decision, Function.comp_def]

theorem denies_denyAll : docket.Denies docket.denyAll := by
  refine ⟨docket.waiting.map (decision false), rfl, ?_⟩
  intro denial member action
  obtain ⟨request, _, rfl⟩ := List.mem_map.mp member
  rintro ⟨⟩

theorem denies_answer : docket.Denies (docket.answer false) := by
  rw [answer]
  cases docket.waiting with
  | nil => exact Denies.refl
  | cons request rest =>
    refine ⟨[decision false request], rfl, ?_⟩
    intro denial member action
    rw [List.mem_singleton.mp member]
    rintro ⟨⟩

theorem denyAll_answer : (docket.answer false).denyAll = docket.denyAll := by
  rw [answer]
  cases waiting : docket.waiting with
  | nil => rfl
  | cons request rest => simp [denyAll, waiting]

/-- What a request adds: it waits, or the turn is cancelled and it is denied. -/
theorem receive_keeps (calm : docket.Calm) (request : ApprovalRequest) :
    (docket.receive request).Calm ∧ docket.Denies (docket.receive request) ∧
      (docket.receive request).requests = docket.requests ++ [request] := by
  rw [receive]
  split
  next cancelled =>
    have empty := calm cancelled
    refine ⟨calm, ⟨_, rfl, ?_⟩, by simp [requests, empty]⟩
    intro denial member action
    rw [List.mem_singleton.mp member]
    rintro ⟨⟩
  next live =>
    refine ⟨fun cancelled => absurd cancelled live, .of_answered rfl, ?_⟩
    rw [requests, requests, List.append_assoc]

theorem receiveAll_keeps (calm : docket.Calm) (requests' : List ApprovalRequest) :
    (requests'.foldl receive docket).Calm ∧ docket.Denies (requests'.foldl receive docket) ∧
      (requests'.foldl receive docket).requests = docket.requests ++ requests' := by
  induction requests' generalizing docket with
  | nil => exact ⟨calm, .refl, by simp⟩
  | cons request requests' ih =>
    obtain ⟨calm', denies, added⟩ := receive_keeps calm request
    obtain ⟨calm'', denies', added'⟩ := ih calm'
    refine ⟨calm'', denies.trans denies', ?_⟩
    rw [List.foldl_cons, added', added, List.append_assoc, List.singleton_append]

end Docket

/-! ## The queue of the terminal -/

namespace UiState

variable {state : UiState}

def docket (state : UiState) : Docket where
  answered := state.decisions
  waiting := state.currentApproval.toList ++ state.queuedApprovals
  cancellation := state.cancellation

theorem isCancelled_iff : state.isCancelled = true ↔ state.docket.cancellation = some true := by
  simp [isCancelled, docket]

/-- Requests are queued only behind one that is asked about. -/
def Queues (state : UiState) : Prop :=
  state.currentApproval = none → state.queuedApprovals = []

/-- The queue is this one. -/
structure Has (state : UiState) (docket : Docket) : Prop where
  queues : state.Queues
  same : state.docket = docket

theorem Queues.has (queues : state.Queues) : state.Has state.docket := ⟨queues, rfl⟩

theorem waiting_head {request : ApprovalRequest} {waiting : List ApprovalRequest}
    (queues : state.Queues) (first : state.docket.waiting = request :: waiting) :
    state.currentApproval = some request ∧ state.queuedApprovals = waiting := by
  rw [docket] at first
  cases current : state.currentApproval with
  | none => simp [current, queues current] at first
  | some request' => simpa [current] using first

@[simp] theorem resolveApproval_current (approve : Bool) :
    (state.resolveApproval approve).currentApproval = state.queuedApprovals.head? := by
  rw [resolveApproval]
  cases state.currentApproval <;> rfl

@[simp] theorem resolveApproval_queued (approve : Bool) :
    (state.resolveApproval approve).queuedApprovals = state.queuedApprovals.tail := by
  rw [resolveApproval]
  cases state.currentApproval <;> rfl

theorem resolveApproval_has (queues : state.Queues) (approve : Bool) :
    (state.resolveApproval approve).Has (state.docket.answer approve) := by
  have next : ∀ queued : List ApprovalRequest, queued.head? = none → queued.tail = [] := by
    intro queued none
    rw [List.head?_eq_none_iff.mp none, List.tail_nil]
  have whole : ∀ queued : List ApprovalRequest, queued.head?.toList ++ queued.tail = queued := by
    intro queued
    cases queued <;> rfl
  refine ⟨fun none => ?_, ?_⟩
  · rw [resolveApproval_queued]
    exact next _ (by rwa [resolveApproval_current] at none)
  rw [Docket.answer, docket, docket, resolveApproval]
  cases current : state.currentApproval with
  | none => simp [queues current]
  | some request => simp [Docket.decision, pushLog, whole]

theorem denyAll_has {queued : List ApprovalRequest} (waits : state.currentApproval.isSome)
    (behind : state.queuedApprovals = queued) :
    (state.denyAll queued).Has state.docket.denyAll := by
  have queues : state.Queues := by
    intro none
    simp [none] at waits
  induction queued generalizing state with
  | nil =>
    obtain ⟨queues', same⟩ := resolveApproval_has queues false
    refine ⟨queues', ?_⟩
    obtain ⟨request, current⟩ := Option.isSome_iff_exists.mp waits
    rw [denyAll, same]
    simp [Docket.answer, Docket.denyAll, docket, current, behind]
  | cons request queued ih =>
    obtain ⟨queues', same⟩ := resolveApproval_has queues false
    have denied : ((state.resolveApproval false).denyAll queued).Has
        (state.resolveApproval false).docket.denyAll :=
      ih (by simp [behind]) (by simp [behind]) queues'
    rwa [same, Docket.denyAll_answer] at denied

theorem denyPending_has (queues : state.Queues) : state.denyPending.Has state.docket.denyAll := by
  rw [denyPending]
  split
  next waits => exact denyAll_has waits rfl
  next idle =>
    have none : state.currentApproval = none := by simpa using idle
    exact ⟨queues, by simp [Docket.denyAll, docket, none, queues none]⟩

theorem receiveApproval_has (queues : state.Queues) (request : ApprovalRequest) :
    (state.receiveApproval request).Has (state.docket.receive request) := by
  rw [receiveApproval, Docket.receive, isCancelled]
  by_cases cancelled : state.cancellation = some true
  · have cancelled' : state.docket.cancellation = some true := cancelled
    rw [if_pos (by simpa using cancelled), if_pos cancelled']
    exact ⟨queues, rfl⟩
  · have live : ¬ state.docket.cancellation = some true := cancelled
    rw [if_neg (by simpa using cancelled), if_neg live]
    cases current : state.currentApproval with
    | none =>
      refine ⟨?_, by simp [docket, current, queues current]⟩
      rintro ⟨⟩
    | some first =>
      refine ⟨?_, by simp [docket, current]⟩
      intro none
      cases none

theorem drainApprovals_has (queues : state.Queues) (approvals : List ApprovalRequest) :
    (state.drainApprovals approvals).Has (approvals.foldl Docket.receive state.docket) := by
  rw [drainApprovals]
  induction approvals generalizing state with
  | nil => exact queues.has
  | cons request approvals ih =>
    obtain ⟨queues', same⟩ := receiveApproval_has queues request
    rw [List.foldl_cons, List.foldl_cons, ← same]
    exact ih queues'

theorem cancel_has (queues : state.Queues) : state.cancel.Has state.docket.cancel := by
  rw [cancel]
  cases token : state.cancellation with
  | none =>
    have denied := denyPending_has queues
    rw [Docket.cancel]
    simpa [docket, token] using denied
  | some cancelled =>
    let marked := { state with
      cancellation := some true, draft := "" }.pushLog "cancellation requested"
    have denied : marked.denyPending.Has marked.docket.denyAll := denyPending_has queues
    rw [Docket.cancel]
    simpa [marked, docket, token, pushLog] using denied

/-- The token may also be set behind the denials. -/
theorem quit_has (queues : state.Queues) :
    { state.denyPending with
      cancellation := state.denyPending.cancellation.map fun _ => true }.Has state.docket.cancel := by
  obtain ⟨queues', same⟩ := denyPending_has queues
  refine ⟨queues', ?_⟩
  have token : state.denyPending.cancellation = state.cancellation :=
    congrArg Docket.cancellation same
  have emptied := congrArg (fun docket : Docket =>
    { docket with cancellation := state.cancellation.map fun _ => true }) same
  rw [token]
  exact emptied

/-! ### What leaves the queue alone -/

/-- The same queue in another state, of a turn that is not cancelled if the one before is not. -/
structure Keeps (state state' : UiState) : Prop where
  decisions : state'.decisions = state.decisions
  current : state'.currentApproval = state.currentApproval
  queued : state'.queuedApprovals = state.queuedApprovals
  calm : state'.cancellation = some true → state.cancellation = some true

variable {state' state'' : UiState}

theorem Keeps.refl : state.Keeps state := ⟨rfl, rfl, rfl, id⟩

theorem Keeps.trans (first : state.Keeps state') (second : state'.Keeps state'') :
    state.Keeps state'' where
  decisions := second.decisions.trans first.decisions
  current := second.current.trans first.current
  queued := second.queued.trans first.queued
  calm := first.calm ∘ second.calm

theorem Keeps.pushLog (keeps : state.Keeps state') (line : String) :
    state.Keeps (state'.pushLog line) :=
  ⟨keeps.decisions, keeps.current, keeps.queued, keeps.calm⟩

theorem Keeps.has (keeps : state.Keeps state') (queues : state.Queues) :
    state'.Has { state.docket with cancellation := state'.cancellation } := by
  refine ⟨?_, by rw [docket, docket, keeps.decisions, keeps.current, keeps.queued]⟩
  rw [Queues, keeps.current, keeps.queued]
  exact queues

theorem foldl_keeps {Item : Type} {act : UiState → Item → UiState}
    (keeps : ∀ (state : UiState) item, state.Keeps (act state item)) (items : List Item) :
    state.Keeps (items.foldl act state) := by
  induction items generalizing state with
  | nil => exact .refl
  | cons item items ih => exact (keeps state item).trans ih

theorem finishTurn_keeps (result : Except String String) : state.Keeps (state.finishTurn result) := by
  have finished : state.Keeps { state with running := false, cancellation := none, draft := "" } :=
    ⟨rfl, rfl, rfl, by rintro ⟨⟩⟩
  cases result with
  | ok content => exact finished
  | error error =>
    rw [finishTurn]
    dsimp only
    split
    · exact finished
    · exact finished.pushLog _

theorem showDraft_keeps (draft : Option ModelProgressEvent) :
    state.Keeps (state.showDraft draft) := by
  cases draft with
  | none => exact ⟨rfl, rfl, rfl, id⟩
  | some event =>
    rw [showDraft]
    split
    · cases event.progress <;> exact ⟨rfl, rfl, rfl, id⟩
    · exact ⟨rfl, rfl, rfl, id⟩

theorem reportRequest_keeps (state : UiState) (event : ModelProgressEvent) :
    state.Keeps (state.reportRequest event) := by
  rw [reportRequest]
  split
  · cases event.progress <;> exact ⟨rfl, rfl, rfl, id⟩
  · exact ⟨rfl, rfl, rfl, id⟩

theorem drainProgress_keeps (snapshot : Snapshot) :
    state.Keeps (state.drainProgress snapshot) := by
  have shown : state.Keeps (state.showDraft snapshot.draft) := showDraft_keeps snapshot.draft
  have reported := shown.trans (foldl_keeps reportRequest_keeps snapshot.completed)
  rw [drainProgress]
  cases snapshot.error with
  | none => exact reported
  | some error => exact reported.pushLog error

theorem receiveEvent_keeps (display : Value → String) (state : UiState) (event : EventEnvelope) :
    state.Keeps (state.receiveEvent display event) := by
  rw [receiveEvent]
  split
  · dsimp only
    have entered : state.Keeps ((if isTerminal event.event then
        { state with terminalReported := true } else state : UiState).enterPhase event.turnId
          event.event) := by
      cases event.event <;> exact ⟨rfl, rfl, rfl, id⟩
    cases formatEvent display event.event with
    | none => exact entered
    | some line => exact entered.pushLog line
  · exact ⟨rfl, rfl, rfl, id⟩

theorem drainEvents_keeps (display : Value → String) (maximumLogs : Nat)
    (events : List EventEnvelope) : state.Keeps (state.drainEvents display maximumLogs events) :=
  (foldl_keeps (receiveEvent_keeps display) events).trans ⟨rfl, rfl, rfl, id⟩

end UiState

/-! ### Keys -/

/-- The key approves what is asked about. -/
def UiState.Key.Approves (key : UiState.Key) : Prop := key = .char 'y' ∨ key = .char 'Y'

/-- What a key does to the queue: at most the turn is another one, the first request is answered, or
the turn is cancelled. -/
inductive Docket.Pressed (docket : Docket) (key : UiState.Key) : Docket → Prop
  | keep : docket.Pressed key docket
  | submit : docket.Pressed key { docket with cancellation := some false }
  | approve (approves : key.Approves) : docket.Pressed key (docket.answer true)
  | deny : docket.Pressed key (docket.answer false)
  | cancel : docket.Pressed key docket.cancel

namespace Docket

variable {docket docket' docket'' : Docket}

/-- Denials are added to the answers, and before them an approval of the first request if that may
be. -/
def Answers (may : Prop) (docket docket' : Docket) : Prop :=
  docket.Denies docket' ∨ may ∧ ∃ request middle, docket.waiting.head? = some request ∧
    middle.answered = docket.answered ++ [(request, .approved request.action)] ∧
    Denies middle docket'

theorem Answers.trans {may : Prop} (first : Answers may docket docket')
    (second : docket'.Denies docket'') : Answers may docket docket'' := by
  obtain denies | ⟨allowed, request, middle, head, added, denies⟩ := first
  · exact .inl (denies.trans second)
  · exact .inr ⟨allowed, request, middle, head, added, denies.trans second⟩

theorem Denies.approved {number : Nat} {request : ApprovalRequest} {action : Core.CanonicalAction}
    (denies : docket.Denies docket')
    (entry : docket'.answered[number]? = some (request, .approved action)) :
    docket.answered[number]? = some (request, .approved action) := by
  obtain ⟨denials, added, denied⟩ := denies
  rw [added, List.getElem?_append] at entry
  split at entry
  · exact entry
  · exact absurd rfl (denied _ (List.mem_of_getElem? entry) action)

/-- What was answered stays. -/
theorem Answers.extends {may : Prop} (answers : Answers may docket docket') :
    docket.answered <+: docket'.answered := by
  obtain ⟨denials, added, _⟩ | ⟨_, _, middle, _, first, denials, added, _⟩ := answers
  · exact ⟨denials, added.symm⟩
  · rw [added, first, List.append_assoc]
    exact List.prefix_append _ _

/-- An approval that is new is the one of the first request. -/
theorem Answers.approved {may : Prop} {number : Nat} {request : ApprovalRequest}
    {action : Core.CanonicalAction} (answers : Answers may docket docket')
    (entry : docket'.answered[number]? = some (request, .approved action)) :
    docket.answered[number]? = some (request, .approved action) ∨
    may ∧ number = docket.answered.length ∧ docket.waiting.head? = some request ∧
      action = request.action := by
  obtain denies | ⟨allowed, first, middle, head, added, denies⟩ := answers
  · exact .inl (denies.approved entry)
  · have entry' := denies.approved entry
    rw [added, List.getElem?_append] at entry'
    split at entry'
    next early => exact .inl entry'
    next late =>
      have last : number - docket.answered.length = 0 := by
        by_contra more
        rw [List.getElem?_eq_none (Nat.one_le_iff_ne_zero.mpr more)] at entry'
        cases entry'
      rw [last, List.getElem?_cons_zero, Option.some.injEq, Prod.mk.injEq] at entry'
      obtain ⟨rfl, same⟩ := entry'
      exact .inr ⟨allowed, by omega, head, (ApprovalDecision.approved.inj same).symm⟩

theorem calm_answer (calm : docket.Calm) (approve : Bool) : (docket.answer approve).Calm := by
  rw [answer]
  cases waiting : docket.waiting with
  | nil => exact calm
  | cons request rest =>
    intro cancelled
    have empty := calm cancelled
    rw [waiting] at empty
    cases empty

theorem answers_approve : Answers True docket (docket.answer true) := by
  rw [answer]
  cases waiting : docket.waiting with
  | nil => exact .inl .refl
  | cons request rest => exact .inr ⟨trivial, request, _, by rw [waiting]; rfl, rfl, .refl⟩

theorem cancel_keeps : docket.cancel.Calm ∧ docket.Denies docket.cancel ∧
    docket.cancel.requests = docket.requests :=
  ⟨fun _ => rfl, @denies_denyAll { docket with
    cancellation := docket.cancellation.map fun _ => true }, requests_denyAll⟩

/-- A key adds no request, and no approval but of the first one by the key for that. -/
theorem Pressed.keeps {key : UiState.Key} (calm : docket.Calm) (moves : docket.Pressed key docket') :
    docket'.Calm ∧ Answers key.Approves docket docket' ∧ docket'.requests = docket.requests := by
  cases moves with
  | keep => exact ⟨calm, .inl .refl, rfl⟩
  | submit =>
    refine ⟨?_, .inl (.of_answered rfl), rfl⟩
    rintro ⟨⟩
  | approve approves =>
    refine ⟨calm_answer calm true, ?_, requests_answer true⟩
    obtain denies | ⟨_, rest⟩ := @answers_approve docket
    · exact .inl denies
    · exact .inr ⟨approves, rest⟩
  | deny => exact ⟨calm_answer calm false, .inl denies_answer, requests_answer false⟩
  | cancel =>
    obtain ⟨calm', denies, same⟩ := @cancel_keeps docket
    exact ⟨calm', .inl denies, same⟩

end Docket

namespace UiState

variable {state : UiState}

theorem submit_has (queues : state.Queues) (input : String) (key : Key) :
    (state.submit input).state.Queues ∧
      state.docket.Pressed key (state.submit input).state.docket := by
  rw [submit]
  split
  · exact ⟨queues, .keep⟩
  · split
    · exact ⟨queues, .keep⟩
    · split
      · obtain ⟨queues', same⟩ := cancel_has queues
        rw [same]
        exact ⟨queues', .cancel⟩
      · split
        · exact ⟨queues, .keep⟩
        · exact ⟨queues, .submit⟩

theorem answerKey_has (queues : state.Queues) (key : Key) :
    (state.answerKey key).Queues ∧ state.docket.Pressed key (state.answerKey key).docket := by
  have denied := resolveApproval_has queues false
  cases key with
  | char character =>
    rw [answerKey]
    split
    next approves =>
      obtain ⟨queues', same⟩ := resolveApproval_has queues true
      rw [same]
      exact ⟨queues', .approve (approves.imp (congrArg Key.char) (congrArg Key.char))⟩
    next =>
      split
      · exact ⟨denied.queues, denied.same ▸ .deny⟩
      · exact ⟨queues, .keep⟩
  | escape => exact ⟨denied.queues, denied.same ▸ .deny⟩
  | controlC | backspace | enter | other => exact ⟨queues, .keep⟩

theorem handleKey_has (queues : state.Queues) (maximumLogs : Nat) (key : Key) :
    (state.handleKey maximumLogs key).state.Queues ∧
      state.docket.Pressed key (state.handleKey maximumLogs key).state.docket := by
  have trimmed : ∀ pressed : Pressed, pressed.state.Queues →
      state.docket.Pressed key pressed.state.docket →
      (if pressed.quit then pressed else ⟨pressed.state.trimLogs maximumLogs, false⟩ :
        Pressed).state.Queues ∧
      state.docket.Pressed key (if pressed.quit then pressed
        else ⟨pressed.state.trimLogs maximumLogs, false⟩ : Pressed).state.docket := by
    intro pressed queues' moves
    split <;> exact ⟨queues', moves⟩
  cases key with
  | controlC =>
    rw [handleKey]
    split
    · obtain ⟨queues', same⟩ := cancel_has queues
      exact ⟨queues', same ▸ .cancel⟩
    · exact ⟨queues, .keep⟩
  | enter =>
    rw [handleKey]
    · split
      · exact answerKey_has queues .enter
      · obtain ⟨queues', moves⟩ := @submit_has { state with input := "" } queues
          (Text.trim Core.isWhitespace state.input) .enter
        exact trimmed _ queues' moves
    · simp
  | char character | backspace | escape | other =>
    rw [handleKey]
    · split
      · exact answerKey_has queues _
      · exact trimmed _ queues .keep
    · simp

end UiState

/-! ## The terminal and its end -/

/-- The terminal until nothing is left of it, and the requests whose provider was told that it is
gone. -/
structure Session where
  terminal : Terminal
  gone : Bool
  refused : List ApprovalRequest

/-- What happens next: an action, a round of the loop that follows when the user has quit and a turn
still runs, or the function returns, which it does behind a quit and at every error of the
terminal. -/
inductive Moment where
  | act (action : Action)
  | round
  | leave

def Moment.request : Moment → Option ApprovalRequest
  | .act (.approval request) => some request
  | _ => none

namespace Session

variable (display : Value → String) (maximumLogs : Nat)

/-- The state is dropped, and then the channel with the requests in it. -/
def leave (session : Session) : Session :=
  let terminal := session.terminal
  let state := { terminal.state with
    cancellation := terminal.state.cancellation.map fun _ => true }.denyPending
  ⟨{ terminal with state, approvals := [], place := .stopped }, true,
    session.refused ++ terminal.approvals⟩

/-- The requests that came are denied; the result of the turn ends the loop. -/
def round (session : Session) : Session :=
  let terminal := session.terminal
  let state := (terminal.state.drainApprovals terminal.approvals).denyPending
  let session := { session with
    terminal := { terminal with state, approvals := [], results := terminal.results.tail } }
  if terminal.results.isEmpty then session else session.leave

def step (session : Session) : Moment → Session
  | .act action =>
    if session.gone then { session with refused := session.refused ++ (Moment.act action).request.toList }
    else { session with terminal := session.terminal.step display maximumLogs action }
  | .round =>
    if session.gone = false ∧ session.terminal.place = .stopped ∧ session.terminal.state.running then
      session.round
    else session
  | .leave => if session.gone then session else session.leave

def run (threadId : ThreadId) (moments : List Moment) : Session :=
  moments.foldl (step display maximumLogs) ⟨.start threadId, false, []⟩

end Session

namespace Terminal

variable {display : Value → String} {maximumLogs : Nat} {terminal : Terminal}

/-- What one action does to the queue and to the requests that were not yet taken out of the
channel. -/
inductive Handles (terminal terminal' : Terminal) (action : Action) : Prop
  | rest (same : terminal'.state.docket = { terminal.state.docket with
        cancellation := terminal'.state.cancellation })
      (calm : terminal'.state.cancellation = some true → terminal.state.cancellation = some true)
      (approvals : terminal'.approvals =
        terminal.approvals ++ (Moment.act action).request.toList)
  | drain (same : terminal'.state.docket =
        terminal.approvals.foldl Docket.receive terminal.state.docket)
      (approvals : terminal'.approvals = []) (silent : (Moment.act action).request = none)
  | press {key : UiState.Key} (pressed : action = .loop (some key)) (here : terminal.place = .key)
      {docket : Docket} (moves : terminal.state.docket.Pressed key docket)
      (same : terminal'.state.docket = docket ∨ terminal'.state.docket = docket.cancel)
      (approvals : terminal'.approvals = terminal.approvals)

theorem Handles.of_keeps {terminal' : Terminal} {action : Action}
    (keeps : terminal.state.Keeps terminal'.state) (queues : terminal.state.Queues)
    (approvals : terminal'.approvals = terminal.approvals)
    (silent : (Moment.act action).request = none) :
    terminal'.state.Queues ∧ terminal.Handles terminal' action := by
  obtain ⟨queues', same⟩ := keeps.has queues
  refine ⟨queues', .rest same keeps.calm ?_⟩
  rw [approvals, silent, Option.toList_none, List.append_nil]

theorem advance_handles (queues : terminal.state.Queues) (key : Option UiState.Key) :
    (terminal.advance display maximumLogs key).state.Queues ∧
      terminal.Handles (terminal.advance display maximumLogs key) (.loop key) := by
  rw [advance.eq_def]
  cases place : terminal.place with
  | events => exact Handles.of_keeps (UiState.drainEvents_keeps display maximumLogs _) queues rfl rfl
  | progress => exact Handles.of_keeps (UiState.drainProgress_keeps _) queues rfl rfl
  | approvals =>
    obtain ⟨queues', same⟩ := UiState.drainApprovals_has queues terminal.approvals
    exact ⟨queues', .drain same rfl rfl⟩
  | result =>
    cases terminal.results with
    | nil => exact Handles.of_keeps ⟨rfl, rfl, rfl, id⟩ queues rfl rfl
    | cons result results =>
      exact Handles.of_keeps ((UiState.drainEvents_keeps display maximumLogs _).trans
        (UiState.finishTurn_keeps result)) queues rfl rfl
  | key =>
    cases key with
    | none => exact Handles.of_keeps ⟨rfl, rfl, rfl, id⟩ queues rfl rfl
    | some key =>
      obtain ⟨queues', moves⟩ := UiState.handleKey_has queues maximumLogs key
      dsimp only
      split
      next quits =>
        obtain ⟨queues'', same⟩ := UiState.quit_has queues'
        exact ⟨queues'', .press rfl place moves (.inr same) rfl⟩
      next goes => exact ⟨queues', .press rfl place moves (.inl rfl) rfl⟩
  | stopped => exact Handles.of_keeps ⟨rfl, rfl, rfl, id⟩ queues rfl rfl

theorem step_handles (queues : terminal.state.Queues) (action : Action) :
    (terminal.step display maximumLogs action).state.Queues ∧
      terminal.Handles (terminal.step display maximumLogs action) action := by
  cases action with
  | approval request => exact ⟨queues, .rest rfl id rfl⟩
  | event | progress | result => exact Handles.of_keeps ⟨rfl, rfl, rfl, id⟩ queues rfl rfl
  | loop key => exact advance_handles queues key

/-- The action is a key for approval, where a key is read. -/
def Approving (terminal : Terminal) (action : Action) : Prop :=
  terminal.place = .key ∧ ∃ key : UiState.Key, action = .loop (some key) ∧ key.Approves

theorem Handles.keeps {terminal' : Terminal} {action : Action}
    (handles : terminal.Handles terminal' action) (calm : terminal.state.docket.Calm) :
    terminal'.state.docket.Calm ∧
    terminal.state.docket.Answers (terminal.Approving action) terminal'.state.docket ∧
    terminal'.state.docket.requests ++ terminal'.approvals =
      terminal.state.docket.requests ++ terminal.approvals ++
        (Moment.act action).request.toList := by
  cases handles with
  | rest same calm' approvals =>
    rw [same, approvals]
    exact ⟨fun cancelled => calm (calm' cancelled), .inl (.of_answered rfl),
      (List.append_assoc ..).symm⟩
  | drain same approvals silent =>
    obtain ⟨calm', denies, added⟩ := Docket.receiveAll_keeps calm terminal.approvals
    rw [same, approvals, silent, added]
    exact ⟨calm', .inl denies, rfl⟩
  | @press key pressed here docket moves same approvals =>
    subst pressed
    obtain ⟨calm', answers, kept⟩ := moves.keeps calm
    have allowed : Docket.Answers (terminal.Approving (.loop (some key))) terminal.state.docket
        docket := by
      obtain denies | ⟨approves, rest⟩ := answers
      · exact .inl denies
      · exact .inr ⟨⟨here, _, rfl, approves⟩, rest⟩
    have none : terminal.state.docket.requests ++ terminal.approvals =
        terminal.state.docket.requests ++ terminal.approvals ++ [] := (List.append_nil _).symm
    cases same with
    | inl same =>
      rw [same, approvals, kept]
      exact ⟨calm', allowed, none⟩
    | inr same =>
      obtain ⟨calm'', denies, kept'⟩ := @Docket.cancel_keeps docket
      rw [same, approvals, kept', kept]
      exact ⟨calm'', allowed.trans denies, none⟩

end Terminal

/-! ## Answers -/

namespace Session

variable {session : Session}

/-- The answer was given when a key for approval was pressed while the request was the one that was
asked about, in a turn that was not cancelled.  As the answers before it are counted, no other answer
was given by that key. -/
structure ApprovedBy (display : Value → String) (maximumLogs : Nat) (threadId : ThreadId)
    (moments : List Moment) (number : Nat) (request : ApprovalRequest)
    (action : Core.CanonicalAction) : Prop where
  same : action = request.action
  pressed : ∃ earlier key later, moments = earlier ++ .act (.loop (some key)) :: later ∧
    key.Approves ∧
    let before := run display maximumLogs threadId earlier
    before.gone = false ∧ before.terminal.place = .key ∧
      before.terminal.state.currentApproval = some request ∧
      before.terminal.state.isCancelled = false ∧
      before.terminal.state.decisions.length = number

/-- What became of the requests that were sent. -/
structure Answered (display : Value → String) (maximumLogs : Nat) (threadId : ThreadId)
    (moments : List Moment) (session : Session) : Prop where
  /-- None is lost, none is answered twice, and none comes before one that was sent earlier. -/
  ordered : session.terminal.state.decisions.map Prod.fst ++
    (session.terminal.state.currentApproval.toList ++ session.terminal.state.queuedApprovals) ++
    session.terminal.approvals ++ session.refused = moments.filterMap Moment.request
  approved : ∀ number request action,
    session.terminal.state.decisions[number]? = some (request, .approved action) →
    ApprovedBy display maximumLogs threadId moments number request action
  /-- Nobody is asked about a turn that is cancelled. -/
  cancelled : session.terminal.state.isCancelled = true →
    session.terminal.state.currentApproval = none ∧ session.terminal.state.queuedApprovals = []
  /-- Behind the end nothing waits for an answer. -/
  gone : session.gone = true → session.terminal.state.currentApproval = none ∧
    session.terminal.state.queuedApprovals = [] ∧ session.terminal.approvals = []

/-- The invariant of a session. -/
structure Sound (session : Session) : Prop where
  queues : session.terminal.state.Queues
  calm : session.terminal.state.docket.Calm
  here : session.gone = false → session.refused = []
  gone : session.gone = true →
    session.terminal.state.docket.waiting = [] ∧ session.terminal.approvals = []

/-- All requests of the session. -/
def requests (session : Session) : List ApprovalRequest :=
  session.terminal.state.docket.requests ++ session.terminal.approvals ++ session.refused

/-- The moment is a key for approval, where a key is read. -/
def Approving (session : Session) (moment : Moment) : Prop :=
  session.gone = false ∧ session.terminal.place = .key ∧
    ∃ key : UiState.Key, moment = .act (.loop (some key)) ∧ key.Approves

/-- What a moment does. -/
structure Moves (session : Session) (moment : Moment) (session' : Session) : Prop where
  sound : session'.Sound
  requests : session'.requests = session.requests ++ moment.request.toList
  answers : session.terminal.state.docket.Answers (session.Approving moment)
    session'.terminal.state.docket

theorem leave_moves (sound : session.Sound) (here : session.gone = false) (moment : Moment)
    (silent : moment.request = none) : session.Moves moment session.leave := by
  obtain ⟨queues, same⟩ := @UiState.denyPending_has { session.terminal.state with
    cancellation := session.terminal.state.cancellation.map fun _ => true } sound.queues
  have cancelled : session.leave.terminal.state.docket = session.terminal.state.docket.cancel := same
  obtain ⟨calm, denies, kept⟩ := @Docket.cancel_keeps session.terminal.state.docket
  refine ⟨⟨queues, cancelled ▸ calm, ?_, fun _ => ⟨?_, rfl⟩⟩, ?_, ?_⟩
  · rintro ⟨⟩
  · rw [cancelled]
    rfl
  · rw [requests, requests, cancelled, kept, silent, sound.here here]
    simp [leave, sound.here here]
  · rw [cancelled]
    exact .inl denies

theorem round_moves (sound : session.Sound) (here : session.gone = false) :
    session.Moves .round session.round := by
  obtain ⟨queues, drained⟩ := UiState.drainApprovals_has sound.queues session.terminal.approvals
  obtain ⟨queues', denied⟩ := UiState.denyPending_has queues
  obtain ⟨calm, denies, added⟩ := Docket.receiveAll_keeps sound.calm session.terminal.approvals
  rw [drained] at denied
  let middle : Session := { session with
    terminal := { session.terminal with
      state := (session.terminal.state.drainApprovals session.terminal.approvals).denyPending
      approvals := []
      results := session.terminal.results.tail } }
  have moves : session.Moves .round middle := by
    refine ⟨⟨queues', ?_, fun _ => sound.here here, fun gone => ?_⟩, ?_, ?_⟩
    · rw [denied]
      exact fun _ => rfl
    · cases here.symm.trans gone
    · rw [requests, requests, denied, Docket.requests_denyAll, added]
      simp [middle, Moment.request]
    · rw [denied]
      exact .inl (denies.trans Docket.denies_denyAll)
  rw [round]
  split
  · exact moves
  · -- The result ends the loop, and the function returns.
    have left := @leave_moves middle moves.sound here .leave rfl
    refine ⟨left.sound, left.requests.trans ?_, ?_⟩
    · rw [moves.requests]
      exact List.append_nil _
    · obtain denies' | ⟨⟨_, _, key, pressed, _⟩, _⟩ := left.answers
      · exact moves.answers.trans denies'
      · cases pressed

theorem step_moves (display : Value → String) (maximumLogs : Nat) (sound : session.Sound)
    (moment : Moment) :
    session.Moves moment (session.step display maximumLogs moment) := by
  have still (silent : moment.request = none) : session.Moves moment session :=
    ⟨sound, by simp [silent], .inl .refl⟩
  cases moment with
  | act action =>
    rw [step]
    split
    next gone =>
      refine ⟨⟨sound.queues, sound.calm, fun here => ?_, sound.gone⟩, ?_, .inl .refl⟩
      · cases gone.symm.trans here
      · rw [requests, requests, List.append_assoc, List.append_assoc, List.append_assoc]
    next here =>
      have here : session.gone = false := by simpa using here
      obtain ⟨queues, handles⟩ :=
        @Terminal.step_handles display maximumLogs session.terminal sound.queues action
      obtain ⟨calm, answers, kept⟩ := handles.keeps sound.calm
      refine ⟨⟨queues, calm, fun _ => sound.here here, fun gone => ?_⟩, ?_, ?_⟩
      · cases here.symm.trans gone
      · rw [requests, requests, sound.here here, List.append_nil, List.append_nil]
        exact kept
      · obtain denies | ⟨⟨place, key, pressed, approves⟩, rest⟩ := answers
        · exact .inl denies
        · exact .inr ⟨⟨here, place, key, congrArg Moment.act pressed, approves⟩, rest⟩
  | round =>
    rw [step]
    split
    next runs => exact round_moves sound runs.1
    next rests => exact still rfl
  | leave =>
    rw [step]
    split
    next gone => exact still rfl
    next here => exact leave_moves sound (by simpa using here) .leave rfl

theorem run_snoc (display : Value → String) (maximumLogs : Nat) (threadId : ThreadId)
    (moments : List Moment) (moment : Moment) :
    run display maximumLogs threadId (moments ++ [moment]) =
      (run display maximumLogs threadId moments).step display maximumLogs moment := by
  rw [run, List.foldl_append]
  rfl

theorem run_sound (display : Value → String) (maximumLogs : Nat) (threadId : ThreadId)
    (moments : List Moment) :
    (run display maximumLogs threadId moments).Sound ∧
      (run display maximumLogs threadId moments).requests = moments.filterMap Moment.request := by
  induction moments using List.reverseRecOn with
  | nil => exact ⟨⟨fun _ => rfl, fun _ => rfl, fun _ => rfl, by rintro ⟨⟩⟩, rfl⟩
  | append_singleton moments moment ih =>
    obtain ⟨sound, sent⟩ := ih
    obtain ⟨sound', added, _⟩ := step_moves display maximumLogs sound moment
    rw [run_snoc]
    refine ⟨sound', ?_⟩
    rw [added, sent, List.filterMap_append]
    cases sent' : moment.request <;> simp [sent']

/-- What was answered stays. -/
theorem run_extends (display : Value → String) (maximumLogs : Nat) (threadId : ThreadId)
    (moments : List Moment) (moment : Moment) :
    (run display maximumLogs threadId moments).terminal.state.decisions <+:
      (run display maximumLogs threadId (moments ++ [moment])).terminal.state.decisions := by
  have sound := (run_sound display maximumLogs threadId moments).1
  rw [run_snoc]
  exact (step_moves display maximumLogs sound moment).answers.extends

/-- The requests that were answered are the first ones. -/
theorem run_decided (display : Value → String) (maximumLogs : Nat) (threadId : ThreadId)
    (moments : List Moment) {number : Nat} {entry : ApprovalRequest × ApprovalDecision}
    (decided : (run display maximumLogs threadId moments).terminal.state.decisions[number]? =
      some entry) : (moments.filterMap Moment.request)[number]? = some entry.1 := by
  have sent := (run_sound display maximumLogs threadId moments).2
  rw [← sent, requests, Docket.requests, List.append_assoc, List.append_assoc]
  have bound := (List.getElem?_eq_some_iff.mp decided).1
  have first : ((run display maximumLogs threadId moments).terminal.state.decisions.map
      Prod.fst)[number]? = some entry.1 := by
    rw [List.getElem?_map, decided]
    rfl
  refine (List.getElem?_append_left ?_).trans first
  rw [List.length_map]
  exact bound

theorem run_approved (display : Value → String) (maximumLogs : Nat) (threadId : ThreadId)
    (moments : List Moment) {number : Nat} {request : ApprovalRequest}
    {action : Core.CanonicalAction}
    (entry : (run display maximumLogs threadId moments).terminal.state.decisions[number]? =
      some (request, .approved action)) :
    ApprovedBy display maximumLogs threadId moments number request action := by
  induction moments using List.reverseRecOn with
  | nil => simp [run, Terminal.start, UiState.new] at entry
  | append_singleton moments moment ih =>
    have sound := (run_sound display maximumLogs threadId moments).1
    have moves := step_moves display maximumLogs sound moment
    rw [run_snoc] at entry
    obtain earlier | ⟨⟨here, place, key, rfl, approves⟩, length, head, same⟩ :=
      moves.answers.approved entry
    · obtain ⟨same, before, key, later, rfl, rest⟩ := ih earlier
      exact ⟨same, before, key, later ++ [moment], by simp, rest⟩
    · obtain ⟨waiting, first⟩ : ∃ waiting, (run display maximumLogs threadId
          moments).terminal.state.docket.waiting = request :: waiting :=
        List.head?_eq_some_iff.mp head
      have current := (UiState.waiting_head sound.queues first).1
      refine ⟨same, moments, key, [], rfl, approves, here, place, current, ?_, length.symm⟩
      by_contra cancelled
      have empty := sound.calm (UiState.isCancelled_iff.mp (by simpa using cancelled))
      rw [first] at empty
      cases empty

/-- In every session requests are answered in the order in which they were sent, each at most once,
and approved only by keys. -/
theorem answers (display : Value → String) (maximumLogs : Nat) (threadId : ThreadId)
    (moments : List Moment) :
    Answered display maximumLogs threadId moments (run display maximumLogs threadId moments) := by
  obtain ⟨sound, sent⟩ := run_sound display maximumLogs threadId moments
  have empty : ∀ {state : UiState}, state.docket.waiting = [] →
      state.currentApproval = none ∧ state.queuedApprovals = [] := by
    intro state none
    obtain ⟨current, queued⟩ := List.append_eq_nil_iff.mp none
    exact ⟨Option.toList_eq_nil_iff.mp current, queued⟩
  refine ⟨sent, fun number request action entry =>
    run_approved display maximumLogs threadId moments entry, ?_, ?_⟩
  · intro cancelled
    exact empty (sound.calm (UiState.isCancelled_iff.mp cancelled))
  · intro gone
    obtain ⟨nothing, closed⟩ := sound.gone gone
    obtain ⟨current, queued⟩ := empty nothing
    exact ⟨current, queued, closed⟩

end Session

end Nausicaa.Tui
