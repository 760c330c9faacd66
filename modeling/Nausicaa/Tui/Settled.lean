import Nausicaa.Tui.Standing

/-! # Settled drafts

Whose text the draft shows, and when it stays empty after its request was settled, cancelled or
finished: exactly where the loop takes no text of a request that only its result has ended
(`draft_settled`). -/

namespace Nausicaa.Tui

open Core (EventEnvelope ThreadId TurnId)
open Json (Value)
open Text (Tails encode isTail_iff lastFitting_suffix tails_nil tails_singleton truncate truncate_tail)

/-! ## Whose text is shown -/

/-- The text that the runtime delivers for a request. -/
def Action.textFor (threadId : ThreadId) (turnId : Option TurnId) (iteration : Nat) :
    Action → Option String
  | .progress received _ =>
    if received.threadId = threadId ∧ some received.turnId = turnId ∧
        received.iteration = iteration then
      match received.progress with
      | .textDelta text => some text
      | _ => none
    else none
  | _ => none

def delivered (threadId : ThreadId) (turnId : Option TurnId) (iteration : Nat)
    (actions : List Action) : List (List Char) :=
  (actions.filterMap (Action.textFor threadId turnId iteration)).map String.toList

/-! ## What has ended a request -/

/-- What the loop knows of the last request that it has seen begin: whether it is over, and whether
nothing but a result has ended it. -/
structure Marks where
  quiet : Bool
  stranded : Bool

namespace Marks

def receive (threadId : ThreadId) (marks : Marks) (event : EventEnvelope) : Marks :=
  if event.threadId = threadId then
    match event.event with
    | .modelRequestStarted _ => ⟨false, false⟩
    | .turnStarted => { marks with stranded := false }
    | .assistantMessage .. | .turnCompleted _ | .turnCancelled | .turnFailed _ => ⟨true, false⟩
    | _ => marks
  else marks

def finish (settled : Bool) : Marks := ⟨true, !settled⟩

variable (display : Value → String) (maximumLogs : Nat)

def step (terminal : Terminal) (marks : Marks) : Action → Marks
  | .loop key =>
    match terminal.place with
    | .events => terminal.events.foldl (receive terminal.state.threadId) marks
    | .result =>
      match terminal.results with
      | [] => marks
      | _ :: _ => finish (terminal.state.drainEvents display maximumLogs terminal.events).settled
    | .key =>
      match key with
      | none => marks
      | some key =>
        let state := (terminal.state.handleKey maximumLogs key).state
        { marks with quiet := marks.quiet || state.isCancelled }
    | _ => marks
  | _ => marks

end Marks

def Terminal.start (threadId : ThreadId) : Terminal :=
  ⟨.new threadId, .events, [], .empty, [], []⟩

/-- The terminal, and what has ended its request. -/
structure Marked where
  terminal : Terminal
  marks : Marks

namespace Marked

variable (display : Value → String) (maximumLogs : Nat)

def step (marked : Marked) (action : Action) : Marked :=
  ⟨marked.terminal.step display maximumLogs action,
    marked.marks.step display maximumLogs marked.terminal action⟩

def run (threadId : ThreadId) (actions : List Action) : Marked :=
  actions.foldl (step display maximumLogs) ⟨.start threadId, ⟨false, false⟩⟩

/-- As long as the loop runs, a draft that is over is empty, and what is shown is text that was
delivered for the request of the terminal. -/
structure Shows (marked : Marked) (actions : List Action) : Prop where
  quiet : marked.marks.quiet = true → marked.terminal.state.draft = ""
  own : Tails (delivered marked.terminal.state.threadId marked.terminal.state.currentTurn
    marked.terminal.state.iteration actions) marked.terminal.state.draft.toList
  bounded : (encode marked.terminal.state.draft).length ≤ draftLimit

/-- The text that waits for the request of the terminal. -/
def Waits (marked : Marked) (text : String) : Prop :=
  ∃ event ∈ marked.terminal.buffer.draft, event.threadId = marked.terminal.state.threadId ∧
    some event.turnId = marked.terminal.state.currentTurn ∧
    event.iteration = marked.terminal.state.iteration ∧ event.progress = .textDelta text

/-- The step does not take text of a request that only a result has ended. -/
def Allows (marked : Marked) : Action → Prop
  | .loop _ => marked.terminal.place = .progress → marked.marks.stranded = true →
    marked.terminal.state.isCancelled = false → ∀ text, marked.Waits text → text = ""
  | _ => True

end Marked

/-! ## Standings and marks -/

/-- The draft belongs to the request that it belonged to, or is empty. -/
structure Standing.Keeps (before after : Standing) : Prop where
  thread : after.threadId = before.threadId
  draft : after.draft = "" ∨ after.draft = before.draft ∧ after.currentTurn = before.currentTurn ∧
    after.iteration = before.iteration

structure Guarded (standing : Standing) (marks : Marks) : Prop where
  cancelled : standing.cancellation = some true → standing.draft = ""
  quiet : marks.quiet = true → standing.settled = true ∨ standing.cancellation = some true ∨
    marks.stranded = true
  stranded : marks.stranded = true → marks.quiet = true ∧ standing.settled = false
  idle : standing.running = false → standing.cancellation = none

def Silent (standing : Standing) (marks : Marks) : Prop := marks.quiet = true → standing.draft = ""

section Steps

variable {standing : Standing} {marks : Marks}

theorem Standing.Keeps.refl (standing : Standing) : standing.Keeps standing :=
  ⟨rfl, .inr ⟨rfl, rfl, rfl⟩⟩

theorem Standing.Keeps.trans {first second third : Standing} (before : first.Keeps second)
    (after : second.Keeps third) : first.Keeps third := by
  refine ⟨after.thread.trans before.thread, ?_⟩
  obtain empty | ⟨draft, turn, iteration⟩ := after.draft
  · exact .inl empty
  · obtain empty | ⟨draft', turn', iteration'⟩ := before.draft
    · exact .inl (draft.trans empty)
    · exact .inr ⟨draft.trans draft', turn.trans turn', iteration.trans iteration'⟩

theorem receive_keeps (standing : Standing) (event : EventEnvelope) :
    standing.Keeps (standing.receive event) := by
  rw [Standing.receive]
  split
  · cases event.event <;> first | exact .refl standing | exact ⟨rfl, .inl rfl⟩
  · exact .refl standing

theorem foldl_receive_keeps (events : List EventEnvelope) (standing : Standing) :
    standing.Keeps (events.foldl Standing.receive standing) := by
  induction events generalizing standing with
  | nil => exact .refl standing
  | cons event events ih => exact (receive_keeps standing event).trans (ih _)

theorem guarded_receive (guarded : Guarded standing marks) (event : EventEnvelope) :
    Guarded (standing.receive event) (marks.receive standing.threadId event) := by
  rw [Standing.receive, Marks.receive]
  by_cases own : event.threadId = standing.threadId
  · rw [if_pos own, if_pos own]
    cases event.event with
    | turnStarted =>
      exact ⟨fun _ => rfl, fun _ => .inl rfl, fun stranded => (by cases stranded), guarded.idle⟩
    | modelRequestStarted iteration =>
      exact ⟨fun _ => rfl, fun quiet => (by cases quiet), fun stranded => (by cases stranded),
        guarded.idle⟩
    | assistantMessage | turnCompleted | turnCancelled | turnFailed =>
      exact ⟨fun _ => rfl, fun _ => .inl rfl, fun stranded => (by cases stranded), guarded.idle⟩
    | _ => exact guarded
  · rw [if_neg own, if_neg own]
    exact guarded

theorem silent_receive (silent : Silent standing marks) (event : EventEnvelope) :
    Silent (standing.receive event) (marks.receive standing.threadId event) := by
  rw [Standing.receive, Marks.receive]
  by_cases own : event.threadId = standing.threadId
  · rw [if_pos own, if_pos own]
    cases event.event with
    | modelRequestStarted iteration => exact fun _ => rfl
    | turnStarted | assistantMessage | turnCompleted | turnCancelled | turnFailed => exact fun _ => rfl
    | _ => exact silent
  · rw [if_neg own, if_neg own]
    exact silent

theorem foldl_receive_marks (events : List EventEnvelope) (guarded : Guarded standing marks) :
    Guarded (events.foldl Standing.receive standing)
        (events.foldl (Marks.receive standing.threadId) marks) ∧
      (Silent standing marks → Silent (events.foldl Standing.receive standing)
        (events.foldl (Marks.receive standing.threadId) marks)) := by
  induction events generalizing standing marks with
  | nil => exact ⟨guarded, id⟩
  | cons event events ih =>
    obtain ⟨guarded', silent'⟩ := ih (guarded_receive guarded event)
    rw [(receive_keeps standing event).thread] at guarded' silent'
    exact ⟨guarded', fun silent => silent' (silent_receive silent event)⟩

theorem guarded_finish (standing : Standing) : Guarded standing.finish (.finish standing.settled) := by
  constructor
  · exact fun _ => rfl
  · intro _
    cases settled : standing.settled with
    | true => exact .inl settled
    | false => exact .inr (.inr rfl)
  · intro stranded
    have settled : standing.settled = false := by simpa [Marks.finish] using stranded
    exact ⟨rfl, settled⟩
  · exact fun _ => rfl

/-- Text is shown where the request is neither settled nor cancelled. -/
theorem guarded_showDraft (guarded : Guarded standing marks) (draft : Option ModelProgressEvent) :
    Guarded (standing.showDraft draft) marks := by
  cases draft with
  | none => exact guarded
  | some event =>
    rw [Standing.showDraft]
    split
    next accepts =>
      cases event.progress with
      | textDelta text =>
        exact ⟨fun cancelled => absurd cancelled accepts.2.2.2.2, guarded.quiet, guarded.stranded,
          guarded.idle⟩
      | started => exact guarded
      | finished timings outcome => exact guarded
    next => exact guarded

theorem silent_showDraft (guarded : Guarded standing marks) (silent : Silent standing marks)
    (draft : Option ModelProgressEvent)
    (allowed : marks.stranded = true → standing.cancellation ≠ some true → ∀ event ∈ draft,
      standing.Accepts event → ∀ text, event.progress = .textDelta text → text = "") :
    Silent (standing.showDraft draft) marks := by
  intro quiet
  cases draft with
  | none => exact silent quiet
  | some event =>
    rw [Standing.showDraft]
    split
    next accepts =>
      cases progress : event.progress with
      | textDelta text =>
        have uncancelled := accepts.2.2.2.2
        have stranded : marks.stranded = true := by
          obtain settled | cancelled | stranded := guarded.quiet quiet
          · rw [accepts.2.2.2.1] at settled
            cases settled
          · exact absurd cancelled uncancelled
          · exact stranded
        obtain rfl := allowed stranded uncancelled event rfl accepts text progress
        dsimp only
        rw [silent quiet]
        rfl
      | started => exact silent quiet
      | finished timings outcome => exact silent quiet
    next => exact silent quiet

/-- The quiet mark after a key. -/
def Marks.press (marks : Marks) (standing : Standing) : Marks :=
  { marks with quiet := marks.quiet || standing.cancellation = some true }

theorem guarded_press_same (guarded : Guarded standing marks) :
    Guarded standing (marks.press standing) ∧
      (Silent standing marks → Silent standing (marks.press standing)) := by
  constructor
  · refine ⟨guarded.cancelled, ?_, ?_, guarded.idle⟩
    · intro quiet
      obtain quiet | cancelled := (Bool.or_eq_true _ _).mp quiet
      · exact guarded.quiet quiet
      · exact .inr (.inl (of_decide_eq_true cancelled))
    · intro stranded
      obtain ⟨quiet, settled⟩ := guarded.stranded stranded
      exact ⟨by simp [Marks.press, quiet], settled⟩
  · intro silent quiet
    obtain quiet | cancelled := (Bool.or_eq_true _ _).mp quiet
    · exact silent quiet
    · exact guarded.cancelled (of_decide_eq_true cancelled)

theorem guarded_press {after : Standing} (guarded : Guarded standing marks)
    (pressed : after = standing ∨ after = standing.cancel ∨
      standing.running = false ∧ after = standing.submit) :
    Guarded after (marks.press after) ∧ (Silent standing marks → Silent after (marks.press after)) := by
  obtain rfl | rfl | ⟨idle, rfl⟩ := pressed
  · exact guarded_press_same guarded
  · rw [Standing.cancel]
    cases token : standing.cancellation with
    | none => exact guarded_press_same guarded
    | some cancelled =>
      refine ⟨⟨fun _ => rfl, fun _ => .inr (.inl rfl), ?_, ?_⟩, fun _ _ => rfl⟩
      · intro stranded
        exact ⟨by simp [Marks.press], (guarded.stranded stranded).2⟩
      · intro idle
        rw [guarded.idle idle] at token
        cases token
  · -- No turn was running, so that none was cancelled.
    have token := guarded.idle idle
    refine ⟨⟨fun _ => rfl, ?_, ?_, ?_⟩, fun _ _ => rfl⟩
    · intro quiet
      have quiet' : marks.quiet = true := by simpa [Marks.press, Standing.submit] using quiet
      obtain settled | cancelled | stranded := guarded.quiet quiet'
      · exact .inl settled
      · rw [token] at cancelled
        cases cancelled
      · exact .inr (.inr stranded)
    · intro stranded
      obtain ⟨quiet, settled⟩ := guarded.stranded stranded
      exact ⟨by simp [Marks.press, quiet], settled⟩
    · intro idle
      cases idle

theorem keeps_press {after : Standing} (pressed : after = standing ∨ after = standing.cancel ∨
    standing.running = false ∧ after = standing.submit) : standing.Keeps after := by
  obtain rfl | rfl | ⟨_, rfl⟩ := pressed
  · exact .refl after
  · rw [Standing.cancel]
    cases standing.cancellation with
    | none => exact .refl standing
    | some cancelled => exact ⟨rfl, .inl rfl⟩
  · exact ⟨rfl, .inl rfl⟩

end Steps

/-! ## Runs -/

namespace Marked

variable {display : Value → String} {maximumLogs : Nat} {marked : Marked}

/-- While the loop runs, its standing fits what has ended the request. -/
def Sound (marked : Marked) : Prop :=
  marked.terminal.place ≠ .stopped → Guarded marked.terminal.state.standing marked.marks

/-- A draft that is over is empty. -/
def Quiet (marked : Marked) : Prop :=
  marked.terminal.place ≠ .stopped → Silent marked.terminal.state.standing marked.marks

theorem isCancelled_standing (state : UiState) :
    state.isCancelled = decide (state.standing.cancellation = some true) := rfl

theorem loop_sound (sound : marked.Sound) (key : Option UiState.Key) :
    (marked.step display maximumLogs (.loop key)).Sound ∧
      (marked.Allows (.loop key) → marked.Quiet →
        (marked.step display maximumLogs (.loop key)).Quiet) := by
  obtain ⟨terminal, marks⟩ := marked
  simp only [Sound, Quiet, Allows, step, Terminal.step, Marks.step, Terminal.advance] at sound ⊢
  cases place : terminal.place with
  | events =>
    have guarded := sound (by simp [place])
    obtain ⟨guarded', silent'⟩ := foldl_receive_marks terminal.events guarded
    simp only [UiState.standing_drainEvents]
    exact ⟨fun _ => guarded', fun _ silent _ => silent' (silent (by simp))⟩
  | progress =>
    have guarded := sound (by simp [place])
    simp only [UiState.standing_drainProgress]
    refine ⟨fun _ => guarded_showDraft guarded _, fun allows silent _ => ?_⟩
    apply silent_showDraft guarded (silent (by simp))
    intro stranded uncancelled event member accepts text progress
    apply allows trivial stranded (by simpa [isCancelled_standing] using uncancelled) text
    exact ⟨event, member, accepts.1, accepts.2.1, accepts.2.2.1, progress⟩
  | approvals =>
    have guarded := sound (by simp [place])
    simp only [UiState.standing_drainApprovals]
    exact ⟨fun _ => guarded, fun _ silent _ => silent (by simp)⟩
  | result =>
    have guarded := sound (by simp [place])
    cases results : terminal.results with
    | nil => exact ⟨fun _ => guarded, fun _ silent _ => silent (by simp)⟩
    | cons result results =>
      simp only [UiState.standing_finishTurn]
      exact ⟨fun _ => guarded_finish _, fun _ _ _ _ => rfl⟩
  | key =>
    have guarded := sound (by simp [place])
    cases key with
    | none => exact ⟨fun _ => guarded, fun _ silent _ => silent (by simp)⟩
    | some key =>
      obtain ⟨guarded', silent'⟩ := guarded_press guarded
        (UiState.standing_handleKey maximumLogs key)
      dsimp only
      split
      next quits => exact ⟨fun runs => absurd rfl runs, fun _ _ runs => absurd rfl runs⟩
      next => exact ⟨fun _ => guarded', fun _ silent _ => silent' (silent (by simp))⟩
  | stopped => exact ⟨fun runs => absurd place runs, fun _ _ runs => absurd place runs⟩

theorem step_sound (sound : marked.Sound) (action : Action) :
    (marked.step display maximumLogs action).Sound ∧
      (marked.Allows action → marked.Quiet → (marked.step display maximumLogs action).Quiet) := by
  cases action with
  | loop key => exact loop_sound sound key
  | event | progress | approval | result => exact ⟨sound, fun _ quiet => quiet⟩

theorem run_snoc (threadId : ThreadId) (actions : List Action) (action : Action) :
    run display maximumLogs threadId (actions ++ [action]) =
      (run display maximumLogs threadId actions).step display maximumLogs action := by
  rw [run, List.foldl_append]
  rfl

theorem run_sound (threadId : ThreadId) (actions : List Action) :
    (run display maximumLogs threadId actions).Sound := by
  induction actions using List.reverseRecOn with
  | nil => exact fun _ => ⟨fun _ => rfl, fun quiet => (by cases quiet),
      fun stranded => (by cases stranded), fun _ => rfl⟩
  | append_singleton actions action ih =>
    rw [run_snoc]
    exact (step_sound ih action).1

theorem run_quiet {threadId : ThreadId} {actions : List Action}
    (allowed : ∀ before action, before ++ [action] <+: actions →
      (run display maximumLogs threadId before).Allows action) :
    (run display maximumLogs threadId actions).Quiet := by
  induction actions using List.reverseRecOn with
  | nil => exact fun _ _ => rfl
  | append_singleton actions action ih =>
    rw [run_snoc]
    refine (step_sound (run_sound threadId actions) action).2 (allowed actions action (by simp)) ?_
    exact ih fun before action' early =>
      allowed before action' (early.trans (List.prefix_append actions [action]))

/-! ### Whose text is shown -/

/-- What is shown was delivered and taken, and what is buffered was delivered since. -/
structure Delivers (terminal : Terminal) (taken waiting : List Action) : Prop where
  shown : Tails (delivered terminal.state.standing.threadId terminal.state.standing.currentTurn
    terminal.state.standing.iteration taken) terminal.state.standing.draft.toList
  waits : ∀ event ∈ terminal.buffer.draft, ∀ text, event.progress = .textDelta text →
    Tails (delivered event.threadId (some event.turnId) event.iteration waiting) text.toList
  bounded : (encode terminal.state.standing.draft).length ≤ draftLimit

theorem delivered_append (threadId : ThreadId) (turnId : Option TurnId) (iteration : Nat)
    (first second : List Action) : delivered threadId turnId iteration (first ++ second) =
      delivered threadId turnId iteration first ++ delivered threadId turnId iteration second := by
  simp [delivered]

theorem tails_truncate {parts : List (List Char)} {text : String}
    (holds : Tails parts text.toList) (limit : Nat) : Tails parts (truncate limit text).toList := by
  rw [truncate_tail]
  exact holds.suffix (lastFitting_suffix _ _ _)

theorem truncate_bounded (limit : Nat) (text : String) : (encode (truncate limit text)).length ≤ limit :=
  (isTail_iff.mpr (truncate_tail limit text)).fits

theorem delivers_keeps {taken : List Action} {before after : Standing} (keeps : before.Keeps after)
    (shown : Tails (delivered before.threadId before.currentTurn before.iteration taken)
      before.draft.toList) (bounded : (encode before.draft).length ≤ draftLimit) :
    Tails (delivered after.threadId after.currentTurn after.iteration taken) after.draft.toList ∧
      (encode after.draft).length ≤ draftLimit := by
  rw [keeps.thread]
  obtain empty | ⟨draft, turn, iteration⟩ := keeps.draft
  · rw [empty]
    exact ⟨tails_nil _, Nat.zero_le _⟩
  · rw [draft, turn, iteration]
    exact ⟨shown, bounded⟩

/-- What is buffered for a request is buffered with its names. -/
theorem buffered_eq_some {buffer : Snapshot} {received : ModelProgressEvent} {previous : String}
    (buffered : buffer.buffered received = some previous) :
    ∃ old ∈ buffer.draft, old.SameRequest received ∧ old.progress = .textDelta previous := by
  rw [Snapshot.buffered] at buffered
  cases draft : buffer.draft with
  | none =>
    rw [draft] at buffered
    cases buffered
  | some old =>
    rw [draft] at buffered
    dsimp only at buffered
    cases progress : old.progress with
    | textDelta text =>
      rw [progress] at buffered
      obtain ⟨same, found⟩ := Option.ite_none_right_eq_some.mp buffered
      obtain rfl := Option.some.inj found
      exact ⟨old, rfl, same, progress⟩
    | started | finished =>
      rw [progress] at buffered
      cases buffered

theorem onProgress_waits {buffer : Snapshot} {waiting : List Action}
    (waits : ∀ event ∈ buffer.draft, ∀ text, event.progress = .textDelta text →
      Tails (delivered event.threadId (some event.turnId) event.iteration waiting) text.toList)
    (received : ModelProgressEvent) (failure : Option String) :
    ∀ event ∈ (buffer.onProgress received failure).draft, ∀ text,
      event.progress = .textDelta text →
      Tails (delivered event.threadId (some event.turnId) event.iteration
        (waiting ++ [.progress received failure])) text.toList := by
  intro event member text progress
  rw [delivered_append]
  cases kind : received.progress with
  | started =>
    rw [Snapshot.onProgress, kind] at member
    obtain rfl := Option.some.inj member
    rw [kind] at progress
    cases progress
  | finished timings outcome =>
    rw [Snapshot.onProgress, kind] at member
    exact (waits event member text progress).later _
  | textDelta delta =>
    have last : delivered received.threadId (some received.turnId) received.iteration
        [.progress received failure] = [delta.toList] := by
      simp [delivered, Action.textFor, kind]
    rw [Snapshot.onProgress, kind] at member
    obtain rfl := Option.some.inj member
    dsimp only at progress ⊢
    obtain rfl := ModelProgress.textDelta.inj progress
    rw [last]
    cases buffered : buffer.buffered received with
    | none =>
      apply tails_truncate
      rw [← List.nil_append delta.toList]
      exact (tails_nil _).append (tails_singleton List.suffix_rfl)
    | some previous =>
      obtain ⟨old, draft, ⟨turn, iteration, thread⟩, progress⟩ := buffered_eq_some buffered
      have before := waits old draft previous progress
      rw [thread, turn, iteration] at before
      apply tails_truncate
      rw [String.toList_append]
      exact before.append (tails_singleton List.suffix_rfl)

theorem showDraft_delivers {standing : Standing} {taken waiting : List Action}
    {draft : Option ModelProgressEvent}
    (shown : Tails (delivered standing.threadId standing.currentTurn standing.iteration taken)
      standing.draft.toList)
    (waits : ∀ event ∈ draft, ∀ text, event.progress = .textDelta text →
      Tails (delivered event.threadId (some event.turnId) event.iteration waiting) text.toList)
    (bounded : (encode standing.draft).length ≤ draftLimit) :
    Tails (delivered (standing.showDraft draft).threadId (standing.showDraft draft).currentTurn
        (standing.showDraft draft).iteration (taken ++ waiting))
      (standing.showDraft draft).draft.toList ∧
      (encode (standing.showDraft draft).draft).length ≤ draftLimit := by
  have same : Tails (delivered standing.threadId standing.currentTurn standing.iteration
      (taken ++ waiting)) standing.draft.toList := by
    rw [delivered_append]
    exact shown.later _
  cases draft with
  | none => exact ⟨same, bounded⟩
  | some event =>
    rw [Standing.showDraft]
    split
    next accepts =>
      cases progress : event.progress with
      | textDelta text =>
        have added := waits event rfl text progress
        rw [accepts.1, accepts.2.1, accepts.2.2.1] at added
        refine ⟨tails_truncate ?_ _, truncate_bounded _ _⟩
        rw [delivered_append, String.toList_append]
        exact shown.append added
      | started => exact ⟨same, bounded⟩
      | finished timings outcome => exact ⟨same, bounded⟩
    next => exact ⟨same, bounded⟩

theorem advance_delivers {terminal : Terminal} {taken waiting : List Action}
    (delivers : Delivers terminal taken waiting) (key : Option UiState.Key) :
    ∃ taken' waiting', taken' ++ waiting' = taken ++ waiting ++ [.loop key] ∧
      Delivers (terminal.advance display maximumLogs key) taken' waiting' := by
  have nothing : ∀ threadId turnId iteration actions,
      delivered threadId turnId iteration (actions ++ [.loop key]) =
        delivered threadId turnId iteration actions := by
    intro threadId turnId iteration actions
    rw [delivered_append]
    exact List.append_nil _
  -- The draft stays with its request, and the buffer as it is.
  have kept : ∀ terminal', terminal'.buffer = terminal.buffer →
      terminal.state.standing.Keeps terminal'.state.standing → ∃ taken' waiting',
        taken' ++ waiting' = taken ++ waiting ++ [.loop key] ∧ Delivers terminal' taken' waiting' := by
    intro terminal' buffer keeps
    obtain ⟨shown, bounded⟩ := delivers_keeps keeps delivers.shown delivers.bounded
    refine ⟨taken, waiting ++ [.loop key], by rw [List.append_assoc], shown, ?_, bounded⟩
    intro event member text progress
    rw [nothing]
    rw [buffer] at member
    exact delivers.waits event member text progress
  unfold Terminal.advance
  cases terminal.place with
  | events =>
    apply kept
    · rfl
    rw [UiState.standing_drainEvents]
    exact foldl_receive_keeps _ _
  | progress =>
    obtain ⟨shown, bounded⟩ := showDraft_delivers delivers.shown delivers.waits delivers.bounded
    refine ⟨taken ++ waiting ++ [.loop key], [], List.append_nil _, ?_, ?_, ?_⟩
    · dsimp only
      rw [UiState.standing_drainProgress, nothing]
      exact shown
    · intro event member
      cases member
    · dsimp only
      rw [UiState.standing_drainProgress]
      exact bounded
  | approvals =>
    apply kept
    · rfl
    rw [UiState.standing_drainApprovals]
    exact .refl _
  | result =>
    dsimp only
    cases terminal.results with
    | nil => exact kept _ rfl (.refl _)
    | cons result results =>
      apply kept
      · rfl
      dsimp only
      rw [UiState.standing_finishTurn, UiState.standing_drainEvents]
      exact (foldl_receive_keeps _ _).trans ⟨rfl, .inl rfl⟩
  | key =>
    cases key with
    | none => exact kept _ rfl (.refl _)
    | some key =>
      have keeps : terminal.state.standing.Keeps
          (terminal.state.handleKey maximumLogs key).state.standing :=
        keeps_press (UiState.standing_handleKey maximumLogs key)
      dsimp only
      split
      next =>
        -- The token is cancelled on the way out; the draft is not looked at again.
        have denied : terminal.state.standing.Keeps
            (terminal.state.handleKey maximumLogs key).state.denyPending.standing := by
          rw [UiState.standing_denyPending]
          exact keeps
        apply kept
        · rfl
        exact denied.trans ⟨rfl, .inr ⟨rfl, rfl, rfl⟩⟩
      next => exact kept _ rfl keeps
  | stopped => exact kept _ rfl (.refl _)

variable (display maximumLogs) in
theorem run_delivers (threadId : ThreadId) (actions : List Action) :
    ∃ taken waiting, taken ++ waiting = actions ∧
      Delivers (run display maximumLogs threadId actions).terminal taken waiting := by
  induction actions using List.reverseRecOn with
  | nil =>
    refine ⟨[], [], rfl, tails_nil _, ?_, Nat.zero_le _⟩
    intro event member
    cases member
  | append_singleton actions action ih =>
    obtain ⟨taken, waiting, rfl, delivers⟩ := ih
    rw [run_snoc]
    cases action with
    | loop key => exact advance_delivers delivers key
    | progress received failure =>
      exact ⟨taken, waiting ++ [Action.progress received failure], by rw [List.append_assoc],
        delivers.shown, onProgress_waits delivers.waits received failure, delivers.bounded⟩
    | event | approval | result =>
      refine ⟨taken, waiting ++ [_], by rw [List.append_assoc], delivers.shown, ?_, delivers.bounded⟩
      intro event member text progress
      rw [delivered_append]
      exact (delivers.waits event member text progress).later _

theorem run_shows {threadId : ThreadId} {actions : List Action}
    (quiet : (run display maximumLogs threadId actions).Quiet)
    (runs : (run display maximumLogs threadId actions).terminal.place ≠ .stopped) :
    (run display maximumLogs threadId actions).Shows actions := by
  obtain ⟨taken, waiting, whole, delivers⟩ :=
    run_delivers display maximumLogs threadId actions
  refine ⟨quiet runs, ?_, delivers.bounded⟩
  have own := delivers.shown.later (delivered
    (run display maximumLogs threadId actions).terminal.state.standing.threadId
    (run display maximumLogs threadId actions).terminal.state.standing.currentTurn
    (run display maximumLogs threadId actions).terminal.state.standing.iteration waiting)
  rw [← delivered_append, whole] at own
  exact own

variable (display maximumLogs) in
/-- Text of a request that only a result has ended revives the draft. -/
theorem step_revives {action : Action} (sound : marked.Sound) (forbidden : ¬ marked.Allows action) :
    (marked.step display maximumLogs action).terminal.place ≠ .stopped ∧
      (marked.step display maximumLogs action).marks.quiet = true ∧
      (marked.step display maximumLogs action).terminal.state.draft ≠ "" := by
  cases action with
  | loop key =>
    obtain ⟨terminal, marks⟩ := marked
    simp only [Allows, Waits, not_forall] at forbidden
    obtain ⟨place, stranded, uncancelled, text, ⟨event, member, thread, turn, iteration, progress⟩,
      filled⟩ := forbidden
    have guarded := sound (by simp [place])
    obtain ⟨quiet, settled⟩ := guarded.stranded stranded
    have accepts : terminal.state.standing.Accepts event := by
      refine ⟨thread, turn, iteration, settled, ?_⟩
      simpa [isCancelled_standing] using uncancelled
    have shown : (terminal.state.drainProgress terminal.buffer).draft =
        appendBounded terminal.state.draft text := by
      have taken := congrArg Standing.draft
        (@UiState.standing_drainProgress terminal.state terminal.buffer)
      rw [Option.mem_def.mp member, Standing.showDraft, if_pos accepts, progress] at taken
      exact taken
    simp only [step, Terminal.step, Terminal.advance, Marks.step, place]
    refine ⟨by simp, quiet, ?_⟩
    rw [shown]
    exact appendBounded_ne_empty _ filled
  | event | progress | approval | result => exact absurd trivial forbidden

end Marked

/-- In every run of the terminal, what the draft shows was delivered for its request, and it is empty
from when the request was settled, cancelled or finished until the next one begins, if and only if
the loop never takes text of a request that only its result has ended. -/
theorem draft_settled (display : Value → String) (maximumLogs : Nat) (threadId : ThreadId)
    (actions : List Action) :
    (∀ before, before <+: actions →
      (Marked.run display maximumLogs threadId before).terminal.place ≠ .stopped →
      (Marked.run display maximumLogs threadId before).Shows before) ↔
    ∀ before action, before ++ [action] <+: actions →
      (Marked.run display maximumLogs threadId before).Allows action := by
  constructor
  · intro shows before action early
    by_contra forbidden
    obtain ⟨runs, quiet, draft⟩ := Marked.step_revives display maximumLogs
      (Marked.run_sound threadId before) forbidden
    rw [← Marked.run_snoc] at runs quiet draft
    exact draft ((shows _ early runs).quiet quiet)
  · intro allowed before early runs
    apply Marked.run_shows _ runs
    exact Marked.run_quiet fun before' action early' => allowed before' action (early'.trans early)

/-- A turn whose store fails: its last text comes when the pass has looked for it, and then the
result without an event that ends the turn. -/
def storeFails : List Action :=
  let event (event : Core.RuntimeEvent) : Action :=
    .event ⟨⟨"event"⟩, 0, 0, ⟨"thread"⟩, some ⟨"turn"⟩, event⟩
  let progress (progress : ModelProgress) : Action :=
    .progress ⟨⟨"thread"⟩, ⟨"turn"⟩, 0, progress⟩ none
  let pass (key : Option UiState.Key) : List Action := List.replicate 4 (.loop none) ++ [.loop key]
  let turn : List Action := [event .turnStarted, event (.modelRequestStarted 0), progress .started,
    .loop none, .loop none, progress (.textDelta "late"), .result (.error "store"),
    .loop none, .loop none, .loop none, .loop none, .loop none]
  pass (some (.char 'h')) ++ pass (some .enter) ++ turn

theorem draft_revives : ¬ ∀ before, before <+: storeFails →
    (Marked.run (fun _ => "") 200 ⟨"thread"⟩ before).terminal.place ≠ .stopped →
    (Marked.run (fun _ => "") 200 ⟨"thread"⟩ before).Shows before := by
  intro shows
  have quiet := (shows storeFails List.prefix_rfl (by decide)).quiet rfl
  have late : (Marked.run (fun _ => "") 200 ⟨"thread"⟩ storeFails).terminal.state.draft = "late" := rfl
  rw [late] at quiet
  exact absurd quiet (by decide)

end Nausicaa.Tui
