import Nausicaa.Tui.Standing

/-! # The live draft

The text of one model request on its way into the draft, beside the passes of the loop.  The draft is
the tail of the whole text exactly where no pass that began before the request was announced took text
that would show, and no part was cut where earlier text still shows (`draft_shows`). -/

namespace Nausicaa.Tui

open Core (EventEnvelope ThreadId TurnId)
open Json (Value)
open Text (Complete IsTail collect collect_fits collect_eq_iff collect_snoc isTail_iff lastFitting
  lastFitting_append lastFitting_self total truncate_tail width)

/-! ## One request -/

/-- A model request, and the texts that are streamed for it. -/
structure Streamed where
  threadId : ThreadId
  turnId : TurnId
  iteration : Nat
  deltas : List String

namespace Streamed

def event (streamed : Streamed) (progress : ModelProgress) : ModelProgressEvent :=
  ⟨streamed.threadId, streamed.turnId, streamed.iteration, progress⟩

def delta (streamed : Streamed) (text : String) : Action :=
  .progress (streamed.event (.textDelta text)) none

/-- What the runtime does for the request, in its order. -/
def script (streamed : Streamed) (start : EventEnvelope) : List Action :=
  .event start :: .progress (streamed.event .started) none :: streamed.deltas.map streamed.delta

/-- The start of the request as the runtime announces it. -/
structure Announces (streamed : Streamed) (start : EventEnvelope) : Prop where
  thread : start.threadId = streamed.threadId
  request : start.event = .modelRequestStarted streamed.iteration

end Streamed

/-- The key only edits what is typed, or answers an approval. -/
def UiState.Key.edits : UiState.Key → Bool
  | .char _ | .backspace | .other => true
  | .controlC | .enter | .escape => false

/-- A step of the loop in which no key ends or begins a turn. -/
def Action.Idle : Action → Prop
  | .loop key => ∀ pressed ∈ key, pressed.edits
  | _ => False

/-- Some actions of the runtime in their order, and idle steps of the loop anywhere. -/
inductive Interleaves : List Action → List Action → Prop
  | done : Interleaves [] []
  | sent {action : Action} {script actions : List Action} :
    Interleaves script actions → Interleaves (action :: script) (action :: actions)
  | looped {action : Action} {script actions : List Action} :
    action.Idle → Interleaves script actions → Interleaves script (action :: actions)

/-- The terminal in front of the request: it will have drained the start of its turn, the turn is not
cancelled, and nothing of the request is there. -/
structure Ready (streamed : Streamed) (terminal : Terminal) : Prop where
  thread : terminal.state.threadId = streamed.threadId
  turn : (terminal.events.foldl Standing.receive terminal.state.standing).currentTurn =
    some streamed.turnId
  uncancelled : terminal.state.cancellation ≠ some true
  results : terminal.results = []
  fresh : ∀ old ∈ terminal.buffer.draft, ¬ old.SameRequest (streamed.event .started)

/-! ## What the passes take -/

/-- How far the start of the request has come. -/
inductive Known where
  | unsent | sent | drained
  deriving DecidableEq

/-- A schedule as the text sees it: what waits, what a pass took before it had drained the start, and
what each later pass took. -/
structure Watch where
  place : Place
  known : Known
  waiting : List Char
  lost : List Char
  parts : List (List Char)

namespace Watch

def start (place : Place) : Watch := ⟨place, .unsent, [], [], []⟩

/-- A pass takes what waits. -/
def take (watch : Watch) : Watch :=
  match watch.known with
  | .drained => { watch with parts := watch.parts ++ [watch.waiting], waiting := [] }
  | .unsent | .sent => { watch with lost := watch.lost ++ watch.waiting, waiting := [] }

def advance (watch : Watch) : Watch :=
  match watch.place with
  | .events =>
    { watch with
      known := if watch.known = .unsent then .unsent else .drained
      place := .progress }
  | .progress => { watch.take with place := .approvals }
  | .approvals => { watch with place := .result }
  | .result => { watch with place := .key }
  | .key => { watch with place := .events }
  | .stopped => watch

def step (watch : Watch) : Action → Watch
  | .event _ => { watch with known := .sent }
  | .progress event _ =>
    match event.progress with
    | .textDelta text => { watch with waiting := watch.waiting ++ text.toList }
    | _ => watch
  | .loop _ => watch.advance
  | .approval _ | .result _ => watch

def run (watch : Watch) (actions : List Action) : Watch := actions.foldl step watch

/-- All the text so far. -/
def text (watch : Watch) : List Char := watch.lost ++ watch.parts.flatten ++ watch.waiting

end Watch

/-! ## Standings -/

namespace Standing

variable {standing : Standing}

theorem receive_keeps (standing : Standing) (event : EventEnvelope) :
    (standing.receive event).threadId = standing.threadId ∧
      (standing.receive event).cancellation = standing.cancellation := by
  rw [receive]
  split
  · cases event.event <;> exact ⟨rfl, rfl⟩
  · exact ⟨rfl, rfl⟩

theorem foldl_receive_keeps (events : List EventEnvelope) (standing : Standing) :
    (events.foldl receive standing).threadId = standing.threadId ∧
      (events.foldl receive standing).cancellation = standing.cancellation := by
  induction events generalizing standing with
  | nil => exact ⟨rfl, rfl⟩
  | cons event events ih =>
    obtain ⟨thread, cancellation⟩ := receive_keeps standing event
    rw [List.foldl_cons, (ih _).1, (ih _).2, thread, cancellation]
    exact ⟨rfl, rfl⟩

/-- The draft has no influence on anything else. -/
theorem receive_draft (standing : Standing) (draft : String) (event : EventEnvelope) :
    ∃ draft', { standing with draft }.receive event = { standing.receive event with draft := draft' } := by
  rw [receive, receive]
  by_cases own : event.threadId = standing.threadId
  · simp only [own, if_true]
    -- The event empties the draft, or leaves it.
    cases event.event <;> first | exact ⟨"", rfl⟩ | exact ⟨draft, rfl⟩
  · simp only [own, if_false]
    exact ⟨draft, rfl⟩

theorem foldl_receive_turn (events : List EventEnvelope) (standing : Standing) (draft : String) :
    (events.foldl receive { standing with draft }).currentTurn =
      (events.foldl receive standing).currentTurn := by
  induction events generalizing standing draft with
  | nil => rfl
  | cons event events ih =>
    obtain ⟨draft', same⟩ := receive_draft standing draft event
    rw [List.foldl_cons, List.foldl_cons, same, ih]

theorem showDraft_draft (standing : Standing) (taken : Option ModelProgressEvent) :
    ∃ draft, standing.showDraft taken = { standing with draft } := by
  cases taken with
  | none => exact ⟨standing.draft, rfl⟩
  | some event =>
    rw [showDraft]
    split
    · cases event.progress <;> exact ⟨_, rfl⟩
    · exact ⟨standing.draft, rfl⟩

end Standing

/-! ## The terminal beside its schedule -/

/-- The buffer has the tail of the text that waits. -/
def Buffered (streamed : Streamed) (buffer : Snapshot) (waiting : List Char) : Prop :=
  match buffer.buffered (streamed.event .started) with
  | some text => text.toList = lastFitting width draftLimit waiting
  | none => waiting = []

/-- What holds in front of the announcement, behind it, and when it has been drained. -/
def Stage (streamed : Streamed) (start : EventEnvelope) (terminal : Terminal) (watch : Watch) :
    Known → Prop
  | .unsent =>
    (terminal.events.foldl Standing.receive terminal.state.standing).currentTurn =
      some streamed.turnId ∧ watch.parts = [] ∧ watch.lost = [] ∧ watch.waiting = [] ∧
      ∀ old ∈ terminal.buffer.draft, ¬ old.SameRequest (streamed.event .started)
  | .sent =>
    (∃ earlier, terminal.events = earlier ++ [start] ∧
      (earlier.foldl Standing.receive terminal.state.standing).currentTurn = some streamed.turnId) ∧
      watch.parts = [] ∧ Buffered streamed terminal.buffer watch.waiting
  | .drained =>
    terminal.events = [] ∧ terminal.state.standing.currentTurn = some streamed.turnId ∧
      terminal.state.standing.iteration = streamed.iteration ∧
      terminal.state.standing.settled = false ∧
      terminal.state.standing.draft.toList = collect width draftLimit watch.parts ∧
      Buffered streamed terminal.buffer watch.waiting

structure Follows (streamed : Streamed) (start : EventEnvelope) (terminal : Terminal)
    (watch : Watch) : Prop where
  place : terminal.place = watch.place
  results : terminal.results = []
  thread : terminal.state.standing.threadId = streamed.threadId
  uncancelled : terminal.state.standing.cancellation ≠ some true
  stage : Stage streamed start terminal watch watch.known

section Run

variable {streamed : Streamed} {start : EventEnvelope} {terminal : Terminal} {watch : Watch}
variable {display : Value → String} {maximumLogs : Nat}

theorem buffered_empty : Buffered streamed .empty [] := rfl

theorem buffered_fresh {buffer : Snapshot}
    (fresh : ∀ old ∈ buffer.draft, ¬ old.SameRequest (streamed.event .started)) :
    Buffered streamed buffer [] := by
  rw [Buffered, Snapshot.buffered]
  cases draft : buffer.draft with
  | none => rfl
  | some old =>
    dsimp only
    cases old.progress with
    | textDelta text =>
      dsimp only
      rw [if_neg (fresh old draft)]
    | started => rfl
    | finished timings outcome => rfl

theorem buffered_delta {buffer : Snapshot} {waiting : List Char}
    (holds : Buffered streamed buffer waiting) (text : String) :
    Buffered streamed (buffer.onProgress (streamed.event (.textDelta text)) none)
      (waiting ++ text.toList) := by
  have stored : ∀ text', (Snapshot.mk
      (some (streamed.event (.textDelta text'))) buffer.completed buffer.error).buffered
        (streamed.event .started) = some text' := by
    intro text'
    rw [Snapshot.buffered]
    exact if_pos ⟨rfl, rfl, rfl⟩
  rw [Buffered] at holds
  cases previous : buffer.buffered (streamed.event .started) with
  | none =>
    rw [previous] at holds
    dsimp only at holds
    subst holds
    have taken : buffer.onProgress (streamed.event (.textDelta text)) none =
        ⟨some (streamed.event (.textDelta (Text.truncate draftLimit text))), buffer.completed,
          buffer.error⟩ := by
      have same : buffer.buffered (streamed.event (.textDelta text)) = none := previous
      rw [Snapshot.onProgress, same]
      rfl
    rw [taken, Buffered, stored]
    dsimp only
    rw [truncate_tail, List.nil_append]
  | some before =>
    rw [previous] at holds
    dsimp only at holds
    have taken : buffer.onProgress (streamed.event (.textDelta text)) none =
        ⟨some (streamed.event (.textDelta (appendBounded before text))), buffer.completed,
          buffer.error⟩ := by
      have same : buffer.buffered (streamed.event (.textDelta text)) = some before := previous
      rw [Snapshot.onProgress, same]
      rfl
    rw [taken, Buffered, stored]
    dsimp only
    rw [appendBounded, truncate_tail, String.toList_append, holds, lastFitting_append]

/-- What a pass that knows the request makes of the draft. -/
theorem showDraft_buffered {standing : Standing} {buffer : Snapshot} {parts : List (List Char)}
    {waiting : List Char} (holds : Buffered streamed buffer waiting)
    (thread : standing.threadId = streamed.threadId)
    (turn : standing.currentTurn = some streamed.turnId)
    (iteration : standing.iteration = streamed.iteration) (settled : standing.settled = false)
    (uncancelled : standing.cancellation ≠ some true)
    (shown : standing.draft.toList = collect width draftLimit parts) :
    (standing.showDraft buffer.draft).draft.toList =
      collect width draftLimit (parts ++ [waiting]) := by
  have accepts : ∀ event, standing.Accepts event ↔ event.SameRequest (streamed.event .started) := by
    intro event
    simp only [Standing.Accepts, ModelProgressEvent.SameRequest, Streamed.event, thread, turn,
      iteration, settled, Option.some.injEq]
    constructor
    · rintro ⟨thread, turn, iteration, _⟩
      exact ⟨turn, iteration, thread⟩
    · rintro ⟨turn, iteration, thread⟩
      exact ⟨thread, turn, iteration, trivial, uncancelled⟩
  rw [collect_snoc]
  have same : waiting = [] → standing.draft.toList =
      lastFitting width draftLimit (collect width draftLimit parts ++
        lastFitting width draftLimit waiting) := by
    rintro rfl
    rw [lastFitting, List.append_nil, lastFitting_self (collect_fits parts), shown]
  rw [Buffered, Snapshot.buffered] at holds
  cases draft : buffer.draft with
  | none =>
    rw [draft] at holds
    exact same holds
  | some event =>
    rw [draft] at holds
    rw [Standing.showDraft]
    dsimp only at holds
    by_cases own : event.SameRequest (streamed.event .started)
    · rw [if_pos ((accepts event).mpr own)]
      cases progress : event.progress with
      | textDelta text =>
        rw [progress] at holds
        dsimp only at holds ⊢
        rw [if_pos own] at holds
        rw [appendBounded, truncate_tail, String.toList_append, shown, holds]
      | started =>
        rw [progress] at holds
        exact same holds
      | finished timings outcome =>
        rw [progress] at holds
        exact same holds
    · rw [if_neg (mt (accepts event).mp own)]
      have none : waiting = [] := by
        cases progress : event.progress with
        | textDelta text =>
          rw [progress] at holds
          dsimp only at holds
          rwa [if_neg own] at holds
        | started =>
          rw [progress] at holds
          exact holds
        | finished timings outcome =>
          rw [progress] at holds
          exact holds
      exact same none


/-! ### One step -/

theorem Follows.parts (holds : Follows streamed start terminal watch)
    (early : watch.known ≠ .drained) : watch.parts = [] := by
  have stage := holds.stage
  cases known : watch.known with
  | unsent =>
    rw [known] at stage
    exact stage.2.1
  | sent =>
    rw [known] at stage
    exact stage.2.1
  | drained => exact absurd known early

theorem Follows.loop_text (holds : Follows streamed start terminal watch)
    (key : Option UiState.Key) : (watch.step (.loop key)).text = watch.text := by
  rw [Watch.step, Watch.advance]
  cases watch.place with
  | progress =>
    dsimp only
    rw [Watch.take]
    cases known : watch.known with
    | unsent | sent => simp [Watch.text, holds.parts (by simp [known])]
    | drained => simp [Watch.text]
  | events | approvals | result | key | stopped => rfl

theorem step_loop_known (watch : Watch) (key : Option UiState.Key) :
    (watch.step (.loop key)).known = .unsent ↔ watch.known = .unsent := by
  rw [Watch.step, Watch.advance]
  cases watch.place with
  | progress =>
    dsimp only
    rw [Watch.take]
    cases watch.known <;> rfl
  | events =>
    dsimp only
    split
    next unsent => simp [unsent]
    next sent => simp [sent]
  | approvals | result | key | stopped => rfl

theorem handleKey_edits (state : UiState) (maximumLogs : Nat) {key : UiState.Key}
    (edits : key.edits) :
    (state.handleKey maximumLogs key).state.standing = state.standing ∧
      (state.handleKey maximumLogs key).quit = false := by
  cases key with
  | char character =>
    simp only [UiState.handleKey]
    split
    · exact ⟨UiState.standing_answerKey _, rfl⟩
    · exact ⟨rfl, rfl⟩
  | backspace | other =>
    simp only [UiState.handleKey]
    split <;> exact ⟨rfl, rfl⟩
  | controlC | enter | escape => cases edits

theorem follows_events (holds : Follows streamed start terminal watch)
    (announced : streamed.Announces start) (place : watch.place = .events)
    (key : Option UiState.Key) :
    Follows streamed start (terminal.step display maximumLogs (.loop key)) (watch.step (.loop key)) := by
  have place' : terminal.place = .events := holds.place.trans place
  have drained : (terminal.state.drainEvents display maximumLogs terminal.events).standing =
      terminal.events.foldl Standing.receive terminal.state.standing :=
    UiState.standing_drainEvents display maximumLogs terminal.events
  have kept := Standing.foldl_receive_keeps terminal.events terminal.state.standing
  have stage := holds.stage
  simp only [Terminal.step, Terminal.advance, place', Watch.step, Watch.advance, place]
  constructor
  · rfl
  · exact holds.results
  · rw [drained, kept.1, holds.thread]
  · rw [drained, kept.2]
    exact holds.uncancelled
  · dsimp only
    cases known : watch.known with
    | unsent =>
      rw [known] at stage
      obtain ⟨turn, nothing⟩ := stage
      rw [if_pos rfl]
      refine ⟨?_, nothing⟩
      dsimp only [List.foldl_nil]
      rw [drained, turn]
    | sent =>
      rw [known] at stage
      obtain ⟨⟨earlier, events, turn⟩, parts, buffered⟩ := stage
      rw [if_neg (by simp)]
      -- The start is the last of the events, and empties the draft.
      have received : (terminal.state.drainEvents display maximumLogs terminal.events).standing =
          { earlier.foldl Standing.receive terminal.state.standing with
            iteration := streamed.iteration, settled := false, draft := "" } := by
        have own : start.threadId =
            (earlier.foldl Standing.receive terminal.state.standing).threadId := by
          rw [(Standing.foldl_receive_keeps _ _).1, holds.thread, announced.thread]
        rw [drained, events, List.foldl_append, List.foldl_cons, List.foldl_nil, Standing.receive,
          if_pos own, announced.request]
      refine ⟨rfl, ?_⟩
      dsimp only
      rw [received, parts]
      exact ⟨turn, rfl, rfl, rfl, buffered⟩
    | drained =>
      rw [known] at stage
      obtain ⟨events, stage⟩ := stage
      rw [if_neg (by simp)]
      refine ⟨rfl, ?_⟩
      dsimp only
      rw [drained, events]
      exact stage

theorem follows_progress (holds : Follows streamed start terminal watch)
    (place : watch.place = .progress) (key : Option UiState.Key) :
    Follows streamed start (terminal.step display maximumLogs (.loop key)) (watch.step (.loop key)) := by
  have place' : terminal.place = .progress := holds.place.trans place
  have shown : (terminal.state.drainProgress terminal.buffer).standing =
      terminal.state.standing.showDraft terminal.buffer.draft :=
    UiState.standing_drainProgress terminal.buffer
  obtain ⟨draft, same⟩ := Standing.showDraft_draft terminal.state.standing terminal.buffer.draft
  have stage := holds.stage
  have thread := holds.thread
  have uncancelled := holds.uncancelled
  simp only [Terminal.step, Terminal.advance, place', Watch.step, Watch.advance, place]
  have known' : watch.take.known = watch.known := by
    rw [Watch.take]
    cases watch.known <;> rfl
  constructor
  · rfl
  · exact holds.results
  · dsimp only
    rw [shown, same]
    exact thread
  · dsimp only
    rw [shown, same]
    exact uncancelled
  · dsimp only
    rw [known']
    cases known : watch.known with
    | unsent =>
      rw [known] at stage
      obtain ⟨turn, parts, lost, waiting, _⟩ := stage
      refine ⟨?_, ?_⟩
      · dsimp only
        rw [shown, same, Standing.foldl_receive_turn, turn]
      · simp [Watch.take, known, parts, lost, waiting, Snapshot.empty]
    | sent =>
      rw [known] at stage
      obtain ⟨⟨earlier, events, turn⟩, parts, buffered⟩ := stage
      refine ⟨⟨earlier, events, ?_⟩, ?_⟩
      · dsimp only
        rw [shown, same, Standing.foldl_receive_turn, turn]
      · rw [Watch.take, known]
        exact ⟨parts, buffered_empty⟩
    | drained =>
      rw [known] at stage
      obtain ⟨events, turn, iteration, settled, draft', buffered⟩ := stage
      have collected := showDraft_buffered buffered thread turn iteration settled uncancelled draft'
      refine ⟨events, ?_⟩
      dsimp only
      rw [Watch.take, known, shown]
      refine ⟨?_, ?_, ?_, collected, buffered_empty⟩ <;> rw [same]
      · exact turn
      · exact iteration
      · exact settled

theorem follows_loop (holds : Follows streamed start terminal watch)
    (announced : streamed.Announces start) {key : Option UiState.Key}
    (edits : ∀ pressed ∈ key, pressed.edits) :
    Follows streamed start (terminal.step display maximumLogs (.loop key)) (watch.step (.loop key)) := by
  -- The standing and the channels stay as they are.
  have moved : ∀ terminal' watch', terminal'.place = watch'.place →
      terminal'.state.standing = terminal.state.standing → terminal'.events = terminal.events →
      terminal'.buffer = terminal.buffer → terminal'.results = terminal.results →
      watch'.known = watch.known → watch'.waiting = watch.waiting → watch'.lost = watch.lost →
      watch'.parts = watch.parts → Follows streamed start terminal' watch' := by
    intro terminal' watch' place standing events buffer results known waiting lost parts
    have stage := holds.stage
    refine ⟨place, results.trans holds.results, by rw [standing, holds.thread],
      by rw [standing]; exact holds.uncancelled, ?_⟩
    rw [known]
    cases known' : watch.known <;> rw [known'] at stage <;>
      simp only [Stage, standing, events, buffer, waiting, lost, parts] <;> exact stage
  cases place : watch.place with
  | events => exact follows_events holds announced place key
  | progress => exact follows_progress holds place key
  | approvals =>
    have place' : terminal.place = .approvals := holds.place.trans place
    apply moved <;> simp [Terminal.step, Terminal.advance, Watch.step, Watch.advance, place, place']
  | result =>
    have place' : terminal.place = .result := holds.place.trans place
    apply moved <;>
      simp [Terminal.step, Terminal.advance, Watch.step, Watch.advance, place, place', holds.results]
  | key =>
    have place' : terminal.place = .key := holds.place.trans place
    cases key with
    | none =>
      apply moved <;> simp [Terminal.step, Terminal.advance, Watch.step, Watch.advance, place, place']
    | some pressed =>
      obtain ⟨same, stays⟩ := handleKey_edits terminal.state maximumLogs (edits pressed rfl)
      apply moved <;>
        simp [Terminal.step, Terminal.advance, Watch.step, Watch.advance, place, place', same, stays]
  | stopped =>
    have place' : terminal.place = .stopped := holds.place.trans place
    apply moved <;> simp [Terminal.step, Terminal.advance, Watch.step, Watch.advance, place, place']

variable (display maximumLogs) in
theorem follows_event (holds : Follows streamed start terminal watch)
    (unsent : watch.known = .unsent) :
    Follows streamed start (terminal.step display maximumLogs (.event start))
      (watch.step (.event start)) := by
  have stage := holds.stage
  rw [unsent] at stage
  obtain ⟨turn, parts, lost, waiting, fresh⟩ := stage
  refine ⟨holds.place, holds.results, holds.thread, holds.uncancelled, ?_⟩
  refine ⟨⟨terminal.events, rfl, turn⟩, parts, ?_⟩
  simp only [Terminal.step, Watch.step, waiting]
  exact buffered_fresh fresh

/-- The buffer after the runtime added to it, before the loop takes it. -/
theorem follows_progressed (holds : Follows streamed start terminal watch)
    (sent : watch.known ≠ .unsent) {event : ModelProgressEvent} {waiting : List Char}
    (buffered : Buffered streamed terminal.buffer watch.waiting →
      Buffered streamed (terminal.buffer.onProgress event none) waiting) :
    Follows streamed start (terminal.step display maximumLogs (.progress event none))
      { watch with waiting } := by
  have stage := holds.stage
  refine ⟨holds.place, holds.results, holds.thread, holds.uncancelled, ?_⟩
  dsimp only [Terminal.step]
  cases known : watch.known with
  | unsent => exact absurd known sent
  | sent =>
    rw [known] at stage
    obtain ⟨events, parts, before⟩ := stage
    exact ⟨events, parts, buffered before⟩
  | drained =>
    rw [known] at stage
    obtain ⟨events, turn, iteration, settled, draft, before⟩ := stage
    exact ⟨events, turn, iteration, settled, draft, buffered before⟩

variable (display maximumLogs) in
theorem follows_started (holds : Follows streamed start terminal watch)
    (sent : watch.known ≠ .unsent) (silent : watch.waiting = []) :
    Follows streamed start
      (terminal.step display maximumLogs (.progress (streamed.event .started) none))
      (watch.step (.progress (streamed.event .started) none)) := by
  have same : watch.step (.progress (streamed.event .started) none) = { watch with waiting := [] } := by
    rw [← silent]
    rfl
  rw [same]
  exact follows_progressed holds sent fun _ => rfl

theorem follows_delta (holds : Follows streamed start terminal watch)
    (sent : watch.known ≠ .unsent) (text : String) :
    Follows streamed start (terminal.step display maximumLogs (streamed.delta text))
      (watch.step (streamed.delta text)) :=
  follows_progressed holds sent fun before => buffered_delta before text

/-! ### Schedules -/

theorem Interleaves.cons {action : Action} {script actions : List Action}
    (interleaved : Interleaves (action :: script) actions) :
    ∃ idle after, actions = idle ++ action :: after ∧ (∀ action ∈ idle, action.Idle) ∧
      Interleaves script after := by
  generalize whole : action :: script = sent at interleaved
  induction interleaved with
  | done => cases whole
  | sent rest _ =>
    obtain ⟨rfl, rfl⟩ := List.cons.inj whole
    exact ⟨[], _, rfl, by simp, rest⟩
  | looped isIdle _ ih =>
    obtain ⟨idle, after, rfl, idles, rest⟩ := ih whole
    refine ⟨_ :: idle, after, rfl, ?_, rest⟩
    rintro other (_ | ⟨_, member⟩)
    · exact isIdle
    · exact idles other member

theorem Interleaves.nil {actions : List Action} (interleaved : Interleaves [] actions) :
    ∀ action ∈ actions, action.Idle := by
  generalize none : ([] : List Action) = sent at interleaved
  induction interleaved with
  | done => simp
  | sent => cases none
  | looped isIdle _ ih =>
    rintro other (_ | ⟨_, member⟩)
    · exact isIdle
    · exact ih none other member

variable (display maximumLogs) in
theorem follows_idle {idle : List Action} (idles : ∀ action ∈ idle, action.Idle)
    (holds : Follows streamed start terminal watch) (announced : streamed.Announces start) :
    Follows streamed start (terminal.run display maximumLogs idle) (watch.run idle) ∧
      (watch.run idle).text = watch.text ∧
      ((watch.run idle).known = .unsent ↔ watch.known = .unsent) := by
  induction idle generalizing terminal watch with
  | nil => exact ⟨holds, rfl, Iff.rfl⟩
  | cons action idle ih =>
    have isIdle := idles action (by simp)
    cases action with
    | loop key =>
      obtain ⟨after, text, known⟩ := ih (fun other member => idles other (by simp [member]))
        (follows_loop holds announced isIdle)
      exact ⟨after, text.trans (holds.loop_text key), known.trans (step_loop_known watch key)⟩
    | event | progress | approval | result => exact isIdle.elim

theorem run_behind (idle : List Action) (action : Action) (after : List Action) :
    terminal.run display maximumLogs (idle ++ action :: after) =
      ((terminal.run display maximumLogs idle).step display maximumLogs action).run display
        maximumLogs after := by
  rw [Terminal.run, List.foldl_append, List.foldl_cons]
  rfl

theorem Watch.run_behind (idle : List Action) (action : Action) (after : List Action) :
    watch.run (idle ++ action :: after) = ((watch.run idle).step action).run after := by
  rw [Watch.run, List.foldl_append, List.foldl_cons]
  rfl

variable (display maximumLogs) in
theorem follows_deltas {deltas : List String} {actions : List Action}
    (interleaved : Interleaves (deltas.map streamed.delta) actions)
    (holds : Follows streamed start terminal watch) (announced : streamed.Announces start)
    (sent : watch.known ≠ .unsent) :
    Follows streamed start (terminal.run display maximumLogs actions) (watch.run actions) ∧
      (watch.run actions).text = watch.text ++ (String.join deltas).toList ∧
      (watch.run actions).known ≠ .unsent := by
  induction deltas generalizing terminal watch actions with
  | nil =>
    obtain ⟨after, text, known⟩ := follows_idle display maximumLogs interleaved.nil holds announced
    exact ⟨after, by simp [text], mt known.mp sent⟩
  | cons delta deltas ih =>
    obtain ⟨idle, after, rfl, idles, rest⟩ := interleaved.cons
    obtain ⟨before, text, known⟩ := follows_idle display maximumLogs idles holds announced
    have sent' := mt known.mp sent
    obtain ⟨follows, text', known'⟩ := ih rest
      (follows_delta before sent' delta) sent'
    rw [run_behind, Watch.run_behind]
    refine ⟨follows, ?_, known'⟩
    have added : ((watch.run idle).step (streamed.delta delta)).text =
        (watch.run idle).text ++ delta.toList := by
      simp [Watch.text, Watch.step, Streamed.delta, Streamed.event]
    have joined : (String.join (delta :: deltas)).toList =
        delta.toList ++ (String.join deltas).toList := by
      rw [String.join_cons, String.toList_append]
    exact text'.trans (by rw [added, text, joined, List.append_assoc])

variable (display maximumLogs) in
theorem follows_script {actions : List Action}
    (interleaved : Interleaves (streamed.script start) actions)
    (holds : Follows streamed start terminal watch) (announced : streamed.Announces start)
    (unsent : watch.known = .unsent) (silent : watch.text = []) :
    Follows streamed start (terminal.run display maximumLogs actions) (watch.run actions) ∧
      (watch.run actions).text = (String.join streamed.deltas).toList ∧
      (watch.run actions).known ≠ .unsent := by
  obtain ⟨idle, after, rfl, idles, rest⟩ := interleaved.cons
  obtain ⟨before, text, known⟩ := follows_idle display maximumLogs idles holds announced
  have announcement := follows_event display maximumLogs before
    (known.mpr unsent)
  obtain ⟨idle', after', rfl, idles', rest'⟩ := rest.cons
  obtain ⟨before', text', known'⟩ := follows_idle display maximumLogs idles' announcement announced
  have sent : (((watch.run idle).step (.event start)).run idle').known ≠ .unsent := by
    rw [ne_eq, known', Watch.step]
    simp
  have nothing : (((watch.run idle).step (.event start)).run idle').text = [] :=
    text'.trans (text.trans silent)
  have waiting : (((watch.run idle).step (.event start)).run idle').waiting = [] :=
    (List.append_eq_nil_iff.mp nothing).2
  have started := follows_started display maximumLogs before' sent
    waiting
  obtain ⟨follows, text'', known''⟩ := follows_deltas display maximumLogs rest' started announced sent
  rw [run_behind, Watch.run_behind, run_behind, Watch.run_behind]
  refine ⟨follows, text''.trans ?_, known''⟩
  have silent' : ((((watch.run idle).step (.event start)).run idle').step
      (.progress (streamed.event .started) none)).text = [] := nothing
  rw [silent', List.nil_append]

/-- Nothing waits any more after a whole pass, and later passes take nothing. -/
theorem loops_drained (keys : List (Option UiState.Key)) (known : watch.known = .drained)
    (waiting : watch.waiting = []) : (watch.run (keys.map .loop)).known = .drained ∧
      (watch.run (keys.map .loop)).waiting = [] := by
  induction keys generalizing watch with
  | nil => exact ⟨known, waiting⟩
  | cons key keys ih =>
    have after : (watch.step (.loop key)).known = .drained ∧
        (watch.step (.loop key)).waiting = [] := by
      rw [Watch.step, Watch.advance]
      cases watch.place with
      | progress => simp [Watch.take, known]
      | events => simp [known, waiting]
      | approvals | result | key | stopped => exact ⟨known, waiting⟩
    exact ih after.1 after.2

theorem pass_drained {keys : List (Option UiState.Key)} (place : watch.place = .events)
    (sent : watch.known ≠ .unsent) (pass : 2 ≤ keys.length) :
    (watch.run (keys.map .loop)).known = .drained ∧ (watch.run (keys.map .loop)).waiting = [] := by
  obtain _ | ⟨first, _ | ⟨second, keys⟩⟩ := keys
  · simp at pass
  · simp at pass
  · have drained : (watch.step (.loop first)).known = .drained ∧
        (watch.step (.loop first)).place = .progress := by
      simp [Watch.step, Watch.advance, place, sent]
    have after : ((watch.step (.loop first)).step (.loop second)).known = .drained ∧
        ((watch.step (.loop first)).step (.loop second)).waiting = [] := by
      rw [Watch.step, Watch.advance, drained.2]
      simp [Watch.take, drained.1]
    exact loops_drained keys after.1 after.2

theorem ready_follows (ready : Ready streamed terminal) :
    Follows streamed start terminal (.start terminal.place) :=
  ⟨rfl, ready.results, ready.thread, ready.uncancelled, ready.turn, rfl, rfl, rfl, ready.fresh⟩

/-- After every pass that starts when the whole text has been streamed, the draft is the tail of the
text if and only if nothing was lost, or cut, that would show. -/
theorem draft_shows {streamed : Streamed} {start : EventEnvelope} {terminal : Terminal}
    (display : Value → String) (maximumLogs : Nat) (ready : Ready streamed terminal)
    (announced : streamed.Announces start) {actions : List Action}
    (interleaved : Interleaves (streamed.script start) actions)
    (place : (terminal.run display maximumLogs actions).place = .events)
    (keys : List (Option UiState.Key)) (edits : ∀ key ∈ keys, ∀ pressed ∈ key, pressed.edits)
    (pass : 2 ≤ keys.length) :
    IsTail draftLimit (String.join streamed.deltas)
        (terminal.run display maximumLogs (actions ++ keys.map .loop)).state.draft ↔
      Complete width draftLimit
        ((Watch.start terminal.place).run (actions ++ keys.map .loop)).lost
        ((Watch.start terminal.place).run (actions ++ keys.map .loop)).parts := by
  obtain ⟨sent, text, known⟩ := follows_script display maximumLogs interleaved
    (ready_follows ready) announced rfl rfl
  have idles : ∀ action ∈ keys.map Action.loop, action.Idle := by
    intro action member
    obtain ⟨key, given, rfl⟩ := List.mem_map.mp member
    exact edits key given
  obtain ⟨follows, text', _⟩ := follows_idle display maximumLogs idles sent announced
  obtain ⟨drained, waiting⟩ := pass_drained (sent.place.symm.trans place) known pass
  have whole : ∀ watch : Watch, watch.run (actions ++ keys.map .loop) =
      (watch.run actions).run (keys.map .loop) := by
    intro watch
    rw [Watch.run, List.foldl_append]
    rfl
  have run : terminal.run display maximumLogs (actions ++ keys.map .loop) =
      (terminal.run display maximumLogs actions).run display maximumLogs (keys.map .loop) := by
    rw [Terminal.run, List.foldl_append]
    rfl
  rw [whole, run]
  have stage := follows.stage
  rw [drained] at stage
  obtain ⟨_, _, _, _, draft, _⟩ := stage
  -- What was lost and the parts are the whole text.
  rw [Watch.text, waiting, List.append_nil, text] at text'
  rw [isTail_iff, ← text', ← collect_eq_iff width_le]
  exact Eq.congr_left draft

end Run

/-! ## Two schedules -/

section Schedules

def streamedText (deltas : List String) : Streamed := ⟨⟨"thread"⟩, ⟨"turn"⟩, 0, deltas⟩

def requestStarts : EventEnvelope := 
  ⟨⟨"event"⟩, 5, 0, ⟨"thread"⟩, some ⟨"turn"⟩, .modelRequestStarted 0⟩

/-- The turn is running, and the loop begins a pass. -/
def inTurn : Terminal where
  state := { UiState.new ⟨"thread"⟩ with
    currentTurn := some ⟨"turn"⟩, running := true, cancellation := some false }
  place := .events
  events := []
  buffer := .empty
  approvals := []
  results := []

theorem inTurn_ready (deltas : List String) : Ready (streamedText deltas) inTurn :=
  ⟨rfl, rfl, by decide, rfl, fun _ member => nomatch member⟩

theorem requestStarts_announces (deltas : List String) :
    (streamedText deltas).Announces requestStarts := ⟨rfl, rfl⟩

/-- The text comes when the pass has drained its events. -/
def behindEvents (text : String) : List Action :=
  .loop none :: (streamedText [text]).script requestStarts ++ List.replicate 4 (.loop none)

theorem behindEvents_interleaves (text : String) :
    Interleaves ((streamedText [text]).script requestStarts) (behindEvents text) := by
  have idle : (Action.loop none).Idle := fun _ member => nomatch member
  exact .looped idle (.sent (.sent (.sent
    (.looped idle (.looped idle (.looped idle (.looped idle .done)))))))

/-- The pass that knows no request yet takes the text. -/
theorem draft_misses : Ready (streamedText ["a"]) inTurn ∧
    (streamedText ["a"]).Announces requestStarts ∧
    Interleaves ((streamedText ["a"]).script requestStarts) (behindEvents "a") ∧
    (inTurn.run (fun _ => "") 200 (behindEvents "a")).place = .events ∧
    ¬ IsTail draftLimit "a" (inTurn.run (fun _ => "") 200
      (behindEvents "a" ++ [none, none].map .loop)).state.draft := by
  have empty : (inTurn.run (fun _ => "") 200
      (behindEvents "a" ++ [none, none].map .loop)).state.draft = "" := rfl
  refine ⟨inTurn_ready _, requestStarts_announces _, behindEvents_interleaves "a", rfl, ?_⟩
  rw [empty, isTail_iff]
  decide

/-- The text comes in front of the pass. -/
def beforeEvents (text : String) : List Action :=
  (streamedText [text]).script requestStarts

theorem draft_shows_hello : IsTail draftLimit "hello" (inTurn.run (fun _ => "") 200
    (beforeEvents "hello" ++ [none, none].map .loop)).state.draft := by
  have interleaved : Interleaves ((streamedText ["hello"]).script requestStarts)
      (beforeEvents "hello") := .sent (.sent (.sent .done))
  have light : ∀ part ∈ [['h', 'e', 'l', 'l', 'o']], total width part ≤ draftLimit := by decide
  refine (draft_shows (fun _ => "") 200 (inTurn_ready ["hello"]) (requestStarts_announces _)
    interleaved rfl [none, none] (by simp) (by decide)).mpr ⟨?_, ?_⟩
  · intro before part after split heavy
    have member : part ∈ [['h', 'e', 'l', 'l', 'o']] := by
      rw [show [['h', 'e', 'l', 'l', 'o']] = before ++ part :: after from split]
      simp
    exact absurd (light part member) (Nat.not_le.mpr heavy)
  · intro _ item last
    cases last

end Schedules

end Nausicaa.Tui
