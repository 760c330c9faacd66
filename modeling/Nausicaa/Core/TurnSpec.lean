import Nausicaa.Core.ToolSpec

/-! # What a turn does

The loop of `run_turn` meets the contract for every model: each exit of an iteration
either closes all accepted calls and ends the turn, or stops at a failed append.
-/

namespace Nausicaa.Core

open Interaction (Contract)
open Interaction.Contract (Tries)
open Std (TreeSet)

/-! ## Validation of responses -/

theorem validateFrom_ok {previouslySeen current : TreeSet CallId} {calls : List ToolCall}
    (valid : validateFrom previouslySeen current calls = .ok ()) :
    (calls.map ToolCall.id).Nodup ∧
      ∀ call ∈ calls, call.id ∉ previouslySeen ∧ call.id ∉ current := by
  induction calls generalizing current with
  | nil => simp
  | cons call calls ih =>
    simp only [validateFrom] at valid
    split at valid
    · cases valid
    split at valid
    · cases valid
    split at valid
    · cases valid
    next reused =>
      obtain ⟨distinct, unused⟩ := ih valid
      have fresh : call.id ∉ previouslySeen ∧ call.id ∉ current := by
        simpa [TreeSet.contains_iff_mem] using reused
      refine ⟨?_, ?_⟩
      · rw [List.map_cons, List.nodup_cons]
        refine ⟨?_, distinct⟩
        intro repeated
        obtain ⟨later, member, same⟩ := List.mem_map.mp repeated
        exact (unused later member).2 (TreeSet.mem_insert.mpr (.inl (by simp [same])))
      · intro call' member
        cases List.mem_cons.mp member with
        | inl first => exact first ▸ fresh
        | inr later =>
          have absent := unused call' later
          exact ⟨absent.1, fun present => absent.2 (TreeSet.mem_insert.mpr (.inr present))⟩

/-- The ids of an accepted response are distinct and new to the turn. -/
theorem validateToolCalls_ok {calls : List ToolCall} {previouslySeen : TreeSet CallId}
    (valid : validateToolCalls calls previouslySeen = .ok ()) :
    (calls.map ToolCall.id).Nodup ∧ ∀ call ∈ calls, call.id ∉ previouslySeen :=
  ⟨(validateFrom_ok valid).1, fun call member => ((validateFrom_ok valid).2 call member).1⟩

theorem stopError_eq_none {turnId : TurnId} {response : ModelResponse}
    (continues : stopError turnId response = none) :
    response.stopReason = if response.toolCalls.isEmpty then .endTurn else .toolUse := by
  unfold stopError at continues
  split at continues
  · cases continues
  · cases continues
  · split at continues <;> simp_all
  · split at continues <;> simp_all

theorem stopError_fails {turnId : TurnId} {response : ModelResponse} {error : RuntimeError}
    (stops : stopError turnId response = some error) : error.FailsTurn := by
  unfold stopError at stops
  split at stops
  · cases stops; trivial
  · cases stops; trivial
  · split at stops <;> cases stops; trivial
  · split at stops <;> cases stops; trivial

/-! ## One iteration -/

/-- A turn that ran to its end. -/
structure Completed (call : Call) (threadId : ThreadId) (turnId : TurnId) (outcome : TurnOutcome)
    (state : Local) : Prop where
  guard : state.own.held = .guard threadId
  unhindered : Unhindered call state.own.history
  names : outcome.threadId = threadId ∧ outcome.turnId = turnId
  ends : ∃ log usage, turnLog state.log = log ++
    [(turnId, .assistantMessage outcome.content [] .endTurn usage),
      (turnId, .turnCompleted outcome.content)]

section Iteration

variable {rt : AgentRuntime} {strict : Prop} {call : Call} {state : Local} {turn : Turn}
variable {stop : StopReason} {seen : TreeSet CallId} {transcript : List TranscriptMessage}
variable {iteration : Nat} {response : ModelResponse} {compiled : CompiledContext}
variable {ok : TurnOutcome → Local → Prop}

/-- After a model response: the turn is stopped, completed, or every call has been
handled and the next iteration follows. -/
theorem respond_tries
    {next : List TranscriptMessage → TreeSet CallId → Attempt RuntimeError TurnOutcome}
    (serving : Serving call turn.threadId turn.turnId stop seen [] transcript state)
    (serves : call.Serves turn.threadId turn.turnId) (projected : turn.capabilities = rt.capabilities)
    (completed : ∀ outcome state', Completed call turn.threadId turn.turnId outcome state' →
      ok outcome state')
    (continues : ∀ transcript' seen' state',
      Serving call turn.threadId turn.turnId .toolUse seen' [] transcript' state' →
      (contract rt strict call).Tries (next transcript' seen') ok
        (StoppedTurn call turn.threadId turn.turnId) state') :
    (contract rt strict call).Tries
      (rt.respond turn iteration transcript seen response next) ok
      (StoppedTurn call turn.threadId turn.turnId) state := by
  unfold AgentRuntime.respond
  split
  next reason invalid => exact serving.fail_tries (fun _ => serving.inTurn.settled) trivial
  next valid =>
    obtain ⟨distinct, unseen⟩ := validateToolCalls_ok valid
    have unused : ∀ toolCall ∈ response.toolCalls, ∀ earlier,
        Accepted (turnLog state.log) turn.turnId earlier → earlier.id ≠ toolCall.id := by
      intro toolCall member earlier accepted same
      exact unseen toolCall member (same ▸ serving.seen earlier accepted)
    refine Tries.bind (serving.store_tries (serving.inTurn.allowed_message distinct unused)
      (fun _ terminal => terminal.elim) ?_)
    intro envelope observations tagged same quiet
    have logged := turnLog_singleton tagged same
    have accepted : Serving call turn.threadId turn.turnId response.stopReason
        (seen.insertMany (response.toolCalls.map ToolCall.id)) response.toolCalls
        (transcript ++ [.assistant response.content response.toolCalls])
        (state.extend [envelope] observations) := by
      refine serving.append tagged same quiet
        (serving.inTurn.message distinct unused) ?_
      intro toolCall accepted
      rw [TreeSet.mem_insertMany_list, List.contains_iff_mem]
      cases accepted_snoc.mp accepted with
      | inl earlier => exact .inl (serving.seen toolCall earlier)
      | inr last => exact .inr (List.mem_map_of_mem last.2)
    split
    next error stops =>
      refine Tries.bind (accepted.denyCalls_tries ?_)
      intro state' transcript' denied
      exact denied.fail_tries (fun _ => denied.inTurn.settled) (stopError_fails stops)
    next goes =>
      have reason := stopError_eq_none goes
      refine Tries.bind (accepted.ask_tries trivial (fun _ => ⟨id, id, id⟩) (fun _ _ same => same) ?_
        (by simp))
      intro answer asked
      cases answer with
      | true => exact asked.cancelTurn_tries
      | false =>
        show Contract.Tries _ (if response.toolCalls.isEmpty then _ else _) _ _ _
        split
        next empty =>
          rw [if_pos empty] at reason
          have settled : Settled (turnLog (state.log ++ [envelope])) := by
            have none : response.toolCalls = [] := List.isEmpty_iff.mp empty
            have inTurn := accepted.inTurn
            rw [none] at inTurn
            exact inTurn.settled
          refine Tries.bind (asked.close_tries trivial (fun _ => by simpa using settled) ?_)
          intro envelope' observations' closed logged' _
          refine Tries.pure (completed _ _ ⟨closed.guard, closed.unhindered, ⟨rfl, rfl⟩, ?_⟩)
          have entries := turnLog_append [envelope] [envelope']
          rw [logged, logged'] at entries
          refine ⟨turnLog state.log, response.usage, ?_⟩
          simpa [reason, List.isEmpty_iff.mp empty] using entries
        next calls =>
          rw [if_neg calls] at reason
          rw [reason] at asked
          refine Tries.bind (runToolCalls_tries asked serves projected ?_)
          intro transcript' state' handled
          exact continues transcript' _ state' handled

/-- A model is only asked when every accepted call has its receipt. -/
theorem requestModel_tries {received : ModelResponse → Attempt RuntimeError TurnOutcome}
    (serving : Serving call turn.threadId turn.turnId stop seen [] transcript state)
    (receives : ∀ response state',
      Serving call turn.threadId turn.turnId stop seen [] transcript state' →
      (contract rt strict call).Tries (received response) ok
        (StoppedTurn call turn.threadId turn.turnId) state') :
    (contract rt strict call).Tries (rt.requestModel turn iteration compiled received) ok
      (StoppedTurn call turn.threadId turn.turnId) state := by
  have allowed : ∀ {state : Local} {event : RuntimeEvent},
      Serving call turn.threadId turn.turnId stop seen [] transcript state →
      (∃ promptSegments messageCount visibleTools, event =
        .contextCompiled iteration promptSegments messageCount visibleTools) ∨
        event = .modelRequestStarted iteration →
      Allowed (turnLog state.log) (turn.turnId, event) := by
    intro state event serving either
    refine allowed_of_inTurn serving.inTurn.current ?_
    obtain ⟨_, _, _, rfl⟩ | rfl := either <;>
      exact ⟨serving.inTurn.notEnded, serving.inTurn.settled⟩
  refine Tries.bind (serving.skip_tries (allowed serving (.inl ⟨_, _, _, rfl⟩)) rfl rfl (by simp)
    (by simp) id ?_)
  intro envelope observations serving₁ _ _
  refine Tries.bind (serving₁.skip_tries (allowed serving₁ (.inr rfl)) rfl rfl (by simp) (by simp)
    id ?_)
  intro envelope' observations' serving₂ _ _
  refine Tries.bind (serving₂.ask_tries ⟨serving₂.guard, serving₂.inTurn.settled⟩
    (fun _ => ⟨id, id, id⟩) (fun _ _ same => same) ?_ (by simp))
  intro answer serving₃
  cases answer with
  | ok response => exact receives response _ serving₃
  | error error =>
    refine Tries.bind (serving₃.ask_tries trivial (fun _ => ⟨id, id, id⟩) (fun _ _ same => same) ?_
      (by simp))
    intro cancelled serving₄
    cases cancelled with
    | true => exact serving₄.cancelTurn_tries
    | false => exact serving₄.fail_tries (fun _ => serving₄.inTurn.settled) trivial

/-- The loop of a turn.  Each iteration starts with every accepted call answered and
the transcript that the log shows. -/
theorem turnLoop_tries {remaining : Nat}
    (serving : Serving call turn.threadId turn.turnId stop seen [] transcript state)
    (serves : call.Serves turn.threadId turn.turnId) (projected : turn.capabilities = rt.capabilities)
    (completed : ∀ outcome state', Completed call turn.threadId turn.turnId outcome state' →
      ok outcome state') :
    (contract rt strict call).Tries (rt.turnLoop turn remaining iteration transcript seen) ok
      (StoppedTurn call turn.threadId turn.turnId) state := by
  induction remaining generalizing state stop seen transcript iteration with
  | zero => exact serving.fail_tries (fun _ => serving.inTurn.settled) trivial
  | succ remaining ih =>
    refine Tries.bind (serving.ask_tries trivial (fun _ => ⟨id, id, id⟩) (fun _ _ same => same) ?_
      (by simp))
    intro cancelled serving₁
    cases cancelled with
    | true => exact serving₁.cancelTurn_tries
    | false =>
      refine Tries.bind (serving₁.ask_tries
        ⟨serving₁.guard, serving₁.inTurn.settled, serving₁.shown.symm⟩
        (fun _ => ⟨id, id, id⟩) (fun _ _ same => same) ?_ (by simp))
      intro answer serving₂
      cases answer with
      | error error => exact serving₂.fail_tries (fun _ => serving₂.inTurn.settled) trivial
      | ok compiled =>
        refine Tries.bind (runHooks_tries (fun _ _ _ => True) ?_ ?_ ?_)
        · intro hook earlier quiet
          have serving' := serving₂.observe quiet
          refine perform_tries (serving'.unhindered.orderly (by simp)) trivial ?_
          intro answer state' same
          have same : state' = _ := same
          subst same
          exact ⟨⟨.beforeModel hook _ compiled, answer⟩, ⟨id, id, id⟩, trivial, by simp⟩
        · intro after quiet _
          refine requestModel_tries (serving₂.observe quiet) ?_
          intro response state' serving₃
          refine respond_tries serving₃ serves projected completed ?_
          intro transcript' seen' state'' serving₄
          exact ih serving₄
        · intro error after quiet _
          have serving' := serving₂.observe quiet
          exact serving'.rejectTurn_tries fun _ => serving'.inTurn.settled

end Iteration

end Nausicaa.Core
