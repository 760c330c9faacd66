import Nausicaa.Core.RecoverySpec
import Nausicaa.Core.TurnSpec

/-! # What the calls of a runtime do

`start_thread`, `recover` and `run_turn` meet the contract from the state in which a
call starts, and what they return agrees with what they saw (`Returned`).
-/

namespace Nausicaa.Core

open Interaction (Adjacent Contract)
open Interaction.Contract (Meets Tries)
open RecoveryState (scanLog)

/-! ## Recovery under the guard -/

section Recovery

variable {rt : AgentRuntime} {strict : Prop} {call : Call} {state : Local} {threadId : ThreadId}

/-- The plan of the log is appended, whatever part of it the store takes. -/
theorem appendAll_tries {entries : TurnLog} {ok : Unit → Local → Prop}
    (guard : state.own.held = .guard threadId) (unhindered : Unhindered call state.own.history)
    (planned : (scanLog (turnLog state.log)).plan = entries)
    (stored : ∀ envelopes observations, turnLog envelopes = entries →
      (∀ observation ∈ observations, IsQuiet observation) →
      ok () (state.extend envelopes observations)) :
    (contract rt strict call).Tries (appendAll threadId entries) ok
      (fun error => Stopped call threadId (.store error)) state := by
  induction entries generalizing state with
  | nil => exact Tries.pure (by simpa using stored [] [] rfl (by simp))
  | cons entry entries ih =>
    obtain ⟨turnId, event⟩ := entry
    obtain ⟨allowed, closing⟩ := RecoveryState.allowed_of_plan planned
    refine Tries.bind (Tries.bind (perform_tries (unhindered.orderly (by simp))
      ⟨guard, allowed, fun _ => closing⟩ ?_))
    intro answer state' effect
    cases answer with
    | error source =>
      have same : state' = state := effect
      subst same
      exact Tries.throw (unhindered.interrupted guard)
    | ok envelope =>
      obtain ⟨⟨_, tagged, same⟩, pushed, _⟩ := effect
      rw [pushed guard]
      have logged := turnLog_singleton tagged same
      have quiet : IsQuiet ⟨.storeAppend threadId (some turnId) event, .ok envelope⟩ := ⟨id, id, id⟩
      have extended : (Local.extend ⟨state.own, state.log ++ [envelope]⟩ []
          [⟨.storeAppend threadId (some turnId) event, .ok envelope⟩]) =
          state.extend [envelope] [⟨.storeAppend threadId (some turnId) event, .ok envelope⟩] := by
        simp [Local.extend]
      rw [extended]
      refine Tries.pure (ih guard (unhindered.unhindered quiet) ?_ ?_)
      · rw [Local.extend_log, turnLog_append, logged]
        exact RecoveryState.plan_snoc planned
      · intro envelopes observations rest all
        rw [Local.extend_extend]
        refine stored _ _ ?_ ?_
        · rw [turnLog_append, logged, rest]
          rfl
        · intro observation member
          cases List.mem_append.mp member with
          | inl first => rw [List.mem_singleton.mp first]; exact quiet
          | inr later => exact all observation later

/-- A call that holds its thread and has just recovered it. -/
structure Restored (call : Call) (threadId : ThreadId) (before : TurnLog) (state : Local) : Prop where
  guard : state.own.held = .guard threadId
  unhindered : Unhindered call state.own.history
  recovered : Recovered (turnLog state.log)
  sameTurns : ∀ turnId, Occurs (turnLog state.log) turnId → Occurs before turnId

theorem Restored.observe {before : TurnLog} {observations : List Observation}
    (restored : Restored call threadId before state)
    (quiet : ∀ observation ∈ observations, IsQuiet observation) :
    Restored call threadId before (state.extend [] observations) where
  guard := restored.guard
  unhindered := restored.unhindered.extend quiet
  recovered := by simpa using restored.recovered
  sameTurns := by simpa using restored.sameTurns

theorem recoverThread_tries {ok : RecoveryReport → Local → Prop}
    (guard : state.own.held = .guard threadId) (unhindered : Unhindered call state.own.history)
    (recovered : ∀ report state', Restored call threadId (turnLog state.log) state' →
      ok report state') :
    (contract rt strict call).Tries (recoverThread threadId) ok
      (fun error => Stopped call threadId (.store error)) state := by
  rw [recoverThread_eq]
  refine Tries.bind (perform_tries (unhindered.orderly (by simp)) trivial ?_)
  intro answer state' effect
  cases answer with
  | error source =>
    have same : state' = state := effect
    subst same
    have quiet : IsQuiet ⟨.loadThread threadId, .error source⟩ := ⟨id, id, id⟩
    exact Tries.throw ((unhindered.unhindered quiet).stopped guard)
  | ok events =>
    obtain ⟨same, current⟩ := effect
    subst same
    have isLog := current guard
    subst isLog
    have quiet : IsQuiet ⟨.loadThread threadId, .ok state'.log⟩ := ⟨id, id, id⟩
    have unhindered' := unhindered.unhindered quiet
    refine Tries.bind (appendAll_tries guard unhindered' (by simp) ?_)
    intro envelopes observations logged all
    refine Tries.pure (recovered _ _ ?_)
    have log : turnLog (state'.log ++ envelopes) =
        turnLog state'.log ++ (scanLog (turnLog state'.log)).plan := by
      rw [turnLog_append, logged]
    exact {
      guard := guard
      unhindered := unhindered'.extend all
      recovered := by
        refine RecoveryState.recovered_of_plan_nil ?_
        simpa [log] using RecoveryState.plan_append (List.append_nil _).symm
      sameTurns := by
        intro turnId ⟨event, member⟩
        have member : (turnId, event) ∈ turnLog state'.log ++ (scanLog (turnLog state'.log)).plan := by
          simpa [log] using member
        cases List.mem_append.mp member with
        | inl old => exact ⟨event, old⟩
        | inr new => exact RecoveryState.occurs_of_plan new }

theorem loadThread_tries {ok : List EventEnvelope → Local → Prop}
    {failed : RuntimeError → Local → Prop}
    (orderly : Orderly call state.own.history (.loadThread threadId))
    (loaded : ∀ events, (state.own.held = .guard threadId → events = state.log) →
      ok events (state.extend [] [⟨.loadThread threadId, .ok events⟩]))
    (unavailable : ∀ source,
      failed (.store source) (state.extend [] [⟨.loadThread threadId, .error source⟩])) :
    (contract rt strict call).Tries (AgentRuntime.loadThread threadId) ok failed state := by
  refine Tries.bind (perform_tries orderly trivial ?_)
  intro answer state' effect
  cases answer with
  | error source =>
    have same : state' = state := effect
    subst same
    exact Tries.throw (unavailable source)
  | ok events =>
    obtain ⟨same, current⟩ := effect
    subst same
    exact Tries.pure (loaded events current)

theorem notifyFrom_tries {before : Nat} {envelopes : List EventEnvelope} {ok : Unit → Local → Prop}
    {failed : RuntimeError → Local → Prop} (unhindered : Unhindered call state.own.history)
    (notified : ∀ notes, (∀ observation ∈ notes, IsQuiet observation) →
      ok () (state.extend [] notes)) :
    (contract rt strict call).Tries (rt.notifyFrom before envelopes) ok failed state := by
  induction envelopes generalizing state with
  | nil => exact Tries.pure (by simpa using notified [] (by simp))
  | cons envelope envelopes ih =>
    show Contract.Tries _ (if before ≤ envelope.sequence then _ else _) _ _ _
    split
    · refine Tries.bind (notifyEach_tries envelope rt.observers unhindered ?_)
      intro notes all
      have quiet : ∀ observation ∈ notes, IsQuiet observation :=
        fun observation member => isQuiet_note (all observation member)
      refine ih (unhindered.extend quiet) ?_
      intro more quiet'
      rw [Local.extend_extend]
      refine notified _ ?_
      intro observation member
      cases List.mem_append.mp member with
      | inl first => exact quiet observation first
      | inr later => exact quiet' observation later
    · exact ih unhindered notified

theorem recoverExclusive_tries {ok : RecoveryReport → Local → Prop}
    (guard : state.own.held = .guard threadId)
    (orderly : Orderly call state.own.history (.loadThread threadId))
    (opened : ∀ answer, Unhindered call (state.own.history ++ [⟨.loadThread threadId, answer⟩]))
    (recovered : ∀ report state', Restored call threadId (turnLog state.log) state' →
      ok report state') :
    (contract rt strict call).Tries (rt.recoverExclusive threadId) ok
      (Stopped call threadId) state := by
  refine Tries.bind (loadThread_tries orderly ?_ fun source => (opened (.error source)).stopped guard)
  intro events _
  refine Tries.bind (Tries.mapError (recoverThread_tries guard (opened (.ok events)) ?_))
  intro report state' restored
  have restored : Restored call threadId (turnLog state.log) state' := by simpa using restored
  split
  next unchanged => exact Tries.pure (recovered report state' restored)
  next changed =>
    have again : ∀ answer, IsQuiet ⟨.loadThread threadId, answer⟩ := fun _ => ⟨id, id, id⟩
    refine Tries.bind (loadThread_tries (restored.unhindered.orderly (by simp)) ?_ fun source =>
      (restored.unhindered.unhindered (again (.error source))).stopped restored.guard)
    intro events' _
    have restored' : Restored call threadId (turnLog state.log)
        (state'.extend [] [⟨.loadThread threadId, .ok events'⟩]) :=
      restored.observe (by simpa using again (.ok events'))
    refine Tries.bind (notifyFrom_tries restored'.unhindered ?_)
    intro notes quiet
    exact Tries.pure (recovered report _ (restored'.observe quiet))

end Recovery

/-! ## Under the guard -/

/-- The state of a call that has just got its thread. -/
structure Admitted (threadId : ThreadId) (state : Local) : Prop where
  guard : state.own.held = .guard threadId
  history : ∃ events, state.own.history =
    [⟨.loadThread threadId, .ok events⟩, ⟨.activeInsert threadId, .ok true⟩]

section Guarded

variable {rt : AgentRuntime} {strict : Prop} {call : Call} {state : Local} {threadId : ThreadId}
variable {turnId : TurnId}

theorem Admitted.orderly (admitted : Admitted threadId state) :
    Orderly call state.own.history (.loadThread threadId) where
  acquires _ same := by cases same
  appends append := append.elim
  outward outward := outward.elim
  records prepared context executing := by
    obtain ⟨events, history⟩ := admitted.history
    obtain ⟨tool, answer, last⟩ := executing
    rw [history] at last
    cases last

/-- The first load under the guard decides whether the turn is new. -/
theorem Admitted.unhindered {answer : Except StoreError (List EventEnvelope)}
    (admitted : Admitted threadId state)
    (unused : ∀ turnId events, call.Serves threadId turnId → answer = .ok events →
      ∀ envelope ∈ events, envelope.turnId ≠ some turnId) :
    Unhindered call (state.own.history ++ [⟨.loadThread threadId, answer⟩]) := by
  obtain ⟨events, history⟩ := admitted.history
  rw [history]
  refine ⟨⟨?_, ?_, ?_, ?_⟩, ?_⟩
  · intro observation member
    simp only [List.cons_append, List.nil_append, List.mem_cons, List.not_mem_nil, or_false] at member
    obtain rfl | rfl | rfl := member <;> exact id
  · intro threadId' found
    simp [FoundActive] at found
  · intro threadId' turnId serves found
    obtain ⟨events', adjacent, envelope, member, used⟩ := found
    have pairs : Adjacent ([⟨.loadThread threadId, .ok events⟩] ++
        [(⟨.activeInsert threadId, .ok true⟩ : Observation)] ++ [⟨.loadThread threadId, answer⟩])
        ⟨.activeInsert threadId', .ok true⟩ ⟨.loadThread threadId', .ok events'⟩ := adjacent
    cases Adjacent.snoc_iff.mp pairs with
    | inl earlier =>
      obtain ⟨before, after, split⟩ := earlier
      have lengths := congrArg List.length split
      obtain ⟨rfl, rfl⟩ : before = [] ∧ after = [] := by
        constructor <;> apply List.eq_nil_of_length_eq_zero <;> simp at lengths <;> omega
      cases split
    | inr ends =>
      obtain ⟨_, same⟩ := ends
      cases same
      exact unused turnId events' serves rfl envelope member used
  · intro observation last
    have same : _ = observation := Option.some.inj last
    subst same
    exact id
  · intro observation last
    have same : _ = observation := Option.some.inj last
    subst same
    exact id

/-- What `recover` does under the guard. -/
theorem Admitted.recover_tries {ok : RecoveryReport → Local → Prop}
    (admitted : Admitted threadId state) (serves : ∀ threadId turnId, ¬ call.Serves threadId turnId)
    (recovered : ∀ report state', Restored call threadId (turnLog state.log) state' →
      ok report state') :
    (contract rt strict call).Tries (rt.recoverExclusive threadId) ok
      (Stopped call threadId) state := by
  refine recoverExclusive_tries admitted.guard admitted.orderly ?_ recovered
  intro answer
  refine admitted.unhindered ?_
  intro turnId events served
  exact absurd served (serves threadId turnId)

/-- A new turn on a thread that was just recovered. -/
theorem Restored.serve_tries {input : String} {cancellation : CancellationToken} {before : TurnLog}
    {ok : TurnOutcome → Local → Prop} (restored : Restored call threadId before state)
    (serves : call.Serves threadId turnId) (unused : ¬ Occurs before turnId)
    (completed : ∀ outcome state', Completed call threadId turnId outcome state' →
      ok outcome state') :
    (contract rt strict call).Tries
      (do
        let _ ← rt.append threadId (some turnId) .turnStarted
        let _ ← rt.append threadId (some turnId) (.userMessage input)
        let events ← AgentRuntime.loadThread threadId
        let capabilities := rt.capabilities
        let visibleNames := capabilities.visibleNames
        let turn : Turn := {
          threadId, turnId, cancellation, capabilities, visibleNames
          visibleTools := rt.tools.definitionsFor visibleNames }
        rt.turnLoop turn rt.config.maxModelIterations 0 (transcriptFromEvents events) ∅) ok
      (Stopped call threadId) state := by
  have absent : ¬ Occurs (turnLog state.log) turnId :=
    fun occurs => unused (restored.sameTurns turnId occurs)
  have notEnded : ¬ Ended (turnLog state.log) turnId := by
    intro ⟨event, member, _⟩
    exact absent ⟨event, member⟩
  have allowed : Conforms (turnLog state.log) →
      Allowed (turnLog state.log) (turnId, .turnStarted) := by
    intro conforms
    exact ⟨absent, restored.recovered.settled, restored.recovered.ended conforms⟩
  refine Tries.bind (append_tries restored.guard restored.unhindered.toProgressing
    (restored.unhindered.orderly (by simp))
    ⟨restored.guard, allowed, fun _ terminal => terminal.elim⟩ ?_ ?_)
  · intro envelope notes tagged same all
    have started : Serving call threadId turnId .endTurn ∅ [] (transcriptFromEvents state.log)
        (state.extend [envelope]
          (⟨.storeAppend threadId (some turnId) .turnStarted, .ok envelope⟩ :: notes)) := {
      guard := restored.guard
      unhindered := restored.unhindered.extend (quiet_stored all)
      inTurn := by
        simpa [turnLog_singleton tagged same] using InTurn.start restored.recovered absent
      seen := by
        intro toolCall accepted
        obtain ⟨event, member, _⟩ : Accepted (turnLog state.log) turnId toolCall := by
          simpa [turnLog_singleton tagged same, accepted_snoc, RuntimeEvent.acceptedCalls]
            using accepted
        exact absurd ⟨event, member⟩ absent
      shown := by simp [transcriptFromEvents, same, RuntimeEvent.message] }
    refine Tries.mono ?_ (fun _ _ holds => holds)
      (fun error state' (stopped : StoppedTurn call threadId turnId error state') =>
        stopped.toStopped)
    refine Tries.bind (started.store_tries ⟨started.inTurn.current, started.inTurn.notEnded,
      started.inTurn.settled⟩ (fun _ terminal => terminal.elim) ?_)
    intro envelope' observations tagged' same' quiet
    have asked := started.append tagged' same' quiet
      (started.inTurn.skip rfl (by simp) (by simp) id) (by
        intro toolCall accepted
        rw [accepted_snoc] at accepted
        exact started.seen toolCall (by simpa [RuntimeEvent.acceptedCalls] using accepted))
    refine Tries.bind (loadThread_tries (asked.unhindered.orderly (by simp)) ?_ ?_)
    · intro events current
      have quiet' : ∀ observation ∈
          [(⟨.loadThread threadId, .ok events⟩ : Observation)], IsQuiet observation := by
        intro observation member
        rw [List.mem_singleton.mp member]
        exact ⟨id, id, id⟩
      have loaded := asked.observe quiet'
      have shown := asked.shown
      rw [← current asked.guard] at shown
      rw [← shown] at loaded
      exact turnLoop_tries loaded serves rfl completed
    · intro source
      have quiet' : IsQuiet ⟨.loadThread threadId, .error source⟩ := ⟨id, id, id⟩
      exact ⟨(asked.unhindered.unhindered quiet').stopped asked.guard,
        by simpa [EndsTurn] using asked.inTurn.notEnded⟩
  · intro source
    exact (restored.unhindered.refused restored.guard notEnded).toStopped

/-- What `run_turn` does under the guard: a reused turn id stops it before anything is
appended, otherwise the thread is recovered and the turn served. -/
theorem Admitted.runTurn_tries {input : String} {cancellation : CancellationToken}
    {ok : TurnOutcome → Local → Prop} (admitted : Admitted threadId state)
    (completed : ∀ outcome state',
      Completed (.runTurn threadId turnId input cancellation) threadId turnId outcome state' →
      ok outcome state') :
    (contract rt strict (.runTurn threadId turnId input cancellation)).Tries
      (rt.runTurnExclusive threadId turnId input cancellation) ok
      (Stopped (.runTurn threadId turnId input cancellation) threadId) state := by
  have only : ∀ turnId', Call.Serves threadId turnId'
      (.runTurn threadId turnId input cancellation) → turnId' = turnId := by
    intro turnId' serves
    exact serves.2.symm
  refine Tries.bind (Tries.bind (loadThread_tries admitted.orderly ?_ ?_))
  · intro events current
    have current := current admitted.guard
    subst current
    split
    next used =>
      refine Tries.throw ⟨admitted.guard, ?_, ?_, ?_, fun _ _ => not_executing_snoc id⟩
      · intro threadId' found
        obtain ⟨_, history⟩ := admitted.history
        simp [FoundActive, history] at found
      · intro threadId' turnId' serves _
        obtain ⟨rfl, rfl⟩ := serves
        rfl
      · intro prepared source lost
        obtain ⟨_, history⟩ := admitted.history
        refine absurd lost (Calm.not_lost ?_)
        intro observation member
        simp only [Local.extend_history, history, List.cons_append, List.nil_append,
          List.mem_cons, List.not_mem_nil, or_false] at member
        obtain rfl | rfl | rfl := member <;> exact id
    next unused =>
      have unused : ∀ envelope ∈ state.log, envelope.turnId ≠ some turnId := by
        simpa using unused
      have absent : ¬ Occurs (turnLog state.log) turnId := by
        intro occurs
        obtain ⟨event, member⟩ := occurs
        obtain ⟨envelope, known, tagged⟩ := List.mem_filterMap.mp member
        obtain ⟨turn, same, entry⟩ := Option.map_eq_some_iff.mp tagged
        cases entry
        exact unused envelope known same
      have unhindered : Unhindered (.runTurn threadId turnId input cancellation)
          (state.own.history ++ [⟨.loadThread threadId, .ok state.log⟩]) := by
        refine admitted.unhindered ?_
        intro turnId' events serves same envelope member
        cases same
        rw [only turnId' serves]
        exact unused envelope member
      refine Tries.pure (Tries.bind (recoverExclusive_tries admitted.guard
        (unhindered.orderly (by simp)) (fun _ => unhindered.unhindered ⟨id, id, id⟩) ?_))
      intro report state' restored
      exact restored.serve_tries ⟨rfl, rfl⟩ (by simpa using absent) completed
  · intro source
    refine (admitted.unhindered ?_).stopped admitted.guard
    intro turnId' events serves same
    cases same

end Guarded

/-! ## Whole calls -/

/-- What a call that returned did: it let go of its thread, its error names what it
ran into, and a successful recovery left nothing to close. -/
structure Returned (call : Call) (result : Except RuntimeError Reply) (own : Own) : Prop where
  released : ∀ threadId, own.held ≠ .guard threadId
  active : ∀ threadId, FoundActive own.history threadId → result = .error (.concurrentTurn threadId)
  duplicate : ∀ threadId turnId, call.Serves threadId turnId →
    FoundTurn own.history threadId turnId → result = .error (.duplicateTurn threadId turnId)
  lost : ∀ prepared source, LostReceipt own.history prepared source →
    result = .error (.receiptPersistenceUnknown prepared.callId prepared.action.toolName source)
  recovered : ∀ threadId reply, call = .recover threadId → result = .ok reply →
    ∃ log, own.left = some (threadId, log) ∧ Recovered (turnLog log)

section Calls

variable {rt : AgentRuntime} {strict : Prop} {call : Call} {state : Local} {threadId : ThreadId}
variable {error : RuntimeError} {α : Type}

/-- The state after the guard is dropped. -/
def Local.release (state : Local) (threadId : ThreadId) : Local :=
  (⟨{ state.own with held := .nothing, left := some (threadId, state.log) }, []⟩ : Local).extend []
    [⟨.activeRemove threadId, ()⟩]

theorem Unhindered.rejected (unhindered : Unhindered call state.own.history)
    (released : ∀ threadId, state.own.held ≠ .guard threadId) :
    Returned call (.error error) state.own where
  released := released
  active threadId found := absurd found (unhindered.notActive threadId)
  duplicate threadId turnId serves found :=
    absurd found (unhindered.newTurn threadId turnId serves)
  lost _ _ lost := absurd lost unhindered.calm.not_lost
  recovered _ _ _ same := by cases same

theorem Stopped.returned (stopped : Stopped call threadId error state) :
    Returned call (.error error) (state.release threadId).own where
  released _ held := by cases held
  active threadId' found := by
    refine absurd ?_ (stopped.notActive threadId')
    simpa [FoundActive, Local.release] using found
  duplicate threadId' turnId serves found := by
    obtain ⟨events, adjacent, used⟩ := found
    cases Adjacent.snoc_iff.mp adjacent with
    | inl earlier => rw [stopped.duplicate threadId' turnId serves ⟨events, earlier, used⟩]
    | inr ends => cases ends.2
  lost prepared source lost := by
    cases lostReceipt_snoc lost with
    | inl earlier => rw [stopped.lost prepared source earlier]
    | inr ends =>
      obtain ⟨_, _, _, _, same⟩ := ends
      cases same
  recovered _ _ _ same := by cases same

theorem Unhindered.returned {reply : Reply} (unhindered : Unhindered call state.own.history)
    (recovered : ∀ threadId', call = .recover threadId' →
      threadId' = threadId ∧ Recovered (turnLog state.log)) :
    Returned call (.ok reply) (state.release threadId).own where
  released _ held := by cases held
  active threadId' found := by
    refine absurd ?_ (unhindered.notActive threadId')
    simpa [FoundActive, Local.release] using found
  duplicate threadId' turnId serves found :=
    absurd (foundTurn_snoc unhindered.checked found) (unhindered.newTurn threadId' turnId serves)
  lost prepared source lost := by
    cases lostReceipt_snoc lost with
    | inl earlier => exact absurd earlier unhindered.calm.not_lost
    | inr ends =>
      obtain ⟨_, _, _, _, same⟩ := ends
      cases same
  recovered threadId' _ same _ := by
    obtain ⟨rfl, recovers⟩ := recovered threadId' same
    exact ⟨state.log, rfl, recovers⟩

theorem Unhindered.nil (call : Call) : Unhindered call [] where
  calm := by simp [Calm]
  notActive := by simp [FoundActive]
  newTurn := by simp [FoundTurn, Adjacent]
  checked := by simp
  recorded := by simp

/-- The guard around `body`, dropped on every way out. -/
theorem holding_tries {body : Attempt RuntimeError α} (held : α → Local → Prop) (wrap : α → Reply)
    (serve : ∀ state, Admitted threadId state →
      (contract rt strict call).Tries body held (Stopped call threadId) state)
    (returned : ∀ value state, held value state → state.own.held = .guard threadId ∧
      Unhindered call state.own.history)
    (recovered : ∀ value state, held value state →
      ∀ threadId', call = .recover threadId' → threadId' = threadId ∧ Recovered (turnLog state.log))
    {events : List EventEnvelope} (idle : state.own.held = .nothing)
    (loaded : state.own.history = [⟨.loadThread threadId, .ok events⟩]) (exist : events ≠ []) :
    (contract rt strict call).Tries (AgentRuntime.holding threadId body)
      (fun value state => Returned call (.ok (wrap value)) state.own)
      (fun error state => Returned call (.error error) state.own) state := by
  have released : ∀ {state' : Local} {ok : Unit → Local → Prop},
      state'.own.held = .guard threadId → Orderly call state'.own.history (.activeRemove threadId) →
      ok () (state'.release threadId) →
      (contract rt strict call).Tries (perform (.activeRemove threadId)) ok
        (fun error state => Returned call (.error error) state.own) state' := by
    intro state' ok guard orderly after
    refine perform_tries orderly guard ?_
    intro answer state'' same
    have same : state'' = _ := same
    subst same
    exact after
  have orderly : Orderly call state.own.history (.activeInsert threadId) := {
    acquires := by
      intro threadId' same observation member
      rw [loaded, List.mem_singleton] at member
      rw [member]
      trivial
    appends := fun append => append.elim
    outward := fun outward => outward.elim
    records := by
      intro prepared context executing
      obtain ⟨tool, answer, last⟩ := executing
      rw [loaded] at last
      cases last }
  refine Tries.bind (Tries.bind (perform_tries orderly
    ⟨idle, events, by rw [loaded]; exact List.mem_singleton_self _, exist⟩ ?_))
  intro answer state' effect
  cases answer with
  | error source => exact effect.elim
  | ok free =>
    cases free with
    | false =>
      have same : state' = state := effect
      subst same
      refine Tries.throw ⟨?_, ?_, ?_, ?_, ?_⟩
      · intro threadId' held
        rw [Local.extend_held, idle] at held
        cases held
      · intro threadId' found
        have same : threadId' = threadId := by simpa [FoundActive, loaded] using found
        rw [same]
      · intro threadId' turnId serves found
        obtain ⟨events', adjacent, _⟩ := found
        cases Adjacent.snoc_iff.mp adjacent with
        | inl earlier =>
          obtain ⟨before, after, split⟩ := earlier
          have lengths := congrArg List.length split
          simp [loaded] at lengths
          omega
        | inr ends => cases ends.2
      · intro prepared source lost
        refine absurd lost (Calm.not_lost ?_)
        intro observation member
        simp only [Local.extend_history, loaded, List.cons_append, List.nil_append,
          List.mem_cons, List.not_mem_nil, or_false] at member
        obtain rfl | rfl := member <;> exact id
      · intro _ _ _ same
        cases same
    | true =>
      obtain ⟨log, same⟩ := effect
      subst same
      have admitted : Admitted threadId (Local.extend
          ⟨{ state.own with held := .guard threadId }, log⟩ []
          [⟨.activeInsert threadId, .ok true⟩]) := ⟨rfl, events, by simp [loaded]⟩
      refine Tries.pure (Tries.bind (Tries.outcome (Tries.mono (serve _ admitted) ?_ ?_)))
      · intro value state' done
        obtain ⟨guard, unhindered⟩ := returned value state' done
        refine Tries.bind (released guard (unhindered.orderly (by simp)) ?_)
        exact Tries.pure (unhindered.returned (recovered value state' done))
      · intro error state' stopped
        refine Tries.bind (released stopped.guard stopped.orderly ?_)
        exact Tries.throw stopped.returned

/-- A call that finds its thread before it asks for the guard. -/
theorem ensured_tries {code : Attempt RuntimeError α} {ok : α → Local → Prop}
    (found : ∀ events, events ≠ [] →
      (contract rt strict call).Tries code ok
        (fun error state => Returned call (.error error) state.own)
        (Local.idle.extend [] [⟨.loadThread threadId, .ok events⟩])) :
    (contract rt strict call).Tries (do AgentRuntime.ensureThread threadId; code) ok
      (fun error state => Returned call (.error error) state.own) Local.idle := by
  have unhindered : ∀ answer, Unhindered call
      (Local.idle.own.history ++ [⟨.loadThread threadId, answer⟩]) :=
    fun answer => (Unhindered.nil call).unhindered ⟨id, id, id⟩
  refine Tries.bind (Tries.bind (loadThread_tries
    ((Unhindered.nil call).orderly (by simp)) ?_ ?_))
  · intro events _
    split
    next exists_ =>
      refine Tries.pure (found events ?_)
      intro none
      simp [none] at exists_
    next missing =>
      refine Tries.throw ((unhindered (.ok events)).rejected ?_)
      intro threadId' held
      cases held
  · intro source
    refine (unhindered (.error source)).rejected ?_
    intro threadId' held
    cases held

/-- `start_thread` stores the first event of a thread that nobody else knows. -/
theorem startThread_tries (wrap : ThreadId → Reply) (starts : call = .startThread) :
    (contract rt strict call).Tries rt.startThread
      (fun threadId state => Returned call (.ok (wrap threadId)) state.own)
      (fun error state => Returned call (.error error) state.own) Local.idle := by
  refine Tries.bind (perform_tries ((Unhindered.nil call).orderly (by simp)) rfl ?_)
  intro threadId state' same
  have same : state' = _ := same
  subst same
  have unhindered : Unhindered call
      (Local.idle.own.history ++ [⟨.newThreadId, threadId⟩]) :=
    (Unhindered.nil call).unhindered ⟨id, id, id⟩
  refine Tries.bind (Tries.bind (perform_tries (unhindered.orderly (by simp)) ⟨rfl, rfl⟩ ?_))
  intro answer state' effect
  cases answer with
  | error source =>
    have same : state' = _ := effect
    subst same
    refine Tries.throw ⟨?_, ?_, ?_, ?_, ?_⟩
    · intro threadId' held
      cases held
    · intro threadId' found
      refine absurd ?_ (unhindered.notActive threadId')
      simpa [FoundActive] using found
    · intro threadId' turnId serves
      rw [starts] at serves
      exact serves.elim
    · intro prepared source' lost
      exact absurd lost unhindered.not_lost_snoc
    · intro _ _ _ same
      cases same
  | ok envelope =>
    obtain ⟨_, _, fresh⟩ := effect
    rw [fresh rfl]
    have stored : IsQuiet ⟨.storeAppend threadId none .threadStarted, .ok envelope⟩ := ⟨id, id, id⟩
    have unhindered' := unhindered.unhindered stored
    refine Tries.bind (notifyEach_tries envelope rt.observers unhindered' ?_)
    intro notes all
    refine Tries.pure (Tries.pure ?_)
    have unhindered'' := unhindered'.extend fun observation member =>
      isQuiet_note (all observation member)
    refine ⟨?_, ?_, ?_, ?_, ?_⟩
    · intro threadId' held
      cases held
    · intro threadId' found
      exact absurd found (unhindered''.notActive threadId')
    · intro threadId' turnId serves
      rw [starts] at serves
      exact serves.elim
    · intro prepared source lost
      exact absurd lost unhindered''.calm.not_lost
    · intro _ _ same
      rw [starts] at same
      cases same

/-- Every call of a runtime meets the contract, and what it returns fits what it saw. -/
theorem code_meets (call : Call) : (contract rt strict call).Meets (call.code rt)
    (fun result state => Returned call result state.own) Local.idle := by
  suffices tries : (contract rt strict call).Tries (call.attempt rt)
      (fun reply state => Returned call (.ok reply) state.own)
      (fun error state => Returned call (.error error) state.own) Local.idle by
    refine Meets.mono tries ?_
    intro result state holds
    cases result with
    | ok reply => exact holds
    | error error => exact holds
  cases call with
  | startThread =>
    refine Tries.bind (Tries.mono (startThread_tries .thread rfl) ?_ (fun _ _ holds => holds))
    intro threadId state returned
    exact Tries.pure returned
  | recover threadId =>
    have serves : ∀ threadId' turnId, ¬ (Call.recover threadId).Serves threadId' turnId :=
      fun _ _ => id
    refine Tries.bind (Tries.mono (ensured_tries ?_)
      (fun report state (returned : Returned (.recover threadId) (.ok (.report report)) state.own) =>
        Tries.pure returned) (fun _ _ holds => holds))
    intro events exist
    refine holding_tries
      (fun _ state => ∃ before, Restored (.recover threadId) threadId before state) .report
      ?_ ?_ ?_ rfl rfl exist
    · intro state admitted
      exact admitted.recover_tries serves fun report state' restored => ⟨_, restored⟩
    · intro report state ⟨before, restored⟩
      exact ⟨restored.guard, restored.unhindered⟩
    · intro report state ⟨before, restored⟩ _ same
      cases same
      exact ⟨rfl, restored.recovered⟩
  | runTurn threadId turnId input cancellation =>
    refine Tries.bind (Tries.mono (ensured_tries ?_)
      (fun outcome state (returned : Returned (.runTurn threadId turnId input cancellation)
        (.ok (.outcome outcome)) state.own) => Tries.pure returned) (fun _ _ holds => holds))
    intro events exist
    refine holding_tries
      (Completed (.runTurn threadId turnId input cancellation) threadId turnId) .outcome
      ?_ ?_ ?_ rfl rfl exist
    · intro state admitted
      exact admitted.runTurn_tries fun outcome state' completed => completed
    · intro outcome state completed
      exact ⟨completed.guard, completed.unhindered⟩
    · intro outcome state _ _ same
      cases same

end Calls

end Nausicaa.Core
