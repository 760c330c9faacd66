import Nausicaa.Core.Delivery
import Nausicaa.Core.TurnWalk

/-! # What a call tells observers

Read on its own, a call tells observers of every event it stores, in order and before it
lets go of its thread, waits or ends, unless the store refuses what directly follows one
of its appends.  Turns keep this after every step (`Ready`); recovery owes everything it
stores until it has loaded the log again.
-/

namespace Nausicaa.Core

open Interaction (Contract outcome mapError)
open Interaction.Contract (Keeps Meets Tries)
open RecoveryState (scanLog)
open Std (TreeSet)

/-- What a call has still to tell. -/
def Local.due (rt : AgentRuntime) (state : Local) : List Notice :=
  dueAfter rt.observers state.own.history

section Contract

variable (rt : AgentRuntime) (call : Call)

/-- Observers are told in turn of what is due to them, and of everything before the call
lets go of its thread or waits. -/
def deliveryPermit (state : Local) : Operation → Prop
  | .storeAppend _ none _ => call.IsStart
  | .onEvent observer envelope => ∃ rest, state.due rt = (observer, envelope) :: rest
  | .activeRemove _ | .completeControlled .. | .requestApproval _ | .execute .. =>
    state.due rt = []
  | _ => True

/-- Sequences grow, and the store refuses nothing directly behind an append. -/
def deliveryAnswer (state : Local) : (op : Operation) → Answer op → Prop
  | .storeAppend .., .ok envelope =>
    (∀ earlier ∈ state.log, earlier.sequence < envelope.sequence) ∧
      envelope.sequence ≤ 0xFFFFFFFFFFFFFFFF
  | .loadThread _, .ok events =>
    events.Pairwise fun first second => first.sequence ≤ second.sequence
  | op, answer => Refuses op answer → rt.observers = [] ∨ ¬ JustStored state.own.history

/-- The contract of a call with its observers. -/
def delivery : Contract Operation Answer Local where
  permit := deliveryPermit rt call
  step state op answer state' :=
    (contract rt False call).step state op answer state' ∧ deliveryAnswer rt state op answer

end Contract

section Rules

variable {rt : AgentRuntime} {call : Call} {state : Local} {ε : Type} {α : Type}
variable {threadId : ThreadId} {turnId : TurnId} {event : RuntimeEvent} {op : Operation}

theorem due_extend (envelopes : List EventEnvelope) (observation : Observation) :
    (state.extend envelopes [observation]).due rt =
      owe rt.observers (state.due rt) observation := by
  simp [Local.due, dueAfter_snoc]

theorem ask_tries {ok : Answer op → Local → Prop} {failed : ε → Local → Prop}
    (permitted : deliveryPermit rt call state op)
    (answered : ∀ answer state', effect False state op answer state' →
      deliveryAnswer rt state op answer → ok answer (state'.extend [] [⟨op, answer⟩])) :
    (delivery rt call).Tries (perform op) ok failed state := by
  apply Tries.request permitted
  intro answer state' step
  obtain ⟨⟨state'', effect, same⟩, fair⟩ := step
  subst same
  exact answered answer state'' effect fair

/-- Tell each observer what is due to it next. -/
theorem notifyEach_delivers {envelope : EventEnvelope} {observers : List EventObserver}
    {rest : List Notice} {ok : Unit → Local → Prop} {failed : RuntimeError → Local → Prop}
    (due : state.due rt = observers.map (fun observer => (observer, envelope)) ++ rest)
    (told : ∀ notes, (state.extend [] notes).due rt = rest → ok () (state.extend [] notes)) :
    (delivery rt call).Tries (AgentRuntime.notifyEach envelope observers) ok failed state := by
  induction observers generalizing state with
  | nil =>
    apply Tries.pure
    have same := told [] (by simpa using due)
    simpa using same
  | cons observer observers ih =>
    have permitted : deliveryPermit rt call state (.onEvent observer envelope) := ⟨_, due⟩
    apply Tries.bind
    apply ask_tries permitted
    intro answer state' same _
    have same : state' = state := same
    subst same
    have next : (state'.extend [] [⟨.onEvent observer envelope, answer⟩]).due rt =
        observers.map (fun observer => (observer, envelope)) ++ rest := by
      have tells : Observation.notice ⟨.onEvent observer envelope, answer⟩ =
          some (observer, envelope) := rfl
      rw [due_extend, owe_told rt.observers tells (envelope_of_notice tells), due]
      rfl
    apply ih next
    intro notes last
    rw [Local.extend_extend] at last ⊢
    exact told _ last

theorem notify_delivers {envelope : EventEnvelope} {rest : List Notice}
    {ok : Unit → Local → Prop} {failed : RuntimeError → Local → Prop}
    (due : state.due rt = notices rt.observers [envelope] ++ rest)
    (told : ∀ notes, (state.extend [] notes).due rt = rest → ok () (state.extend [] notes)) :
    (delivery rt call).Tries (rt.notify envelope) ok failed state := by
  have each : state.due rt =
      rt.observers.map (fun observer => (observer, envelope)) ++ rest := by
    rw [due, notices_singleton]
  exact notifyEach_delivers each told

/-- A call that holds its thread and has told observers of everything it stored. -/
structure Ready (rt : AgentRuntime) (threadId : ThreadId) (state : Local) : Prop where
  guard : state.own.held = .guard threadId
  told : state.due rt = []

theorem effect_seam {answer : Answer op} {state' : Local} (seam : op.IsSeam)
    (effect : effect False state op answer state') : state' = state := by
  cases op with
  | newThreadId => exact seam.elim
  | storeAppend => exact seam.elim
  | activeInsert => exact seam.elim
  | activeRemove => exact seam.elim
  | onEvent => exact seam.elim
  | loadThread threadId =>
    cases answer with
    | error source => exact effect
    | ok events => exact effect.1
  | afterTool hook context receipt => exact effect.1
  | _ => exact effect

theorem owe_seam {answer : Answer op} (seam : op.IsSeam) (due : List Notice) :
    owe rt.observers due ⟨op, answer⟩ = due := by
  cases op with
  | newThreadId => exact seam.elim
  | storeAppend => exact seam.elim
  | onEvent => exact seam.elim
  | _ => exact owe_silent rt.observers rfl rfl

theorem keeps_perform (op : Operation) (seam : op.IsSeam) :
    (delivery rt call).Keeps (Ready rt threadId) (perform op : Attempt ε (Answer op)) := by
  intro state ready
  apply ask_tries
  · cases op with
    | storeAppend => exact seam.elim
    | activeRemove => exact seam.elim
    | onEvent => exact seam.elim
    | completeControlled request control => exact ready.told
    | requestApproval request => exact ready.told
    | execute tool prepared context => exact ready.told
    | _ => trivial
  · intro answer state' effect _
    have same := effect_seam seam effect
    subst same
    constructor
    · exact ready.guard
    · rw [due_extend, owe_seam seam]
      exact ready.told

/-! ## Turns -/

/-- The holder of a thread stores an event and tells everybody. -/
theorem keeps_append : (delivery rt call).Keeps (Ready rt threadId)
    (rt.append threadId (some turnId) event) := by
  intro state ready
  have permitted : deliveryPermit rt call state (.storeAppend threadId (some turnId) event) :=
    trivial
  apply Tries.bind
  apply ask_tries permitted
  intro answer state' effect _
  cases answer with
  | error source =>
    have same : state' = state := effect
    subst same
    apply Tries.throw
    constructor
    · exact ready.guard
    · rw [due_extend, owe_silent rt.observers rfl rfl]
      exact ready.told
  | ok envelope =>
    obtain ⟨_, pushed, _⟩ := effect
    rw [pushed ready.guard]
    have stores : Observation.envelope
        ⟨.storeAppend threadId (some turnId) event, .ok envelope⟩ = some envelope := rfl
    have due : (Local.extend ⟨state.own, state.log ++ [envelope]⟩ []
        [⟨.storeAppend threadId (some turnId) event, .ok envelope⟩]).due rt =
          notices rt.observers [envelope] ++ [] := by
      have before : Local.due rt ⟨state.own, state.log ++ [envelope]⟩ = [] := ready.told
      rw [due_extend, owe_stored rt.observers stores, before, List.nil_append, List.append_nil]
    apply Tries.bind
    apply notify_delivers due
    intro notes told
    exact Tries.pure ⟨ready.guard, told⟩

theorem keeps_loadThread {threadId' : ThreadId} : (delivery rt call).Keeps (Ready rt threadId)
    (AgentRuntime.loadThread threadId') := by
  apply Keeps.bind (keeps_perform (.loadThread threadId') trivial)
  intro answer
  cases answer with
  | error source => exact Keeps.throw _
  | ok events => exact Keeps.pure _

end Rules

/-- What a turn keeps, it keeps through every kind of step. -/
theorem turnRules {rt : AgentRuntime} {call : Call} {turn : Turn} :
    TurnRules (delivery rt call) rt turn (Ready rt turn.threadId)
      (fun _ => Ready rt turn.threadId) :=
  TurnRules.of_keeps (fun op seam _ => keeps_perform op seam) fun _ => keeps_append

/-! ## Recovery -/

/-- The sequence from which `recover_exclusive` tells observers. -/
def threshold (events : List EventEnvelope) : Nat :=
  (events.getLast?.map fun event => AgentRuntime.nextSequence event.sequence).getD 0

/-- Envelopes that came after all of `events`. -/
def Follow (events : List EventEnvelope) (envelopes : List EventEnvelope) : Prop :=
  ∀ envelope ∈ envelopes, (∀ earlier ∈ events, earlier.sequence < envelope.sequence) ∧
    envelope.sequence ≤ 0xFFFFFFFFFFFFFFFF

section Threshold

variable {events envelopes : List EventEnvelope} {envelope : EventEnvelope}

theorem threshold_le (follow : Follow events envelopes) (member : envelope ∈ envelopes) :
    threshold events ≤ envelope.sequence := by
  obtain ⟨after, _⟩ := follow envelope member
  unfold threshold
  cases last : events.getLast? with
  | none => exact Nat.zero_le _
  | some event =>
    have before := after event (List.mem_of_getLast? last)
    simp only [Option.map_some, Option.getD_some, AgentRuntime.nextSequence]
    omega

/-- The sequence of an old envelope stays below the threshold: the addition saturates
only where no later sequence exists. -/
theorem lt_threshold
    (sorted : events.Pairwise fun first second => first.sequence ≤ second.sequence)
    (follow : Follow events envelopes) (something : envelopes ≠ []) (member : envelope ∈ events) :
    envelope.sequence < threshold events := by
  obtain ⟨first, rest, rfl⟩ := List.exists_cons_of_ne_nil something
  obtain ⟨after, bounded⟩ := follow first List.mem_cons_self
  cases List.eq_nil_or_concat events with
  | inl nothing =>
    subst nothing
    cases member
  | inr split =>
    obtain ⟨before, event, rfl⟩ := split
    rw [List.concat_eq_append] at sorted member after ⊢
    have last : envelope.sequence ≤ event.sequence := by
      rw [List.pairwise_append] at sorted
      cases List.mem_append.mp member with
      | inl earlier => exact sorted.2.2 envelope earlier event List.mem_cons_self
      | inr here => rw [List.mem_singleton.mp here]
    have next := after event (by simp)
    simp only [threshold, List.getLast?_append, List.getLast?_singleton,
      Option.some_or, Option.map_some, Option.getD_some, AgentRuntime.nextSequence]
    omega

end Threshold

/-- A recovery that stored `appended` behind `events` and told nobody so far. -/
structure Storing (rt : AgentRuntime) (threadId : ThreadId) (events appended : List EventEnvelope)
    (state : Local) : Prop where
  guard : state.own.held = .guard threadId
  log : state.log = events ++ appended
  due : state.due rt = notices rt.observers appended
  follow : Follow events appended

/-- A refusal can only be met where nothing is owed. -/
def Exposed (appended : List EventEnvelope) (state : Local) : Prop :=
  appended = [] ∨ JustStored state.own.history

section Recovery

variable {rt : AgentRuntime} {call : Call} {state : Local} {threadId : ThreadId}
variable {events appended : List EventEnvelope}

/-- Whatever is refused then, everything stored was told. -/
theorem Storing.refused {observation : Observation}
    (storing : Storing rt threadId events appended state)
    (silent : observation.notice = none) (keeps : observation.envelope = none)
    (exposed : Exposed appended state)
    (fair : rt.observers = [] ∨ ¬ JustStored state.own.history) :
    Ready rt threadId (state.extend [] [observation]) := by
  constructor
  · exact storing.guard
  · rw [due_extend, owe_silent rt.observers silent keeps, storing.due]
    cases fair with
    | inl nobody => rw [nobody, notices_nil]
    | inr calm =>
      cases exposed with
      | inl nothing =>
        subst nothing
        rfl
      | inr stored => exact absurd stored calm

theorem justStored_snoc {history : List Observation} {observation : Observation}
    {envelope : EventEnvelope} (stores : observation.envelope = some envelope) :
    JustStored (history ++ [observation]) :=
  ⟨observation, by simp, by simp [stores]⟩

theorem appendAll_delivers {entries : TurnLog} {ok : Unit → Local → Prop}
    (storing : Storing rt threadId events appended state) (exposed : Exposed appended state)
    (stored : ∀ more state', more.length = entries.length →
      Storing rt threadId events (appended ++ more) state' →
      Exposed (appended ++ more) state' → ok () state') :
    (delivery rt call).Tries (appendAll threadId entries) ok (fun _ => Ready rt threadId) state := by
  induction entries generalizing state appended with
  | nil =>
    apply Tries.pure
    apply stored [] state rfl
    · simpa using storing
    · simpa using exposed
  | cons entry entries ih =>
    have permitted : deliveryPermit rt call state (.storeAppend threadId (some entry.1) entry.2) :=
      trivial
    apply Tries.bind
    apply Tries.bind
    apply ask_tries permitted
    intro answer state' effect fair
    cases answer with
    | error source =>
      have same : state' = state := effect
      subst same
      exact Tries.throw (storing.refused rfl rfl exposed (fair trivial))
    | ok envelope =>
      obtain ⟨_, pushed, _⟩ := effect
      obtain ⟨after, bounded⟩ := fair
      rw [pushed storing.guard]
      have stores : Observation.envelope
          ⟨.storeAppend threadId (some entry.1) entry.2, .ok envelope⟩ = some envelope := rfl
      have storing' : Storing rt threadId events (appended ++ [envelope])
          (Local.extend ⟨state.own, state.log ++ [envelope]⟩ []
            [⟨.storeAppend threadId (some entry.1) entry.2, .ok envelope⟩]) := {
        guard := storing.guard
        log := by simp [storing.log]
        due := by
          have before : Local.due rt ⟨state.own, state.log ++ [envelope]⟩ =
              notices rt.observers appended := storing.due
          rw [due_extend, owe_stored rt.observers stores, before, notices_append]
        follow := by
          intro envelope' member
          cases List.mem_append.mp member with
          | inl earlier => exact storing.follow envelope' earlier
          | inr last =>
            rw [List.mem_singleton.mp last]
            refine ⟨fun earlier old => after earlier ?_, bounded⟩
            rw [storing.log]
            exact List.mem_append_left _ old }
      apply Tries.pure
      apply ih storing' (.inr (justStored_snoc stores))
      intro more state' counted storing'' exposed'
      rw [List.append_assoc, List.singleton_append] at storing'' exposed'
      exact stored (envelope :: more) state' (by simp [counted]) storing'' exposed'

theorem recoverThread_delivers {ok : RecoveryReport → Local → Prop}
    (storing : Storing rt threadId events [] state)
    (recovered : ∀ report more state', (report.receiptsRecorded = [] ∧
        report.turnsMarkedFailed = [] ↔ more = []) →
      Storing rt threadId events more state' → Exposed more state' → ok report state') :
    (delivery rt call).Tries (recoverThread threadId) ok (fun _ => Ready rt threadId) state := by
  have permitted : deliveryPermit rt call state (.loadThread threadId) := trivial
  have seam : (Operation.loadThread threadId).IsSeam := trivial
  rw [recoverThread_eq]
  apply Tries.bind
  apply ask_tries permitted
  intro answer state' effect fair
  have same := effect_seam seam effect
  subst same
  cases answer with
  | error source => exact Tries.throw (storing.refused rfl rfl (.inl rfl) (fair trivial))
  | ok loaded =>
    have storing' : Storing rt threadId events []
        (state'.extend [] [⟨.loadThread threadId, .ok loaded⟩]) := {
      guard := storing.guard
      log := by simpa using storing.log
      due := by
        rw [due_extend, owe_silent rt.observers rfl rfl]
        exact storing.due
      follow := storing.follow }
    apply Tries.bind
    apply appendAll_delivers storing' (.inl rfl)
    intro more state'' counted storing'' exposed
    apply Tries.pure
    apply recovered _ more state'' _ storing'' exposed
    rw [← List.length_eq_zero_iff (l := more), counted, List.length_eq_zero_iff]
    simp [RecoveryState.plan, RecoveryState.report]

theorem loadThread_delivers {ok : List EventEnvelope → Local → Prop}
    {failed : RuntimeError → Local → Prop}
    (loaded : ∀ events, (state.own.held = .guard threadId → events = state.log) →
      (events.Pairwise fun first second => first.sequence ≤ second.sequence) →
      ok events (state.extend [] [⟨.loadThread threadId, .ok events⟩]))
    (unavailable : ∀ source, rt.observers = [] ∨ ¬ JustStored state.own.history →
      failed (.store source) (state.extend [] [⟨.loadThread threadId, .error source⟩])) :
    (delivery rt call).Tries (AgentRuntime.loadThread threadId) ok failed state := by
  have permitted : deliveryPermit rt call state (.loadThread threadId) := trivial
  apply Tries.bind
  apply ask_tries permitted
  intro answer state' effect fair
  cases answer with
  | error source =>
    have same : state' = state := effect
    subst same
    exact Tries.throw (unavailable source (fair trivial))
  | ok events =>
    obtain ⟨same, current⟩ := effect
    subst same
    exact Tries.pure (loaded events current fair)

theorem notifyFrom_skips {before : Nat} (rest : List EventEnvelope)
    (old : ∀ envelope ∈ events, envelope.sequence < before) :
    rt.notifyFrom before (events ++ rest) = rt.notifyFrom before rest := by
  induction events with
  | nil => rfl
  | cons envelope events ih =>
    have below := old envelope List.mem_cons_self
    have skipped : ¬ before ≤ envelope.sequence := by omega
    rw [List.cons_append, AgentRuntime.notifyFrom, if_neg skipped]
    exact ih fun later member => old later (List.mem_cons_of_mem _ member)

theorem notifyFrom_delivers {before : Nat} {ok : Unit → Local → Prop}
    {failed : RuntimeError → Local → Prop} (due : state.due rt = notices rt.observers appended)
    (new : ∀ envelope ∈ appended, before ≤ envelope.sequence)
    (told : ∀ notes, (state.extend [] notes).due rt = [] → ok () (state.extend [] notes)) :
    (delivery rt call).Tries (rt.notifyFrom before appended) ok failed state := by
  induction appended generalizing state with
  | nil =>
    apply Tries.pure
    have same := told [] (by simpa [notices] using due)
    simpa using same
  | cons envelope appended ih =>
    rw [AgentRuntime.notifyFrom, if_pos (new envelope List.mem_cons_self)]
    rw [notices_of_cons] at due
    apply Tries.bind
    apply notify_delivers due
    intro notes rest
    apply ih rest fun later member => new later (List.mem_cons_of_mem _ member)
    intro more last
    rw [Local.extend_extend] at last ⊢
    exact told _ last

/-- Recovery tells of what it stored: everything from the threshold on, and nothing
before it. -/
theorem keeps_recoverExclusive : (delivery rt call).Keeps (Ready rt threadId)
    (rt.recoverExclusive threadId) := by
  intro state ready
  apply Tries.bind
  apply loadThread_delivers
  · intro events current sorted
    have isLog := current ready.guard
    subst isLog
    have storing : Storing rt threadId state.log []
        (state.extend [] [⟨.loadThread threadId, .ok state.log⟩]) := {
      guard := ready.guard
      log := by simp
      due := by
        rw [due_extend, owe_silent rt.observers rfl rfl]
        exact ready.told
      follow := by
        intro envelope member
        cases member }
    apply Tries.bind
    apply Tries.mapError
    apply recoverThread_delivers storing
    intro report appended state' counted storing' exposed
    by_cases nothing : appended = []
    · -- An empty report: nothing was stored, and nobody is told.
      subst nothing
      obtain ⟨receipts, turns⟩ := counted.mpr rfl
      simp only [receipts, turns, List.isEmpty_nil, Bool.and_self, ↓reduceIte]
      exact Tries.pure ⟨storing'.guard, storing'.due⟩
    · have changed : (report.receiptsRecorded.isEmpty && report.turnsMarkedFailed.isEmpty) =
          false := by
        cases test : report.receiptsRecorded.isEmpty && report.turnsMarkedFailed.isEmpty with
        | false => rfl
        | true =>
          rw [Bool.and_eq_true, List.isEmpty_iff, List.isEmpty_iff] at test
          exact absurd (counted.mp test) nothing
      simp only [changed]
      apply Tries.bind
      apply loadThread_delivers
      · intro reloaded current' _
        rw [current' storing'.guard, storing'.log]
        have due : (state'.extend [] [⟨.loadThread threadId,
            .ok (state.log ++ appended)⟩]).due rt = notices rt.observers appended := by
          rw [due_extend, owe_silent rt.observers rfl rfl]
          exact storing'.due
        have old : ∀ envelope ∈ state.log, envelope.sequence < threshold state.log :=
          fun envelope member => lt_threshold sorted storing'.follow nothing member
        apply Tries.bind
        rw [← threshold, notifyFrom_skips appended old]
        apply notifyFrom_delivers due fun envelope member => threshold_le storing'.follow member
        intro notes told
        exact Tries.pure ⟨storing'.guard, told⟩
      · intro source fair
        exact storing'.refused rfl rfl exposed fair
  · intro source _
    constructor
    · exact ready.guard
    · rw [due_extend, owe_silent rt.observers rfl rfl]
      exact ready.told

end Recovery

/-! ## Calls -/

section Calls

variable {rt : AgentRuntime} {call : Call} {state : Local} {threadId : ThreadId} {α : Type}

/-- A call that told observers of everything it stored, whatever it holds. -/
def Told (rt : AgentRuntime) (state : Local) : Prop := state.due rt = []

theorem keeps_told_loadThread : (delivery rt call).Keeps (Told rt)
    (AgentRuntime.loadThread threadId) := by
  intro state told
  have same : ∀ answer,
      Told rt (state.extend [] [⟨.loadThread threadId, answer⟩]) := by
    intro answer
    have seam : (Operation.loadThread threadId).IsSeam := trivial
    unfold Told
    rw [due_extend, owe_seam seam]
    exact told
  apply loadThread_delivers
  · intro events _ _
    exact same (.ok events)
  · intro source _
    exact same (.error source)

theorem keeps_ensureThread : (delivery rt call).Keeps (Told rt)
    (AgentRuntime.ensureThread threadId) := by
  apply Keeps.bind keeps_told_loadThread
  intro events
  split
  · exact Keeps.pure _
  · exact Keeps.throw _

/-- Under the guard observers are told before it is dropped. -/
theorem keeps_holding {body : Attempt RuntimeError α}
    (keeps : (delivery rt call).Keeps (Ready rt threadId) body) :
    (delivery rt call).Keeps (Told rt) (AgentRuntime.holding threadId body) := by
  intro state told
  have silent : ∀ (state' : Local) answer, Told rt state' →
      Told rt (state'.extend [] [⟨.activeInsert threadId, answer⟩]) := by
    intro state' answer told'
    unfold Told
    rw [due_extend, owe_silent rt.observers rfl rfl]
    exact told'
  have acquiring : deliveryPermit rt call state (.activeInsert threadId) := trivial
  apply Tries.bind
  apply Tries.bind
  apply ask_tries acquiring
  intro answer state' effect _
  cases answer with
  | error source => exact effect.elim
  | ok absent =>
    cases absent with
    | false =>
      have same : state' = state := effect
      subst same
      exact Tries.throw (silent _ _ told)
    | true =>
      obtain ⟨log, same⟩ := effect
      subst same
      have ready : Ready rt threadId (Local.extend
          ⟨{ state.own with held := .guard threadId }, log⟩ []
          [⟨.activeInsert threadId, .ok true⟩]) := ⟨rfl, silent _ _ told⟩
      apply Tries.pure
      apply Tries.bind
      apply Tries.mono (Keeps.outcome keeps _ ready)
      · intro result state' ready'
        have releasing : deliveryPermit rt call state' (.activeRemove threadId) := ready'.told
        apply Tries.bind
        apply ask_tries releasing
        intro answer state'' same _
        have same : state'' = _ := same
        subst same
        have told' : Told rt (Local.extend
            ⟨{ state'.own with held := .nothing, left := some (threadId, state'.log) }, []⟩ []
            [⟨.activeRemove threadId, answer⟩]) := by
          unfold Told
          rw [due_extend, owe_silent rt.observers rfl rfl]
          exact ready'.told
        cases result with
        | ok value => exact Tries.pure told'
        | error error => exact Tries.throw told'
      · intro error state' ready'
        exact ready'.told

theorem keeps_ensureTurnUnused {turnId : TurnId} : (delivery rt call).Keeps (Ready rt threadId)
    (AgentRuntime.ensureTurnUnused threadId turnId) := by
  apply Keeps.bind keeps_loadThread
  intro events
  split
  · exact Keeps.throw _
  · exact Keeps.pure _

theorem keeps_runTurnExclusive {turnId : TurnId} {input : String}
    {cancellation : CancellationToken} : (delivery rt call).Keeps (Ready rt threadId)
      (rt.runTurnExclusive threadId turnId input cancellation) := by
  apply Keeps.bind keeps_ensureTurnUnused
  intro _
  apply Keeps.bind keeps_recoverExclusive
  intro _
  apply Keeps.bind keeps_append
  intro _
  apply Keeps.bind keeps_append
  intro _
  apply Keeps.bind keeps_loadThread
  intro events
  let turn : Turn := {
    threadId, turnId, cancellation
    capabilities := rt.capabilities
    visibleNames := rt.capabilities.visibleNames
    visibleTools := rt.tools.definitionsFor rt.capabilities.visibleNames }
  have loop : (delivery rt call).Keeps (Ready rt turn.threadId)
      (rt.turnLoop turn rt.config.maxModelIterations 0 (transcriptFromEvents events) ∅) :=
    turnRules.turnLoop fun _ => keeps_append
  exact loop

/-- `start_thread` tells observers without holding the thread it made. -/
theorem startThread_delivers (starts : call.IsStart) :
    (delivery rt call).Tries rt.startThread (fun _ => Told rt) (fun _ => Told rt) Local.idle := by
  have naming : deliveryPermit rt call Local.idle .newThreadId := trivial
  apply Tries.bind
  apply ask_tries naming
  intro threadId state same _
  have same : state = _ := same
  subst same
  have named : Told rt (Local.extend ⟨{ Local.idle.own with held := .fresh threadId }, []⟩ []
      [⟨.newThreadId, threadId⟩]) := by
    unfold Told
    rw [due_extend, owe_silent rt.observers rfl rfl]
    rfl
  have storing : deliveryPermit rt call (Local.extend
      ⟨{ Local.idle.own with held := .fresh threadId }, []⟩ [] [⟨.newThreadId, threadId⟩])
      (.storeAppend threadId none .threadStarted) := starts
  apply Tries.bind
  apply Tries.bind
  apply ask_tries storing
  intro answer state' effect _
  cases answer with
  | error source =>
    have same : state' = _ := effect
    subst same
    apply Tries.throw
    unfold Told
    rw [due_extend, owe_silent rt.observers rfl rfl]
    exact named
  | ok envelope =>
    obtain ⟨_, _, stored⟩ := effect
    rw [stored rfl]
    have stores : Observation.envelope
        ⟨.storeAppend threadId none .threadStarted, .ok envelope⟩ = some envelope := rfl
    have due : (Local.extend
        ⟨{ (Local.extend ⟨{ Local.idle.own with held := .fresh threadId }, []⟩ []
          [⟨.newThreadId, threadId⟩]).own with held := .nothing }, []⟩ []
        [⟨.storeAppend threadId none .threadStarted, .ok envelope⟩]).due rt =
          notices rt.observers [envelope] ++ [] := by
      rw [due_extend, owe_stored rt.observers stores, List.append_nil]
      exact congrArg (· ++ notices rt.observers [envelope]) named
    apply Tries.bind
    apply notify_delivers due
    intro notes told
    exact Tries.pure (Tries.pure told)

/-- However a call ends, it told observers of everything it stored. -/
theorem code_delivers (call : Call) : (delivery rt call).Meets (call.code rt)
    (fun _ state => Told rt state) Local.idle := by
  suffices tries : (delivery rt call).Tries (call.attempt rt) (fun _ => Told rt)
      (fun _ => Told rt) Local.idle by
    apply Meets.mono tries
    intro result state told
    cases result with
    | ok reply => exact told
    | error error => exact told
  have idle : Told rt Local.idle := rfl
  cases call with
  | startThread =>
    apply Tries.bind
    have starts : Call.startThread.IsStart := trivial
    apply Tries.mono (startThread_delivers starts)
    · intro threadId state told
      exact Tries.pure told
    · intro error state told
      exact told
  | recover threadId =>
    have keeps : (delivery rt (.recover threadId)).Keeps (Told rt) (rt.recover threadId) :=
      Keeps.bind keeps_ensureThread fun _ => keeps_holding keeps_recoverExclusive
    exact Keeps.bind keeps (fun _ => Keeps.pure _) _ idle
  | runTurn threadId turnId input cancellation =>
    have keeps : (delivery rt (.runTurn threadId turnId input cancellation)).Keeps (Told rt)
        (rt.runTurnWithIdAndCancellation threadId turnId input cancellation) :=
      Keeps.bind keeps_ensureThread fun _ => keeps_holding keeps_runTurnExclusive
    exact Keeps.bind keeps (fun _ => Keeps.pure _) _ idle

end Calls

end Nausicaa.Core
