import Nausicaa.Core.Delivered
import Nausicaa.Core.Schedule

/-! # Observers follow the log

In every run of calls on one runtime the observers were told of exactly the stored events,
up to what one call at work still owes, as long as every step is `Prompt`
(`Watches.followLog`).  Without that they miss events for good: what a recovery stored
before the store refused it is never told, also not by the recovery that completes it.
-/

namespace Nausicaa.Core

open Interaction (Balanced Built Config SelectedDiscipline SelectedSound SelectedStep Step)
open Interaction.Contract (Meets)

section Runs

variable {rt : AgentRuntime} {start : World} {condition : StepCondition}
variable {config : WatchedConfiguration} {threadId : ThreadId}

theorem notices_received (observers : List EventObserver) (observer : EventObserver)
    (envelopes : List EventEnvelope) :
    ((notices observers envelopes).filter fun notice => notice.1 = observer).map Prod.snd =
      repeated (observers.count observer) envelopes := by
  have one : ∀ envelope : EventEnvelope,
      ((observers.map fun observer => (observer, envelope)).filter
        fun notice => notice.1 = observer).map Prod.snd =
      List.replicate (observers.count observer) envelope := by
    intro envelope
    induction observers with
    | nil => rfl
    | cons first observers ih =>
      by_cases same : first = observer
      · simp [same, ih, List.replicate_succ]
      · simp [same, ih]
  induction envelopes with
  | nil => rfl
  | cons envelope envelopes ih =>
    rw [notices_of_cons, notices_singleton, List.filter_append, List.map_append, one, ih]
    rfl

/-- A run under a condition that makes every step prompt. -/
theorem Watches.sound (idle : start.active = ∅) (ordered : start.Ordered)
    (prompt : ∀ owned index op answer, condition owned index op answer →
      Prompt rt owned index op answer)
    (watches : Watches rt condition start config) :
    SelectedSound (observed rt) Watched.view (Delivering rt start)
      (fun _ _ state => Told rt state) (fun _ own => dueAfter rt.observers own.history = [])
      config := by
  have discipline : SelectedDiscipline watchedMachine condition.selection (observed rt)
      Watched.view Local.idle (Delivering rt start)
      (fun (_ : Call) (_ : Except RuntimeError Reply) state => Told rt state)
      (fun _ own => dueAfter rt.observers own.history = []) := by
    constructor
    · intro watched
      rfl
    · intro watched owned call delivering
      exact {
        ownership := (Nausicaa.Core.discipline rt False).spawn call delivering.ownership
        ordered := delivering.ordered
        events := delivering.events
        stored := delivering.stored
        holder := by
          intro entry member threadId owes
          cases List.mem_append.mp member with
          | inl old => exact delivering.holder entry old threadId owes
          | inr new =>
            rw [List.mem_singleton.mp new] at owes
            exact absurd rfl owes
        balanced := by
          intro threadId
          rw [List.map_append]
          exact (delivering.balanced threadId).join }
    · intro watched owned index call own op answer watched' own' delivering present permitted exec
        selected
      exact delivering.act present permitted exec selected.1 (prompt _ _ _ _ selected.2)
    · intro watched owned index call own delivering present resting
      have told := Delivering.rests resting
      exact ⟨told, delivering.drop present told⟩
  have codes : ∀ call, (observed rt call).Meets (call.code rt)
      (fun _ state => Told rt state) Local.idle := by
    intro call
    have runs : (contract rt False call).Meets (call.code rt) _ Local.idle := code_meets call
    have permits : ∀ state op, (contract rt False call).permit state op →
        (delivery rt call).permit state op → (observed rt call).permit state op :=
      fun _ _ permitted permitted' => ⟨permitted, permitted'⟩
    have steps : ∀ state op answer state', (observed rt call).step state op answer state' →
        (contract rt False call).step state op answer state' ∧
          (delivery rt call).step state op answer state' :=
      fun _ _ _ _ step => ⟨step.1, step⟩
    apply Meets.mono (Meets.both permits steps runs (code_delivers call))
    intro result state holds
    exact holds.2
  apply Interaction.SelectedReachable.sound discipline codes _ watches
  exact {
    ownership := owned_nil idle
    ordered := ordered
    events := by simp [storedIn]
    stored := Built.nil
    holder := by
      intro entry member
      cases member
    balanced := fun threadId => Balanced.empty }

/-- A call that is at rest owes nothing about the thread. -/
theorem AtRest.told {task : Interaction.Task Operation Answer Own Call (Except RuntimeError Reply)}
    (sound : SelectedSound (observed rt) Watched.view (Delivering rt start)
      (fun _ _ state => Told rt state) (fun _ own => dueAfter rt.observers own.history = [])
      config) (member : task ∈ config.tasks) (rest : AtRest threadId task) :
    dueOf rt.observers threadId task.own.history = [] := by
  cases rest with
  | inl none =>
    apply dueOf_of_told
    have holds := sound.holds task member
    unfold Interaction.Task.Holds at holds
    cases program : task.program with
    | none =>
      simp only [program] at holds
      exact holds
    | some program' =>
      simp only [program] at holds
      cases program' with
      | ask op resume => exact absurd program (none op resume)
      | done result => exact holds
  | inr elsewhere =>
    by_contra owes
    have entry : (task.call, task.own) ∈ config.owned := List.mem_map.mpr ⟨task, member, rfl⟩
    cases sound.invariant.holder _ entry threadId owes with
    | inl guard => exact elsewhere.2 guard
    | inr starts => exact elsewhere.1 starts

/-- Observers receive the durable log in every run in which the store refuses nothing
directly behind an append of the same call, and stores nothing in a thread that is still
being announced. -/
theorem Watches.followLog (idle : start.active = ∅) (ordered : start.Ordered)
    (watches : Watches rt (Prompt rt) start config) : FollowLog rt start config := by
  have sound := watches.sound idle ordered fun _ _ _ _ prompt => prompt
  have delivering := sound.invariant
  exact {
    log := by
      intro threadId
      rw [World.log, delivering.events, List.filter_append]
      rfl
    stored := delivering.stored
    inOrder := by
      intro observer _ threadId
      rw [← notices_received]
      have announced := (delivering.balanced threadId).announced_initial
      exact (announced.filter _).map Prod.snd
    all := by
      intro observer _ threadId rest
      have settled : toldOf threadId config.shared.trace =
          notices rt.observers (appendedTo threadId config.shared.trace) := by
        apply (delivering.balanced threadId).settled
        intro outbox member
        obtain ⟨entry, present, rfl⟩ := List.mem_map.mp member
        obtain ⟨task, known, rfl⟩ := List.mem_map.mp present
        exact AtRest.told sound known (rest task known)
      rw [received, settled, notices_received] }

/-- Without its trace the run is one of the runtime. -/
theorem Watches.running (watches : Watches rt condition start config) :
    Running rt start ⟨config.shared.world, config.tasks⟩ := by
  have reachable := watches.reachable
  clear watches
  induction reachable with
  | refl => exact Relation.ReflTransGen.refl
  | @tail before after _ step ih =>
    apply ih.tail
    cases step with
    | spawn call => exact Step.spawn _ call
    | act present asks exec => exact Step.act present asks exec.1
    | drop present =>
      have dropped : Step machine (Call.code rt) ⟨before.shared.world, before.tasks⟩ _ :=
        Step.drop present
      exact dropped

theorem Watches.mono {condition' : StepCondition}
    (weaken : ∀ owned index op answer, condition owned index op answer →
      condition' owned index op answer)
    (watches : Watches rt condition start config) : Watches rt condition' start config := by
  induction watches with
  | refl => exact Relation.ReflTransGen.refl
  | tail _ step ih =>
    apply ih.tail
    cases step with
    | spawn call => exact SelectedStep.spawn _ call
    | act present asks exec selected =>
      exact SelectedStep.act present asks exec ⟨selected.1, weaken _ _ _ _ selected.2⟩
    | drop present running rests =>
      have dropped : SelectedStep watchedMachine (Call.code rt) condition'.selection _ _ :=
        SelectedStep.drop present running rests
      exact dropped

end Runs

/-! ## Schedules with a trace -/

def hasSequence : (op : Operation) → Answer op → Bool
  | .storeAppend .., .ok envelope => decide (envelope.sequence ≤ 0xFFFFFFFFFFFFFFFF)
  | _, _ => true

theorem hasSequence_iff {op : Operation} {answer : Answer op} :
    hasSequence op answer = true ↔ HasSequence op answer := by
  cases op with
  | storeAppend => cases answer <;> simp [hasSequence, HasSequence]
  | _ => exact ⟨fun _ => trivial, fun _ => rfl⟩

instance (op : Operation) (answer : Answer op) : Decidable (HasSequence op answer) :=
  decidable_of_iff _ hasSequence_iff

def refuses : (op : Operation) → Answer op → Bool
  | .storeAppend .., .error _ | .loadThread _, .error _ => true
  | _, _ => false

theorem refuses_iff {op : Operation} {answer : Answer op} :
    refuses op answer = true ↔ Refuses op answer := by
  cases op with
  | storeAppend | loadThread => cases answer <;> simp [refuses, Refuses]
  | _ => simp [refuses, Refuses]

instance (op : Operation) (answer : Answer op) : Decidable (Refuses op answer) :=
  decidable_of_iff _ refuses_iff

instance : DecidablePred Call.IsStart := fun call => by
  cases call <;> unfold Call.IsStart <;> infer_instance

/-- The store takes everything and no call starts a thread. -/
def Undisturbed : StepCondition := fun owned _ op answer =>
  ¬ Refuses op answer ∧ ∀ entry ∈ owned, ¬ entry.1.IsStart

instance (owned : List (Call × Own)) (index : Nat) (op : Operation) (answer : Answer op) :
    Decidable (Undisturbed owned index op answer) := by
  unfold Undisturbed
  infer_instance

/-- Any answer at all. -/
def Anyhow : StepCondition := fun _ _ _ _ => True

instance (owned : List (Call × Own)) (index : Nat) (op : Operation) (answer : Answer op) :
    Decidable (Anyhow owned index op answer) := isTrue trivial

theorem Undisturbed.prompt {rt : AgentRuntime} {owned : List (Call × Own)} {index : Nat}
    {op : Operation} {answer : Answer op} (undisturbed : Undisturbed owned index op answer) :
    Prompt rt owned index op answer where
  follows refuses := absurd refuses undisturbed.1
  announced _ _ _ entry _ found starts :=
    absurd starts (undisturbed.2 entry (List.mem_of_getElem? found))

namespace Schedule

variable (rt : AgentRuntime) (around : Surroundings) (condition : StepCondition)
variable [∀ owned index op answer, Decidable (condition owned index op answer)]

/-- A move of a schedule without drops, if its answer meets the condition. -/
def watch (config : WatchedConfiguration) : Move → Option WatchedConfiguration
  | .call call =>
    some { config with tasks := config.tasks ++ [⟨call, some (call.code rt), machine.idle⟩] }
  | .act index =>
    match config.tasks[index]? with
    | some ⟨call, some (.ask op resume), own⟩ =>
      match config.shared.world.perform own op (around op) with
      | some (answer, world, after) =>
        if HasSequence op answer ∧ condition config.owned index op answer then
          let shared : Watched := ⟨world, config.shared.trace ++ [⟨op, answer⟩]⟩
          some ⟨shared, config.tasks.set index
            ⟨call, some (resume answer), after.observe op answer⟩⟩
        else none
      | none => none
    | _ => none
  | .drop _ => none

def watchAll : List Move → WatchedConfiguration → Option WatchedConfiguration
  | [], config => some config
  | move :: moves, config =>
    match watch rt around condition config move with
    | some config' => watchAll moves config'
    | none => none

variable {rt around condition} {config config' : WatchedConfiguration} {start : World}

theorem watch_sound {move : Move} (moved : watch rt around condition config move = some config') :
    SelectedStep watchedMachine (Call.code rt) condition.selection config config' := by
  cases move with
  | call call =>
    cases moved
    exact SelectedStep.spawn config call
  | act index =>
    simp only [watch] at moved
    split at moved
    next call op resume own present =>
      split at moved
      next answer world after performed =>
        split at moved
        next selected =>
          cases moved
          exact SelectedStep.act present rfl ⟨⟨_, _, performed, rfl⟩, rfl⟩ selected
        next => cases moved
      next => cases moved
    next => cases moved
  | drop index => cases moved

/-- What a schedule plays after a run goes on with that run. -/
theorem watchAll_runs {moves : List Move} (watches : Watches rt condition start config)
    (played : watchAll rt around condition moves config = some config') :
    Watches rt condition start config' := by
  induction moves generalizing config with
  | nil =>
    cases played
    exact watches
  | cons move moves ih =>
    simp only [watchAll] at played
    split at played
    next next moved => exact ih (watches.tail (watch_sound moved)) played
    next => cases played

end Schedule

/-! ## A recovery that is refused -/

namespace Sample

/-- The runtime of the sample with one observer. -/
def observedRuntime : AgentRuntime := { runtime .ask with observers := [⟨0⟩] }

/-- A turn was interrupted before the call of its first response was prepared. -/
def halfway : World := World.opened
  [⟨⟨"event"⟩, 0, 0, threadId, none, .threadStarted⟩,
    ⟨⟨"event"⟩, 1, 0, threadId, some turnId, .turnStarted⟩,
    ⟨⟨"event"⟩, 2, 0, threadId, some turnId, .assistantMessage "" [first] .toolUse ⟨1, 1⟩⟩] 3 ∅

theorem halfway_ordered : halfway.Ordered where
  sorted := by decide
  below := by decide

/-- A store that refuses to mark a turn failed. -/
def refusing : Surroundings
  | .storeAppend _ _ (.turnFailed _) => .error (.io "no space left on device")
  | op => around (.ok ()) op

/-- The configuration after the thread was recovered. -/
def recovered : WatchedConfiguration :=
  (Schedule.watchAll observedRuntime (around (.ok ())) Undisturbed
    (.call (.recover threadId) :: List.replicate 10 (.act 0))
    (Config.start ⟨halfway, []⟩)).getD (Config.start ⟨halfway, []⟩)

/-- The store refuses the second event of the recovery; a later one completes it. -/
def refusedRecovery : Option WatchedConfiguration := do
  let refused ← Schedule.watchAll observedRuntime refusing Anyhow
    (.call (.recover threadId) :: List.replicate 7 (.act 0)) (Config.start ⟨halfway, []⟩)
  Schedule.watchAll observedRuntime (around (.ok ())) Anyhow
    (.call (.recover threadId) :: List.replicate 8 (.act 1)) refused

/-- A task that waits for no answer. -/
def rests (task : Interaction.Task Operation Answer Own Call (Except RuntimeError Reply)) : Bool :=
  match task.program with
  | some (.ask ..) => false
  | _ => true

/-- The configuration after that. -/
def missed : WatchedConfiguration := refusedRecovery.getD (Config.start ⟨halfway, []⟩)

theorem recovered_watches : Watches observedRuntime Undisturbed halfway recovered := by
  have played : (Schedule.watchAll observedRuntime (around (.ok ())) Undisturbed
      (.call (.recover threadId) :: List.replicate 10 (.act 0))
      (Config.start ⟨halfway, []⟩)).isSome = true := rfl
  obtain ⟨config, found⟩ := Option.isSome_iff_exists.mp played
  have same : recovered = config := by rw [recovered, found, Option.getD_some]
  rw [same]
  exact Schedule.watchAll_runs Relation.ReflTransGen.refl found

theorem missed_watches : Watches observedRuntime Anyhow halfway missed := by
  have played : refusedRecovery.isSome = true := rfl
  obtain ⟨config, found⟩ := Option.isSome_iff_exists.mp played
  have same : missed = config := by rw [missed, found, Option.getD_some]
  rw [same]
  unfold refusedRecovery at found
  obtain ⟨refused, first, second⟩ := Option.bind_eq_some_iff.mp found
  exact Schedule.watchAll_runs
    (Schedule.watchAll_runs Relation.ReflTransGen.refl first) second

end Sample

/-- The observer gets both events of a recovery to which the store agrees. -/
theorem followLog_recovered :
    (received ⟨0⟩ Sample.threadId Sample.recovered.shared.trace).length = 2 ∧
      FollowLog Sample.observedRuntime Sample.halfway Sample.recovered :=
  ⟨rfl, Watches.followLog rfl Sample.halfway_ordered
    (Sample.recovered_watches.mono fun _ _ _ _ undisturbed => undisturbed.prompt)⟩

/-- It never gets the receipt of the recovery that the store refused half-way, although
both recoveries are over and the second one succeeded. -/
theorem recovery_misses : ∃ config, Watches Sample.observedRuntime Anyhow Sample.halfway config ∧
    ¬ FollowLog Sample.observedRuntime Sample.halfway config := by
  refine ⟨Sample.missed, Sample.missed_watches, ?_⟩
  intro follows
  have ended : Sample.missed.tasks.all Sample.rests = true := rfl
  have rest : ∀ task ∈ Sample.missed.tasks, AtRest Sample.threadId task := by
    intro task member
    refine .inl fun op resume asks => ?_
    have stops := List.all_eq_true.mp ended task member
    simp [Sample.rests, asks] at stops
  have all := follows.all ⟨0⟩ (by simp [Sample.observedRuntime]) Sample.threadId rest
  have counts : (received ⟨0⟩ Sample.threadId Sample.missed.shared.trace).length = 1 ∧
      (repeated (Sample.observedRuntime.observers.count ⟨0⟩)
        (appendedTo Sample.threadId Sample.missed.shared.trace)).length = 2 := ⟨rfl, rfl⟩
  rw [all, counts.2] at counts
  exact absurd counts.1 (by decide)

end Nausicaa.Core
