import Nausicaa.Core.CallSpec
import Nausicaa.Core.LogSpec
import Nausicaa.Core.Ownership
import Nausicaa.Core.Pairing

/-! # Runs of a runtime

What holds in every configuration that interleaved calls reach, whatever the seams
answer, whichever appends fail and wherever calls are dropped: every call meets its
contract from its own view, and every thread's log conforms to the turn protocol.

The runs are those of `runtimeMachine strict`; with `strict := False` these are all
runs.
-/

namespace Nausicaa.Core

open Interaction (Adjacent Built Machine Reachable Sound Step)

/-- The log of every thread was built by allowed events, and under `strict` its terminal
events find every accepted call answered. -/
structure Lawful (strict : Prop) (world : World) : Prop where
  built : ∀ threadId, Built
    (fun before entry => Allowed before entry ∧
      (strict → entry.2.IsTerminal → Settled before))
    (turnLog (world.log threadId))
  untagged : ∀ envelope ∈ world.events, envelope.turnId = none → envelope.event = .threadStarted

namespace Lawful

variable {strict : Prop} {world : World} {threadId : ThreadId}

theorem empty : Lawful strict World.empty where
  built _ := Built.nil
  untagged _ member := by cases member

theorem conforms (lawful : Lawful strict world) (threadId : ThreadId) :
    Conforms (turnLog (world.log threadId)) :=
  (lawful.built threadId).mono fun _ _ allowed => allowed.1

/-- Events outside of turns say nothing to the model. -/
theorem transcript (lawful : Lawful strict world) (threadId : ThreadId) :
    transcriptFromEvents (world.log threadId) = messages (turnLog (world.log threadId)) := by
  have known : ∀ envelope ∈ world.log threadId, envelope.turnId = none →
      envelope.event = .threadStarted := by
    intro envelope member
    exact lawful.untagged envelope (List.mem_of_mem_filter member)
  generalize world.log threadId = events at known
  induction events with
  | nil => rfl
  | cons envelope events ih =>
    have rest := ih fun later member => known later (List.mem_cons_of_mem _ member)
    have split : turnLog (envelope :: events) = turnLog [envelope] ++ turnLog events :=
      turnLog_append [envelope] events
    have first : transcriptFromEvents [envelope] = messages (turnLog [envelope]) := by
      cases tagged : envelope.turnId with
      | none =>
        have event := known envelope List.mem_cons_self tagged
        simp [transcriptFromEvents, event, RuntimeEvent.message, turnLog, turnEntry, tagged,
          messages]
      | some turnId =>
        rw [turnLog_singleton tagged rfl]
        cases shown : envelope.event.message <;>
          simp [transcriptFromEvents, messages, shown]
    rw [split, messages, List.filterMap_append]
    rw [transcriptFromEvents] at rest first ⊢
    rw [← List.singleton_append, List.filterMap_append, rest, first]
    rfl

theorem of_events {world' : World} (lawful : Lawful strict world)
    (same : world'.events = world.events) : Lawful strict world' where
  built threadId := by
    have sameLog : world'.log threadId = world.log threadId := by rw [World.log, World.log, same]
    rw [sameLog]
    exact lawful.built threadId
  untagged := same ▸ lawful.untagged

/-- One more event, at the end of its thread's log. -/
theorem push {envelope : EventEnvelope} (lawful : Lawful strict world)
    (allowed : ∀ turnId, envelope.turnId = some turnId →
      Allowed (turnLog (world.log envelope.threadId)) (turnId, envelope.event) ∧
        (strict → envelope.event.IsTerminal → Settled (turnLog (world.log envelope.threadId))))
    (untagged : envelope.turnId = none → envelope.event = .threadStarted) :
    Lawful strict (world.push envelope) where
  built threadId := by
    rw [log_push]
    split
    next same =>
      subst same
      rw [turnLog_append]
      cases tagged : envelope.turnId with
      | none =>
        have skipped : turnLog [envelope] = [] := by simp [turnLog, turnEntry, tagged]
        rw [skipped, List.append_nil]
        exact lawful.built _
      | some turnId =>
        rw [turnLog_singleton tagged rfl]
        exact (lawful.built _).snoc (allowed turnId tagged)
    next other =>
      rw [List.append_nil]
      exact lawful.built threadId
  untagged envelope' member := by
    cases List.mem_append.mp member with
    | inl earlier => exact lawful.untagged envelope' earlier
    | inr last => rw [List.mem_singleton.mp last]; exact untagged

end Lawful

/-! ## One operation -/

section Operations

variable {rt : AgentRuntime} {strict : Prop} {world world' : World} {own own' : Own}
variable {op : Operation} {answer : Answer op} {call : Call} {threadId : ThreadId}

/-- Only a successful append changes what is stored. -/
theorem exec_events (exec : machine.exec world own op answer world' own') :
    world'.events = world.events ∨ ∃ threadId turnId event envelope,
      (⟨op, answer⟩ : Observation) = ⟨.storeAppend threadId turnId event, .ok envelope⟩ ∧
      envelope.threadId = threadId ∧ envelope.turnId = turnId ∧ envelope.event = event ∧
      world' = world.push envelope := by
  obtain ⟨proposed, after, performed, _⟩ := exec
  cases op with
  | storeAppend threadId turnId event =>
    cases proposed with
    | error source => cases performed; exact .inl rfl
    | ok stamp =>
      cases performed
      exact .inr ⟨threadId, turnId, event, _, rfl, rfl, rfl, rfl, rfl⟩
  | newThreadId | activeInsert threadId =>
    simp only [World.perform] at performed
    split at performed <;> cases performed <;> exact .inl rfl
  | loadThread threadId => cases proposed <;> cases performed <;> exact .inl rfl
  | activeRemove threadId => cases performed; exact .inl rfl
  | isCancelled _ | compile _ | beforeModel _ _ _ | beforeTool _ _ _ | afterTool _ _ _
  | completeControlled _ _ | prepare _ _ _ | requestApproval _ | execute _ _ _ | onEvent _ _ =>
    cases performed
    exact .inl rfl

theorem exec_log_prefix (exec : machine.exec world own op answer world' own')
    (threadId : ThreadId) : world.log threadId <+: world'.log threadId := by
  cases exec_events exec with
  | inl same => rw [World.log, World.log, same]
  | inr pushed =>
    obtain ⟨_, _, _, envelope, _, _, _, _, rfl⟩ := pushed
    rw [log_push]
    exact List.prefix_append _ _

/-- What a call remembers of the thread it let go of is what the log was then. -/
theorem exec_left (exec : machine.exec world own op answer world' own') :
    own'.left = own.left ∨ ∃ threadId, own'.left = some (threadId, world'.log threadId) := by
  obtain ⟨proposed, after, performed, rfl⟩ := exec
  cases op with
  | storeAppend threadId turnId event =>
    cases proposed with
    | error source => cases performed; exact .inl rfl
    | ok stamp =>
      cases performed
      refine .inl ?_
      show (if _ then _ else _ : Own).left = own.left
      split <;> rfl
  | newThreadId | activeInsert threadId =>
    simp only [World.perform] at performed
    split at performed <;> cases performed <;> exact .inl rfl
  | loadThread threadId => cases proposed <;> cases performed <;> exact .inl rfl
  | activeRemove threadId => cases performed; exact .inr ⟨threadId, rfl⟩
  | isCancelled _ | compile _ | beforeModel _ _ _ | beforeTool _ _ _ | afterTool _ _ _
  | completeControlled _ _ | prepare _ _ _ | requestApproval _ | execute _ _ _ | onEvent _ _ =>
    cases performed
    exact .inl rfl

/-- A dropped call takes no event with it. -/
theorem release_events (world : World) (own : Own) :
    (machine.release world own).events = world.events := by
  cases held : own.held <;> simp [machine, held]

/-- A permitted operation keeps the logs lawful. -/
theorem Lawful.exec (lawful : Lawful strict world)
    (permitted : (contract rt strict call).permit (world.view own) op)
    (exec : (runtimeMachine strict).exec world own op answer world' own') :
    Lawful strict world' := by
  cases exec_events exec.1 with
  | inl same => exact lawful.of_events same
  | inr pushed =>
    obtain ⟨threadId, turnId, event, envelope, asked, rfl, rfl, rfl, rfl⟩ := pushed
    cases asked
    obtain ⟨_, permitted⟩ := permitted
    refine lawful.push ?_ ?_
    · intro turnId tagged
      rw [tagged] at permitted
      obtain ⟨guard, allowed, closing⟩ := permitted
      have guard : own.held = .guard envelope.threadId := guard
      have seen : (world.view own).log = world.log envelope.threadId := by simp [World.view, guard]
      rw [seen] at allowed closing
      exact ⟨allowed (lawful.conforms _), closing⟩
    · intro tagged
      rw [tagged] at permitted
      exact permitted.2

end Operations

/-! ## Whole runs -/

/-- The logs of a store with a conforming past. -/
def RunsFrom (rt : AgentRuntime) (strict : Prop) (world : World) (config : RuntimeConfiguration) :
    Prop := Reachable (runtimeMachine strict) (Call.code rt) world config

section Runs

variable {rt : AgentRuntime} {strict : Prop} {world : World} {config config' : RuntimeConfiguration}
variable {index : Nat} {task : RuntimeTask} {op : Operation}
variable {resume : Answer op → Interaction.Program Operation Answer (Except RuntimeError Reply)}
variable {result : Except RuntimeError Reply} {threadId : ThreadId} {log : List EventEnvelope}

/-- Without the restriction the machine is the runtime's own. -/
theorem Running.runsFrom (running : Running rt world config) : RunsFrom rt False world config :=
  Reachable.restrict (fun _ _ _ => False.elim) running

theorem RunsFrom.running (runs : RunsFrom rt strict world config) : Running rt world config :=
  Reachable.of_restrict runs

theorem RunsFrom.sound (runs : RunsFrom rt strict world config) (idle : world.active = ∅) :
    Sound (runtimeMachine strict) (contract rt strict) World.view Owned
      (fun call result state => Returned call result state.own) config :=
  Reachable.sound (discipline rt strict) code_meets (owned_nil idle) runs

/-- The logs stay lawful. -/
theorem RunsFrom.lawful (runs : RunsFrom rt strict world config) (idle : world.active = ∅)
    (lawful : Lawful strict world) : Lawful strict config.shared := by
  refine Reachable.shared_invariant (discipline rt strict) code_meets (owned_nil idle)
    lawful ?_ ?_ runs
  · intro world owned index call own op answer world' own' _ _ lawful permitted exec
    exact lawful.exec permitted exec
  · intro world own lawful
    exact lawful.of_events (release_events world own)

/-- A call only asks what its contract permits. -/
theorem RunsFrom.permitted (runs : RunsFrom rt strict world config) (idle : world.active = ∅)
    (present : config.tasks[index]? = some task) (asks : task.program = some (.ask op resume)) :
    Orderly task.call task.own.history op ∧
      permit rt strict task.call (config.shared.view task.own) op :=
  ((runs.sound idle).meets index task _ present asks).1

theorem RunsFrom.returned (runs : RunsFrom rt strict world config) (idle : world.active = ∅)
    (present : config.tasks[index]? = some task) (done : task.program = some (.done result)) :
    Returned task.call result task.own :=
  (runs.sound idle).meets index task _ present done

theorem RunsFrom.orderly (runs : RunsFrom rt strict world config) (idle : world.active = ∅)
    (present : config.tasks[index]? = some task) : OrderlyHistory task.call task.own.history :=
  (runs.sound idle).invariant.orderly _
    (List.mem_of_getElem? (Interaction.owned_of_task present))

/-- What a call remembers of the thread it let go of is the start of the thread's log. -/
theorem RunsFrom.left_prefix (runs : RunsFrom rt strict world config)
    (present : config.tasks[index]? = some task) (left : task.own.left = some (threadId, log)) :
    log <+: config.shared.log threadId := by
  induction runs generalizing index task with
  | refl => simp [Interaction.Config.start] at present
  | tail _ step ih =>
    cases step with
    | spawn call =>
      cases List.mem_append.mp (List.mem_of_getElem? present) with
      | inl old =>
        obtain ⟨place, found⟩ := List.mem_iff_getElem?.mp old
        exact ih found left
      | inr new =>
        rw [List.mem_singleton.mp new] at left
        cases left
    | @act place task' op resume answer world' own' present' asks exec =>
      have grows := exec_log_prefix exec.1 threadId
      cases List.mem_or_eq_of_mem_set (List.mem_of_getElem? present) with
      | inl other =>
        obtain ⟨place, found⟩ := List.mem_iff_getElem?.mp other
        exact (ih found left).trans grows
      | inr acted =>
        subst acted
        cases exec_left exec.1 with
        | inl same => exact (ih present' (same ▸ left)).trans grows
        | inr letGo =>
          obtain ⟨threadId', same⟩ := letGo
          cases left.symm.trans same
          exact List.prefix_refl _
    | @drop place task' present' =>
      have same : ∀ config : RuntimeConfiguration,
          ((runtimeMachine strict).release config.shared task'.own).log threadId =
            config.shared.log threadId := by
        intro config
        rw [World.log, World.log]
        exact congrArg _ (release_events config.shared task'.own)
      rw [same]
      cases List.mem_or_eq_of_mem_set (List.mem_of_getElem? present) with
      | inl other =>
        obtain ⟨place, found⟩ := List.mem_iff_getElem?.mp other
        exact ih found left
      | inr dropped =>
        subst dropped
        exact ih present' left

end Runs

end Nausicaa.Core
