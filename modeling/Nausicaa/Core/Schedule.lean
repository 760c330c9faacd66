import Nausicaa.Core.Runs

/-! # Schedules

Runs that can be evaluated.  A schedule says which call moves next, and `Surroundings`
answers every seam as a function of the operation; whatever a schedule plays is a run
(`play_runs`).
-/

namespace Nausicaa.Core

open Interaction (Config Step)

/-- What the surroundings answer to each operation. -/
abbrev Surroundings := (op : Operation) → Answer op

/-- The next thing that happens in a run. -/
inductive Move where
  | call (call : Call)
  | act (index : Nat)
  | drop (index : Nat)

namespace Schedule

variable (rt : AgentRuntime) (around : Surroundings)

def step (config : RuntimeConfiguration) : Move → Option RuntimeConfiguration
  | .call call =>
    some { config with tasks := config.tasks ++ [⟨call, some (call.code rt), machine.idle⟩] }
  | .act index =>
    match config.tasks[index]? with
    | some ⟨call, some (.ask op resume), own⟩ =>
      match config.shared.perform own op (around op) with
      | some (answer, world, after) =>
        let task : RuntimeTask := ⟨call, some (resume answer), after.observe op answer⟩
        some ⟨world, config.tasks.set index task⟩
      | none => none
    | _ => none
  | .drop index =>
    match config.tasks[index]? with
    | some task =>
      some ⟨machine.release config.shared task.own,
        config.tasks.set index ⟨task.call, none, machine.abandon task.own⟩⟩
    | none => none

def play : List Move → RuntimeConfiguration → Option RuntimeConfiguration
  | [], config => some config
  | move :: moves, config =>
    match step rt around config move with
    | some config' => play moves config'
    | none => none

variable {rt around} {strict : Prop} {config config' : RuntimeConfiguration} {world : World}

/-- A move is a step whose answer is the one of the surroundings. -/
theorem step_restricted {move : Move} {condition : World → (op : Operation) → Answer op → Prop}
    (accepts : ∀ world own op answer world' after,
      World.perform world own op (around op) = some (answer, world', after) →
        condition world op answer)
    (moved : step rt around config move = some config') :
    Step (machine.restrict condition) (Call.code rt) config config' := by
  cases move with
  | call call =>
    cases moved
    exact Step.spawn config call
  | act index =>
    simp only [step] at moved
    split at moved
    next call op resume own present =>
      split at moved
      next answer world after performed =>
        cases moved
        exact Step.act present rfl ⟨⟨_, _, performed, rfl⟩, accepts _ _ _ _ _ _ performed⟩
      next => cases moved
    next => cases moved
  | drop index =>
    simp only [step] at moved
    split at moved
    next task present =>
      cases moved
      have dropped : Step (machine.restrict condition) (Call.code rt) config _ := Step.drop present
      exact dropped
    next => cases moved

theorem play_restricted {moves : List Move} {start : RuntimeConfiguration}
    {condition : World → (op : Operation) → Answer op → Prop}
    (accepts : ∀ world own op answer world' after,
      World.perform world own op (around op) = some (answer, world', after) →
        condition world op answer)
    (played : play rt around moves start = some config) :
    Relation.ReflTransGen (Step (machine.restrict condition) (Call.code rt)) start config := by
  induction moves generalizing start with
  | nil =>
    cases played
    exact Relation.ReflTransGen.refl
  | cons move moves ih =>
    simp only [play] at played
    split at played
    next next moved => exact Relation.ReflTransGen.head (step_restricted accepts moved) (ih played)
    next => cases played

theorem play_steps {moves : List Move} {start : RuntimeConfiguration}
    (accepts : strict → ∀ hook context receipt, around (.afterTool hook context receipt) = .ok ())
    (played : play rt around moves start = some config) :
    Relation.ReflTransGen (Step (runtimeMachine strict) (Call.code rt)) start config := by
  refine play_restricted ?_ played
  intro world own op answer world' after performed isStrict
  cases op with
  | afterTool hook context receipt =>
    cases performed
    rw [accepts isStrict]
    trivial
  | _ => trivial

/-- What a schedule plays is a run; a restricted one if no after-tool hook rejects. -/
theorem play_runs {moves : List Move}
    (accepts : strict → ∀ hook context receipt, around (.afterTool hook context receipt) = .ok ())
    (played : play rt around moves (Config.start world) = some config) :
    RunsFrom rt strict world config := play_steps accepts played

end Schedule

/-! ## A small runtime

One tool, one hook, and a model that asks for two calls and then ends the turn. -/

namespace Sample

def threadId : ThreadId := ⟨"thread"⟩

def turnId : TurnId := ⟨"turn"⟩

def tool : Tool := ⟨0⟩

def first : ToolCall := ⟨⟨"first"⟩, "write", .null⟩

def second : ToolCall := ⟨⟨"second"⟩, "write", .null⟩

def prepare (call : ToolCall) : PreparedToolCall :=
  ⟨call.id, ⟨call.name, call.arguments, .workspaceWrite, .idempotent, none⟩⟩

def runtime (access : Access) : AgentRuntime where
  tools := match ToolRegistry.new.registerArc ⟨"write", "write a file", .null⟩ tool with
    | .ok registry => registry
    | .error _ => .new
  policy := fun _ _ => access
  policyContext := ⟨none, none, none, none⟩
  parentCapabilities := none
  hooks := [⟨0, "audit"⟩]
  observers := []
  modelObserver := none
  config := ⟨4, none, ∅⟩

/-- The surroundings, with what the hook answers after a tool. -/
def around (afterTool : Except String Unit) : Surroundings
  | .newThreadId => threadId
  | .storeAppend threadId turnId event => .ok ⟨⟨"event"⟩, 0, 0, threadId, turnId, event⟩
  | .loadThread _ => .ok []
  | .activeInsert _ => .ok true
  | .activeRemove _ => ()
  | .isCancelled _ => false
  | .compile input => .ok ⟨[], input.transcript⟩
  | .beforeModel .. | .beforeTool .. => .ok ()
  | .afterTool .. => afterTool
  | .completeControlled request _ =>
    if request.iteration = 0 then .ok ⟨"", [first, second], .toolUse, ⟨1, 1⟩⟩
    else .ok ⟨"done", [], .endTurn, ⟨1, 1⟩⟩
  | .prepare _ call _ => .ok (prepare call)
  | .requestApproval request => .ok (.approved request.action)
  | .execute .. => .ok ⟨.null⟩
  | .onEvent .. => ()

/-- A thread is started and a turn on it takes `steps` steps. -/
def turn (steps : Nat) : List Move :=
  ([.call .startThread, .act 0, .act 0, .call (.runTurn threadId turnId "hello" ⟨0⟩)] : List Move) ++
    List.replicate steps (Move.act 1)

/-- A turn is dropped while its second call is executed, and then recovered. -/
def interrupted : List Move :=
  turn 35 ++ ([.drop 1, .call (.recover threadId)] : List Move) ++ List.replicate 8 (Move.act 2)

/-- A turn that ends after its first call, and then a recovery. -/
def rejected : List Move :=
  turn 27 ++ ([.call (.recover threadId)] : List Move) ++ List.replicate 7 (Move.act 2)

/-- A recovery that finds a turn in progress, which is then dropped. -/
def contended : List Move :=
  turn 20 ++ ([.call (.recover threadId)] : List Move) ++ List.replicate 2 (Move.act 2) ++
    ([.drop 1] : List Move)

/-- The configuration after some moves. -/
def after (access : Access) (afterTool : Except String Unit) (moves : List Move) :
    RuntimeConfiguration :=
  (Schedule.play (runtime access) (around afterTool) moves (Config.start World.empty)).getD
    (Config.start World.empty)

theorem after_runs {strict : Prop} (access : Access) (afterTool : Except String Unit)
    (moves : List Move) (accepts : strict → afterTool = .ok ())
    (played : (Schedule.play (runtime access) (around afterTool) moves
      (Config.start World.empty)).isSome = true) :
    RunsFrom (runtime access) strict World.empty (after access afterTool moves) := by
  obtain ⟨config, found⟩ := Option.isSome_iff_exists.mp played
  have same : after access afterTool moves = config := by simp [after, found]
  rw [same]
  refine Schedule.play_runs ?_ found
  intro isStrict _ _ _
  exact accepts isStrict

end Sample

end Nausicaa.Core
