import Nausicaa.Core.Asking
import Nausicaa.Core.TurnSafety

/-! # The contexts that are sent

Every context that a model is asked about was compiled for the same turn, from a paired transcript
(`RunningWith.sends`). -/

namespace Nausicaa.Core

open Interaction (Contract Program Reachable)
open Interaction.Contract (Keeps Meets Tries)

section Compiling

variable (compiles : ContextInput → Except ContextError CompiledContext → Prop)

/-- The compiler answers as it can. -/
def CompilesWith : (op : Operation) → Answer op → Prop
  | .compile input, answer => compiles input answer
  | _, _ => True

/-- The runs of a runtime with such a compiler. -/
def RunningWith (rt : AgentRuntime) (world : World) (config : RuntimeConfiguration) : Prop :=
  Reachable (machine.restrict fun _ op answer => CompilesWith compiles op answer) (Call.code rt)
    world config

/-- The context was compiled for this turn, from a paired transcript. -/
def SentFrom (threadId : ThreadId) (turnId : TurnId) (context : CompiledContext) : Prop :=
  ∃ transcript, Paired transcript ∧ compiles ⟨threadId, turnId, transcript⟩ (.ok context)

def Operation.Sends : Operation → Prop
  | .completeControlled request _ =>
    SentFrom compiles request.threadId request.turnId request.context
  | _ => True

def compiling : Contract Operation Answer Unit where
  permit _ op := op.Sends compiles
  step
    | _, .compile input, answer, _ => Paired input.transcript ∧ compiles input answer
    | _, _, _, _ => True

variable {compiles} {rt : AgentRuntime} {turn : Turn}

theorem compiling_plain : Plainly (compiling compiles) (fun _ => True) where
  permits op plain _ _ := by
    cases op with
    | completeControlled _ _ | prepare _ _ _ => exact plain.elim
    | _ => trivial
  keeps _ _ _ _ _ _ _ := trivial

theorem compiling_parts : TurnParts (compiling compiles) rt turn (fun _ => True)
    (fun _ _ => True) where
  seam op _ other _ := by
    intro state _
    refine Tries.request ?_ fun _ _ _ => trivial
    cases op with
    | completeControlled _ _ => exact (other trivial).elim
    | _ => trivial
  append _ _ := compiling_plain.append
  lost _ _ _ _ _ := trivial
  fail _ _ _ _ := by
    apply Keeps.bind
    · exact Keeps.bind compiling_plain.append fun _ => Keeps.pure _
    · intro _
      exact Keeps.throw _
  cancel _ := Keeps.bind compiling_plain.append fun _ => Keeps.throw _

theorem compiling_turnLoop {remaining iteration : Nat} {transcript : List TranscriptMessage}
    {seen : Std.TreeSet CallId} :
    (compiling compiles).Keeps (fun _ => True)
      (rt.turnLoop turn remaining iteration transcript seen) := by
  apply @TurnParts.turnLoop _ _ _ _ _ _ _ compiling_parts (fun _ => compiling_plain.append)
    (SentFrom compiles turn.threadId turn.turnId)
  · intro iteration compiled control sent state _
    exact Tries.request sent fun _ _ _ => trivial
  · intro transcript state _
    apply Tries.request trivial
    intro answer _ ⟨paired, compiled⟩
    refine ⟨trivial, ?_⟩
    rintro context rfl
    exact ⟨transcript, paired, compiled⟩

variable {config : RuntimeConfiguration} {task : RuntimeTask}

theorem RunningWith.running {world : World} (running : RunningWith compiles rt world config) :
    Running rt world config := Reachable.of_restrict running

theorem Schedule.play_with {around : Surroundings} {moves : List Move} {world : World}
    (answers : ∀ input, compiles input (around (.compile input)))
    (played : Schedule.play rt around moves (.start world) = some config) :
    RunningWith compiles rt world config := by
  refine Schedule.play_restricted ?_ played
  intro world own op answer world' after performed
  cases op with
  | compile input =>
    cases performed
    exact answers input
  | _ => trivial

/-- What is sent was compiled by the compiler. -/
theorem RunningWith.sends {request : ModelRequest} {control : ModelControl}
    {resume : Except ModelError ModelResponse →
      Program Operation Answer (Except RuntimeError Reply)}
    (running : RunningWith compiles rt World.empty config) (member : task ∈ config.tasks)
    (asks : task.program = some (.ask (.completeControlled request control) resume)) :
    SentFrom compiles request.threadId request.turnId request.context := by
  have meets : (compiling compiles).Meets (.ask (.completeControlled request control) resume)
      (fun _ _ => True) () := by
    apply Reachable.asks_when _ _ running task member _ asks
    · intro config index task op resume answer world' own' reached present asks exec
      cases op with
      | compile input =>
        -- The transcript is paired where the compiler is called.
        obtain ⟨_, guard, settled, shown⟩ :=
          (RunningWith.running reached).runsFrom.permitted rfl present asks
        have lawful := (RunningWith.running reached).runsFrom.lawful rfl Lawful.empty
        rw [view_log guard] at settled shown
        refine ⟨?_, exec.2⟩
        rw [shown, lawful.transcript]
        exact (lawful.conforms input.threadId).paired settled
      | _ => trivial
    · intro call
      apply Meets.mono (compiling_plain.attempt _ call () trivial) fun _ _ _ => trivial
      intro turn remaining iteration transcript seen _ _
      exact compiling_turnLoop
  exact meets.1

end Compiling

end Nausicaa.Core
