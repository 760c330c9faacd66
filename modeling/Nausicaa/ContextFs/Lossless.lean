import Nausicaa.ContextFs.Externalize
import Nausicaa.Core.Schedule
import Nausicaa.Json.Text

/-! # No output is lost

Compiles one after the other share the archive, which knows an output by its thread and call id.
The runtime lets ids recur across turns, so every compile succeeds and no output is lost if and
only if long outputs that share an id are the same (`outputs_lossless`). -/

namespace Nausicaa.ContextFs

open Core (CompiledContext ContextError ContextInput ThreadId ToolReceipt TranscriptMessage)
open Json (Value)
open Text (encode)

section Compiles

variable {serialize : Value → String} {compiler : ExternalOutputCompiler}
variable {newId : Disk → String} {disk disk' : Disk} {inputs : List ContextInput}
variable {inner : ContextInput → Except ContextError CompiledContext} {input : ContextInput}

theorem snapshot_empty {thread : ThreadId} {id : String} {bytes : Bytes} :
    Disk.empty.snapshot thread id ≠ some bytes := by
  intro found
  obtain ⟨path, inode, _, _, file, _⟩ := snapshot_iff.mp found
  cases file

/-- Every file that the transcript needs has a name and room. -/
def Storable (serialize : Value → String) (compiler : ExternalOutputCompiler)
    (input : ContextInput) : Prop :=
  ∀ receipt output, .tool receipt ∈ input.transcript → compiler.Oversized serialize receipt output →
    (∃ path, paths input.threadId receipt.callId.value = .ok path) ∧
      (encode (serialize output)).length ≤ compiler.archive.maxOutputBytes

theorem Within.storable (within : compiler.Within serialize inputs) (member : input ∈ inputs) :
    Storable serialize compiler input := by
  intro receipt output present oversized
  obtain ⟨filled, short⟩ := within.threads input member
  obtain ⟨filled', short'⟩ := within.calls input member receipt present
  exact ⟨paths_valid filled short filled' short',
    within.outputs input member receipt output present oversized.2.1⟩

theorem compile_host {result : Except ContextError (List TranscriptMessage)}
    (ran : Ran serialize compiler newId input.threadId input.transcript disk result disk') :
    host newId (compiler.compile serialize inner input) disk =
      (some (result.bind fun transcript => inner { input with transcript }), disk') := by
  rw [ExternalOutputCompiler.compile]
  cases result with
  | ok transcript =>
    rw [host_bind _ ran.ran]
    exact host_ofExcept _
  | error error => exact host_bind_error _ ran.ran

/-- The disk after more compiles. -/
def compiledFrom (serialize : Value → String) (compiler : ExternalOutputCompiler)
    (newId : Disk → String) (inner : ContextInput → Except ContextError CompiledContext)
    (disk : Disk) (inputs : List ContextInput) : Disk :=
  inputs.foldl (fun disk input => (host newId (compiler.compile serialize inner input) disk).2) disk

theorem compiled_append (before after : List ContextInput) :
    compiler.compiled serialize newId inner (before ++ after) =
      compiledFrom serialize compiler newId inner
        (compiler.compiled serialize newId inner before) after :=
  List.foldl_append

theorem compiledFrom_cons {result : Except ContextError (List TranscriptMessage)}
    (ran : Ran serialize compiler newId input.threadId input.transcript disk result disk')
    (later : List ContextInput) :
    compiledFrom serialize compiler newId inner disk (input :: later) =
      compiledFrom serialize compiler newId inner disk' later := by
  rw [compiledFrom, List.foldl_cons, compile_host ran]
  rfl

/-- Compiles keep the snapshots, and make none that a table of all outputs does not have. -/
theorem compiledFrom_keeps (newId : Disk → String)
    (inner : ContextInput → Except ContextError CompiledContext) (storable : ∀ input ∈ inputs, Storable serialize compiler input)
    (calm : disk.Calm compiler.archive.maxOutputBytes) :
    (compiledFrom serialize compiler newId inner disk inputs).Calm
        compiler.archive.maxOutputBytes ∧
      (∀ thread id bytes, disk.snapshot thread id = some bytes →
        (compiledFrom serialize compiler newId inner disk inputs).snapshot thread id =
          some bytes) ∧
      ∀ table : Table, (∀ thread id bytes bytes', table thread id bytes →
          table thread id bytes' → bytes = bytes') →
        (∀ thread id bytes, disk.snapshot thread id = some bytes → table thread id bytes) →
        (∀ input ∈ inputs, ∀ receipt output, .tool receipt ∈ input.transcript →
          compiler.Oversized serialize receipt output →
          table input.threadId receipt.callId.value (encode (serialize output))) →
        ∀ thread id bytes, (compiledFrom serialize compiler newId inner disk inputs).snapshot
          thread id = some bytes → table thread id bytes := by
  induction inputs generalizing disk with
  | nil => exact ⟨calm, fun _ _ _ before => before, fun _ _ before _ => before⟩
  | cons input later ih =>
    obtain ⟨result, disk', ran⟩ := externalize_ran newId calm
      (storable input List.mem_cons_self)
    obtain ⟨calm', kept, fits⟩ := ih
      (fun input member => storable input (List.mem_cons_of_mem _ member)) ran.calm
    rw [compiledFrom_cons ran]
    refine ⟨calm', ?_, ?_⟩
    · intro thread id bytes before
      exact kept thread id bytes (ran.kept thread id bytes before)
    · intro table unique before all
      have between := (ran.free table unique before (all input List.mem_cons_self)).2
      exact fits table unique between fun input member => all input (List.mem_cons_of_mem _ member)

/-- The outputs that some compile meets. -/
def table (serialize : Value → String) (compiler : ExternalOutputCompiler)
    (inputs : List ContextInput) : Table :=
  fun thread id bytes => ∃ output, compiler.Meets serialize inputs thread id output ∧
    bytes = encode (serialize output)

/-- A compiler to wrap. -/
def answering : ContextInput → Except ContextError CompiledContext := fun _ => .ok ⟨[], []⟩

/-- A compile that ends well leaves its long outputs in the archive. -/
theorem lossless_kept (within : compiler.Within serialize inputs)
    (lossless : compiler.Lossless serialize newId inputs) {thread : ThreadId} {id : String}
    {output : Value} (met : compiler.Meets serialize inputs thread id output) :
    (compiler.compiled serialize newId answering inputs).snapshot thread id =
      some (encode (serialize output)) := by
  obtain ⟨input, member, rfl, receipt, present, rfl, oversized⟩ := met
  obtain ⟨before, after, rfl⟩ := List.append_of_mem member
  have storable : ∀ input' ∈ before ++ input :: after, Storable serialize compiler input' :=
    fun input' member => Within.storable within member
  have calm := (compiledFrom_keeps newId answering
    (fun input' member => storable input' (List.mem_append_left _ member))
    (Disk.Calm.empty compiler.archive.maxOutputBytes)).1
  obtain ⟨result, disk', ran⟩ := externalize_ran newId calm (storable input member)
  obtain ⟨transcript, _, reached, _⟩ := lossless answering before input [] after rfl
  have told : host newId (compiler.compile serialize answering input)
      (compiledFrom serialize compiler newId answering .empty before) = _ := compile_host ran
  have reached : some (result.bind fun transcript => answering { input with transcript }) =
      some (answering { input with transcript }) := by
    rw [← reached]
    exact (congrArg Prod.fst told).symm
  cases result with
  | error error => cases reached
  | ok messages =>
    have kept := (ran.passed messages rfl).2 receipt output present oversized
    have last := (compiledFrom_keeps newId answering
      (fun input' member => storable input' (List.mem_append_right _ (List.mem_cons_of_mem _ member)))
      ran.calm).2.1 _ _ _ kept
    rw [compiled_append, ← last]
    exact congrArg (Disk.snapshot · input.threadId receipt.callId.value) (compiledFrom_cons ran after)

end Compiles

/-! ## Two turns of the runtime -/

namespace Sample

/-- A compiler that leaves four bytes in the context. -/
def compiler : ExternalOutputCompiler := ⟨archive, 4⟩

/-- Every turn calls the tool once, with one id, and the output tells the turn. -/
def surroundings : Core.Surroundings
  | .completeControlled request _ =>
    if request.iteration = 0 then .ok ⟨"", [⟨⟨"call_1"⟩, "write", .null⟩], .toolUse, ⟨1, 1⟩⟩
    else .ok ⟨"done", [], .endTurn, ⟨1, 1⟩⟩
  | .execute _ _ context => .ok ⟨.string context.turnId.value⟩
  | op => Core.Sample.around (.ok ()) op

/-- Two turns on a thread, of the given numbers of steps. -/
def turns (first second : Nat) : List Core.Move :=
  ([.call .startThread, .act 0, .act 0, .call (.runTurn ⟨"thread"⟩ ⟨"one"⟩ "hello" ⟨0⟩)] :
    List Core.Move) ++ List.replicate first (Core.Move.act 1) ++
  ([.call (.runTurn ⟨"thread"⟩ ⟨"two"⟩ "hello" ⟨0⟩)] : List Core.Move) ++
    List.replicate second (Core.Move.act 2)

def played (first second : Nat) : Core.RuntimeConfiguration :=
  (Core.Schedule.play (Core.Sample.runtime .allow) surroundings (turns first second)
    (Interaction.Config.start Core.World.empty)).getD (Interaction.Config.start Core.World.empty)

theorem played_running (first second : Nat) (done : (Core.Schedule.play (Core.Sample.runtime .allow)
      surroundings (turns first second) (Interaction.Config.start Core.World.empty)).isSome = true) :
    Core.Running (Core.Sample.runtime .allow) Core.World.empty (played first second) := by
  obtain ⟨config, found⟩ := Option.isSome_iff_exists.mp done
  have same : played first second = config := by simp [played, found]
  rw [same]
  have runs : Core.RunsFrom (Core.Sample.runtime .allow) False Core.World.empty config :=
    Core.Schedule.play_runs False.elim found
  exact runs.running


/-- The receipt of a turn. -/
def receipt (turn : String) : ToolReceipt :=
  ⟨⟨"call_1"⟩, "write", .succeeded,
    some (Core.Sample.prepare ⟨⟨"call_1"⟩, "write", .null⟩).action, some (.string turn), none⟩

/-- The messages of a turn up to its receipt. -/
def called (turn : String) : List TranscriptMessage :=
  [.user "hello", .assistant "" [⟨⟨"call_1"⟩, "write", .null⟩], .tool (receipt turn)]

def firstTurn : List ContextInput :=
  [⟨⟨"thread"⟩, ⟨"one"⟩, [.user "hello"]⟩, ⟨⟨"thread"⟩, ⟨"one"⟩, called "one"⟩]

def secondTurn : List ContextInput :=
  [⟨⟨"thread"⟩, ⟨"two"⟩, called "one" ++ [.assistant "done" [], .user "hello"]⟩,
    ⟨⟨"thread"⟩, ⟨"two"⟩, called "one" ++ .assistant "done" [] :: called "two"⟩]

/-- The task asks for this context. -/
def Asks (config : Core.RuntimeConfiguration) (index : Nat) (input : ContextInput) : Prop :=
  ∃ task resume, config.tasks[index]? = some task ∧
    task.program = some (.ask (.compile input) resume)

theorem receipts_of {input : ContextInput} {receipt : ToolReceipt}
    (member : input ∈ firstTurn ++ secondTurn) (present : .tool receipt ∈ input.transcript) :
    input.threadId = ⟨"thread"⟩ ∧ ∃ turn ∈ ["one", "two"], receipt = Sample.receipt turn := by
  simp [firstTurn, secondTurn] at member
  obtain rfl | rfl | rfl | rfl := member
  all_goals simp_all [called]

theorem within : compiler.Within Value.text (firstTurn ++ secondTurn) where
  threads := by
    intro input member
    have thread : input.threadId = ⟨"thread"⟩ := by
      simp [firstTurn, secondTurn] at member
      obtain rfl | rfl | rfl | rfl := member <;> rfl
    rw [thread]
    decide
  calls := by
    intro input member receipt present
    obtain ⟨_, turn, _, rfl⟩ := receipts_of member present
    change "call_1" ≠ "" ∧ (encode "call_1").length ≤ 96
    decide
  outputs := by
    intro input member receipt output present found
    obtain ⟨_, turn, listed, rfl⟩ := receipts_of member present
    cases found
    simp only [List.mem_cons, List.not_mem_nil, or_false] at listed
    obtain rfl | rfl := listed <;> decide

theorem oversized : ∀ turn ∈ ["one", "two"],
    compiler.Oversized Value.text (receipt turn) (.string turn) := by
  intro turn listed
  have long : ∀ turn ∈ ["one", "two"], 4 < (encode (Value.text (.string turn))).length := by
    decide
  have other : "write" ≠ "read_output" := by decide
  exact ⟨other, rfl, long turn listed⟩

end Sample

/-! ## What is lost -/

/-- Every compile reaches the compiler that is wrapped and no long output is lost, if and only if
no two of the long outputs that a thread has under one id differ. -/
theorem outputs_lossless (serialize : Value → String) (compiler : ExternalOutputCompiler)
    (newId : Disk → String) (inputs : List ContextInput)
    (within : compiler.Within serialize inputs) :
    compiler.Lossless serialize newId inputs ↔
      ∀ thread id output output', compiler.Meets serialize inputs thread id output →
        compiler.Meets serialize inputs thread id output' → serialize output = serialize output' := by
  constructor
  · intro lossless thread id output output' met met'
    have kept := lossless_kept within lossless met
    rw [lossless_kept within lossless met'] at kept
    exact (Text.encode_inj (Option.some.inj kept)).symm
  · intro same inner before input later rest split
    subst split
    have storable : ∀ input' ∈ before ++ input :: (later ++ rest),
        Storable serialize compiler input' := fun input' member => Within.storable within member
    have unique : ∀ thread id bytes bytes',
        table serialize compiler (before ++ input :: (later ++ rest)) thread id bytes →
        table serialize compiler (before ++ input :: (later ++ rest)) thread id bytes' →
        bytes = bytes' := by
      intro thread id bytes bytes' found found'
      obtain ⟨output, met, rfl⟩ := found
      obtain ⟨output', met', rfl⟩ := found'
      rw [same thread id output output' met met']
    have met : ∀ input' ∈ before ++ input :: (later ++ rest), ∀ receipt output,
        .tool receipt ∈ input'.transcript → compiler.Oversized serialize receipt output →
        table serialize compiler (before ++ input :: (later ++ rest)) input'.threadId
          receipt.callId.value (encode (serialize output)) :=
      fun input' member receipt output present oversized =>
        ⟨output, ⟨input', member, rfl, receipt, present, rfl, oversized⟩, rfl⟩
    have here : input ∈ before ++ input :: (later ++ rest) :=
      List.mem_append_right _ List.mem_cons_self
    -- The archive in front of the compile has outputs of the table only, so nothing is refused.
    obtain ⟨calm, _, tabled⟩ := compiledFrom_keeps newId inner
      (fun input' member => storable input' (List.mem_append_left _ member))
      (Disk.Calm.empty compiler.archive.maxOutputBytes)
    obtain ⟨result, disk', ran⟩ := externalize_ran newId calm (storable input here)
    have fits := tabled _ unique (fun _ _ _ found => absurd found snapshot_empty)
      fun input' member => met input' (List.mem_append_left _ member)
    obtain ⟨⟨messages, rfl⟩, _⟩ := ran.free _ unique fits (met input here)
    obtain ⟨passed, kept⟩ := ran.passed messages rfl
    refine ⟨messages, passed, congrArg Prod.fst (compile_host ran), ?_⟩
    intro receipt output present oversized limits bounded
    have last := (compiledFrom_keeps newId inner
      (fun input' member => storable input' (List.mem_append_right _ (List.mem_cons_of_mem _
        (List.mem_append_left _ member)))) ran.calm).2.1 _ _ _ (kept receipt output present oversized)
    apply readAll_text bounded
    · rw [compiled_append, ← last]
      exact congrArg (Disk.snapshot · input.threadId receipt.callId.value)
        (compiledFrom_cons ran later)
    · exact within.outputs input here receipt output present oversized.2.1

open Sample in
/-- The first turn alone loses nothing. -/
theorem outputs_lossless_turn : compiler.Lossless Value.text (fun _ => "id") firstTurn := by
  have small : compiler.Within Value.text firstTurn :=
    ⟨fun input member => within.threads input (List.mem_append_left _ member),
      fun input member => within.calls input (List.mem_append_left _ member),
      fun input member => within.outputs input (List.mem_append_left _ member)⟩
  apply (outputs_lossless Value.text compiler (fun _ => "id") firstTurn small).mpr
  have only : ∀ thread id output, compiler.Meets Value.text firstTurn thread id output →
      output = .string "one" := by
    intro thread id output met
    obtain ⟨input, member, _, receipt, present, _, _, found, _⟩ := met
    simp only [firstTurn, List.mem_cons, List.not_mem_nil, or_false] at member
    obtain rfl | rfl := member
    · simp at present
    · simp only [called, List.mem_cons, List.not_mem_nil, or_false, reduceCtorEq, false_or,
        TranscriptMessage.tool.injEq] at present
      cases present
      cases found
      rfl
  intro thread id output output' met met'
  rw [only thread id output met, only thread id output' met']

open Sample in
/-- The second turn of a thread reuses the id of a call of the first one. -/
theorem outputs_mixed : compiler.Within Value.text (firstTurn ++ secondTurn) ∧
    (∀ input ∈ firstTurn ++ secondTurn, ∃ config index,
      Core.Running (Core.Sample.runtime .allow) Core.World.empty config ∧
        Asks config index input) ∧
    ¬ compiler.Lossless Value.text (fun _ => "id") (firstTurn ++ secondTurn) := by
  have asked : ∀ input ∈ firstTurn ++ secondTurn, ∃ config index,
      Core.Running (Core.Sample.runtime .allow) Core.World.empty config ∧
        Asks config index input := by
    intro input member
    simp only [firstTurn, secondTurn, List.cons_append, List.nil_append, List.mem_cons,
      List.not_mem_nil, or_false] at member
    obtain rfl | rfl | rfl | rfl := member
    · exact ⟨_, 1, played_running 9 0 rfl, _, _, rfl, rfl⟩
    · exact ⟨_, 1, played_running 25 0 rfl, _, _, rfl, rfl⟩
    · exact ⟨_, 2, played_running 34 9 rfl, _, _, rfl, rfl⟩
    · exact ⟨_, 2, played_running 34 25 rfl, _, _, rfl, rfl⟩
  have met : ∀ turn ∈ ["one", "two"], compiler.Meets Value.text (firstTurn ++ secondTurn)
      ⟨"thread"⟩ "call_1" (.string turn) := by
    intro turn listed
    have member : (⟨⟨"thread"⟩, ⟨"two"⟩, called "one" ++ .assistant "done" [] :: called "two"⟩ :
        ContextInput) ∈ firstTurn ++ secondTurn := by simp [secondTurn]
    have present : .tool (receipt turn) ∈ called "one" ++ .assistant "done" [] :: called "two" := by
      simp only [List.mem_cons, List.not_mem_nil, or_false] at listed
      obtain rfl | rfl := listed <;> simp [called]
    exact ⟨_, member, rfl, receipt turn, present, rfl, oversized turn listed⟩
  refine ⟨within, asked, ?_⟩
  intro lossless
  -- The archive has one output for both calls.
  have one := lossless_kept within lossless (met "one" (by simp))
  rw [lossless_kept within lossless (met "two" (by simp))] at one
  have same : Value.text (.string "two") = Value.text (.string "one") :=
    Text.encode_inj (Option.some.inj one)
  revert same
  decide

end Nausicaa.ContextFs
