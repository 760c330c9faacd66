import Nausicaa.ContextFs.Externalize
import Nausicaa.ContextFs.Skills
import Nausicaa.Memory.Snapshot
import Nausicaa.Task.Serde

/-! # Compilers around compilers

The compilers of the repository wrap each other: a `LayeredContextCompiler` or an
`FsContextCompiler` inside, and around it any number of the others.  Whatever the file system, the
archive and the memory do, the messages that come out are the last groups of the transcript, of
which at most the outputs of receipts were replaced (`Compiles.retains`). -/

namespace Nausicaa.Context

open Core (CompiledContext ContextError ContextInput IsGroup Paired PromptSegment ToolReceipt
  TranscriptMessage)
open ContextFs (ExternalOutputCompiler Files FsContextConfig compactTranscript)
open Interaction (Contract)
open Json (Value)
open Memory (MemoryContextCompiler SnapshotCache Unicode)
open Posix (Path)
open Nausicaa.Task (TaskError TaskSpec)

/-! ## The compilers -/

def messageJson : TranscriptMessage → Value
  | .user content => .object [("role", .string "user"), ("content", .string content)]
  | .assistant content toolCalls => .object [
    ("role", .string "assistant"),
    ("content", .string content),
    ("tool_calls", .array (toolCalls.map Core.ToolCall.toJson))]
  | .tool receipt => .object [("role", .string "tool"), ("receipt", receipt.toJson)]

structure LayeredContextCompiler where
  segments : List PromptSegment
  maxCharacters : Option Nat

structure TaskContextCompiler where
  contract : PromptSegment

section Code

variable (serialize : Value → String)

def LayeredContextCompiler.compile (compiler : LayeredContextCompiler) (input : ContextInput) :
    Except ContextError CompiledContext :=
  let promptSize := (compiler.segments.map fun segment => segment.text.utf8ByteSize).sum
  let transcriptSize :=
    (input.transcript.map fun message => (serialize (messageJson message)).utf8ByteSize).sum
  let actual := promptSize + transcriptSize
  match compiler.maxCharacters.filter fun maximum => actual > maximum with
  | some maximum => .error (.tooLarge actual maximum)
  | none => .ok ⟨compiler.segments, input.transcript⟩

def TaskContextCompiler.new (spec : TaskSpec) : Except TaskError TaskContextCompiler := do
  let _ ← Task.initialState spec
  return ⟨⟨.stable, "task-contract-v1",
    "Host task contract (context, not tool authority):\n" ++ serialize spec.toJson⟩⟩

end Code

def TaskContextCompiler.compile (compiler : TaskContextCompiler)
    (inner : Except ContextError CompiledContext) : Except ContextError CompiledContext := do
  let context ← inner
  return { context with prompt := compiler.contract :: context.prompt }

/-- A compiler with the compilers that it wraps. -/
inductive Compiler where
  | layered (compiler : LayeredContextCompiler)
  | fs (config : FsContextConfig)
  | externalOutput (compiler : ExternalOutputCompiler) (inner : Compiler)
  | memory {State : Type} (compiler : MemoryContextCompiler State) (inner : Compiler)
  | task (compiler : TaskContextCompiler) (inner : Compiler)

/-- What a compiler can answer: files and rules are those of the time, the archive is used on any
host, and the memory may hold anything. -/
inductive Compiles (serialize : Value → String) (debug : TranscriptMessage → String)
    (unicode : Unicode) :
    Compiler → ContextInput → Except ContextError CompiledContext → Prop where
  | layered (compiler : LayeredContextCompiler) (input : ContextInput) :
      Compiles serialize debug unicode (.layered compiler) input (compiler.compile serialize input)
  | fs (config : FsContextConfig) (files : Files)
      (rules : Except ContextError (List PromptSegment)) (input : ContextInput) :
      Compiles serialize debug unicode (.fs config) input
        (ContextFs.compile config files rules debug input)
  | externalOutput {compiler : ExternalOutputCompiler} {inner : Compiler} {input : ContextInput}
      {transcript : List TranscriptMessage} {result : Except ContextError CompiledContext}
      (ends : Contract.anything.Ends
        (compiler.externalize serialize input.threadId input.transcript).run () (.ok transcript) ())
      (compiles : Compiles serialize debug unicode inner { input with transcript } result) :
      Compiles serialize debug unicode (.externalOutput compiler inner) input result
  | externalOutputFails {compiler : ExternalOutputCompiler} {inner : Compiler}
      {input : ContextInput} {error : ContextError}
      (ends : Contract.anything.Ends
        (compiler.externalize serialize input.threadId input.transcript).run () (.error error) ()) :
      Compiles serialize debug unicode (.externalOutput compiler inner) input (.error error)
  | memory {State : Type} {compiler : MemoryContextCompiler State} {inner : Compiler}
      {input : ContextInput} {result : Except ContextError CompiledContext}
      (compiles : Compiles serialize debug unicode inner input result) (stored : State)
      (snapshots : SnapshotCache) :
      Compiles serialize debug unicode (.memory compiler inner) input
        (Memory.compile unicode compiler input result stored snapshots).1
  | task {compiler : TaskContextCompiler} {inner : Compiler} {input : ContextInput}
      {result : Except ContextError CompiledContext}
      (compiles : Compiles serialize debug unicode inner input result) :
      Compiles serialize debug unicode (.task compiler inner) input (compiler.compile result)

/-! ## What is kept of a transcript -/

/-- A message without the output of its receipt. -/
def hidden : TranscriptMessage → TranscriptMessage
  | .tool receipt => .tool { receipt with output := none }
  | message => message

/-- The same messages, but for outputs. -/
def Shows (transcript messages : List TranscriptMessage) : Prop :=
  messages.map hidden = transcript.map hidden

/-- The last groups of the transcript, shown with other outputs. -/
def Retains (transcript messages : List TranscriptMessage) : Prop :=
  ∃ shown maximum, Shows transcript shown ∧ messages = (compactTranscript shown maximum).1

section Kept

variable {transcript messages group : List TranscriptMessage} {message : TranscriptMessage}
variable {serialize : Value → String} {debug : TranscriptMessage → String} {unicode : Unicode}
variable {compiler : Compiler} {input : ContextInput} {compiled : CompiledContext}

theorem hidden_user {content : String} (same : hidden message = .user content) :
    message = .user content := by
  cases message with
  | user | assistant => exact same
  | tool => cases same

theorem hidden_assistant {content : String} {toolCalls : List Core.ToolCall}
    (same : hidden message = .assistant content toolCalls) :
    message = .assistant content toolCalls := by
  cases message with
  | user | assistant => exact same
  | tool => cases same

theorem hidden_receipts {receipts : List ToolReceipt}
    (shows : Shows (receipts.map .tool) messages) :
    ∃ receipts' : List ToolReceipt, messages = receipts'.map .tool ∧
      receipts'.map ToolReceipt.callId = receipts.map ToolReceipt.callId := by
  induction receipts generalizing messages with
  | nil => exact ⟨[], List.map_eq_nil_iff.mp shows, rfl⟩
  | cons receipt receipts ih =>
    obtain ⟨message, rest, rfl, first, others⟩ := List.map_eq_cons_iff.mp shows
    obtain ⟨receipts', rfl, ids⟩ := ih others
    cases message with
    | user | assistant => cases first
    | tool receipt' =>
      simp only [hidden, TranscriptMessage.tool.injEq, ToolReceipt.mk.injEq] at first
      exact ⟨receipt' :: receipts', rfl, by simp [ids, first.1]⟩

theorem Shows.isGroup (shows : Shows group messages) (isGroup : IsGroup group) :
    IsGroup messages := by
  obtain ⟨content, rfl⟩ | ⟨content, toolCalls, receipts, rfl, answers⟩ := isGroup
  · obtain ⟨message, rest, rfl, first, others⟩ := List.map_eq_cons_iff.mp shows
    rw [hidden_user first, List.map_eq_nil_iff.mp others]
    exact .inl ⟨content, rfl⟩
  · obtain ⟨message, rest, rfl, first, others⟩ := List.map_eq_cons_iff.mp shows
    obtain ⟨receipts', rfl, ids⟩ := hidden_receipts others
    rw [hidden_assistant first]
    exact .inr ⟨content, toolCalls, receipts', rfl, ids ▸ answers⟩

/-- Outputs do not matter to pairing. -/
theorem Shows.paired (shows : Shows transcript messages) (paired : Paired transcript) :
    Paired messages := by
  obtain ⟨groups, complete, rfl⟩ := paired
  induction groups generalizing messages with
  | nil =>
    rw [List.map_eq_nil_iff.mp shows]
    exact .nil
  | cons group groups ih =>
    rw [Shows, List.flatten_cons, List.map_append] at shows
    obtain ⟨first, others, rfl, here, behind⟩ := List.map_eq_append_iff.mp shows
    obtain ⟨groups', complete', rfl⟩ :=
      ih (fun later member => complete later (List.mem_cons_of_mem _ member)) behind
    have isGroup : IsGroup first := Shows.isGroup here (complete group List.mem_cons_self)
    exact ⟨first :: groups', List.forall_mem_cons.mpr ⟨isGroup, complete'⟩, rfl⟩

theorem Retains.paired (retains : Retains transcript messages) (paired : Paired transcript) :
    Paired messages := by
  obtain ⟨shown, maximum, shows, rfl⟩ := retains
  exact ContextFs.compact_paired (shows.paired paired)

theorem Retains.all (transcript : List TranscriptMessage) : Retains transcript transcript := by
  refine ⟨transcript, (ContextFs.transcriptGroups transcript).length, rfl, ?_⟩
  simp [compactTranscript, Grouping.lastGroups, ContextFs.transcriptGroups]

/-! ## Each compiler -/

theorem layered_retains {compiler : LayeredContextCompiler}
    (made : compiler.compile serialize input = .ok compiled) :
    Retains input.transcript compiled.messages := by
  unfold LayeredContextCompiler.compile at made
  dsimp only at made
  split at made
  · cases made
  · cases made
    exact .all _

theorem fs_retains {config : FsContextConfig} {files : Files}
    {rules : Except ContextError (List PromptSegment)}
    (made : ContextFs.compile config files rules debug input = .ok compiled) :
    Retains input.transcript compiled.messages := by
  unfold ContextFs.compile at made
  obtain ⟨prompt, _, made⟩ := Fallible.bind_ok.mp made
  dsimp only at made
  split at made
  · split at made
    · cases made
    · cases made
      exact ⟨input.transcript, _, rfl, rfl⟩
  · cases made
    exact ⟨input.transcript, _, rfl, rfl⟩

theorem externalizeReceipt_shows (compiler : ExternalOutputCompiler) (thread : Core.ThreadId)
    (receipt : ToolReceipt) :
    (Contract.anything).Tries (compiler.externalizeReceipt serialize thread receipt)
      (fun receipt' _ => hidden (.tool receipt') = hidden (.tool receipt))
      (fun _ _ => True) () := by
  unfold ExternalOutputCompiler.externalizeReceipt
  split
  · exact Contract.Tries.pure rfl
  · split
    · exact Contract.Tries.pure rfl
    · split
      · apply Contract.Tries.bind
        apply Contract.Meets.permissive fun _ _ => trivial
        intro result _
        cases result with
        | ok => exact Contract.Tries.pure rfl
        | error => trivial
      · exact Contract.Tries.pure rfl

/-- An archive on any host replaces outputs and nothing else. -/
theorem externalize_shows (compiler : ExternalOutputCompiler) (thread : Core.ThreadId)
    (messages : List TranscriptMessage) :
    (Contract.anything).Tries (compiler.externalize serialize thread messages)
      (fun messages' _ => Shows messages messages') (fun _ _ => True) () := by
  induction messages with
  | nil => exact Contract.Tries.pure rfl
  | cons message messages ih =>
    have alone : ∀ message', hidden message' = hidden message →
        (Contract.anything).Tries (do
            let messages ← compiler.externalize serialize thread messages
            return message' :: messages)
          (fun messages' _ => Shows (message :: messages) messages') (fun _ _ => True) () := by
      intro message' same
      apply Contract.Tries.bind
      apply Contract.Tries.mono ih _ fun _ _ => id
      intro messages' _ shows
      exact Contract.Tries.pure (congrArg₂ List.cons same shows)
    cases message with
    | user | assistant => exact alone _ rfl
    | tool receipt =>
      apply Contract.Tries.bind
      apply Contract.Tries.mono (externalizeReceipt_shows compiler thread receipt) _ fun _ _ => id
      intro receipt' _ same
      exact alone (.tool receipt') same

/-- Whatever is wrapped in what, the last groups of the transcript come out. -/
theorem Compiles.retains {result : Except ContextError CompiledContext}
    (compiles : Compiles serialize debug unicode compiler input result)
    (made : result = .ok compiled) : Retains input.transcript compiled.messages := by
  induction compiles generalizing compiled with
  | layered => exact layered_retains made
  | fs => exact fs_retains made
  | @externalOutput compiler inner input transcript result ends _ ih =>
    obtain ⟨shown, maximum, shows, kept⟩ := ih made
    have replaced := Contract.Meets.ends
      (externalize_shows compiler input.threadId input.transcript) ends
    exact ⟨shown, maximum, Eq.trans shows replaced, kept⟩
  | externalOutputFails => cases made
  | memory _ stored snapshots ih =>
    obtain ⟨memories, _, made⟩ := Fallible.bind_ok.mp made
    obtain ⟨context, inner, made⟩ := Fallible.bind_ok.mp made
    cases made
    have kept := ih inner
    exact kept
  | task _ ih =>
    obtain ⟨context, inner, made⟩ := Fallible.bind_ok.mp made
    cases made
    have kept := ih inner
    exact kept

end Kept

end Nausicaa.Context
