import Nausicaa.ContextFs.Pages

/-! # Long outputs outside the context

`ExternalOutputCompiler` of `context-fs/src/output.rs`, with `serialize` for
`serde_json::to_vec` of a value and `inner` for the compiler that it wraps.  Of one compile, `Ran` tells what the archive holds
afterwards and when every message is passed on (`externalize_ran`). -/

namespace Nausicaa.ContextFs

open Core (CompiledContext ContextError ContextInput ThreadId ToolReceipt TranscriptMessage)
open Json (Value)
open Text (encode)

structure ExternalOutputCompiler where
  archive : OutputArchive
  inlineBytes : Nat

/-- What takes the place of an output. -/
def reference (callId : String) (totalBytes : Nat) : Value :=
  .object [("externalized_output", .object [
    ("call_id", .string callId),
    ("format", .string "json"),
    ("note", .string "Reading requires host registration and policy authorization"),
    ("read_tool", .string "read_output"),
    ("total_bytes", .number (.posInt totalBytes)),
    ("version", .number (.posInt 1))])]

namespace ExternalOutputCompiler

variable (serialize : Value → String) (compiler : ExternalOutputCompiler)

def externalizeOutput (thread : ThreadId) (receipt : ToolReceipt) (bytes : Bytes) :
    Code ContextError ToolReceipt := do
  compiler.archive.retain thread receipt.callId.value bytes
  return { receipt with output := some (reference receipt.callId.value bytes.length) }

def externalizeReceipt (thread : ThreadId) (receipt : ToolReceipt) :
    Code ContextError ToolReceipt :=
  if receipt.toolName = "read_output" then pure receipt
  else
    match receipt.output with
    | none => pure receipt
    | some output =>
      if compiler.inlineBytes < (encode (serialize output)).length then
        compiler.externalizeOutput thread receipt (encode (serialize output))
      else pure receipt

/-- The loop over the messages, which stops at the first error. -/
def externalize (thread : ThreadId) :
    List TranscriptMessage → Code ContextError (List TranscriptMessage)
  | [] => pure []
  | .tool receipt :: messages => do
    let receipt ← compiler.externalizeReceipt serialize thread receipt
    let messages ← externalize thread messages
    return .tool receipt :: messages
  | message :: messages => do
    let messages ← externalize thread messages
    return message :: messages

def compile (inner : ContextInput → Except ContextError CompiledContext) (input : ContextInput) :
    Code ContextError CompiledContext := do
  let transcript ← compiler.externalize serialize input.threadId input.transcript
  ofExcept (inner { input with transcript })

/-- The disk after some compiles on a host without faults. -/
def compiled (newId : Disk → String) (inner : ContextInput → Except ContextError CompiledContext)
    (inputs : List ContextInput) : Disk :=
  inputs.foldl (fun disk input => (host newId (compiler.compile serialize inner input) disk).2)
    .empty

/-! ## What is promised -/

/-- The output of the receipt is too long for the context. -/
def Oversized (receipt : ToolReceipt) (output : Value) : Prop :=
  receipt.toolName ≠ "read_output" ∧ receipt.output = some output ∧
    compiler.inlineBytes < (encode (serialize output)).length

/-- A message of the context: the one of the transcript but for the output of a receipt. -/
inductive Passes : TranscriptMessage → TranscriptMessage → Prop
  | same (message : TranscriptMessage) : Passes message message
  | replaced {receipt : ToolReceipt} {output : Value}
      (oversized : compiler.Oversized serialize receipt output) :
      Passes (.tool receipt) (.tool { receipt with
        output := some (reference receipt.callId.value (encode (serialize output)).length) })

/-- Reading pages of the call from the start to the last one gives the text. -/
def ReadsBack (newId : Disk → String) (disk : Disk) (thread : ThreadId) (id text : String) : Prop :=
  ∀ limits : Nat → Nat, (∀ number, 4 ≤ limits number ∧ limits number ≤ 4096) →
    ∃ fuel, readAll newId disk compiler.archive thread id limits fuel 0 0 = some text

/-- Whatever compiler is wrapped, each of the compiles reaches it, with the messages of the
transcript, and from then on each long output can be read back. -/
def Lossless (newId : Disk → String) (inputs : List ContextInput) : Prop :=
  ∀ inner before input later rest, inputs = before ++ input :: (later ++ rest) →
    ∃ transcript, List.Forall₂ (compiler.Passes serialize) input.transcript transcript ∧
      (host newId (compiler.compile serialize inner input)
        (compiler.compiled serialize newId inner before)).1 =
          some (inner { input with transcript }) ∧
      ∀ receipt output, .tool receipt ∈ input.transcript →
        compiler.Oversized serialize receipt output →
        compiler.ReadsBack newId (compiler.compiled serialize newId inner (before ++ input :: later))
          input.threadId receipt.callId.value (serialize output)

/-- Some compile meets this long output under the id. -/
def Meets (inputs : List ContextInput) (thread : ThreadId) (id : String) (output : Value) : Prop :=
  ∃ input ∈ inputs, input.threadId = thread ∧ ∃ receipt, .tool receipt ∈ input.transcript ∧
    receipt.callId.value = id ∧ compiler.Oversized serialize receipt output

/-- Ids that can name files, and outputs that fit into the archive. -/
structure Within (inputs : List ContextInput) : Prop where
  threads : ∀ input ∈ inputs, input.threadId.value ≠ "" ∧
    (encode input.threadId.value).length ≤ 96
  calls : ∀ input ∈ inputs, ∀ receipt, .tool receipt ∈ input.transcript →
    receipt.callId.value ≠ "" ∧ (encode receipt.callId.value).length ≤ 96
  outputs : ∀ input ∈ inputs, ∀ receipt output, .tool receipt ∈ input.transcript →
    receipt.output = some output →
    (encode (serialize output)).length ≤ compiler.archive.maxOutputBytes

end ExternalOutputCompiler

/-! ## One compile -/

section Compile

variable {serialize : Value → String} {compiler : ExternalOutputCompiler}
variable {newId : Disk → String} {disk disk' : Disk} {thread : ThreadId}
variable {messages : List TranscriptMessage} {receipt : ToolReceipt} {output : Value}

/-- A table of outputs, of which each id has one. -/
abbrev Table := ThreadId → String → Bytes → Prop

/-- What is kept of a list of messages, and when all of them are passed on. -/
structure Ran (serialize : Value → String) (compiler : ExternalOutputCompiler)
    (newId : Disk → String) (thread : ThreadId) (messages : List TranscriptMessage) (disk : Disk)
    (result : Except ContextError (List TranscriptMessage)) (disk' : Disk) : Prop where
  ran : host newId (compiler.externalize serialize thread messages) disk = (some result, disk')
  calm : disk'.Calm compiler.archive.maxOutputBytes
  kept : ∀ thread' id' old, disk.snapshot thread' id' = some old →
    disk'.snapshot thread' id' = some old
  passed : ∀ messages', result = .ok messages' →
    List.Forall₂ (compiler.Passes serialize) messages messages' ∧
    ∀ receipt output, .tool receipt ∈ messages → compiler.Oversized serialize receipt output →
      disk'.snapshot thread receipt.callId.value = some (encode (serialize output))
  free : ∀ table : Table, (∀ thread id bytes bytes', table thread id bytes →
      table thread id bytes' → bytes = bytes') →
    (∀ thread id bytes, disk.snapshot thread id = some bytes → table thread id bytes) →
    (∀ receipt output, .tool receipt ∈ messages → compiler.Oversized serialize receipt output →
      table thread receipt.callId.value (encode (serialize output))) →
    (∃ messages', result = .ok messages') ∧
      ∀ thread id bytes, disk'.snapshot thread id = some bytes → table thread id bytes

theorem externalizeReceipt_inline (inlined : ∀ output, ¬ compiler.Oversized serialize receipt output) :
    host newId (compiler.externalizeReceipt serialize thread receipt) disk =
      (some (.ok receipt), disk) := by
  rw [ExternalOutputCompiler.externalizeReceipt]
  split
  next => rfl
  next other =>
    split
    next => rfl
    next output found =>
      rw [if_neg]
      · rfl
      · intro long
        exact inlined output ⟨other, found, long⟩

theorem externalizeReceipt_long (oversized : compiler.Oversized serialize receipt output) :
    compiler.externalizeReceipt serialize thread receipt =
      compiler.externalizeOutput thread receipt (encode (serialize output)) := by
  obtain ⟨other, found, long⟩ := oversized
  simp only [ExternalOutputCompiler.externalizeReceipt, if_neg other, found, if_pos long]

/-- A message that is passed on, and then the others. -/
theorem Ran.cons {message message' : TranscriptMessage}
    {result : Except ContextError (List TranscriptMessage)} {between : Disk}
    (first : host newId (compiler.externalize serialize thread (message :: messages)) disk =
      (some (result.map (message' :: ·)), disk'))
    (kept : ∀ thread' id' old, disk.snapshot thread' id' = some old →
      between.snapshot thread' id' = some old)
    (passes : compiler.Passes serialize message message')
    (long : ∀ receipt output, message = .tool receipt → compiler.Oversized serialize receipt output →
      between.snapshot thread receipt.callId.value = some (encode (serialize output)))
    (others : ∀ thread' id' new, between.snapshot thread' id' = some new →
      disk.snapshot thread' id' = some new ∨ ∃ receipt output, message = .tool receipt ∧
        compiler.Oversized serialize receipt output ∧ thread' = thread ∧
        id' = receipt.callId.value ∧ new = encode (serialize output))
    (rest : Ran serialize compiler newId thread messages between result disk') :
    Ran serialize compiler newId thread (message :: messages) disk
      (result.map (message' :: ·)) disk' where
  ran := first
  calm := rest.calm
  kept thread' id' old before := rest.kept thread' id' old (kept thread' id' old before)
  passed := by
    intro messages' done
    cases result with
    | error error => cases done
    | ok passed =>
      cases done
      obtain ⟨all, shown⟩ := rest.passed passed rfl
      refine ⟨.cons passes all, ?_⟩
      intro receipt output member oversized
      cases List.mem_cons.mp member with
      | inl here => exact rest.kept _ _ _ (long receipt output here.symm oversized)
      | inr later => exact shown receipt output later oversized
  free := by
    intro table unique before fits
    have between_fits : ∀ thread id bytes, between.snapshot thread id = some bytes →
        table thread id bytes := by
      intro thread' id' new after
      obtain old | ⟨receipt, output, rfl, oversized, rfl, rfl, rfl⟩ := others thread' id' new after
      · exact before thread' id' new old
      · exact fits receipt output List.mem_cons_self oversized
    obtain ⟨⟨passed, done⟩, after⟩ := rest.free table unique between_fits
      fun receipt output member => fits receipt output (List.mem_cons_of_mem _ member)
    exact ⟨⟨message' :: passed, by rw [done]; rfl⟩, after⟩

/-- Code that makes a message and then the others. -/
theorem host_cons {message : TranscriptMessage} {between : Disk}
    {others : Code ContextError (List TranscriptMessage)}
    {result : Except ContextError (List TranscriptMessage)}
    (ran : host newId others between = (some result, disk')) :
    host newId (do
        let messages ← others
        return message :: messages) between = (some (result.map (message :: ·)), disk') := by
  cases result with
  | ok messages' => exact host_bind _ ran
  | error error => exact host_bind_error _ ran

/-- A message that is passed on as it is. -/
theorem Ran.inline {message : TranscriptMessage}
    {result : Except ContextError (List TranscriptMessage)}
    (first : host newId (compiler.externalize serialize thread (message :: messages)) disk =
      (some (result.map (message :: ·)), disk'))
    (short : ∀ receipt output, message = .tool receipt →
      ¬ compiler.Oversized serialize receipt output)
    (rest : Ran serialize compiler newId thread messages disk result disk') :
    Ran serialize compiler newId thread (message :: messages) disk
      (result.map (message :: ·)) disk' := by
  apply Ran.cons first (fun _ _ _ before => before) (.same message) _ (fun _ _ _ after => .inl after)
    rest
  intro receipt output same oversized
  exact absurd oversized (short receipt output same)

/-- A long output of which the archive holds another one under its id. -/
theorem Ran.refused {error : ContextError}
    (retains : Retains newId compiler.archive thread receipt.callId.value (encode (serialize output))
      disk (.error error) disk')
    (oversized : compiler.Oversized serialize receipt output) :
    Ran serialize compiler newId thread (.tool receipt :: messages) disk (.error error) disk' where
  ran := by
    rw [ExternalOutputCompiler.externalize, externalizeReceipt_long oversized]
    exact host_bind_error _ (host_bind_error _ retains.ran)
  calm := retains.calm
  kept := retains.kept
  passed := by
    intro messages' done
    cases done
  free := by
    intro table unique before fits
    have fine : (Except.error error : Except ContextError Unit) = .ok () := by
      apply retains.free
      intro old found
      exact unique thread _ old _ (before _ _ _ found) (fits receipt output List.mem_cons_self oversized)
    cases fine

theorem externalize_ran (newId : Disk → String) (calm : disk.Calm compiler.archive.maxOutputBytes)
    (valid : ∀ receipt output, .tool receipt ∈ messages → compiler.Oversized serialize receipt output →
      (∃ path, paths thread receipt.callId.value = .ok path) ∧
        (encode (serialize output)).length ≤ compiler.archive.maxOutputBytes) :
    ∃ result disk', Ran serialize compiler newId thread messages disk result disk' := by
  induction messages generalizing disk with
  | nil =>
    refine ⟨.ok [], disk, rfl, calm, fun _ _ _ before => before, ?_, ?_⟩
    · intro messages' done
      cases done
      refine ⟨.nil, ?_⟩
      intro receipt output member
      cases member
    · intro table unique before _
      exact ⟨⟨[], rfl⟩, before⟩
  | cons message messages ih =>
    have later : ∀ receipt output, .tool receipt ∈ messages →
        compiler.Oversized serialize receipt output →
        (∃ path, paths thread receipt.callId.value = .ok path) ∧
          (encode (serialize output)).length ≤ compiler.archive.maxOutputBytes :=
      fun receipt output member => valid receipt output (List.mem_cons_of_mem _ member)
    cases message with
    | user content =>
      obtain ⟨result, disk', rest⟩ := ih calm later
      exact ⟨_, disk', rest.inline (host_cons rest.ran) (fun _ _ same => by cases same)⟩
    | assistant content toolCalls =>
      obtain ⟨result, disk', rest⟩ := ih calm later
      exact ⟨_, disk', rest.inline (host_cons rest.ran) (fun _ _ same => by cases same)⟩
    | tool receipt =>
      by_cases oversized : ∃ output, compiler.Oversized serialize receipt output
      · obtain ⟨output, oversized⟩ := oversized
        obtain ⟨⟨path, named⟩, fits⟩ := valid receipt output List.mem_cons_self oversized
        obtain ⟨kept, between, retained⟩ := retains newId calm named fits
        cases kept with
        | error error => exact ⟨_, _, Ran.refused retained oversized⟩
        | ok value =>
          obtain ⟨result, disk', rest⟩ := ih retained.calm later
          have only : ∀ receipt' output', TranscriptMessage.tool receipt = .tool receipt' →
              compiler.Oversized serialize receipt' output' →
              receipt' = receipt ∧ output' = output := by
            intro receipt' output' same oversized'
            cases same
            have same := oversized'.2.1.symm.trans oversized.2.1
            exact ⟨rfl, Option.some.inj same⟩
          refine ⟨_, disk', Ran.cons ?_ retained.kept (.replaced oversized) ?_ ?_ rest⟩
          · have made : host newId (compiler.externalizeReceipt serialize thread receipt) disk =
                (some (.ok { receipt with output := some (reference receipt.callId.value
                  (encode (serialize output)).length) }), between) := by
              rw [externalizeReceipt_long oversized]
              exact host_bind _ retained.ran
            rw [ExternalOutputCompiler.externalize, host_bind _ made]
            exact host_cons rest.ran
          · intro receipt' output' same oversized'
            obtain ⟨rfl, rfl⟩ := only receipt' output' same oversized'
            exact retained.made rfl
          · intro thread' id' new after
            obtain old | ⟨rfl, rfl, rfl⟩ := retained.others thread' id' new after
            · exact .inl old
            · exact .inr ⟨receipt, output, rfl, oversized, rfl, rfl, rfl⟩
      · have inlined : ∀ output, ¬ compiler.Oversized serialize receipt output :=
          fun output long => oversized ⟨output, long⟩
        obtain ⟨result, disk', rest⟩ := ih calm later
        refine ⟨_, disk', rest.inline ?_ ?_⟩
        · rw [ExternalOutputCompiler.externalize, host_bind _ (externalizeReceipt_inline inlined)]
          exact host_cons rest.ran
        · intro receipt' output' same
          cases same
          exact inlined output'

end Compile

end Nausicaa.ContextFs
