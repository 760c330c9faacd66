import Nausicaa.Executor.Patching
import Nausicaa.Executor.Confinement
import Nausicaa.Executor.KnownFailures
import Nausicaa.Executor.ReadFile
import Nausicaa.Executor.Reading
import Nausicaa.Executor.WriteRules
import Nausicaa.Interaction.Replay

/-! # The files of a workspace

The tools for files, called one after the other on a file system where any operation can fail.  Their
results are those of a store of contents (`Invocation.replays_store`): a path that a file was found
behind leads to that file from then on, and what is read there is what the last call wrote
(`Invocation.reads_last`).  Without faults a write and a read of the same path agree from the requests
on (`write_read`). -/

namespace Nausicaa.Executor

open Core (PreparedToolCall ToolCall ToolError ToolExecutionContext ToolOutput)
open Interaction (Access Contract Replays evaluate evaluate_bind_ok)
open Json (Value)
open Posix (Path Place Tree)
open Text (encode)

/-- The tools for files of `register_workspace_tools` and `register_editing_tools`. -/
inductive WorkspaceTool where
  | readFile (tool : ReadFileTool)
  | writeFile (tool : WriteFileTool)
  | editing (tool : EditingTool)

/-- A call of a prepared action. -/
structure Invocation where
  tool : WorkspaceTool
  prepared : PreparedToolCall
  context : ToolExecutionContext

namespace Invocation

/-- How the call can end on a tree, whichever of its operations fail. -/
def Ends (refusal : Value → String) (tree : Tree) (call : Invocation)
    (result : Except ToolError ToolOutput) (tree' : Tree) : Prop :=
  match call.tool with
  | .readFile _ => ∃ host, host.tree = tree' ∧
    reading.Ends (ReadFileTool.execute call.prepared call.context).run (.start tree) result host
  | .writeFile tool => ∃ host, host.tree = tree' ∧
    faulty.Ends (tool.execute call.prepared call.context).run ⟨tree, []⟩ result host
  | .editing tool => ∃ host, host.tree = tree' ∧
    editing.Ends (tool.execute refusal call.prepared call.context).run (.start tree) result host

/-- The calls with their results, in order, from one tree to another. -/
inductive Runs (refusal : Value → String) :
    Tree → List (Invocation × Except ToolError ToolOutput) → Tree → Prop where
  | nil (tree : Tree) : Runs refusal tree [] tree
  | cons {tree tree' tree'' : Tree} {call : Invocation} {result : Except ToolError ToolOutput}
      {calls : List (Invocation × Except ToolError ToolOutput)}
      (ends : call.Ends refusal tree result tree') (rest : Runs refusal tree' calls tree'') :
      Runs refusal tree ((call, result) :: calls) tree''

/-- An access to a file of the store. -/
abbrev FileAccess := Access Place (Option (List UInt8))

/-- The accesses that a call with this result stands for, its path leading to the file. -/
inductive Explains (tree : Tree) :
    Invocation → Except ToolError ToolOutput → List FileAccess → Prop where
  | read {tool : ReadFileTool} {prepared : PreparedToolCall} {context : ToolExecutionContext}
      {path : Path} {file : Place} {content : String}
      (named : pathArgument prepared.action.arguments "path" = .ok path)
      (leads : tree.resolve path = .ok (.found file)) :
      Explains tree ⟨.readFile tool, prepared, context⟩ (.ok (ReadFileTool.output path content))
        [⟨file, some (encode content), some (encode content)⟩]
  | paged {tool : ReadFilePageTool} {prepared : PreparedToolCall} {context : ToolExecutionContext}
      {path : Path} {file : Place} {content : String} {offset limit : Nat} {output : ToolOutput}
      (named : pathArgument prepared.action.arguments "path" = .ok path)
      (spelled : path.components = (Path.ofPlace file).components)
      (begins : number prepared.action.arguments "offset" 0 maxFileBytes = .ok offset)
      (bounded : number prepared.action.arguments "limit" 4096 maxPageBytes = .ok limit)
      (paged : ReadFilePageTool.page file content offset limit = .ok output) :
      Explains tree ⟨.editing (.readFilePage tool), prepared, context⟩ (.ok output)
        [⟨file, some (encode content), some (encode content)⟩]
  | searched {tool : SearchFilesTool} {prepared : PreparedToolCall}
      {context : ToolExecutionContext} {output : ToolOutput} :
      Explains tree ⟨.editing (.searchFiles tool), prepared, context⟩ (.ok output) []
  | wrote {tool : WriteFileTool} {prepared : PreparedToolCall} {context : ToolExecutionContext}
      {path : Path} {file : Place} {found : Option (List UInt8)} {content : String}
      {output : ToolOutput}
      (named : pathArgument prepared.action.arguments "path" = .ok path)
      (filled : stringArgument prepared.action.arguments "content" = .ok content)
      (leads : tree.resolve path = .ok (.found file)) :
      Explains tree ⟨.writeFile tool, prepared, context⟩ (.ok output)
        [⟨file, found, some (encode content)⟩]
  | patched {tool : ApplyPatchTool} {prepared : PreparedToolCall} {context : ToolExecutionContext}
      {path : Path} {file : Place} {before after : String} {output : ToolOutput}
      (named : pathArgument prepared.action.arguments "path" = .ok path)
      (spelled : path.components = (Path.ofPlace file).components)
      (given : stringArgument prepared.action.arguments "before" = .ok before)
      (wanted : stringArgument prepared.action.arguments "after" = .ok after) :
      Explains tree ⟨.editing (.applyPatch tool), prepared, context⟩ (.ok output)
        [⟨file, some (encode before), some (encode after)⟩]
  | failed {call : Invocation} {error : ToolError} : Explains tree call (.error error) []
  /-- A write that failed left some of the content, from its start. -/
  | spoiled {tool : WriteFileTool} {prepared : PreparedToolCall} {context : ToolExecutionContext}
      {path : Path} {file : Place} {found : Option (List UInt8)} {content : String}
      {written : List UInt8} {error : ToolError}
      (named : pathArgument prepared.action.arguments "path" = .ok path)
      (filled : stringArgument prepared.action.arguments "content" = .ok content)
      (leads : tree.resolve path = .ok (.found file)) (part : written <+: encode content) :
      Explains tree ⟨.writeFile tool, prepared, context⟩ (.error error) [⟨file, found, some written⟩]
  /-- A patch that failed over the content that it was made for, and says that it does not know. -/
  | unknown {tool : ApplyPatchTool} {prepared : PreparedToolCall} {context : ToolExecutionContext}
      {path : Path} {file : Place} {before after reason : String} {written : List UInt8}
      (named : pathArgument prepared.action.arguments "path" = .ok path)
      (spelled : path.components = (Path.ofPlace file).components)
      (given : stringArgument prepared.action.arguments "before" = .ok before)
      (wanted : stringArgument prepared.action.arguments "after" = .ok after)
      (part : PartlyWritten (encode before) (encode after) written) :
      Explains tree ⟨.editing (.applyPatch tool), prepared, context⟩
        (.error (.outcomeUnknown reason)) [⟨file, some (encode before), some written⟩]

variable {refusal : Value → String} {tree tree' tree'' : Tree} {call : Invocation}
variable {result : Except ToolError ToolOutput} {accesses : List FileAccess}
variable {calls : List (Invocation × Except ToolError ToolOutput)}

theorem Explains.grows (explains : Explains tree call result accesses) (grows : tree.Grows tree') :
    Explains tree' call result accesses := by
  cases explains with
  | read named leads => exact .read named (grows.resolve leads)
  | paged named spelled begins bounded paged => exact .paged named spelled begins bounded paged
  | searched => exact .searched
  | wrote named filled leads => exact .wrote named filled (grows.resolve leads)
  | patched named spelled given wanted => exact .patched named spelled given wanted
  | failed => exact .failed
  | spoiled named filled leads part => exact .spoiled named filled (grows.resolve leads) part
  | unknown named spelled given wanted part => exact .unknown named spelled given wanted part

/-- What one call does to the files. -/
structure Serves (tree : Tree) (call : Invocation) (result : Except ToolError ToolOutput)
    (tree' : Tree) (accesses : List FileAccess) : Prop where
  explains : Explains tree' call result accesses
  replays : Replays tree.files accesses tree'.files
  grows : tree.Grows tree'

theorem Serves.failed (files : tree'.files = tree.files) (grows : tree.Grows tree') {error : ToolError} :
    Serves tree call (.error error) tree' [] where
  explains := .failed
  replays := by
    rw [files]
    exact .nil _
  grows := grows

theorem Serves.read {file : Place} {bytes : List UInt8} (regular : tree.files file = some bytes)
    (explains : Explains tree call result [⟨file, some bytes, some bytes⟩]) :
    Serves tree call result tree [⟨file, some bytes, some bytes⟩] where
  explains := explains
  replays := by
    have same : Function.update tree.files file (some bytes) = tree.files := by
      rw [← regular, Function.update_eq_self]
    have one := Replays.one regular (some bytes)
    rwa [same] at one
  grows := .refl tree

theorem Serves.wrote {path : Path} {file : Place} {bytes : List UInt8}
    (written : Written tree path file bytes tree')
    (explains : Explains tree' call result [⟨file, tree.files file, some bytes⟩]) :
    Serves tree call result tree' [⟨file, tree.files file, some bytes⟩] where
  explains := explains
  replays := by
    rw [written.files]
    exact .one rfl _
  grows := written.grows

theorem Serves.rewrote {file : Place} {before after : List UInt8} {host : EditHost}
    (regular : tree.node file = some (.file before))
    (rewritten : host.tree.node = Function.update tree.node file (some (.file after)))
    (explains : Explains host.tree call result [⟨file, some before, some after⟩]) :
    Serves tree call result host.tree [⟨file, some before, some after⟩] where
  explains := explains
  replays := by
    rw [Tree.files_update rewritten]
    exact .one (Tree.files_eq.mpr regular) _
  grows := Tree.grows_update (.inr ⟨before, regular⟩) rewritten

variable {prepared : PreparedToolCall} {context : ToolExecutionContext}

theorem readFile_serves (tool : ReadFileTool)
    (ends : (Invocation.mk (.readFile tool) prepared context).Ends refusal tree result tree') :
    ∃ accesses, Serves tree ⟨.readFile tool, prepared, context⟩ result tree' accesses := by
  obtain ⟨host, rfl, ends⟩ := ends
  have met := (ReadFileTool.tries_execute tree prepared context).ends ends
  cases result with
  | error error =>
    have same : host.tree = tree := met
    rw [same]
    exact ⟨[], .failed rfl (.refl tree)⟩
  | ok answer =>
    obtain ⟨same, path, file, content, named, leads, regular, rfl⟩ := met
    rw [same]
    exact ⟨_, .read regular (.read named leads)⟩

theorem writeFile_serves (tool : WriteFileTool)
    (ends : (Invocation.mk (.writeFile tool) prepared context).Ends refusal tree result tree') :
    ∃ accesses, Serves tree ⟨.writeFile tool, prepared, context⟩ result tree' accesses := by
  obtain ⟨host, rfl, ends⟩ := ends
  have met := (tool.execute_tries tree prepared context).ends ends
  cases result with
  | error error =>
    obtain unwritten | ⟨path, content, file, part, named, filled, prefixes, written⟩ := met
    · exact ⟨[], .failed unwritten.files unwritten.grows⟩
    · exact ⟨_, .wrote written (.spoiled named filled written.leads prefixes)⟩
  | ok answer =>
    obtain ⟨path, content, file, named, filled, written⟩ := met
    exact ⟨_, .wrote written (.wrote named filled written.leads)⟩

theorem readFilePage_serves (tool : ReadFilePageTool)
    (ends : (Invocation.mk (.editing (.readFilePage tool)) prepared context).Ends refusal tree result
      tree') :
    ∃ accesses, Serves tree ⟨.editing (.readFilePage tool), prepared, context⟩ result tree'
      accesses := by
  obtain ⟨host, rfl, ends⟩ := ends
  have met := (tool.tries_execute tree prepared context).ends ends
  cases result with
  | error error =>
    have same : host.tree = tree := met
    rw [same]
    exact ⟨[], .failed rfl (.refl tree)⟩
  | ok answer =>
    obtain ⟨same, path, file, text, offset, limit, named, spelled, begins, bounded, regular, paged⟩ :=
      met
    have same : host.tree = tree := same
    rw [same]
    exact ⟨_, .read regular (.paged named spelled begins bounded paged)⟩

theorem searchFiles_serves (tool : SearchFilesTool)
    (ends : (Invocation.mk (.editing (.searchFiles tool)) prepared context).Ends refusal tree result
      tree') :
    ∃ accesses, Serves tree ⟨.editing (.searchFiles tool), prepared, context⟩ result tree'
      accesses := by
  obtain ⟨host, rfl, ends⟩ := ends
  have met := (tool.keeps_execute refusal prepared context (.start tree) rfl).ends ends
  cases result with
  | error error =>
    have same : host.tree = tree := met
    rw [same]
    exact ⟨[], .failed rfl (.refl tree)⟩
  | ok answer =>
    have same : host.tree = tree := met
    rw [same]
    exact ⟨[], .searched, .nil _, .refl tree⟩

theorem applyPatch_tries (tree : Tree) (tool : ApplyPatchTool) :
    editing.Tries (tool.execute prepared context)
      (fun answer host => ∃ accesses, Serves tree ⟨.editing (.applyPatch tool), prepared, context⟩
        (.ok answer) host.tree accesses)
      (fun error host => ∃ accesses, Serves tree ⟨.editing (.applyPatch tool), prepared, context⟩
        (.error error) host.tree accesses) (.start tree) := by
  have failed {error : ToolError} : ∃ accesses, Serves tree
      ⟨.editing (.applyPatch tool), prepared, context⟩ (.error error) tree accesses :=
    ⟨[], .failed rfl (.refl tree)⟩
  apply tool.tries_execute prepared context
  case fails => exact fun _ => failed
  case failsOpened => exact fun _ _ _ _ _ => failed
  case failsSeen => exact fun _ _ _ _ _ _ _ => failed
  intro path file count before after output named given wanted approved regular
  have found : ((EditHost.start tree).seen file count 0).tree.node file = _ := regular
  apply tries_overwrite found rfl
  · intro host rewritten
    exact ⟨_, .rewrote regular rewritten.node (.patched named approved.same.symm given wanted)⟩
  · intro error bytes host part rewritten
    exact ⟨_, .rewrote regular rewritten.node (.unknown named approved.same.symm given wanted part)⟩

theorem applyPatch_serves (tool : ApplyPatchTool)
    (ends : (Invocation.mk (.editing (.applyPatch tool)) prepared context).Ends refusal tree result
      tree') :
    ∃ accesses, Serves tree ⟨.editing (.applyPatch tool), prepared, context⟩ result tree'
      accesses := by
  obtain ⟨host, rfl, ends⟩ := ends
  have met := (applyPatch_tries tree tool).ends ends
  cases result with
  | error error => exact met
  | ok answer => exact met

/-- One case for each tool. -/
theorem Ends.serves (ends : call.Ends refusal tree result tree') :
    ∃ accesses, Serves tree call result tree' accesses := by
  obtain ⟨tool, prepared, context⟩ := call
  cases tool with
  | readFile tool => exact readFile_serves tool ends
  | writeFile tool => exact writeFile_serves tool ends
  | editing tool =>
    cases tool with
    | readFilePage tool => exact readFilePage_serves tool ends
    | searchFiles tool => exact searchFiles_serves tool ends
    | applyPatch tool => exact applyPatch_serves tool ends

/-! ## Runs -/

theorem Runs.grows (runs : Runs refusal tree calls tree') : tree.Grows tree' := by
  induction runs with
  | nil tree => exact .refl tree
  | cons ends _ ih =>
    obtain ⟨accesses, serves⟩ := ends.serves
    exact serves.grows.trans ih

namespace Sample

def writer : Invocation :=
  ⟨.writeFile FailureSample.writer, FailureSample.write, FailureSample.context⟩

/-- The request of the write; a read of the same file leaves the content alone. -/
def request : ToolCall :=
  ⟨⟨"call"⟩, "write_file", .object [("content", .string "new"), ("path", .string "a")]⟩

def reader : Invocation where
  tool := .readFile ⟨[], 100⟩
  prepared := preparedCall ⟨⟨"call"⟩, "read_file", .null⟩ "read_file"
    (ReadFileTool.preparedArguments [FailureSample.name] 100) [] false
  context := FailureSample.context

/-- After the write. -/
def wrote : Except ToolError ToolOutput × Host :=
  evaluate Host.serve
    (FailureSample.writer.execute FailureSample.write FailureSample.context) ⟨FailureSample.tree, []⟩

def receipt : ToolOutput :=
  ⟨.object [("bytes_written", .number (.posInt 3)), ("path", .string "/a")]⟩

theorem writer_ends (refusal : Value → String) :
    writer.Ends refusal FailureSample.tree (.ok receipt) wrote.2.tree := by
  have ends : faulty.Ends
      (FailureSample.writer.execute FailureSample.write FailureSample.context).run
      ⟨FailureSample.tree, []⟩ wrote.1 wrote.2 := Contract.Ends.eval Host.serve_answers _ _
  have ok : wrote.1 = .ok receipt := rfl
  rw [ok] at ends
  exact ⟨wrote.2, rfl, ends⟩

theorem reader_ends (refusal : Value → String) :
    reader.Ends refusal wrote.2.tree
      (.ok (ReadFileTool.output (.ofPlace [FailureSample.name]) "new")) wrote.2.tree := by
  have file : wrote.2.tree.files [FailureSample.name] = some (encode "new") := rfl
  have found : wrote.2.tree.canonicalize (.ofPlace [FailureSample.name]) =
    .ok [FailureSample.name] := rfl
  refine ⟨_, rfl, .ask false ⟨rfl, trivial⟩ (.ask (.ok [FailureSample.name]) ⟨⟨found, rfl⟩, trivial⟩
    (.ask (.ok (encode "new")) ⟨⟨rfl, rfl⟩, _, file, by decide⟩ (.done _ _)))⟩

end Sample

/-- The file of the call.  The editing tools take canonical paths only. -/
def Names (tree : Tree) (call : Invocation) (file : Place) : Prop :=
  ∃ path, pathArgument call.prepared.action.arguments "path" = .ok path ∧
    match call.tool with
    | .readFile _ | .writeFile _ => tree.resolve path = .ok (.found file)
    | .editing _ => path.components = (Path.ofPlace file).components

def IsWriter (call : Invocation) : Prop :=
  match call.tool with
  | .writeFile _ | .editing (.applyPatch _) => True
  | .readFile _ | .editing _ => False

/-- What is in the file when the call has ended well. -/
def Stores (call : Invocation) (content : String) : Prop :=
  match call.tool with
  | .writeFile _ => stringArgument call.prepared.action.arguments "content" = .ok content
  | .editing (.applyPatch _) => stringArgument call.prepared.action.arguments "after" = .ok content
  | .readFile _ | .editing _ => False

/-- The output is made of the content of the file, and what the arguments ask for. -/
def Shows (call : Invocation) (file : Place) (content : String) (output : ToolOutput) : Prop :=
  match call.tool with
  | .readFile _ => ∃ path, pathArgument call.prepared.action.arguments "path" = .ok path ∧
    output = ReadFileTool.output path content
  | .editing (.readFilePage _) => ∃ offset limit,
    number call.prepared.action.arguments "offset" 0 maxFileBytes = .ok offset ∧
    number call.prepared.action.arguments "limit" 4096 maxPageBytes = .ok limit ∧
    ReadFilePageTool.page file content offset limit = .ok output
  | .writeFile _ | .editing _ => False

def IsReader (call : Invocation) : Prop :=
  match call.tool with
  | .readFile _ | .editing (.readFilePage _) => True
  | .writeFile _ | .editing _ => False

variable {file : Place} {content : String} {output : ToolOutput}

/-- Only a writer of the file leaves something else there. -/
theorem Explains.kept (explains : Explains tree call result accesses)
    (unchanged : call.IsWriter → ¬ call.Names tree file) :
    ∀ access ∈ accesses, access.key = file → access.left = access.found := by
  intro access member same
  cases explains with
  | read | paged =>
    cases List.mem_singleton.mp member
    rfl
  | searched | failed => cases member
  | wrote named _ leads | spoiled named _ leads =>
    cases List.mem_singleton.mp member
    cases same
    exact absurd ⟨_, named, leads⟩ (unchanged trivial)
  | patched named spelled | unknown named spelled =>
    cases List.mem_singleton.mp member
    cases same
    exact absurd ⟨_, named, spelled⟩ (unchanged trivial)

/-- A call names one file. -/
theorem Names.unique {file' : Place} (names : call.Names tree file) (names' : call.Names tree file') :
    file = file' := by
  obtain ⟨path, named, here⟩ := names
  obtain ⟨path', named', here'⟩ := names'
  cases Except.ok.inj (named.symm.trans named')
  obtain ⟨tool, prepared, context⟩ := call
  cases tool with
  | readFile | writeFile =>
    cases Except.ok.inj (here.symm.trans here')
    rfl
  | editing => exact Path.components_ofPlace_inj (here.symm.trans here')

theorem Names.grows (names : call.Names tree file) (grows : tree.Grows tree') :
    call.Names tree' file := by
  obtain ⟨path, named, here⟩ := names
  refine ⟨path, named, ?_⟩
  obtain ⟨tool, prepared, context⟩ := call
  cases tool with
  | readFile | writeFile => exact grows.resolve here
  | editing => exact here

/-- A file that no call of a run writes. -/
theorem Runs.kept (runs : Runs refusal tree calls tree')
    (unchanged : ∀ call ∈ calls, call.1.IsWriter → ¬ call.1.Names tree' file) :
    tree'.files file = tree.files file := by
  induction runs with
  | nil tree => rfl
  | @cons tree tree' tree'' call result calls ends rest ih =>
    obtain ⟨accesses, serves⟩ := ends.serves
    have later := ih fun call member => unchanged call (List.mem_cons_of_mem _ member)
    rw [later]
    apply serves.replays.untouched
    apply serves.explains.kept
    intro writes names
    exact unchanged _ List.mem_cons_self writes (names.grows rest.grows)

/-- A writer that ended well left its content. -/
theorem Ends.stores (ends : call.Ends refusal tree (.ok output) tree') (stores : call.Stores content)
    (names : call.Names tree' file) : tree'.files file = some (encode content) := by
  obtain ⟨accesses, explains, replays, _⟩ := ends.serves
  cases explains with
  | read | paged | searched => cases stores
  | wrote named filled leads =>
    cases Except.ok.inj (filled.symm.trans stores)
    cases names.unique ⟨_, named, leads⟩
    exact replays.last
  | patched named spelled _ wanted =>
    cases Except.ok.inj (wanted.symm.trans stores)
    cases names.unique ⟨_, named, spelled⟩
    exact replays.last

/-- A reader shows the content of its file. -/
theorem Ends.shows (ends : call.Ends refusal tree (.ok output) tree') (reads : call.IsReader)
    (names : call.Names tree file) (present : tree.files file = some (encode content)) :
    call.Shows file content output := by
  obtain ⟨accesses, explains, replays, grows⟩ := ends.serves
  have later := names.grows grows
  cases explains with
  | read named leads =>
    cases later.unique ⟨_, named, leads⟩
    have same := present.symm.trans replays.head
    cases Text.encode_inj (Option.some.inj same)
    exact ⟨_, named, rfl⟩
  | paged named spelled begins bounded paged =>
    cases later.unique ⟨_, named, spelled⟩
    have same := present.symm.trans replays.head
    cases Text.encode_inj (Option.some.inj same)
    exact ⟨_, _, begins, bounded, paged⟩
  | searched | wrote | patched => cases reads

/-- Whatever calls run in between, and whichever of their operations fail: as long as none of them
writes the same file, what a reader shows of it is what the last writer left there. -/
theorem reads_last {writer reader : Invocation} {tree₁ tree₂ tree₃ : Tree} {output' : ToolOutput}
    (wrote : writer.Ends refusal tree (.ok output) tree₁) (stores : writer.Stores content)
    (here : writer.Names tree₁ file) (runs : Runs refusal tree₁ calls tree₂)
    (unchanged : ∀ call ∈ calls, call.1.IsWriter → ¬ call.1.Names tree₂ file)
    (read : reader.Ends refusal tree₂ (.ok output') tree₃) (reads : reader.IsReader)
    (there : reader.Names tree₂ file) : reader.Shows file content output' := by
  apply read.shows reads there
  rw [runs.kept unchanged]
  exact wrote.stores stores here

theorem reads_last_written : Sample.reader.Shows [FailureSample.name] "new"
    (ReadFileTool.output (.ofPlace [FailureSample.name]) "new") :=
  reads_last (Sample.writer_ends fun _ => "") rfl ⟨_, rfl, rfl⟩ (.nil _)
    (fun _ none => absurd none List.not_mem_nil) (Sample.reader_ends _) trivial ⟨_, rfl, rfl⟩

end Invocation

/-! ## Without faults -/

section Evaluation

variable {tool : WriteFileTool} {call readCall : ToolCall} {prepared : PreparedToolCall}
variable {tree : Tree} {host : Host} {output : ToolOutput} {context : ToolExecutionContext}

/-- What a write that was prepared was asked for. -/
theorem WriteFileTool.prepare_asked
    (made : (evaluate Host.serve (tool.prepare call) host).1 = .ok prepared) :
    ∃ requested content, stringArgument call.arguments "path" = .ok requested ∧
      stringArgument call.arguments "content" = .ok content ∧
      validateRelative (Path.parse requested) = .ok () ∧
      pathArgument prepared.action.arguments "path" =
        .ok ((Path.ofPlace tool.workspace).join (Path.parse requested)) ∧
      stringArgument prepared.action.arguments "content" = .ok content := by
  obtain ⟨requested, _, named, made⟩ := evaluate_bind_ok made
  obtain ⟨path_text, rfl⟩ := Prod.mk.inj ((evaluate_ofExcept _).symm.trans named)
  obtain ⟨content, _, filled, made⟩ := evaluate_bind_ok made
  obtain ⟨content_text, rfl⟩ := Prod.mk.inj ((evaluate_ofExcept _).symm.trans filled)
  obtain ⟨_, _, _, made⟩ := evaluate_bind_ok made
  obtain ⟨target, _, resolved, made⟩ := evaluate_bind_ok made
  cases made
  have resolved := congrArg Prod.fst resolved
  obtain ⟨_, _, normal, resolved⟩ := evaluate_bind_ok resolved
  obtain ⟨relative, rfl⟩ := Prod.mk.inj ((evaluate_ofExcept _).symm.trans normal)
  obtain ⟨_, _, _, resolved⟩ := evaluate_bind_ok resolved
  cases resolved
  have spelled := Path.join_relative tool.workspace (validateRelative_ok relative).1
  refine ⟨requested, content, path_text, content_text, relative, ?_, rfl⟩
  show Except.ok (Path.parse (Path.text _)) = _
  rw [Path.parse_text]
  · rw [spelled]
  · rw [spelled]
    simp [Path.parse_segments_ne_nil]

/-- What a write has left when it ended well. -/
theorem WriteFileTool.execute_ok
    (done : evaluate Host.serve (tool.execute prepared context) ⟨tree, []⟩ = (.ok output, host)) :
    ∃ path content file, pathArgument prepared.action.arguments "path" = .ok path ∧
      stringArgument prepared.action.arguments "content" = .ok content ∧
      Written tree path file (encode content) host.tree := by
  have met := (tool.execute_tries tree prepared context).eval Host.serve_answers
  rw [evaluate] at done
  rw [done] at met
  exact met

/-- On a file system without faults: what a write was asked to write is what a read of the same path
returns, if it is inside the workspace and not too long for the reader. -/
theorem write_read {reader : ReadFileTool} (same : reader.workspace = tool.workspace)
    (asked : readCall.arguments.get "path" = call.arguments.get "path")
    (made : (evaluate Host.serve (tool.prepare call) ⟨tree, []⟩).1 = .ok prepared)
    (done : evaluate Host.serve (tool.execute prepared context) ⟨tree, []⟩ = (.ok output, host))
    (short : ∀ content, stringArgument call.arguments "content" = .ok content →
      (encode content).length < usizeMax) :
    ∃ file content, stringArgument call.arguments "content" = .ok content ∧
      host.tree.files = Function.update tree.files file (some (encode content)) ∧
      (¬ tool.workspace <:+ file →
        (evaluate EditHost.serve (reader.prepare readCall) (.start host.tree)).1 =
          .error (invalid "path is not a file inside the workspace")) ∧
      (tool.workspace <:+ file → ∃ prepared',
        (evaluate EditHost.serve (reader.prepare readCall) (.start host.tree)).1 = .ok prepared' ∧
        ∀ context, (evaluate EditHost.serve (ReadFileTool.execute prepared' context)
          (.start host.tree)).1 =
            if (encode content).length ≤ reader.maximumBytes then
              .ok (ReadFileTool.output (.ofPlace file) content)
            else .error (.execution s!"file exceeds {reader.maximumBytes} byte limit")) := by
  obtain ⟨requested, content, named, filled, relative, target, holds⟩ :=
    WriteFileTool.prepare_asked made
  obtain ⟨path, content', file, target', holds', written⟩ := WriteFileTool.execute_ok done
  cases Except.ok.inj (target.symm.trans target')
  cases Except.ok.inj (holds.symm.trans holds')
  have named : stringArgument readCall.arguments "path" = .ok requested := by
    rw [stringArgument, asked]
    exact named
  have regular : host.tree.files file = some (encode content) := by
    rw [written.files, Function.update_self]
  have found : (EditHost.start host.tree).tree.canonicalize
      ((Path.ofPlace reader.workspace).join (Path.parse requested)) = .ok file := by
    rw [same]
    exact Tree.canonicalize_ok.mpr written.leads
  refine ⟨file, content, filled, written.files, ?_, ?_⟩
  · intro outside
    rw [← same] at outside
    rw [ReadFileTool.evaluate_prepare named
      (evaluate_resolveExistingFile_outside relative found outside)]
    rfl
  · intro inside
    rw [← same] at inside
    have node : (EditHost.start host.tree).tree.node file = _ := Tree.files_eq.mp regular
    refine ⟨_, congrArg Prod.fst (ReadFileTool.evaluate_prepare named
      (evaluate_resolveExistingFile relative found inside node)), ?_⟩
    intro context
    have solid : file ≠ [] := by
      rintro rfl
      rw [Tree.root] at node
      cases node
    rw [ReadFileTool.evaluate_execute context rfl solid regular (short content filled)]
    split
    next fits =>
      rw [ReadFileTool.contentOf_encode fits]
      rfl
    next long =>
      rw [ReadFileTool.contentOf, if_neg long]
      rfl

theorem write_read_sample : ∃ file content, "new" = content ∧
    Invocation.Sample.wrote.2.tree.files =
      Function.update FailureSample.tree.files file (some (encode content)) ∧
    (FailureSample.writer.workspace <:+ file → ∃ prepared, (evaluate EditHost.serve
      (ReadFileTool.prepare ⟨[], 100⟩ Invocation.Sample.request)
      (.start Invocation.Sample.wrote.2.tree)).1 = .ok prepared) := by
  have same : (ReadFileTool.mk [] 100).workspace = FailureSample.writer.workspace := rfl
  have made : (evaluate Host.serve (FailureSample.writer.prepare Invocation.Sample.request)
      ⟨FailureSample.tree, []⟩).1 = .ok FailureSample.write := rfl
  have done : evaluate Host.serve
      (FailureSample.writer.execute FailureSample.write FailureSample.context)
      ⟨FailureSample.tree, []⟩ = (.ok Invocation.Sample.receipt, Invocation.Sample.wrote.2) := rfl
  have filled {content : String} (filled : stringArgument Invocation.Sample.request.arguments
      "content" = .ok content) : "new" = content := Except.ok.inj filled
  have short (content : String) (asked : stringArgument Invocation.Sample.request.arguments
      "content" = .ok content) : (encode content).length < usizeMax := by
    rw [← filled asked]
    decide
  obtain ⟨file, content, asked, files, _, inside⟩ := write_read same rfl made done short
  refine ⟨file, content, filled asked, files, ?_⟩
  intro within
  obtain ⟨prepared, ready, _⟩ := inside within
  exact ⟨prepared, ready⟩

end Evaluation

end Nausicaa.Executor
