import Nausicaa.Executor.EditRules
import Nausicaa.Executor.EditServing
import Nausicaa.Posix.Files

/-! # The tool that reads files

`ReadFileTool` of `executor-process/src/lib.rs`.  Whatever fails, what it returns is the whole content
of the file that its path leads to (`ReadFileTool.tries_execute`), and without faults it returns the
content of every file that is not too long (`ReadFileTool.evaluate_execute`). -/

namespace Nausicaa.Executor

open Core (PreparedToolCall ToolCall ToolDefinition ToolError ToolExecutionContext ToolOutput)
open Interaction (Contract evaluate evaluate_bind evaluate_stop request)
open Json (Value)
open Posix (IoError Path Place Tree)
open Text (encode)

def usizeMax : Nat := 0xFFFFFFFFFFFFFFFF

structure ReadFileTool where
  workspace : Place
  maximumBytes : Nat

namespace ReadFileTool

variable (tool : ReadFileTool)

def definition : ToolDefinition where
  name := "read_file"
  description := "Read a UTF-8 file inside the workspace"
  inputSchema := .object [
    ("additionalProperties", .bool false),
    ("properties", .object [("path", .object [("type", .string "string")])]),
    ("required", .array [.string "path"]),
    ("type", .string "object")]

def withMaximumBytes (maximum : Nat) : ReadFileTool :=
  { tool with maximumBytes := max maximum 1 }

def preparedArguments (path : Place) (maximumBytes : Nat) : Value :=
  .object [("maximum_bytes", .number (.posInt maximumBytes)), ("path", pathValue path)]

def prepare (call : ToolCall) : EditCode ToolError PreparedToolCall := do
  let requested ← ofExcept (stringArgument call.arguments "path")
  let path ← resolveExistingFile tool.workspace (Path.parse requested)
  return preparedCall call "read_file" (preparedArguments path tool.maximumBytes) tool.workspace false

def maximumArgument (arguments : Value) : Except ToolError Nat :=
  match (arguments.get "maximum_bytes").bind Value.asNat with
  | some maximum => .ok maximum
  | none => .error (.execution "invalid maximum_bytes")

def contentOf (maximum : Nat) (bytes : List UInt8) : Except ToolError String :=
  if bytes.length ≤ maximum then
    match Text.decode bytes with
    | some content => .ok content
    | none => .error (.execution "file is not valid UTF-8")
  else .error (.execution s!"file exceeds {maximum} byte limit")

def output (path : Path) (content : String) : ToolOutput :=
  ⟨.object [("content", .string content), ("path", .string path.text)]⟩

/-- One byte more than the limit is read, to see that the file is too long. -/
def execute (prepared : PreparedToolCall) (context : ToolExecutionContext) :
    EditCode ToolError ToolOutput := do
  checkCancelled context.cancellation
  let arguments := prepared.action.arguments
  let path ← ofExcept (pathArgument arguments "path")
  let maximum ← ofExcept (maximumArgument arguments)
  let file : Place ← execution (← request (EditOp.openFile path))
  let bytes : List UInt8 ←
    execution (← request (EditOp.readToEnd file (min (maximum + 1) usizeMax)))
  let content ← ofExcept (contentOf maximum bytes)
  return output path content

end ReadFileTool

/-! ## With faults -/

/-- A directory cannot be read, and no file is as long as the address space. -/
def EditHost.Reads (host : EditHost) : (op : EditOp) → op.Answer → Prop
  | .readToEnd file _, .ok _ => ∃ bytes, host.tree.files file = some bytes ∧ bytes.length < usizeMax
  | _, _ => True

/-- The file system with faults, where what is read is a file. -/
def reading : Contract EditOp EditOp.Answer EditHost where
  permit _ _ := True
  step host op answer host' := host.Answers op answer host' ∧ host.Reads op answer

/-- A file that was opened is read from its start. -/
theorem EditHost.remaining_open {tree : Tree} {file : Place} {bytes : List UInt8}
    (regular : tree.files file = some bytes) (path : Path) (limit : Nat) :
    ((start tree).withOpen path file).remaining file limit = bytes.take limit := by
  have content : ((start tree).withOpen path file).tree.content file = bytes :=
    Tree.content_file (Tree.files_eq.mp regular)
  rw [remaining, content]
  rfl

namespace ReadFileTool

variable {tool : ReadFileTool} {bytes : List UInt8} {content : String}
variable {maximum : Nat} {path : Path} {file : Place}

/-- What was read shows whether the file is too long. -/
theorem contentOf_take (short : bytes.length < usizeMax) :
    contentOf maximum (bytes.take (min (maximum + 1) usizeMax)) = contentOf maximum bytes := by
  by_cases fits : bytes.length ≤ maximum
  · rw [List.take_of_length_le (by omega)]
  · rw [contentOf, contentOf, List.length_take, if_neg (by omega), if_neg fits]

theorem contentOf_ok (read : contentOf maximum bytes = .ok content) :
    bytes = encode content ∧ bytes.length ≤ maximum := by
  rw [contentOf] at read
  split at read
  next fits =>
    split at read
    next text decoded =>
      cases read
      exact ⟨(Text.encode_of_decode decoded).symm, fits⟩
    · cases read
  · cases read

theorem contentOf_encode (fits : (encode content).length ≤ maximum) :
    contentOf maximum (encode content) = .ok content := by
  rw [contentOf, if_pos fits, Text.decode_encode]

/-- Whatever fails, nothing changes, and what is returned is what stands in the file. -/
theorem tries_execute (tree : Tree) (prepared : PreparedToolCall) (context : ToolExecutionContext) :
    reading.Tries (execute prepared context)
      (fun answer host => host.tree = tree ∧ ∃ path file content,
        pathArgument prepared.action.arguments "path" = .ok path ∧
        tree.resolve path = .ok (.found file) ∧ tree.files file = some (encode content) ∧
        answer = output path content)
      (fun _ host => host.tree = tree) (.start tree) := by
  rw [execute]
  apply Contract.Tries.bind
  apply Contract.Tries.bind
  apply Contract.Tries.request trivial
  rintro cancelled _ ⟨rfl, _⟩
  apply tries_ensure
  case fails =>
    intro _
    rfl
  intro _
  apply Contract.Tries.bind
  apply tries_ofExcept
  case fails =>
    intro _ _
    rfl
  intro path named
  apply Contract.Tries.bind
  apply tries_ofExcept
  case fails =>
    intro _ _
    rfl
  intro maximum _
  apply Contract.Tries.bind
  apply Contract.Tries.request trivial
  rintro opened host ⟨opens, _⟩
  apply Contract.Tries.bind
  cases opened with
  | error error =>
    cases opens
    exact Contract.Tries.throw rfl
  | ok file =>
    obtain ⟨found, rfl⟩ := opens
    apply Contract.Tries.pure
    apply Contract.Tries.bind
    apply Contract.Tries.request trivial
    rintro read host ⟨reads, regular⟩
    apply Contract.Tries.bind
    cases read with
    | error error =>
      obtain ⟨count, rfl⟩ := reads
      exact Contract.Tries.throw rfl
    | ok bytes =>
      obtain ⟨rfl, rfl⟩ := reads
      obtain ⟨bytes, file', short⟩ := regular
      have file' : tree.files file = some bytes := file'
      apply Contract.Tries.pure
      apply Contract.Tries.bind
      rw [EditHost.remaining_open file', contentOf_take short]
      apply tries_ofExcept
      case fails =>
        intro _ _
        rfl
      intro content read
      obtain ⟨rfl, _⟩ := contentOf_ok read
      exact Contract.Tries.pure ⟨rfl, path, file, content, named, Tree.canonicalize_ok.mp found,
        file', rfl⟩

end ReadFileTool

/-! ## Without faults -/

section Evaluation

variable {workspace file : Place} {host : EditHost} {path : Path}

theorem evaluate_resolveExistingFile_outside (relative : validateRelative path = .ok ())
    (found : host.tree.canonicalize ((Path.ofPlace workspace).join path) = .ok file)
    (outside : ¬ workspace <:+ file) :
    evaluate EditHost.serve (resolveExistingFile workspace path) host =
      (.error (invalid "path is not a file inside the workspace"), host) := by
  have canonical : evaluate (ε := ToolError) EditHost.serve
      (request (EditOp.canonicalize ((Path.ofPlace workspace).join path))) host =
      (.ok (.ok file), host) := by
    rw [Interaction.evaluate_request, EditHost.serve, found]
  rw [resolveExistingFile, relative, evaluate_bind (evaluate_ofExcept _), evaluate_bind canonical]
  dsimp only
  exact evaluate_stop (evaluate_ensure_error _ (outside ∘ Posix.startsWith_ofPlace.mp)) _

namespace ReadFileTool

variable {tool : ReadFileTool} {tree : Tree} {bytes : List UInt8} {call : ToolCall}
variable {prepared : PreparedToolCall} {requested : String} {maximum : Nat}

/-- What a call makes of the place that its path leads to. -/
theorem evaluate_prepare (asked : stringArgument call.arguments "path" = .ok requested)
    {result : Except ToolError Place}
    (resolved : evaluate EditHost.serve (resolveExistingFile tool.workspace (Path.parse requested))
      host = (result, host)) :
    evaluate EditHost.serve (tool.prepare call) host =
      (result.map fun file => preparedCall call "read_file"
        (preparedArguments file tool.maximumBytes) tool.workspace false, host) := by
  rw [prepare, asked, evaluate_bind (evaluate_ofExcept _)]
  cases result with
  | error error => exact evaluate_stop resolved _
  | ok file =>
    rw [evaluate_bind resolved]
    rfl

/-- The content of a file is returned if it is not too long and is a text. -/
theorem evaluate_execute (context : ToolExecutionContext)
    (given : prepared.action.arguments = preparedArguments file maximum) (filled : file ≠ [])
    (regular : tree.files file = some bytes) (short : bytes.length < usizeMax) :
    (evaluate EditHost.serve (execute prepared context) (.start tree)).1 =
      (contentOf maximum bytes).map (output (.ofPlace file)) := by
  have node := Tree.files_eq.mp regular
  have named : pathArgument prepared.action.arguments "path" = .ok (.ofPlace file) := by
    rw [given]
    exact pathArgument_value filled rfl
  have bounded : maximumArgument prepared.action.arguments = .ok maximum := by
    rw [given]
    rfl
  have read : evaluate (ε := ToolError) EditHost.serve
      (request (EditOp.readToEnd file (min (maximum + 1) usizeMax)))
      ((EditHost.start tree).withOpen (.ofPlace file) file) =
      (.ok (.ok (bytes.take (min (maximum + 1) usizeMax))),
        ((EditHost.start tree).withOpen (.ofPlace file) file).withRead file
          (bytes.take (min (maximum + 1) usizeMax)).length) := by
    rw [Interaction.evaluate_request, EditHost.serve, EditHost.remaining_open regular]
  rw [execute, evaluate_bind (evaluate_checkCancelled _)]
  dsimp only
  rw [named, bounded, evaluate_bind (evaluate_ofExcept _), evaluate_bind (evaluate_ofExcept _),
    evaluate_bind (evaluate_openFile node), execution_ok, pure_bind, evaluate_bind read,
    execution_ok, pure_bind, contentOf_take short]
  cases content : contentOf maximum bytes with
  | error error => rw [evaluate_stop (evaluate_ofExcept _)]; rfl
  | ok content => rw [evaluate_bind (evaluate_ofExcept _)]; rfl

end ReadFileTool

end Evaluation

end Nausicaa.Executor
