import Nausicaa.Core.Tool
import Nausicaa.Interaction.Program
import Nausicaa.Json.Members
import Nausicaa.Posix.Tree
import Nausicaa.Text.Utf8

/-! # The tool that writes files

`WriteFileTool` of `executor-process/src/lib.rs`, a `Program` over the operations of the file
system.  A canonical path is the place that it leads to. -/

namespace Nausicaa.Executor

open Core (CancellationToken PreparedToolCall ToolCall ToolDefinition ToolError
  ToolExecutionContext ToolOutput)
open Interaction (Fallible mapError request)
open Json (Value)
open Posix (IoError Path Place)
open Text (encode)

/-! ## Operations -/

inductive FileOp where
  | isCancelled (token : CancellationToken)
  | pathExists (path : Path)
  | isDirectory (path : Path)
  | canonicalize (path : Path)
  | createDirectory (path : Path)
  /-- Create the file, or make it empty. -/
  | openFile (path : Path)
  | writeAll (file : Place) (bytes : List UInt8)
  | syncData (file : Place)

abbrev FileOp.Answer : FileOp → Type
  | .isCancelled _ | .pathExists _ | .isDirectory _ => Bool
  | .canonicalize _ | .openFile _ => Except IoError Place
  | .createDirectory _ | .writeAll _ _ | .syncData _ => Except IoError Unit

abbrev FileCode (ε : Type) := Fallible FileOp FileOp.Answer ε

def ofExcept {Op : Type} {Answer : Op → Type} {ε α : Type} : Except ε α → Fallible Op Answer ε α
  | .ok value => pure value
  | .error error => throw error

def ensure {Op : Type} {Answer : Op → Type} {ε : Type} (condition : Prop) [Decidable condition]
    (error : ε) : Fallible Op Answer ε Unit :=
  if condition then pure () else throw error

/-- `map_err(|error| ToolError::Execution(error.to_string()))?`. -/
def executed {α : Type} : Except IoError α → FileCode ToolError α
  | .ok value => pure value
  | .error error => throw (.execution error.toString)

/-- `fs::create_dir_all` of an absolute path, with its parents. -/
def createDirAll (path : Path) : List Path → FileCode IoError Unit
  | [] => do
    match ← request (FileOp.createDirectory path) with
    | .ok () => pure ()
    | .error .notFound => throw (.other "failed to create whole tree")
    | .error error => settle error
  | up :: ups => do
    match ← request (FileOp.createDirectory path) with
    | .ok () => pure ()
    | .error .notFound =>
      createDirAll up ups
      match ← request (FileOp.createDirectory path) with
      | .ok () => pure ()
      | .error error => settle error
    | .error error => settle error
where
  /-- A directory that is there is as good as one that was made. -/
  settle (error : IoError) : FileCode IoError Unit := do
    let directory : Bool ← request (FileOp.isDirectory path)
    ensure (directory = true) error

/-! ## Arguments -/

def stringArgument (arguments : Value) (name : String) : Except ToolError String :=
  match (arguments.get name).bind Value.asString with
  | some text => .ok text
  | none => .error (.invalidArguments s!"`{name}` must be a string")

def pathArgument (arguments : Value) (name : String) : Except ToolError Path :=
  (stringArgument arguments name).map Path.parse

/-- `and_then(Value::as_bool).unwrap_or(false)`. -/
def flagArgument (arguments : Value) (name : String) : Bool :=
  match arguments.get name with
  | some (.bool flag) => flag
  | _ => false

/-! ## Paths inside the workspace -/

def isNormal : Posix.Component → Bool
  | .normal _ => true
  | _ => false

def validateRelative (path : Path) : Except ToolError Unit :=
  if path.text = "" ∨ path.components.any fun component => !isNormal component then
    .error (.invalidArguments "path must be a non-empty relative path without `..`")
  else .ok ()

def canonicalInside (workspace : Place) (path : Path) (outside : String) :
    FileCode ToolError Unit := do
  match ← request (FileOp.canonicalize path) with
  | .ok canonical =>
    ensure ((Path.ofPlace canonical).StartsWith (.ofPlace workspace)) (.invalidArguments outside)
  | .error error => throw (.invalidArguments error.toString)

/-- The nearest of the ancestors that exists. -/
def verifyAncestor (workspace : Place) : List Path → FileCode ToolError Unit
  | [] => pure ()
  | path :: ancestors => do
    let present : Bool ← request (FileOp.pathExists path)
    if present then
      canonicalInside workspace path "write target traverses a symlink outside the workspace"
    else verifyAncestor workspace ancestors

def verifyWriteTarget (workspace : Place) (target : Path) : FileCode ToolError Unit := do
  ensure (target.StartsWith (.ofPlace workspace))
    (.invalidArguments "write target is outside the workspace")
  verifyAncestor workspace target.parents
  let present : Bool ← request (FileOp.pathExists target)
  if present then
    canonicalInside workspace target "write target resolves outside the workspace"

def resolveWriteTarget (workspace : Place) (requested : Path) : FileCode ToolError Path := do
  ofExcept (validateRelative requested)
  let target := (Path.ofPlace workspace).join requested
  verifyWriteTarget workspace target
  return target

/-! ## The tool -/

def writeFileDefinition : ToolDefinition where
  name := "write_file"
  description := "Write a UTF-8 file inside the workspace"
  inputSchema := .object [
    ("additionalProperties", .bool false),
    ("properties", .object [
      ("content", .object [("type", .string "string")]),
      ("create_directories", .object [("type", .string "boolean")]),
      ("path", .object [("type", .string "string")])]),
    ("required", .array [.string "path", .string "content"]),
    ("type", .string "object")]

structure WriteFileTool where
  workspace : Place
  maximumBytes : Nat

namespace WriteFileTool

variable (tool : WriteFileTool)

def preparedArguments (content : String) (createDirectories : Bool) (path : Path) : Value :=
  .object [("content", .string content), ("create_directories", .bool createDirectories),
    ("path", .string path.text)]

def prepare (call : ToolCall) : FileCode ToolError PreparedToolCall := do
  let requested ← ofExcept (stringArgument call.arguments "path")
  let content ← ofExcept (stringArgument call.arguments "content")
  ensure ((encode content).length ≤ tool.maximumBytes)
    (.invalidArguments s!"content exceeds {tool.maximumBytes} byte limit")
  let path ← resolveWriteTarget tool.workspace (Path.parse requested)
  return {
    callId := call.id
    action := {
      toolName := "write_file"
      arguments := preparedArguments content (flagArgument call.arguments "create_directories") path
      effect := .workspaceWrite
      retrySafety := .idempotent
      scope := some (Path.ofPlace tool.workspace).text } }

/-- Open, write and sync. -/
def write (path : Path) (content : String) : FileCode ToolError ToolOutput := do
  let file : Place ← executed (← request (FileOp.openFile path))
  executed (← request (FileOp.writeAll file (encode content)))
  executed (← request (FileOp.syncData file))
  return ⟨.object [("bytes_written", .number (.posInt (encode content).length)),
    ("path", .string path.text)]⟩

/-- What follows the first check of the target. -/
def writeVerified (createDirectories : Bool) (path : Path) (content : String) :
    FileCode ToolError ToolOutput := do
  match path.parents with
  | [] => throw (.execution "write target has no parent")
  | parent :: ancestors =>
    if createDirectories then
      mapError (fun error => .execution error.toString) (createDirAll parent ancestors)
      verifyWriteTarget tool.workspace path
    write path content

def execute (prepared : PreparedToolCall) (context : ToolExecutionContext) :
    FileCode ToolError ToolOutput := do
  let cancelled : Bool ← request (FileOp.isCancelled context.cancellation)
  ensure (cancelled = false) .cancelled
  let arguments := prepared.action.arguments
  let path ← ofExcept (pathArgument arguments "path")
  let content ← ofExcept (stringArgument arguments "content")
  verifyWriteTarget tool.workspace path
  tool.writeVerified (flagArgument arguments "create_directories") path content

end WriteFileTool

end Nausicaa.Executor
