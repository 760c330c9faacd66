import Nausicaa.ContextFs.Names
import Nausicaa.Interaction.Concurrent
import Nausicaa.Json.Members
import Nausicaa.Text.Validation

/-! # The archive of tool outputs

`OutputArchive` and `ReadOutputTool` of `context-fs/src/output.rs`: snapshots of tool outputs,
one file for each call in a directory of its thread, published by a hard link to a file that was
written and synced under another name.  Code is a `Program` over the operations of the file
system, any of which may fail; a crash ends it between two of them. -/

namespace Nausicaa.ContextFs

open Core (CallId CanonicalAction CancellationToken ContextError EffectKind PreparedToolCall
  RetrySafety ThreadId ToolCall ToolDefinition ToolError ToolExecutionContext ToolOutput)
open Interaction (Fallible Program outcome request)
open Json (Value)
open Text (encode fromUtf8)

abbrev Bytes := List UInt8

/-! ## Operations -/

inductive IoError where
  | notFound
  | alreadyExists
  | other (message : String)
  deriving DecidableEq, Repr

def IoError.toString : IoError → String
  | .notFound => "No such file or directory (os error 2)"
  | .alreadyExists => "File exists (os error 17)"
  | .other message => message

inductive FileType where
  | directory | file | symlink
  deriving DecidableEq, Repr

structure Metadata where
  fileType : FileType
  length : Nat
  deriving DecidableEq, Repr

abbrev Inode := Nat

/-- What may fail: the lock of the writer by its poison, the others as the file system pleases. -/
inductive FileOp where
  | lock
  | createDirectory (directory : String)
  | syncRoot
  | directoryMetadata (directory : String)
  | metadata (path : ArchivePath)
  | openFile (path : ArchivePath)
  | length (file : Inode)
  | readAt (file : Inode) (offset limit : Nat)
  | syncFile (file : Inode)
  | createNew (path : ArchivePath)
  | writeAll (file : Inode) (bytes : Bytes)
  | hardLink (source target : ArchivePath)
  | removeFile (path : ArchivePath)
  | syncDirectory (directory : String)

abbrev FileOp.Result : FileOp → Type
  | .directoryMetadata _ => FileType
  | .metadata _ => Metadata
  | .openFile _ | .createNew _ => Inode
  | .length _ => Nat
  | .readAt _ _ _ => Bytes
  | .lock | .createDirectory _ | .syncRoot | .syncFile _ | .writeAll _ _ | .hardLink _ _
  | .removeFile _ | .syncDirectory _ => Unit

inductive Op where
  | file (op : FileOp)
  | unlock
  | newEventId
  | isCancelled (token : CancellationToken)

abbrev Op.Answer : Op → Type
  | .file op => Except IoError op.Result
  | .unlock => Unit
  | .newEventId => String
  | .isCancelled _ => Bool

abbrev Code (ε : Type) := Fallible Op Op.Answer ε

def attempt {ε : Type} (op : FileOp) : Code ε (Except IoError op.Result) := request (Op.file op)

/-- `map_err(read_error)?`. -/
def io {α : Type} : Except IoError α → Code ContextError α
  | .ok result => pure result
  | .error error => throw (readError error.toString)

def perform (op : FileOp) : Code ContextError op.Result := do io (← attempt op)

def ofExcept {ε α : Type} : Except ε α → Code ε α
  | .ok value => pure value
  | .error error => throw error

def ensure {ε : Type} (condition : Prop) [Decidable condition] (error : ε) : Code ε Unit :=
  if condition then pure () else throw error

/-! ## The archive -/

structure OutputArchive where
  maxOutputBytes : Nat
  positive : 0 < maxOutputBytes

namespace OutputArchive

/-- `OutputArchive::new` on a root that is there. -/
def new (maxOutputBytes : Nat) : Except ContextError OutputArchive :=
  if positive : 0 < maxOutputBytes then .ok ⟨maxOutputBytes, positive⟩
  else .error (readError "archive output limit must be positive")

def checkDirectory (directory : String) : Code ContextError Unit := do
  let fileType : FileType ← perform (.directoryMetadata directory)
  ensure (fileType = .directory)
    (readError "archive thread directory must not be a symlink")

section

variable (archive : OutputArchive) (thread : ThreadId) (call : String)

def openSnapshot : Code ContextError Inode := do
  let path ← ofExcept (paths thread call)
  checkDirectory path.directory
  let metadata : Metadata ← perform (.metadata path)
  ensure (metadata.fileType = .file ∧ metadata.length ≤ archive.maxOutputBytes)
    (readError "archive snapshot is not a bounded regular file")
  perform (.openFile path)

def makeDirectory (directory : String) : Code ContextError Unit := do
  match ← attempt (.createDirectory directory) with
  | .ok _ => perform .syncRoot
  | .error .alreadyExists => pure ()
  | .error error => throw (readError error.toString)

/-- The snapshot is there already: it must hold the same bytes. -/
def confirm (bytes : Bytes) : Code ContextError Unit := do
  let file ← archive.openSnapshot thread call
  let retained : Bytes ← perform (.readAt file 0 (archive.maxOutputBytes + 1))
  ensure (retained = bytes) (readError "archive snapshot conflict; refusing overwrite")
  let file ← archive.openSnapshot thread call
  perform (.syncFile file)

def writePending (file : Inode) (pending path : ArchivePath) (bytes : Bytes) :
    Code ContextError Unit := do
  perform (.writeAll file bytes)
  perform (.syncFile file)
  perform (.hardLink pending path)

/-- Publish a complete synced inode without replacing an existing snapshot. -/
def publish (path : ArchivePath) (bytes : Bytes) : Code ContextError Unit := do
  let id : String ← request Op.newEventId
  let pending : ArchivePath := ⟨path.directory, pendingName id⟩
  let file : Inode ← perform (.createNew pending)
  let result ← outcome (writePending file pending path bytes)
  let cleanup ← attempt (.removeFile pending)
  ofExcept result
  io cleanup

def confirmOrPublish (path : ArchivePath) (bytes : Bytes) : Code ContextError Unit := do
  match ← attempt (.metadata path) with
  | .ok _ => archive.confirm thread call bytes
  | .error _ => publish path bytes

/-- What `retain` does while it holds the lock of the writer. -/
def retainLocked (bytes : Bytes) : Code ContextError Unit := do
  let path ← ofExcept (paths thread call)
  makeDirectory path.directory
  checkDirectory path.directory
  archive.confirmOrPublish thread call path bytes
  perform (.syncDirectory path.directory)

def retain (bytes : Bytes) : Code ContextError Unit := do
  ensure (bytes.length ≤ archive.maxOutputBytes) (readError "tool output exceeds archive limit")
  perform .lock
  let result ← outcome (archive.retainLocked thread call bytes)
  let _ ← request Op.unlock
  ofExcept result

end

/-! ## Pages -/

/-- The bytes of the characters that are complete.  Only in front of further bytes may the last
character be cut. -/
def validBytes (offset total : Nat) (bytes : Bytes) : Except ContextError Nat :=
  match fromUtf8 bytes with
  | .ok text => .ok (encode text).length
  | .error error =>
    if error.errorLen = none ∧ offset + bytes.length < total then .ok error.validUpTo
    else .error (readError error.toString)

/-- The page that starts at the offset with the text. -/
def pageValue (call text : String) (next total : Nat) : Value :=
  .object [
    ("call_id", .string call),
    ("eof", .bool (next = total)),
    ("next_offset", .number (.posInt next)),
    ("text", .string text),
    ("total_bytes", .number (.posInt total))]

def page (call : String) (offset total : Nat) (bytes : Bytes) : Except ContextError Value := do
  let valid ← validBytes offset total bytes
  match fromUtf8 (bytes.take valid) with
  | .ok text => .ok (pageValue call text (offset + valid) total)
  | .error error => .error (readError error.toString)

def readPage (archive : OutputArchive) (thread : ThreadId) (call : String) (offset limit : Nat) :
    Code ContextError Value := do
  ensure (4 ≤ limit ∧ limit ≤ 4096) (readError "page limit must be 4..=4096 bytes")
  let file ← archive.openSnapshot thread call
  let total : Nat ← perform (.length file)
  ensure (offset ≤ total) (readError "page offset exceeds snapshot length")
  let bytes : Bytes ← perform (.readAt file offset limit)
  ofExcept (page call offset total bytes)

end OutputArchive

/-! ## The tool -/

namespace ReadOutputTool

def definition : ToolDefinition where
  name := "read_output"
  description := "Read a UTF-8 page of archived JSON tool output in this thread"
  inputSchema := .object [
    ("additionalProperties", .bool false),
    ("properties", .object [
      ("call_id", .object [("type", .string "string")]),
      ("limit", .object [("maximum", .number (.posInt 4096)), ("minimum", .number (.posInt 4)),
        ("type", .string "integer")]),
      ("offset", .object [("minimum", .number (.posInt 0)), ("type", .string "integer")])]),
    ("required", .array [.string "call_id"]),
    ("type", .string "object")]

/-- `args.get(key).map_or(Some(default), Value::as_u64)`. -/
def natOr (arguments : Value) (key : String) (default : Nat) : Option Nat :=
  match arguments.get key with
  | none => some default
  | some value => value.asNat

/-- `ok_or_else`. -/
def require {α : Type} (found : Option α) (error : ToolError) : Except ToolError α :=
  match found with
  | some value => .ok value
  | none => .error error

def members : Value → Option (List (String × Value))
  | .object members => some members
  | _ => none

def knownArguments (members : List (String × Value)) : Except ToolError Unit :=
  if members.all fun member => member.1 ∈ ["call_id", "offset", "limit"] then .ok ()
  else .error (.invalidArguments "unknown page argument")

def checkId (id : String) : Except ToolError Unit :=
  match component id with
  | .ok _ => .ok ()
  | .error error => .error (.invalidArguments error.toString)

def preparedArguments (id : String) (offset limit : Nat) : Value :=
  .object [("call_id", .string id), ("limit", .number (.posInt limit)),
    ("offset", .number (.posInt offset))]

def prepare (call : ToolCall) (context : ToolExecutionContext) :
    Except ToolError PreparedToolCall := do
  let arguments ← require (members call.arguments) (.invalidArguments "expected object")
  knownArguments arguments
  let id ← require ((call.arguments.get "call_id").bind Value.asString)
    (.invalidArguments "call_id is required")
  checkId id
  let offset ← require (natOr call.arguments "offset" 0)
    (.invalidArguments "offset must be an unsigned integer")
  let limit ← require ((natOr call.arguments "limit" 2048).filter fun n => 4 ≤ n ∧ n ≤ 4096)
    (.invalidArguments "limit must be 4..=4096")
  return {
    callId := call.id
    action := {
      toolName := "read_output"
      arguments := preparedArguments id offset limit
      effect := .readOnly
      retrySafety := .safe
      scope := some context.threadId.value } }

/-- `map_err(|error| ToolError::Execution(error.to_string()))`. -/
def executionError : Except ContextError Value → Except ToolError ToolOutput
  | .ok value => .ok ⟨value⟩
  | .error error => .error (.execution error.toString)

def execute (archive : OutputArchive) (prepared : PreparedToolCall)
    (context : ToolExecutionContext) : Code ToolError ToolOutput := do
  let cancelled : Bool ← request (Op.isCancelled context.cancellation)
  ensure (cancelled = false) .cancelled
  ensure (prepared.action.scope = some context.threadId.value ∧
    prepared.action.toolName = "read_output") (.execution "prepared output scope mismatch")
  let arguments := prepared.action.arguments
  let id ← ofExcept (require ((arguments.get "call_id").bind Value.asString)
    (.execution "missing prepared call_id"))
  let offset ← ofExcept (require ((arguments.get "offset").bind Value.asNat)
    (.execution "missing prepared offset"))
  let limit ← ofExcept (require ((arguments.get "limit").bind Value.asNat)
    (.execution "missing prepared limit"))
  let page ← outcome (archive.readPage context.threadId id offset limit)
  ofExcept (executionError page)

end ReadOutputTool

/-! ## Calls -/

/-- A call of one of the methods, each of an archive of the root with its own limit. -/
inductive Call where
  | retain (archive : OutputArchive) (thread : ThreadId) (call : String) (bytes : Bytes)
  | readPage (archive : OutputArchive) (thread : ThreadId) (call : String) (offset limit : Nat)
  | execute (archive : OutputArchive) (prepared : PreparedToolCall)
      (context : ToolExecutionContext)

inductive Reply where
  | retained (result : Except ContextError Unit)
  | page (result : Except ContextError Value)
  | output (result : Except ToolError ToolOutput)

def Call.code : Call → Program Op Op.Answer Reply
  | .retain archive thread call bytes =>
    Reply.retained <$> (archive.retain thread call bytes).run
  | .readPage archive thread call offset limit =>
    Reply.page <$> (archive.readPage thread call offset limit).run
  | .execute archive prepared context =>
    Reply.output <$> (ReadOutputTool.execute archive prepared context).run

end Nausicaa.ContextFs
