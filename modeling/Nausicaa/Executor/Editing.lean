import Nausicaa.Executor.WriteFile
import Nausicaa.Jsonl.Lines
import Nausicaa.Posix.Canonical
import Nausicaa.Text.Slices

/-! # The editing tools

`executor-process/src/editing.rs`: `ReadFilePageTool`, `SearchFilesTool` and `ApplyPatchTool`, as
`Program`s over the operations of the file system.  An open file is known by its place; the tools
have one open at a time. -/

namespace Nausicaa.Executor

open Core (CancellationToken PreparedToolCall ToolCall ToolDefinition ToolError
  ToolExecutionContext ToolOutput)
open Interaction (Fallible mapError request)
open Json (Value)
open Posix (IoError Path Place)
open Text (encode find floorBoundary isCharBoundary replaceRange slice)

def maxFileBytes : Nat := 1048576

def maxPageBytes : Nat := 16384

def maxPaths : Nat := 32

def maxMatches : Nat := 100

/-! ## Operations -/

inductive EditOp where
  | isCancelled (token : CancellationToken)
  | canonicalize (path : Path)
  | isFile (path : Path)
  /-- `File::open`. -/
  | openFile (path : Path)
  /-- Open for reading and writing. -/
  | openEditable (path : Path)
  /-- `metadata()?.is_file()`. -/
  | isRegular (file : Place)
  /-- What is left in the file, at most `limit` bytes. -/
  | readToEnd (file : Place) (limit : Nat)
  | seekStart (file : Place)
  | writeAll (file : Place) (bytes : List UInt8)
  | setLen (file : Place) (length : Nat)
  | syncData (file : Place)

abbrev EditOp.Answer : EditOp → Type
  | .isCancelled _ | .isFile _ => Bool
  | .canonicalize _ | .openFile _ | .openEditable _ => Except IoError Place
  | .isRegular _ => Except IoError Bool
  | .readToEnd _ _ => Except IoError (List UInt8)
  | .seekStart _ | .writeAll _ _ | .setLen _ _ | .syncData _ => Except IoError Unit

abbrev EditCode (ε : Type) := Fallible EditOp EditOp.Answer ε

def invalid (message : String) : ToolError := .invalidArguments message

/-- `map_err(execution)?`. -/
def execution {α : Type} : Except IoError α → EditCode ToolError α
  | .ok value => pure value
  | .error error => throw (.execution error.toString)

def checkCancelled (token : CancellationToken) : EditCode ToolError Unit := do
  let cancelled : Bool ← request (EditOp.isCancelled token)
  ensure (cancelled = false) .cancelled

/-- `String::from_utf8` of what was read, within the limit. -/
def textOf (bytes : List UInt8) : Except ToolError String :=
  if bytes.length ≤ maxFileBytes then
    match Text.decode bytes with
    | some text => .ok text
    | none => .error (invalid "file is not valid UTF-8")
  else .error (invalid "file exceeds 1 MiB limit")

def readText (file : Place) : EditCode ToolError String := do
  let regular : Bool ← execution (← request (EditOp.isRegular file))
  ensure (regular = true) (invalid "target must be a regular file")
  let bytes : List UInt8 ← execution (← request (EditOp.readToEnd file (maxFileBytes + 1)))
  ofExcept (textOf bytes)

def resolveExistingFile (workspace : Place) (requested : Path) : EditCode ToolError Place := do
  ofExcept (validateRelative requested)
  match ← request (EditOp.canonicalize ((Path.ofPlace workspace).join requested)) with
  | .error error => throw (.invalidArguments error.toString)
  | .ok canonical =>
    let outside := invalid "path is not a file inside the workspace"
    ensure ((Path.ofPlace canonical).StartsWith (.ofPlace workspace)) outside
    let file : Bool ← request (EditOp.isFile (.ofPlace canonical))
    ensure (file = true) outside
    return canonical

/-- Paths are compared by their components. -/
def checkedPath (workspace : Place) (path : Path) : EditCode ToolError Place :=
  match path.stripPrefix workspace with
  | none => throw (invalid "path outside workspace")
  | some relative => do
    let current ← resolveExistingFile workspace relative
    ensure ((Path.ofPlace current).components = path.components)
      (invalid "prepared path changed; prepare a new call")
    return current

def number (arguments : Value) (key : String) (default maximum : Nat) : Except ToolError Nat :=
  match arguments.get key with
  | none => .ok default
  | some value =>
    match value.asNat.filter fun n => n ≤ maximum with
    | some n => .ok n
    | none => .error (invalid s!"invalid `{key}`")

def preparedCall (call : ToolCall) (name : String) (arguments : Value) (workspace : Place)
    (write : Bool) : PreparedToolCall where
  callId := call.id
  action := {
    toolName := name
    arguments
    effect := if write then .workspaceWrite else .readOnly
    retrySafety := if write then .unsafeRetry else .safe
    scope := some (Path.ofPlace workspace).text }

def pathValue (place : Place) : Value := .string (Path.ofPlace place).text

/-! ## Pages -/

structure ReadFilePageTool where
  workspace : Place

namespace ReadFilePageTool

variable (tool : ReadFilePageTool)

def definition : ToolDefinition where
  name := "read_file_page"
  description :=
    "Read a UTF-8 byte page (files at most 1 MiB); follow next_offset. Pages are live reads."
  inputSchema := .object [
    ("additionalProperties", .bool false),
    ("properties", .object [
      ("limit", .object [("maximum", .number (.posInt maxPageBytes)),
        ("minimum", .number (.posInt 4)), ("type", .string "integer")]),
      ("offset", .object [("minimum", .number (.posInt 0)), ("type", .string "integer")]),
      ("path", .object [("type", .string "string")])]),
    ("required", .array [.string "path"]),
    ("type", .string "object")]

def preparedArguments (path : Place) (offset limit : Nat) : Value :=
  .object [("limit", .number (.posInt limit)), ("offset", .number (.posInt offset)),
    ("path", pathValue path)]

def prepare (call : ToolCall) : EditCode ToolError PreparedToolCall := do
  let requested ← ofExcept (stringArgument call.arguments "path")
  let path ← resolveExistingFile tool.workspace (Path.parse requested)
  let offset ← ofExcept (number call.arguments "offset" 0 maxFileBytes)
  let limit ← ofExcept (number call.arguments "limit" 4096 maxPageBytes)
  ensure (4 ≤ limit) (invalid "limit must be at least 4 bytes")
  return preparedCall call "read_file_page" (preparedArguments path offset limit) tool.workspace false

def pageValue (path : Place) (content : String) (offset stop total : Nat) : Value :=
  .object [
    ("content", .string content),
    ("next_offset", if stop < total then .number (.posInt stop) else .null),
    ("offset", .number (.posInt offset)),
    ("path", pathValue path),
    ("total_bytes", .number (.posInt total))]

def page (path : Place) (content : String) (offset limit : Nat) : Except ToolError ToolOutput :=
  let total := (encode content).length
  if limit < 4 ∨ total < offset ∨ isCharBoundary content offset = false then
    .error (invalid "invalid page bounds or UTF-8 offset")
  else
    let stop := floorBoundary content (min (offset + limit) total)
    .ok ⟨pageValue path (slice content offset stop) offset stop total⟩

def execute (prepared : PreparedToolCall) (context : ToolExecutionContext) :
    EditCode ToolError ToolOutput := do
  checkCancelled context.cancellation
  let arguments := prepared.action.arguments
  let path ← checkedPath tool.workspace (← ofExcept (pathArgument arguments "path"))
  let file : Place ← execution (← request (EditOp.openFile (.ofPlace path)))
  let content ← readText file
  let offset ← ofExcept (number arguments "offset" 0 maxFileBytes)
  let limit ← ofExcept (number arguments "limit" 4096 maxPageBytes)
  ofExcept (page path content offset limit)

end ReadFilePageTool

/-! ## Search -/

structure SearchFilesTool where
  workspace : Place

structure Match where
  path : Path
  line : Nat
  offset : Nat
  excerpt : String
  deriving DecidableEq

namespace Match

def value (hit : Match) : Value :=
  .object [
    ("excerpt", .string hit.excerpt),
    ("line", .number (.posInt hit.line)),
    ("offset", .number (.posInt hit.offset)),
    ("path", .string hit.path.text)]

end Match

namespace SearchFilesTool

variable (tool : SearchFilesTool)

def definition : ToolDefinition where
  name := "search_files"
  description := "Search a literal within up to 32 UTF-8 files (1 MiB each). Returns up to 100 " ++
    "matching lines and bounded excerpts."
  inputSchema := .object [
    ("additionalProperties", .bool false),
    ("properties", .object [
      ("paths", .object [("items", .object [("type", .string "string")]),
        ("maxItems", .number (.posInt maxPaths)), ("minItems", .number (.posInt 1)),
        ("type", .string "array")]),
      ("query", .object [("maxLength", .number (.posInt 1024)), ("minLength", .number (.posInt 1)),
        ("type", .string "string")])]),
    ("required", .array [.string "paths", .string "query"]),
    ("type", .string "object")]

def preparedArguments (paths : List Place) (query : String) : Value :=
  .object [("paths", .array (paths.map pathValue)), ("query", .string query)]

def resolvePaths : List Value → EditCode ToolError (List Place)
  | [] => return []
  | value :: values => do
    match value.asString with
    | none => throw (invalid "path must be a string")
    | some requested =>
      let path ← resolveExistingFile tool.workspace (Path.parse requested)
      let paths ← resolvePaths values
      return path :: paths

def prepare (call : ToolCall) : EditCode ToolError PreparedToolCall := do
  let query ← ofExcept (stringArgument call.arguments "query")
  ensure (¬ (query = "" ∨ 1024 < (encode query).length ∨ '\n' ∈ query.toList ∨ '\r' ∈ query.toList))
    (invalid "query must be a single nonempty line of at most 1024 bytes")
  match (call.arguments.get "paths").bind Value.asArray with
  | none => throw (invalid "paths must be an array")
  | some values =>
    ensure (¬ (values = [] ∨ maxPaths < values.length)) (invalid "provide 1 to 32 paths")
    let paths ← tool.resolvePaths values
    return preparedCall call "search_files" (preparedArguments paths query) tool.workspace false

/-- `split_inclusive('\n')`. -/
def splitInclusive (content : String) : List String :=
  (Jsonl.lines '\n' content.toList).map String.ofList

/-- How the lines of a file end: the search goes on, or it has found too much. -/
inductive Scan where
  | more (found : List Match)
  | full (found : List Match)

/-- The lines from an index and an offset on, with the matches so far. -/
def scanLines (relative : Option Path) (query : String) :
    (index offset : Nat) → List String → List Match → Except ToolError Scan
  | _, _, [], found => .ok (.more found)
  | index, offset, line :: lines, found =>
    match find line query with
    | none => scanLines relative query (index + 1) (offset + (encode line).length) lines found
    | some column =>
      if found.length = maxMatches then .ok (.full found)
      else
        match relative with
        | none => .error (invalid "path outside workspace")
        | some path =>
          let excerpt := String.ofList ((slice line column (encode line).length).toList.take 200)
          scanLines relative query (index + 1) (offset + (encode line).length) lines
            (found ++ [⟨path, index + 1, offset + column, excerpt⟩])

/-- The matches in the files, and whether there were too many. -/
def scanFiles (query : String) (token : CancellationToken) :
    List Path → List Match → EditCode ToolError (List Match × Bool)
  | [], found => return (found, false)
  | path :: paths, found => do
    checkCancelled token
    let path ← checkedPath tool.workspace path
    let file : Place ← execution (← request (EditOp.openFile (.ofPlace path)))
    let content ← readText file
    let relative := (Path.ofPlace path).stripPrefix tool.workspace
    match ← ofExcept (scanLines relative query 0 0 (splitInclusive content) found) with
    | .full found => return (found, true)
    | .more found => scanFiles query token paths found

/-- `serde_json::from_value` to paths; `refusal` is the text of its errors. -/
def pathsArgument (refusal : Value → String) (arguments : Value) : Except ToolError (List Path) :=
  let value := (arguments.get "paths").getD .null
  match value.asList fun item => item.asString.map Path.parse with
  | some paths => .ok paths
  | none => .error (invalid (refusal value))

def outputValue (found : List Match) (truncated : Bool) : Value :=
  .object [("matches", .array (found.map Match.value)), ("truncated", .bool truncated)]

def execute (refusal : Value → String) (prepared : PreparedToolCall)
    (context : ToolExecutionContext) : EditCode ToolError ToolOutput := do
  let arguments := prepared.action.arguments
  let paths ← ofExcept (pathsArgument refusal arguments)
  let query ← ofExcept (stringArgument arguments "query")
  let (found, truncated) ← tool.scanFiles query context.cancellation paths []
  return ⟨outputValue found truncated⟩

end SearchFilesTool

/-! ## Patches -/

structure ApplyPatchTool where
  workspace : Place

namespace ApplyPatchTool

variable (tool : ApplyPatchTool)

def definition : ToolDefinition where
  name := "apply_patch"
  description := "Replace one unique exact old_text with new_text in an existing UTF-8 file. " ++
    "Stale or ambiguous text fails; approval binds full before/after content."
  inputSchema := .object [
    ("additionalProperties", .bool false),
    ("properties", .object [
      ("new_text", .object [("type", .string "string")]),
      ("old_text", .object [("minLength", .number (.posInt 1)), ("type", .string "string")]),
      ("path", .object [("type", .string "string")])]),
    ("required", .array [.string "path", .string "old_text", .string "new_text"]),
    ("type", .string "object")]

def preparedArguments (path : Place) (before after old new : String) : Value :=
  .object [("after", .string after), ("before", .string before), ("new_text", .string new),
    ("old_text", .string old), ("path", pathValue path)]

/-- The width of the first character; a match is not empty. -/
def firstWidth (text : String) : Nat :=
  match text.toList with
  | [] => 0
  | char :: _ => char.utf8Size

/-- The text with the one occurrence of `old` replaced. -/
def patched (before old new : String) : Except ToolError String :=
  match find before old with
  | none => .error (invalid "patch conflict: old_text not found")
  | some start =>
    let total := (encode before).length
    let next := start + firstWidth (slice before start total)
    -- Matches that overlap the first one count too.
    if (find (slice before next total) old).isSome then
      .error (invalid "patch conflict: old_text is ambiguous")
    else
      let after := replaceRange before start (start + (encode old).length) new
      if maxFileBytes < (encode after).length then .error (invalid "patched file exceeds 1 MiB")
      else .ok after

def prepare (call : ToolCall) : EditCode ToolError PreparedToolCall := do
  let requested ← ofExcept (stringArgument call.arguments "path")
  let path ← resolveExistingFile tool.workspace (Path.parse requested)
  let old ← ofExcept (stringArgument call.arguments "old_text")
  let new ← ofExcept (stringArgument call.arguments "new_text")
  ensure (¬ (old = "" ∨ maxFileBytes < (encode old).length ∨ maxFileBytes < (encode new).length))
    (invalid "invalid patch size or empty old_text")
  let file : Place ← execution (← request (EditOp.openFile (.ofPlace path)))
  let before ← readText file
  let after ← ofExcept (patched before old new)
  return preparedCall call "apply_patch" (preparedArguments path before after old new)
    tool.workspace true

/-- Write over the file from its start, cut off the rest and sync. -/
def overwrite (file : Place) (bytes : List UInt8) : EditCode IoError Unit := do
  ofExcept (← request (EditOp.writeAll file bytes))
  ofExcept (← request (EditOp.setLen file bytes.length))
  ofExcept (← request (EditOp.syncData file))

def execute (prepared : PreparedToolCall) (context : ToolExecutionContext) :
    EditCode ToolError ToolOutput := do
  checkCancelled context.cancellation
  let arguments := prepared.action.arguments
  let path ← checkedPath tool.workspace (← ofExcept (pathArgument arguments "path"))
  let before ← ofExcept (stringArgument arguments "before")
  let after ← ofExcept (stringArgument arguments "after")
  let file : Place ← execution (← request (EditOp.openEditable (.ofPlace path)))
  let content ← readText file
  ensure (content = before) (invalid "patch conflict: file changed after preparation")
  execution (← request (EditOp.seekStart file))
  checkCancelled context.cancellation
  mapError (fun error => .outcomeUnknown error.toString) (overwrite file (encode after))
  return ⟨.object [("bytes_written", .number (.posInt (encode after).length)),
    ("path", pathValue path)]⟩

end ApplyPatchTool

end Nausicaa.Executor
