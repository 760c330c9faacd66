import Nausicaa.Executor.EditRules
import Nausicaa.Posix.Files

/-! # Tools that read

A page is of the text that stands in the file (`ReadFilePageTool.tries_execute`), and no file changes
while one is read or searched (`SearchFilesTool.keeps_execute`). -/

namespace Nausicaa.Executor

open Core (CancellationToken PreparedToolCall ToolError ToolExecutionContext ToolOutput)
open Interaction (Contract request)
open Json (Value)
open Posix (IoError Path Place Tree)
open Text (encode)

variable {tree : Tree} {host : EditHost} {workspace file : Place} {path : Path}

/-! ## Operations that leave the tree -/

def EditOp.Leaves : EditOp → Prop
  | .writeAll _ _ | .setLen _ _ => False
  | _ => True

theorem EditHost.Answers.left {op : EditOp} {answer : op.Answer} {host' : EditHost}
    (answers : host.Answers op answer host') (leaves : op.Leaves) : host'.tree = host.tree := by
  cases op with
  | isCancelled token => rw [answers]
  | canonicalize path => rw [answers.1]
  | isFile path => rw [answers.1]
  | isRegular file => rw [answers.1]
  | openFile path =>
    cases answer with
    | ok file => rw [answers.2]; rfl
    | error error => rw [answers]
  | openEditable path =>
    cases answer with
    | ok file => rw [answers.2]; rfl
    | error error => rw [answers]
  | readToEnd file limit =>
    cases answer with
    | ok bytes => rw [answers.2]; rfl
    | error error =>
      obtain ⟨count, rfl⟩ := answers
      rfl
  | seekStart file =>
    cases answer with
    | ok _ => rw [answers]
    | error error => rw [answers]
  | syncData file => rw [answers]
  | writeAll file bytes => cases leaves
  | setLen file length => cases leaves

/-- The tree is the one that the call began with. -/
def Same (tree : Tree) (host : EditHost) : Prop := host.tree = tree

theorem keeps_left (op : EditOp) (leaves : op.Leaves) :
    editing.Keeps (Same tree) (request op : EditCode ToolError op.Answer) := by
  apply Contract.Keeps.request
  · intro host _
    trivial
  · intro host answer host' same answers
    exact (EditHost.Answers.left answers leaves).trans same

theorem keeps_execution {α : Type} (result : Except IoError α) :
    editing.Keeps (Same tree) (execution result) := by
  cases result with
  | ok value => exact Contract.Keeps.pure value
  | error error => exact Contract.Keeps.throw _

theorem keeps_checkCancelled (token : CancellationToken) :
    editing.Keeps (Same tree) (checkCancelled token) := by
  apply Contract.Keeps.bind (keeps_left (.isCancelled token) trivial)
  intro cancelled
  exact keeps_ensure _ _

theorem keeps_resolveExistingFile (workspace : Place) (path : Path) :
    editing.Keeps (Same tree) (resolveExistingFile workspace path) := by
  apply Contract.Keeps.bind (keeps_ofExcept _)
  intro _
  apply Contract.Keeps.bind (keeps_left (.canonicalize _) trivial)
  intro canonical
  cases canonical with
  | error error => exact Contract.Keeps.throw _
  | ok canonical =>
    apply Contract.Keeps.bind (keeps_ensure _ _)
    intro _
    apply Contract.Keeps.bind (keeps_left (.isFile _) trivial)
    intro present
    apply Contract.Keeps.bind (keeps_ensure _ _)
    intro _
    exact Contract.Keeps.pure canonical

theorem keeps_checkedPath (workspace : Place) (path : Path) :
    editing.Keeps (Same tree) (checkedPath workspace path) := by
  rw [checkedPath]
  split
  · exact Contract.Keeps.throw _
  · apply Contract.Keeps.bind (keeps_resolveExistingFile workspace _)
    intro current
    apply Contract.Keeps.bind (keeps_ensure _ _)
    intro _
    exact Contract.Keeps.pure current

theorem keeps_readText (file : Place) : editing.Keeps (Same tree) (readText file) := by
  apply Contract.Keeps.bind (keeps_left (.isRegular file) trivial)
  intro regular
  apply Contract.Keeps.bind (keeps_execution _)
  intro regular
  apply Contract.Keeps.bind (keeps_ensure _ _)
  intro _
  apply Contract.Keeps.bind (keeps_left (.readToEnd file _) trivial)
  intro read
  apply Contract.Keeps.bind (keeps_execution _)
  intro bytes
  exact keeps_ofExcept _

/-- What goes on with the text of a file that was checked and opened. -/
theorem keeps_readChecked {α : Type} {next : Place → String → EditCode ToolError α}
    (continues : ∀ file text, editing.Keeps (Same tree) (next file text)) :
    editing.Keeps (Same tree) (do
      let file ← checkedPath workspace path
      let opened : Place ← execution (← request (EditOp.openFile (.ofPlace file)))
      let text ← readText opened
      next file text) := by
  apply Contract.Keeps.bind (keeps_checkedPath workspace path)
  intro file
  apply Contract.Keeps.bind (keeps_left (.openFile _) trivial)
  intro result
  apply Contract.Keeps.bind (keeps_execution _)
  intro opened
  apply Contract.Keeps.bind (keeps_readText opened)
  intro text
  exact continues file text

/-! ## The tools -/

theorem SearchFilesTool.keeps_scanFiles (tool : SearchFilesTool) (query : String)
    (token : CancellationToken) (paths : List Path) (found : List Match) :
    editing.Keeps (Same tree) (tool.scanFiles query token paths found) := by
  induction paths generalizing found with
  | nil => exact Contract.Keeps.pure _
  | cons path paths ih =>
    apply Contract.Keeps.bind (keeps_checkCancelled token)
    intro _
    apply keeps_readChecked
    intro file text
    apply Contract.Keeps.bind (keeps_ofExcept _)
    intro scan
    cases scan with
    | full found => exact Contract.Keeps.pure _
    | more found => exact ih found

/-- A search changes nothing, whatever its arguments are. -/
theorem SearchFilesTool.keeps_execute (tool : SearchFilesTool) (refusal : Value → String)
    (prepared : PreparedToolCall) (context : ToolExecutionContext) :
    editing.Keeps (Same tree) (tool.execute refusal prepared context) := by
  apply Contract.Keeps.bind (keeps_ofExcept _)
  intro paths
  apply Contract.Keeps.bind (keeps_ofExcept _)
  intro query
  apply Contract.Keeps.bind (tool.keeps_scanFiles query _ paths [])
  intro found
  exact Contract.Keeps.pure _

/-- A page is of the text that stands in the file, and nothing changes. -/
theorem ReadFilePageTool.tries_execute (tool : ReadFilePageTool) (tree : Tree)
    (prepared : PreparedToolCall) (context : ToolExecutionContext) :
    editing.Tries (tool.execute prepared context)
      (fun answer host => Same tree host ∧ ∃ path file text offset limit,
        pathArgument prepared.action.arguments "path" = .ok path ∧
        path.components = (Path.ofPlace file).components ∧
        number prepared.action.arguments "offset" 0 maxFileBytes = .ok offset ∧
        number prepared.action.arguments "limit" 4096 maxPageBytes = .ok limit ∧
        tree.files file = some (encode text) ∧ page file text offset limit = .ok answer)
      (fun _ => Same tree) (.start tree) := by
  have same : Same tree (.start tree) := rfl
  apply Contract.Tries.bind
  apply tries_checkCancelled
  case fails => exact same
  apply Contract.Tries.bind
  apply tries_ofExcept
  case fails => exact fun _ _ => same
  intro path named
  apply tries_readWhole
  case fails => exact fun _ => same
  case failsOpened => exact fun _ _ _ => rfl
  case failsRead => exact fun _ _ _ _ => rfl
  intro file text count approved regular
  apply Contract.Tries.bind
  apply tries_ofExcept
  case fails => exact fun _ _ => rfl
  intro offset begins
  apply Contract.Tries.bind
  apply tries_ofExcept
  case fails => exact fun _ _ => rfl
  intro limit bounded
  apply tries_ofExcept
  case fails => exact fun _ _ => rfl
  intro answer paged
  exact ⟨rfl, path, file, text, offset, limit, named, approved.same.symm, begins, bounded,
    Tree.files_eq.mpr regular, paged⟩

end Nausicaa.Executor
