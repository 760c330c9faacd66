import Nausicaa.Executor.WriteInside
import Nausicaa.Posix.Files

/-! # Rules for the tool that writes files

What a call can come to on a file system with faults, wherever the target is and whoever prepared it:
no file changes before the target is opened (`WriteFileTool.keeps_verifyWriteTarget`,
`keeps_createDirAll`), and then only that file does (`WriteFileTool.execute_tries`). -/

namespace Nausicaa.Executor

open Core (PreparedToolCall ToolError ToolExecutionContext ToolOutput)
open Interaction (Contract request)
open Posix (IoError Path Place Tree)
open Text (encode)

variable {tree : Tree} {host : Host} {ups paths : List Path} {path : Path} {file : Place}

/-! ## Before the file is opened -/

/-- No file has changed, and directories may have been made. -/
structure Unwritten (tree : Tree) (host : Host) : Prop where
  files : host.tree.files = tree.files
  grows : tree.Grows host.tree

theorem Unwritten.refl (tree : Tree) (touched : List Place) : Unwritten tree ⟨tree, touched⟩ where
  files := rfl
  grows := .refl tree

/-- An operation that asks, and does nothing. -/
def FileOp.Asks : FileOp → Prop
  | .isCancelled _ | .pathExists _ | .isDirectory _ | .canonicalize _ | .syncData _ => True
  | .createDirectory _ | .openFile _ | .writeAll _ _ => False

theorem Host.Answers.asked {op : FileOp} {answer : op.Answer} {host' : Host}
    (answers : host.Answers op answer host') (asks : op.Asks) : host' = host := by
  cases op with
  | isCancelled token => exact answers
  | pathExists path => exact answers.1
  | isDirectory path => exact answers.1
  | canonicalize path => exact answers.1
  | syncData file => exact answers
  | createDirectory path => cases asks
  | openFile path => cases asks
  | writeAll file bytes => cases asks

section Keeps

variable {ε : Type} {invariant : Host → Prop}

theorem keeps_asked (op : FileOp) (asks : op.Asks) :
    faulty.Keeps invariant (request op : FileCode ε op.Answer) := by
  apply Contract.Keeps.request
  · intro host _
    trivial
  · intro host answer host' holds answers
    rw [Host.Answers.asked answers asks]
    exact holds

theorem keeps_canonicalInside (workspace : Place) (path : Path) (outside : String) :
    faulty.Keeps invariant (canonicalInside workspace path outside) := by
  apply Contract.Keeps.bind (keeps_asked (.canonicalize path) trivial)
  intro result
  cases result with
  | ok canonical => exact keeps_ensure _ _
  | error error => exact Contract.Keeps.throw _

theorem keeps_verifyAncestor (workspace : Place) (paths : List Path) :
    faulty.Keeps invariant (verifyAncestor workspace paths) := by
  induction paths with
  | nil => exact Contract.Keeps.pure ()
  | cons path paths ih =>
    apply Contract.Keeps.bind (keeps_asked (.pathExists path) trivial)
    intro present
    split
    · exact keeps_canonicalInside _ _ _
    · exact ih

theorem keeps_verifyWriteTarget (workspace : Place) (target : Path) :
    faulty.Keeps invariant (verifyWriteTarget workspace target) := by
  apply Contract.Keeps.bind (keeps_ensure _ _)
  intro _
  apply Contract.Keeps.bind (keeps_verifyAncestor workspace _)
  intro _
  apply Contract.Keeps.bind (keeps_asked (.pathExists target) trivial)
  intro present
  split
  · exact keeps_canonicalInside _ _ _
  · exact Contract.Keeps.pure ()

theorem keeps_settle (path : Path) (error : IoError) :
    faulty.Keeps invariant (createDirAll.settle path error) := by
  apply Contract.Keeps.bind (keeps_asked (.isDirectory path) trivial)
  intro directory
  exact keeps_ensure _ _

end Keeps

theorem keeps_createDirectory (path : Path) : faulty.Keeps (Unwritten tree)
    (request (FileOp.createDirectory path) : FileCode IoError (Except IoError Unit)) := by
  apply Contract.Keeps.request
  · intro host _
    trivial
  · intro host answer host' unwritten answers
    cases answer with
    | error error =>
      cases answers
      exact unwritten
    | ok _ =>
      obtain ⟨entry, vacant, rfl⟩ := answers
      constructor
      · exact (Tree.vacancy_files vacant).trans unwritten.files
      · exact unwritten.grows.trans (Tree.vacancy_ok vacant).2.1.grows

/-- Making directories changes no file. -/
theorem keeps_createDirAll (path : Path) (ups : List Path) :
    faulty.Keeps (Unwritten tree) (createDirAll path ups) := by
  induction ups generalizing path with
  | nil =>
    apply Contract.Keeps.bind (keeps_createDirectory path)
    intro made
    split
    · exact Contract.Keeps.pure ()
    · exact Contract.Keeps.throw _
    · exact keeps_settle path _
  | cons up ups ih =>
    apply Contract.Keeps.bind (keeps_createDirectory path)
    intro made
    split
    · exact Contract.Keeps.pure ()
    · apply Contract.Keeps.bind (ih up)
      intro _
      apply Contract.Keeps.bind (keeps_createDirectory path)
      intro again
      split
      · exact Contract.Keeps.pure ()
      · exact keeps_settle path _
    · exact keeps_settle path _

/-! ## The file -/

/-- The path led to the file, which has these bytes from then on. -/
structure Written (tree : Tree) (path : Path) (file : Place) (bytes : List UInt8) (tree' : Tree) :
    Prop where
  files : tree'.files = Function.update tree.files file (some bytes)
  grows : tree.Grows tree'
  leads : tree'.resolve path = .ok (.found file)

/-- A file that was opened is empty until it is written. -/
theorem written_bytes (opened : host.tree.writable path = .ok file) (bytes : List UInt8) :
    Written host.tree path file bytes ((host.withNew file (.file [])).withBytes file bytes).tree := by
  have empty : (host.withNew file (.file [])).tree.node = _ := Tree.writable_put opened []
  have found : (host.withNew file (.file [])).tree.node file = some (.file []) := by
    rw [empty, Function.update_self]
  have full : ((host.withNew file (.file [])).withBytes file bytes).tree.node =
      Function.update host.tree.node file (some (.file bytes)) := by
    rw [Host.withBytes, Tree.content_file found, List.nil_append, Tree.put_file found, empty,
      Function.update_idem]
  exact ⟨Tree.files_update full, Tree.grows_update (Tree.writable_leaf opened).2 full,
    Tree.resolve_written opened full⟩

theorem Written.late (unwritten : Unwritten tree host) {bytes : List UInt8} {tree' : Tree}
    (written : Written host.tree path file bytes tree') : Written tree path file bytes tree' where
  files := by rw [written.files, unwritten.files]
  grows := unwritten.grows.trans written.grows
  leads := written.leads

namespace WriteFileTool

/-- How a call that failed can leave the tree: with some of the content in the file, or with no file
changed. -/
def Spoils (tree : Tree) (path : Path) (content : String) (host : Host) : Prop :=
  Unwritten tree host ∨
    ∃ file written, written <+: encode content ∧ Written tree path file written host.tree

theorem write_tries (unwritten : Unwritten tree host) (path : Path) (content : String) :
    faulty.Tries (write path content)
      (fun _ host => ∃ file, Written tree path file (encode content) host.tree)
      (fun _ => Spoils tree path content) host := by
  apply Contract.Tries.bind
  apply Contract.Tries.request trivial
  intro opened host' opens
  apply Contract.Tries.bind
  cases opened with
  | error error =>
    cases opens
    exact Contract.Tries.throw (.inl unwritten)
  | ok file =>
    obtain ⟨writable, rfl⟩ := opens
    have late (bytes : List UInt8) := Written.late unwritten (written_bytes writable bytes)
    apply Contract.Tries.pure
    apply Contract.Tries.bind
    apply Contract.Tries.request trivial
    intro result host' writes
    apply Contract.Tries.bind
    cases result with
    | error error =>
      obtain ⟨written, part, rfl⟩ := writes
      exact Contract.Tries.throw (.inr ⟨file, written, part, late written⟩)
    | ok _ =>
      cases writes
      apply Contract.Tries.pure
      apply Contract.Tries.bind
      apply Contract.Tries.request trivial
      rintro result _ rfl
      apply Contract.Tries.bind
      cases result with
      | error error =>
        exact Contract.Tries.throw (.inr ⟨file, _, List.prefix_rfl, late (encode content)⟩)
      | ok _ => exact Contract.Tries.pure ⟨file, late (encode content)⟩

theorem writeVerified_tries (tool : WriteFileTool) (createDirectories : Bool) (path : Path)
    (content : String) (unwritten : Unwritten tree host) :
    faulty.Tries (tool.writeVerified createDirectories path content)
      (fun _ host => ∃ file, Written tree path file (encode content) host.tree)
      (fun _ => Spoils tree path content) host := by
  cases parents : path.parents with
  | nil =>
    rw [writeVerified, parents]
    exact Contract.Tries.throw (.inl unwritten)
  | cons up ups =>
    obtain ⟨straight, making⟩ := writeVerified_eq tool content parents
    cases createDirectories with
    | false =>
      rw [straight]
      exact write_tries unwritten path content
    | true =>
      have prepares : faulty.Keeps (Unwritten tree) (do
          Interaction.mapError (fun error => .execution error.toString) (createDirAll up ups)
          verifyWriteTarget tool.workspace path) := by
        apply Contract.Keeps.bind (Contract.Keeps.mapError (keeps_createDirAll up ups))
        intro _
        exact keeps_verifyWriteTarget _ _
      rw [making, ← bind_assoc]
      apply Contract.Tries.bind
      apply Contract.Tries.mono (prepares host unwritten)
      · intro _ host unwritten
        exact write_tries unwritten path content
      · exact fun _ _ unwritten => .inl unwritten

/-- A call writes the content of its action to the file that its path leads to, or fails. -/
theorem execute_tries (tool : WriteFileTool) (tree : Tree) (prepared : PreparedToolCall)
    (context : ToolExecutionContext) :
    faulty.Tries (tool.execute prepared context)
      (fun _ host => ∃ path content file,
        pathArgument prepared.action.arguments "path" = .ok path ∧
        stringArgument prepared.action.arguments "content" = .ok content ∧
        Written tree path file (encode content) host.tree)
      (fun _ host => Unwritten tree host ∨ ∃ path content file written,
        pathArgument prepared.action.arguments "path" = .ok path ∧
        stringArgument prepared.action.arguments "content" = .ok content ∧
        written <+: encode content ∧ Written tree path file written host.tree) ⟨tree, []⟩ := by
  have unwritten := Unwritten.refl tree []
  apply Contract.Tries.bind
  apply Contract.Tries.request trivial
  rintro cancelled _ rfl
  apply Contract.Tries.bind
  apply tries_ensure
  case fails => exact fun _ => .inl unwritten
  intro _
  apply Contract.Tries.bind
  apply tries_ofExcept
  case fails => exact fun _ _ => .inl unwritten
  intro path named
  apply Contract.Tries.bind
  apply tries_ofExcept
  case fails => exact fun _ _ => .inl unwritten
  intro content filled
  apply Contract.Tries.bind
  apply Contract.Tries.mono (keeps_verifyWriteTarget tool.workspace path ⟨tree, []⟩ unwritten)
  case weakenFailed => exact fun _ _ unwritten => .inl unwritten
  intro _ host unwritten
  apply Contract.Tries.mono (writeVerified_tries tool _ path content unwritten)
  · rintro _ host ⟨file, written⟩
    exact ⟨path, content, file, named, filled, written⟩
  · rintro _ host (unwritten | ⟨file, part, prefixes, written⟩)
    · exact .inl unwritten
    · exact .inr ⟨path, content, file, part, named, filled, prefixes, written⟩

end WriteFileTool

end Nausicaa.Executor
