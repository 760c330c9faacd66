import Nausicaa.Executor.EditHost

/-! # The editing tools without faults

What the steps of the tools give on a file system that answers by what is there: a path that was
prepared for a file is opened and read (`evaluate_readChecked`). -/

namespace Nausicaa.Executor

open Core (CancellationToken ToolError)
open Interaction (evaluate evaluate_bind evaluate_stop request)
open Posix (IoError Path Place Tree)
open Text (encode)

variable {α ε : Type} {host : EditHost} {workspace file : Place} {path : Path}
variable {bytes : List UInt8} {text : String}

/-! ## Steps -/

theorem execution_ok (value : α) : execution (.ok value) = pure value := rfl

theorem evaluate_checkCancelled (token : CancellationToken) :
    evaluate EditHost.serve (checkCancelled token) host = (.ok (), host) := rfl

theorem evaluate_resolveExistingFile (relative : validateRelative path = .ok ())
    (found : host.tree.canonicalize ((Path.ofPlace workspace).join path) = .ok file)
    (inside : workspace <:+ file) (regular : host.tree.node file = some (.file bytes)) :
    evaluate EditHost.serve (resolveExistingFile workspace path) host = (.ok file, host) := by
  have present : host.tree.isFile (.ofPlace file) = true := by
    rw [Tree.isFile_ofPlace (Tree.solid_file regular)]
    exact Tree.isRegular_iff.mpr ⟨bytes, regular⟩
  have canonical : evaluate (ε := ToolError) EditHost.serve
      (request (EditOp.canonicalize ((Path.ofPlace workspace).join path))) host =
      (.ok (.ok file), host) := by
    rw [Interaction.evaluate_request, EditHost.serve, found]
  have isFile : evaluate (ε := ToolError) EditHost.serve
      (request (EditOp.isFile (.ofPlace file))) host = (.ok true, host) := by
    rw [Interaction.evaluate_request, EditHost.serve, present]
  rw [resolveExistingFile, relative, evaluate_bind (evaluate_ofExcept _), evaluate_bind canonical]
  dsimp only
  rw [evaluate_bind (evaluate_ensure _ (Posix.startsWith_ofPlace.mpr inside)),
    evaluate_bind isFile, evaluate_bind (evaluate_ensure _ rfl)]
  rfl

/-- What was read of a file shows whether it is too long. -/
theorem textOf_take (text : String) : textOf ((encode text).take (maxFileBytes + 1)) =
    if (encode text).length ≤ maxFileBytes then .ok text
    else .error (invalid "file exceeds 1 MiB limit") := by
  rw [textOf, List.length_take]
  by_cases fits : (encode text).length ≤ maxFileBytes
  · rw [if_pos fits, if_pos (by omega), List.take_of_length_le (by omega), Text.decode_encode]
  · rw [if_neg fits, if_neg (by omega)]

theorem evaluate_readText (start : host.cursor = 0)
    (regular : host.tree.node file = some (.file bytes)) :
    evaluate EditHost.serve (readText file) host =
      (textOf (bytes.take (maxFileBytes + 1)),
        host.withRead file (bytes.take (maxFileBytes + 1)).length) := by
  have isRegular : evaluate (ε := ToolError) EditHost.serve (request (EditOp.isRegular file)) host =
      (.ok (.ok true), host) := by
    rw [Interaction.evaluate_request, EditHost.serve, Tree.isRegular_iff.mpr ⟨bytes, regular⟩]
  have remaining : host.remaining file (maxFileBytes + 1) = bytes.take (maxFileBytes + 1) := by
    rw [EditHost.remaining, start, List.drop_zero, Tree.content_file regular]
  have read : evaluate (ε := ToolError) EditHost.serve
      (request (EditOp.readToEnd file (maxFileBytes + 1))) host =
      (.ok (.ok (bytes.take (maxFileBytes + 1))),
        host.withRead file (bytes.take (maxFileBytes + 1)).length) := by
    rw [Interaction.evaluate_request, EditHost.serve, remaining]
  rw [readText, evaluate_bind isRegular, execution_ok, pure_bind,
    evaluate_bind (evaluate_ensure _ rfl), evaluate_bind read, execution_ok, pure_bind]
  exact evaluate_ofExcept _

theorem evaluate_openFile (regular : host.tree.node file = some (.file bytes)) :
    evaluate (ε := ToolError) EditHost.serve (request (EditOp.openFile (.ofPlace file))) host =
      (.ok (.ok file), host.withOpen (.ofPlace file) file) := by
  rw [Interaction.evaluate_request, EditHost.serve,
    Tree.canonicalize_ofPlace (Tree.solid_file regular)]

/-! ## Prepared paths -/

/-- The text of some names is not empty, since no name is. -/
theorem validateRelative_named {names : List Posix.Name} (filled : names ≠ []) :
    validateRelative ⟨false, names.map .named⟩ = .ok () := by
  have normal (names : List Posix.Name) :
      ((names.map Posix.Segment.named).filterMap Posix.Segment.component).all isNormal := by
    induction names with
    | nil => rfl
    | cons name names ih => exact ih
  cases names with
  | nil => exact absurd rfl filled
  | cons name names =>
    have shown : (⟨false, (name :: names).map .named⟩ : Path).text ≠ "" := by
      intro none
      have empty := congrArg String.toList none
      have named : name.text.toList ≠ [] := fun nameless =>
        name.filled (String.toList_inj.mp nameless)
      cases names with
      | nil => exact named (by simpa [Path.text, Path.body, Posix.Segment.text] using empty)
      | cons other names => simp [Path.text, Path.body, Posix.Segment.text] at empty
    have all := normal (name :: names)
    rw [validateRelative, if_neg]
    rintro (none | other)
    · exact shown none
    · simp only [Path.components, Bool.false_eq_true, if_false, List.map_cons, List.head?_cons,
        Option.some.injEq, reduceCtorEq, List.nil_append, List.any_eq_true] at other
      obtain ⟨component, member, abnormal⟩ := other
      have fine := List.all_eq_true.mp all component member
      rw [fine] at abnormal
      cases abnormal

/-- A regular file is further in than a directory. -/
theorem inner_of_file {tree : Tree} (housed : tree.node workspace = some .directory)
    (inside : workspace <:+ file) (regular : tree.node file = some (.file bytes)) :
    ∃ inner, inner ≠ [] ∧ file = inner ++ workspace := by
  obtain ⟨inner, rfl⟩ := inside
  refine ⟨inner, ?_, rfl⟩
  rintro rfl
  rw [List.nil_append, housed] at regular
  cases regular

theorem evaluate_checkedPath (housed : host.tree.node workspace = some .directory)
    (inside : workspace <:+ file) (regular : host.tree.node file = some (.file bytes)) :
    evaluate EditHost.serve (checkedPath workspace (.ofPlace file)) host = (.ok file, host) := by
  obtain ⟨inner, filled, rfl⟩ := inner_of_file housed inside regular
  have found : host.tree.canonicalize ((Path.ofPlace workspace).join
      ⟨false, inner.reverse.map .named⟩) = .ok (inner ++ workspace) := by
    rw [Path.join_ofPlace]
    exact Tree.canonicalize_ofPlace (Tree.solid_file regular)
  rw [checkedPath, Path.stripPrefix_ofPlace]
  dsimp only
  rw [evaluate_bind (evaluate_resolveExistingFile (validateRelative_named (by simpa using filled))
    found inside regular), evaluate_bind (evaluate_ensure _ rfl)]
  rfl

/-- A path that was prepared for a file is opened and read. -/
theorem evaluate_readChecked {β : Type} (housed : host.tree.node workspace = some .directory)
    (inside : workspace <:+ file) (regular : host.tree.node file = some (.file (encode text)))
    (next : Place → String → EditCode ToolError β) :
    ∃ count, evaluate EditHost.serve (do
      let file ← checkedPath workspace (.ofPlace file)
      let opened : Place ← execution (← request (EditOp.openFile (.ofPlace file)))
      let text ← readText opened
      next file text) host =
      if (encode text).length ≤ maxFileBytes then
        evaluate EditHost.serve (next file text)
          ((host.withOpen (.ofPlace file) file).withRead file count)
      else (.error (invalid "file exceeds 1 MiB limit"),
        (host.withOpen (.ofPlace file) file).withRead file count) := by
  have found : (host.withOpen (.ofPlace file) file).tree.node file = _ := regular
  have read := evaluate_readText rfl found
  refine ⟨((encode text).take (maxFileBytes + 1)).length, ?_⟩
  rw [evaluate_bind (evaluate_checkedPath housed inside regular),
    evaluate_bind (evaluate_openFile regular), execution_ok, pure_bind]
  rw [textOf_take] at read
  by_cases fits : (encode text).length ≤ maxFileBytes
  · rw [if_pos fits] at read ⊢
    exact evaluate_bind read _
  · rw [if_neg fits] at read ⊢
    exact evaluate_stop read _

/-! ## Prepared arguments -/

theorem pathArgument_value {arguments : Json.Value} (filled : file ≠ [])
    (given : arguments.get "path" = some (pathValue file)) :
    pathArgument arguments "path" = .ok (.ofPlace file) := by
  rw [pathArgument, stringArgument, given]
  show Except.ok (Path.parse (Path.ofPlace file).text) = _
  rw [Path.parse_text rfl (by simpa [Path.ofPlace] using filled)]

end Nausicaa.Executor
