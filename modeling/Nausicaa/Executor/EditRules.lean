import Nausicaa.Executor.EditHost

/-! # Rules for the editing tools

What each step of an editing tool can come to on a file system with faults: what is checked is a
regular file inside the workspace (`tries_checkedPath`), and a patch writes over the content that
it was prepared for or does not write (`ApplyPatchTool.tries_execute`). -/

namespace Nausicaa.Executor

open Core (PreparedToolCall ToolError ToolExecutionContext ToolOutput)
open Interaction (Contract request)
open Posix (IoError Path Place Tree)

variable {α : Type} {host : EditHost} {workspace file : Place} {path : Path}

/-! ## Rules -/

section Rules

variable {β : Type} {failed : ToolError → EditHost → Prop}

theorem tries_checkCancelled {token : Core.CancellationToken} {ok : Unit → EditHost → Prop}
    (holds : ok () host) (fails : failed .cancelled host) :
    editing.Tries (checkCancelled token) ok failed host := by
  apply Contract.Tries.bind
  apply Contract.Tries.request trivial
  rintro cancelled _ rfl
  exact tries_ensure (fun _ => holds) (fun _ => fails)

theorem tries_execution {result : Except IoError α} {ok : α → EditHost → Prop}
    (holds : ∀ value, result = .ok value → ok value host)
    (fails : ∀ error, result = .error error → failed (.execution error.toString) host) :
    editing.Tries (execution result) ok failed host := by
  cases result with
  | ok value => exact Contract.Tries.pure (holds value rfl)
  | error error => exact Contract.Tries.throw (fails error rfl)

/-- What is resolved is a regular file inside. -/
theorem tries_resolveExistingFile {ok : Place → EditHost → Prop}
    (holds : ∀ file bytes, workspace <:+ file → host.tree.node file = some (.file bytes) →
      ok file host)
    (fails : ∀ reason, failed (.invalidArguments reason) host) :
    editing.Tries (resolveExistingFile workspace path) ok failed host := by
  apply Contract.Tries.bind
  apply tries_ofExcept
  · intro _ _
    apply Contract.Tries.bind
    apply Contract.Tries.request trivial
    rintro result host' ⟨rfl, canonical⟩
    cases result with
    | error error => exact Contract.Tries.throw (fails _)
    | ok file =>
      apply Contract.Tries.bind
      apply tries_ensure
      · intro inside
        apply Contract.Tries.bind
        apply Contract.Tries.request trivial
        rintro present _ ⟨rfl, isFile⟩
        apply Contract.Tries.bind
        apply tries_ensure
        · intro regular
          have solid := Tree.resolve_solid (Tree.canonicalize_ok.mp (canonical file rfl))
          have found := isFile regular
          rw [Tree.isFile_ofPlace solid] at found
          obtain ⟨bytes, found⟩ := Tree.isRegular_iff.mp found
          exact Contract.Tries.pure (holds file bytes (Posix.startsWith_ofPlace.mp inside) found)
        · intro _
          exact fails _
      · intro _
        exact fails _
  · intro error invalid
    rw [validateRelative] at invalid
    split at invalid
    · cases invalid
      exact fails _
    · cases invalid

/-- What a path that was opened leads to, and that it is the path of the prepared action. -/
structure Approved (tree : Tree) (workspace : Place) (path opened : Path) (file : Place) : Prop where
  resolves : tree.resolve opened = .ok (.found file)
  regular : ∃ bytes, tree.node file = some (.file bytes)
  inside : workspace <:+ file
  canonical : opened = .ofPlace file
  same : opened.components = path.components

theorem tries_checkedPath {ok : Place → EditHost → Prop}
    (holds : ∀ file, Approved host.tree workspace path (.ofPlace file) file → ok file host)
    (fails : ∀ reason, failed (.invalidArguments reason) host) :
    editing.Tries (checkedPath workspace path) ok failed host := by
  rw [checkedPath]
  split
  next => exact Contract.Tries.throw (fails _)
  next relative _ =>
    apply Contract.Tries.bind
    apply tries_resolveExistingFile
    · intro file bytes inside found
      apply Contract.Tries.bind
      apply tries_ensure
      · intro same
        apply Contract.Tries.pure
        apply holds
        exact ⟨Tree.resolve_ofPlace (Tree.solid_file found), ⟨bytes, found⟩, inside, rfl, same⟩
      · intro _
        exact fails _
    · exact fails

/-- Reading moves on in the file, and from its start gives all of it. -/
theorem tries_readText {ok : String → EditHost → Prop}
    (holds : ∀ text count, (host.cursor = 0 → Text.encode text = host.tree.content file) →
      ok text (host.withRead file count))
    (fails : ∀ error, failed error host)
    (failsRead : ∀ error count, failed error (host.withRead file count)) :
    editing.Tries (readText file) ok failed host := by
  apply Contract.Tries.bind
  apply Contract.Tries.request trivial
  rintro result _ ⟨rfl, _⟩
  apply Contract.Tries.bind
  apply tries_execution
  · intro regular _
    apply Contract.Tries.bind
    apply tries_ensure
    · intro _
      apply Contract.Tries.bind
      apply Contract.Tries.request trivial
      intro result host' answers
      cases result with
      | error error =>
        obtain ⟨count, rfl⟩ := answers
        apply Contract.Tries.bind
        exact Contract.Tries.throw (failsRead _ _)
      | ok bytes =>
        obtain ⟨rfl, rfl⟩ := answers
        apply Contract.Tries.bind
        apply Contract.Tries.pure
        apply tries_ofExcept
        · intro text decoded
          apply holds
          intro start
          rw [textOf] at decoded
          split at decoded
          next short =>
            split at decoded
            next text' found =>
              cases decoded
              rw [Text.encode_of_decode found]
              -- One byte more than the limit would have been read.
              rw [EditHost.remaining, start, List.drop_zero] at short ⊢
              rw [List.length_take] at short
              exact List.take_of_length_le (by omega)
            next => cases decoded
          next => cases decoded
        · intro error _
          exact failsRead _ _
    · intro _
      exact fails _
  · intro error _
    exact fails _

/-- A checked path is opened, and the text is all that stands in the file. -/
theorem tries_readWhole {next : Place → String → EditCode ToolError β} {ok : β → EditHost → Prop}
    (fails : ∀ error, failed error host)
    (failsOpened : ∀ error file, Approved host.tree workspace path (.ofPlace file) file →
      failed error (host.withOpen (.ofPlace file) file))
    (failsRead : ∀ error file count, Approved host.tree workspace path (.ofPlace file) file →
      failed error ((host.withOpen (.ofPlace file) file).withRead file count))
    (continues : ∀ file text count, Approved host.tree workspace path (.ofPlace file) file →
      host.tree.node file = some (.file (Text.encode text)) →
      editing.Tries (next file text) ok failed
        ((host.withOpen (.ofPlace file) file).withRead file count)) :
    editing.Tries (do
      let file ← checkedPath workspace path
      let opened : Place ← execution (← request (EditOp.openFile (.ofPlace file)))
      let text ← readText opened
      next file text) ok failed host := by
  apply Contract.Tries.bind
  apply tries_checkedPath
  · intro file approved
    apply Contract.Tries.bind
    apply Contract.Tries.request trivial
    intro result host' answers
    apply Contract.Tries.bind
    cases result with
    | error error =>
      cases answers
      exact Contract.Tries.throw (fails _)
    | ok opened =>
      obtain ⟨found, rfl⟩ := answers
      obtain ⟨bytes, regular⟩ := approved.regular
      rw [Tree.canonicalize_ofPlace (Tree.solid_file regular)] at found
      cases found
      apply Contract.Tries.pure
      apply Contract.Tries.bind
      apply tries_readText
      · intro text count whole
        have content : Text.encode text = bytes := (whole rfl).trans (Tree.content_file regular)
        rw [← content] at regular
        exact continues file text count approved regular
      · intro error
        exact failsOpened error file approved
      · intro error count
        exact failsRead error file count approved
  · intro reason
    exact fails _

/-- A checked path is opened and read. -/
theorem tries_readChecked {next : Place → String → EditCode ToolError β} {ok : β → EditHost → Prop}
    (fails : ∀ error, failed error host)
    (failsOpened : ∀ error file, Approved host.tree workspace path (.ofPlace file) file →
      failed error (host.withOpen (.ofPlace file) file))
    (failsRead : ∀ error file count, Approved host.tree workspace path (.ofPlace file) file →
      failed error ((host.withOpen (.ofPlace file) file).withRead file count))
    (continues : ∀ file text count, Approved host.tree workspace path (.ofPlace file) file →
      editing.Tries (next file text) ok failed
        ((host.withOpen (.ofPlace file) file).withRead file count)) :
    editing.Tries (do
      let file ← checkedPath workspace path
      let opened : Place ← execution (← request (EditOp.openFile (.ofPlace file)))
      let text ← readText opened
      next file text) ok failed host := by
  apply tries_readWhole fails failsOpened failsRead
  intro file text count approved _
  exact continues file text count approved

end Rules

/-! ## Patches -/

section Patches

variable {before bytes : List UInt8} {host' : EditHost}

/-- The content of one file is replaced. -/
structure Rewritten (host : EditHost) (file : Place) (bytes : List UInt8) (host' : EditHost) :
    Prop where
  node : host'.tree.node = Function.update host.tree.node file (some (.file bytes))
  opened : host'.opened = host.opened
  accessed : ∀ other ∈ host'.accessed, other ∈ host.accessed ∨ other = file

/-- What a file can hold when writing over it from its start failed: the bytes, or a part of them
in front of what stood behind. -/
def PartlyWritten (before bytes bytes' : List UInt8) : Prop :=
  bytes' = bytes ∨ ∃ written, written <+: bytes ∧ bytes' = written ++ before.drop written.length

theorem rewritten_write (found : host.tree.node file = some (.file before))
    (start : host.cursor = 0) (bytes : List UInt8) :
    Rewritten host file (bytes ++ before.drop bytes.length) (host.withWrite file bytes) where
  node := by
    rw [EditHost.withWrite, start, Tree.content_file found]
    simp only [List.takeD_zero, List.nil_append, Nat.zero_add]
    exact Tree.put_file found _
  opened := rfl
  accessed := by
    intro other member
    exact (List.mem_append.mp member).imp id List.mem_singleton.mp

theorem rewritten_setLen (rewritten : Rewritten host file (bytes ++ before.drop bytes.length) host') :
    Rewritten host file bytes (host'.withLength file bytes.length) where
  node := by
    have found : host'.tree.node file = some (.file (bytes ++ before.drop bytes.length)) := by
      rw [rewritten.node, Function.update_self]
    have cut : (bytes ++ before.drop bytes.length).takeD bytes.length 0 = bytes := by
      rw [List.takeD_eq_take _ (by simp), List.take_left]
    rw [EditHost.withLength, Tree.content_file found, cut, Tree.put_file found, rewritten.node,
      Function.update_idem]
  opened := rewritten.opened
  accessed := by
    intro other member
    obtain earlier | last := List.mem_append.mp member
    · exact rewritten.accessed other earlier
    · exact .inr (List.mem_singleton.mp last)

theorem tries_overwrite {ok : Unit → EditHost → Prop} {failed : IoError → EditHost → Prop}
    (found : host.tree.node file = some (.file before)) (start : host.cursor = 0)
    (holds : ∀ host', Rewritten host file bytes host' → ok () host')
    (fails : ∀ error bytes' host', PartlyWritten before bytes bytes' →
      Rewritten host file bytes' host' → failed error host') :
    editing.Tries (ApplyPatchTool.overwrite file bytes) ok failed host := by
  have whole := rewritten_write found start bytes
  have done := rewritten_setLen whole
  have cut (error : IoError) : failed error (host.withWrite file bytes) :=
    fails error _ _ (.inr ⟨bytes, List.prefix_rfl, rfl⟩) whole
  apply Contract.Tries.bind
  apply Contract.Tries.request trivial
  intro result host' answers
  apply Contract.Tries.bind
  cases result with
  | error error =>
    obtain ⟨written, part, rfl⟩ := answers
    exact Contract.Tries.throw (fails error _ _ (.inr ⟨written, part, rfl⟩)
      (rewritten_write found start written))
  | ok _ =>
    cases answers
    apply Contract.Tries.pure
    apply Contract.Tries.bind
    apply Contract.Tries.request trivial
    intro result host' answers
    apply Contract.Tries.bind
    cases result with
    | error error =>
      obtain rfl | rfl := answers
      · exact Contract.Tries.throw (cut error)
      · exact Contract.Tries.throw (fails error _ _ (.inl rfl) done)
    | ok _ =>
      cases answers
      apply Contract.Tries.pure
      apply Contract.Tries.bind
      apply Contract.Tries.request trivial
      rintro result _ rfl
      cases result with
      | error error => exact Contract.Tries.throw (fails error _ _ (.inl rfl) done)
      | ok _ => exact Contract.Tries.pure (holds _ done)

/-- The host when a checked file is opened, read and about to be written. -/
def EditHost.seen (host : EditHost) (file : Place) (count cursor : Nat) : EditHost :=
  { (host.withOpen (.ofPlace file) file).withRead file count with cursor }

/-- A patch fails before it writes, or writes over the content that it was prepared for. -/
theorem ApplyPatchTool.tries_execute (tool : ApplyPatchTool) (prepared : PreparedToolCall)
    (context : ToolExecutionContext) {ok : ToolOutput → EditHost → Prop}
    {failed : ToolError → EditHost → Prop}
    (fails : ∀ error, failed error host)
    (failsOpened : ∀ error path file,
      pathArgument prepared.action.arguments "path" = .ok path →
      Approved host.tree tool.workspace path (.ofPlace file) file →
      failed error (host.withOpen (.ofPlace file) file))
    (failsSeen : ∀ error path file count cursor,
      pathArgument prepared.action.arguments "path" = .ok path →
      Approved host.tree tool.workspace path (.ofPlace file) file →
      failed error (host.seen file count cursor))
    (overwrites : ∀ path file count before after output,
      pathArgument prepared.action.arguments "path" = .ok path →
      stringArgument prepared.action.arguments "before" = .ok before →
      stringArgument prepared.action.arguments "after" = .ok after →
      Approved host.tree tool.workspace path (.ofPlace file) file →
      host.tree.node file = some (.file (Text.encode before)) →
      editing.Tries (overwrite file (Text.encode after)) (fun _ => ok output)
        (fun error => failed (.outcomeUnknown error.toString)) (host.seen file count 0)) :
    editing.Tries (tool.execute prepared context) ok failed host := by
  apply Contract.Tries.bind
  apply tries_checkCancelled _ (fails _)
  apply Contract.Tries.bind
  apply tries_ofExcept _ fun error _ => fails error
  intro path named
  apply Contract.Tries.bind
  apply tries_checkedPath _ fun _ => fails _
  intro file approved
  apply Contract.Tries.bind
  apply tries_ofExcept _ fun error _ => fails error
  intro before given
  apply Contract.Tries.bind
  apply tries_ofExcept _ fun error _ => fails error
  intro after given'
  apply Contract.Tries.bind
  apply Contract.Tries.request trivial
  intro result host' answers
  apply Contract.Tries.bind
  cases result with
  | error error =>
    cases answers
    exact Contract.Tries.throw (fails _)
  | ok opened =>
    obtain ⟨found, rfl⟩ := answers
    obtain ⟨bytes, regular⟩ := approved.regular
    rw [Tree.editable_file regular] at found
    cases found
    apply Contract.Tries.pure
    apply Contract.Tries.bind
    apply tries_readText
    · intro text count whole
      have stops (error : ToolError) := failsSeen error path file count (0 + count) named approved
      apply Contract.Tries.bind
      apply tries_ensure _ fun _ => stops _
      intro same
      apply Contract.Tries.bind
      apply Contract.Tries.request trivial
      intro result host' answers
      apply Contract.Tries.bind
      cases result with
      | error error =>
        cases answers
        exact Contract.Tries.throw (stops _)
      | ok _ =>
        cases answers
        apply Contract.Tries.pure
        apply Contract.Tries.bind
        apply tries_checkCancelled _ (failsSeen _ path file count 0 named approved)
        apply Contract.Tries.bind
        apply Contract.Tries.mapError
        have content : Text.encode text = bytes :=
          (whole rfl).trans (Tree.content_file regular)
        rw [← content, same] at regular
        exact overwrites path file count before after _ named given given' approved regular
    · intro error
      exact failsOpened error path file named approved
    · intro error count
      exact failsSeen error path file count (0 + count) named approved

end Patches

end Nausicaa.Executor
