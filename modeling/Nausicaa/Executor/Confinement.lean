import Nausicaa.Executor.EditRules

/-! # Editing tools stay in the workspace

Whatever the prepared arguments are, and whatever became of the tree since they were prepared: a
tool opens a path of its prepared action only where that path is canonical and leads to a regular
file in the workspace, and reads or writes nothing else (`EditingTool.stays_inside`). -/

namespace Nausicaa.Executor

open Core (PreparedToolCall ToolError ToolExecutionContext ToolOutput)
open Interaction (Contract request)
open Json (Value)
open Posix (Path Place Tree)

variable {host : EditHost} {tree : Tree} {file : Place} {path : Path}

/-! ## Confinement -/

section Confinement

variable {workspace : Place}

/-- All that was opened are the paths that were seen, approved in the tree; nothing else was read
or written. -/
structure Confined (tree : Tree) (workspace : Place) (seen : List Path) (host : EditHost) : Prop where
  opens : List.Forall₂ (fun path entry => Approved tree workspace path entry.1 entry.2) seen
    host.opened
  accesses : ∀ file ∈ host.accessed, ∃ path, (path, file) ∈ host.opened
  frame : ∀ place, (∀ path, (path, place) ∉ host.opened) → host.tree.node place = tree.node place

namespace Confined

variable {seen : List Path} {bytes : List UInt8} {host' : EditHost}

theorem start (tree : Tree) (workspace : Place) :
    Confined tree workspace [] (EditHost.start tree) where
  opens := .nil
  accesses := by intro file none; cases none
  frame _ _ := rfl

theorem withOpen (confined : Confined tree workspace seen host) {opened : Path}
    (approved : Approved tree workspace path opened file) :
    Confined tree workspace (seen ++ [path]) (host.withOpen opened file) where
  opens := List.rel_append confined.opens (.cons approved .nil)
  accesses := by
    intro other member
    obtain ⟨path', found⟩ := confined.accesses other member
    exact ⟨path', List.mem_append_left _ found⟩
  frame := by
    intro place outside
    exact confined.frame place fun path' member => outside path' (List.mem_append_left _ member)

theorem withRead (confined : Confined tree workspace seen host) {opened : Path}
    (here : (opened, file) ∈ host.opened) (count : Nat) :
    Confined tree workspace seen (host.withRead file count) where
  opens := confined.opens
  accesses := by
    intro other member
    obtain earlier | last := List.mem_append.mp member
    · exact confined.accesses other earlier
    · rw [List.mem_singleton.mp last]
      exact ⟨opened, here⟩
  frame := confined.frame

theorem read (confined : Confined tree workspace seen host)
    (approved : Approved tree workspace path (.ofPlace file) file) (count : Nat) :
    Confined tree workspace (seen ++ [path])
      ((host.withOpen (.ofPlace file) file).withRead file count) :=
  (confined.withOpen approved).withRead (List.mem_append_right _ (List.mem_singleton.mpr rfl)) count

theorem seen_file (confined : Confined tree workspace seen host)
    (approved : Approved tree workspace path (.ofPlace file) file) (count cursor : Nat) :
    Confined tree workspace (seen ++ [path]) (host.seen file count cursor) where
  opens := (confined.read approved count).opens
  accesses := (confined.read approved count).accesses
  frame := (confined.read approved count).frame

theorem rewritten (confined : Confined tree workspace seen host) {opened : Path}
    (here : (opened, file) ∈ host.opened) (rewritten : Rewritten host file bytes host') :
    Confined tree workspace seen host' where
  opens := by
    rw [rewritten.opened]
    exact confined.opens
  accesses := by
    intro other member
    rw [rewritten.opened]
    obtain earlier | rfl := rewritten.accessed other member
    · exact confined.accesses other earlier
    · exact ⟨opened, here⟩
  frame := by
    intro place outside
    rw [rewritten.opened] at outside
    have other : place ≠ file := by
      rintro rfl
      exact outside opened here
    rw [rewritten.node, Function.update_of_ne other]
    exact confined.frame place outside

end Confined

end Confinement

/-! ## The tools -/

/-- The tools that `register_editing_tools` registers. -/
inductive EditingTool where
  | readFilePage (tool : ReadFilePageTool)
  | searchFiles (tool : SearchFilesTool)
  | applyPatch (tool : ApplyPatchTool)

namespace EditingTool

def workspace : EditingTool → Place
  | .readFilePage tool => tool.workspace
  | .searchFiles tool => tool.workspace
  | .applyPatch tool => tool.workspace

def execute (refusal : Value → String) (prepared : PreparedToolCall)
    (context : ToolExecutionContext) : EditingTool → EditCode ToolError ToolOutput
  | .readFilePage tool => tool.execute prepared context
  | .searchFiles tool => tool.execute refusal prepared context
  | .applyPatch tool => tool.execute prepared context

/-- The paths in prepared arguments. -/
def paths (arguments : Value) : EditingTool → List Path
  | .searchFiles _ => ((SearchFilesTool.pathsArgument (fun _ => "") arguments).toOption).getD []
  | .readFilePage _ | .applyPatch _ => (pathArgument arguments "path").toOption.toList

/-- A search that has found too much leaves its other files alone. -/
def Truncated (output : ToolOutput) : EditingTool → Prop
  | .searchFiles _ => ∃ found, output = ⟨SearchFilesTool.outputValue found true⟩
  | .readFilePage _ | .applyPatch _ => False

end EditingTool

/-- What the arguments hold as the path of a tool for one file. -/
theorem paths_one {arguments : Value} (named : pathArgument arguments "path" = .ok path) :
    (pathArgument arguments "path").toOption.toList = [path] := by
  rw [named]
  rfl

/-- How a call that has seen some of its paths can end. -/
def EndsConfined (tree : Tree) (workspace : Place) (paths : List Path) (host : EditHost) : Prop :=
  ∃ seen, seen <+: paths ∧ Confined tree workspace seen host

theorem EndsConfined.start (tree : Tree) (workspace : Place) (paths : List Path) :
    EndsConfined tree workspace paths (.start tree) :=
  ⟨[], List.nil_prefix, .start tree workspace⟩

theorem ReadFilePageTool.confined (tool : ReadFilePageTool) (tree : Tree)
    (prepared : PreparedToolCall) (context : ToolExecutionContext) :
    let paths := (pathArgument prepared.action.arguments "path").toOption.toList
    editing.Tries (tool.execute prepared context) (fun _ => Confined tree tool.workspace paths)
      (fun _ => EndsConfined tree tool.workspace paths) (.start tree) := by
  have fails := EndsConfined.start tree tool.workspace
    (pathArgument prepared.action.arguments "path").toOption.toList
  have start := Confined.start tree tool.workspace
  apply Contract.Tries.bind
  apply tries_checkCancelled _ fails
  apply Contract.Tries.bind
  apply tries_ofExcept _ fun _ _ => fails
  intro path named
  rw [paths_one named]
  apply tries_readChecked
  · intro error
    exact .start tree _ _
  · intro error file approved
    exact ⟨[path], List.prefix_rfl, start.withOpen approved⟩
  · intro error file count approved
    exact ⟨[path], List.prefix_rfl, start.read approved count⟩
  · intro file text count approved
    have confined := start.read approved count
    have stops : EndsConfined tree tool.workspace [path]
        (((EditHost.start tree).withOpen (.ofPlace file) file).withRead file count) :=
      ⟨[path], List.prefix_rfl, confined⟩
    apply Contract.Tries.bind
    apply tries_ofExcept _ fun _ _ => stops
    intro offset _
    apply Contract.Tries.bind
    apply tries_ofExcept _ fun _ _ => stops
    intro limit _
    exact tries_ofExcept (fun _ _ => confined) fun _ _ => stops

/-- The files of a search, from those on that it has seen. -/
theorem SearchFilesTool.scanFiles_confined (tool : SearchFilesTool) (query : String)
    (token : Core.CancellationToken) (paths : List Path) (found : List Match) {seen : List Path}
    (confined : Confined tree tool.workspace seen host) (same : host.tree = tree) :
    editing.Tries (tool.scanFiles query token paths found)
      (fun result host' => ∃ more, more <+: paths ∧ (result.2 = true ∨ more = paths) ∧
        Confined tree tool.workspace (seen ++ more) host')
      (fun _ host' => ∃ more, more <+: paths ∧ Confined tree tool.workspace (seen ++ more) host')
      host := by
  induction paths generalizing found seen host with
  | nil =>
    apply Contract.Tries.pure
    exact ⟨[], List.prefix_rfl, .inr rfl, by rwa [List.append_nil]⟩
  | cons path paths ih =>
    have fails : ∃ more, more <+: path :: paths ∧
        Confined tree tool.workspace (seen ++ more) host :=
      ⟨[], List.nil_prefix, by rwa [List.append_nil]⟩
    apply Contract.Tries.bind
    apply tries_checkCancelled _ fails
    apply tries_readChecked
    · exact fun _ => fails
    · intro error file approved
      rw [same] at approved
      exact ⟨[path], ⟨paths, rfl⟩, confined.withOpen approved⟩
    · intro error file count approved
      rw [same] at approved
      exact ⟨[path], ⟨paths, rfl⟩, confined.read approved count⟩
    · intro file text count approved
      rw [same] at approved
      have later := confined.read approved count
      apply Contract.Tries.bind
      apply tries_ofExcept _ fun _ _ => ⟨[path], ⟨paths, rfl⟩, later⟩
      intro scan _
      cases scan with
      | full found =>
        apply Contract.Tries.pure
        exact ⟨[path], ⟨paths, rfl⟩, .inl rfl, later⟩
      | more found =>
        have longer {more : List Path} (begins : more <+: paths) : path :: more <+: path :: paths :=
          (List.prefix_cons_inj path).mpr begins
        apply Contract.Tries.mono (ih found later same)
        · rintro result host' ⟨more, begins, ends, confined⟩
          rw [List.append_assoc] at confined
          exact ⟨path :: more, longer begins, ends.imp id (congrArg (path :: ·)), confined⟩
        · rintro error host' ⟨more, begins, confined⟩
          rw [List.append_assoc] at confined
          exact ⟨path :: more, longer begins, confined⟩

theorem SearchFilesTool.confined (tool : SearchFilesTool) (refusal : Value → String) (tree : Tree)
    (prepared : PreparedToolCall) (context : ToolExecutionContext) :
    let paths := (pathsArgument (fun _ => "") prepared.action.arguments).toOption.getD []
    editing.Tries (tool.execute refusal prepared context)
      (fun output host => ∃ seen, seen <+: paths ∧
        ((∃ found, output = ⟨outputValue found true⟩) ∨ seen = paths) ∧
        Confined tree tool.workspace seen host)
      (fun _ => EndsConfined tree tool.workspace paths) (.start tree) := by
  have fails := EndsConfined.start tree tool.workspace
    ((pathsArgument (fun _ => "") prepared.action.arguments).toOption.getD [])
  apply Contract.Tries.bind
  apply tries_ofExcept _ fun _ _ => fails
  intro paths given
  have same : (pathsArgument (fun _ => "") prepared.action.arguments).toOption.getD [] = paths := by
    rw [pathsArgument] at given ⊢
    split at given
    next listed =>
      cases given
      rfl
    next => cases given
  rw [same]
  apply Contract.Tries.bind
  apply tries_ofExcept _ fun _ _ => .start tree _ _
  intro query _
  apply Contract.Tries.bind
  apply Contract.Tries.mono
    (tool.scanFiles_confined query context.cancellation paths [] (.start tree _) rfl)
  · rintro ⟨found, truncated⟩ host ⟨seen, begins, ends, confined⟩
    apply Contract.Tries.pure
    refine ⟨seen, begins, ?_, confined⟩
    obtain rfl | all := ends
    · exact .inl ⟨found, rfl⟩
    · exact .inr all
  · rintro error host ⟨seen, begins, confined⟩
    exact ⟨seen, begins, confined⟩

theorem ApplyPatchTool.confined (tool : ApplyPatchTool) (tree : Tree)
    (prepared : PreparedToolCall) (context : ToolExecutionContext) :
    let paths := (pathArgument prepared.action.arguments "path").toOption.toList
    editing.Tries (tool.execute prepared context) (fun _ => Confined tree tool.workspace paths)
      (fun _ => EndsConfined tree tool.workspace paths) (.start tree) := by
  have start := Confined.start tree tool.workspace
  apply tool.tries_execute prepared context
  · intro error
    exact .start tree _ _
  · intro error path file named approved
    rw [paths_one named]
    exact ⟨[path], List.prefix_rfl, start.withOpen approved⟩
  · intro error path file count cursor named approved
    rw [paths_one named]
    exact ⟨[path], List.prefix_rfl, start.seen_file approved count cursor⟩
  · intro path file count before after output named _ _ approved regular
    rw [paths_one named]
    have seen := start.seen_file approved count 0
    have here : (Path.ofPlace file, file) ∈ ((EditHost.start tree).seen file count 0).opened :=
      List.mem_append_right _ (List.mem_singleton.mpr rfl)
    have found : ((EditHost.start tree).seen file count 0).tree.node file = _ := regular
    apply tries_overwrite found rfl
    · intro host' rewritten
      exact seen.rewritten here rewritten
    · intro error bytes' host' _ rewritten
      exact ⟨[path], List.prefix_rfl, seen.rewritten here rewritten⟩

/-- Whatever the tree is when a prepared action is executed, and whichever of its operations fail:
what was opened are paths of the action, each canonical and leading to a regular file inside the
workspace, and nothing else was read or written.  Where the call succeeds these are all paths,
but for the rest of a search that was cut short. -/
theorem EditingTool.stays_inside (tool : EditingTool) (refusal : Value → String)
    (prepared : PreparedToolCall) (context : ToolExecutionContext) (tree : Tree) :
    editing.Tries (tool.execute refusal prepared context)
      (fun output host => ∃ seen, seen <+: tool.paths prepared.action.arguments ∧
        (tool.Truncated output ∨ seen = tool.paths prepared.action.arguments) ∧
        Confined tree tool.workspace seen host)
      (fun _ => EndsConfined tree tool.workspace (tool.paths prepared.action.arguments))
      (.start tree) := by
  cases tool with
  | readFilePage tool =>
    apply Contract.Tries.mono (tool.confined tree prepared context)
    · intro output host confined
      exact ⟨_, List.prefix_rfl, .inr rfl, confined⟩
    · exact fun _ _ ends => ends
  | searchFiles tool => exact tool.confined refusal tree prepared context
  | applyPatch tool =>
    apply Contract.Tries.mono (tool.confined tree prepared context)
    · intro output host confined
      exact ⟨_, List.prefix_rfl, .inr rfl, confined⟩
    · exact fun _ _ ends => ends

end Nausicaa.Executor
