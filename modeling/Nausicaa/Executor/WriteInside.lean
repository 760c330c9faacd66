import Nausicaa.Executor.Checks
import Nausicaa.Posix.Canonical

/-! # Writing inside the workspace

What `verify_write_target` finds out (`Verified`), what `create_dir_all` leaves behind (`Made`), and
where the tool writes then: inside the workspace exactly if the target is not a link to a name that is
missing outside (`WriteFileTool.writes_inside`). -/

namespace Nausicaa.Executor

open Core (PreparedToolCall ToolCall ToolError ToolExecutionContext)
open Interaction (evaluate evaluate_bind evaluate_bind_ok evaluate_mapError evaluate_stop mapError
  request)
open Json (Value)
open Posix (Component IoError Path Place Segment Tree)

variable {host host' : Host} {tree : Tree} {workspace place entry : Place} {path target up : Path}
variable {paths ups : List Path}

/-! ## What is verified -/

/-- Where the nearest of the paths leads that exists. -/
def nearest (tree : Tree) : List Path → Option Place
  | [] => none
  | path :: paths =>
    match tree.resolve path with
    | .ok (.found place) => some place
    | _ => nearest tree paths

structure Verified (tree : Tree) (workspace : Place) (target : Path) : Prop where
  starts : target.StartsWith (.ofPlace workspace)
  ancestor : ∀ place ∈ nearest tree target.parents, workspace <:+ place
  present : ∀ place, tree.resolve target = .ok (.found place) → workspace <:+ place

theorem nearest_found (found : tree.resolve path = .ok (.found place)) :
    nearest tree (path :: paths) = some place := by
  rw [nearest, found]

theorem nearest_missing (missing : tree.pathExists path = false) :
    nearest tree (path :: paths) = nearest tree paths := by
  rw [nearest]
  split
  next place found =>
    rw [Tree.pathExists_iff.mpr ⟨place, found⟩] at missing
    cases missing
  next => rfl

theorem evaluate_canonicalInside (found : host.tree.resolve path = .ok (.found place))
    (outside : String) :
    ∃ result, evaluate Host.serve (canonicalInside workspace path outside) host = (result, host) ∧
      (result = .ok () ↔ workspace <:+ place) := by
  have canonical : evaluate (ε := ToolError) Host.serve (request (FileOp.canonicalize path)) host =
      (.ok (.ok place), host) := by
    rw [Interaction.evaluate_request, Host.serve, Tree.canonicalize_ok.mpr found]
  rw [canonicalInside, evaluate_bind canonical]
  by_cases inside : workspace <:+ place
  · refine ⟨.ok (), evaluate_ensure _ (Posix.startsWith_ofPlace.mpr inside), ?_⟩
    simp [inside]
  · refine ⟨_, evaluate_ensure_error _ (mt Posix.startsWith_ofPlace.mp inside), ?_⟩
    simp [inside]

theorem evaluate_verifyAncestor (host : Host) (workspace : Place) (paths : List Path) :
    ∃ result, evaluate Host.serve (verifyAncestor workspace paths) host = (result, host) ∧
      (result = .ok () ↔ ∀ place ∈ nearest host.tree paths, workspace <:+ place) := by
  induction paths with
  | nil => exact ⟨.ok (), rfl, by simp [nearest]⟩
  | cons path paths ih =>
    have asked : evaluate (ε := ToolError) Host.serve (request (FileOp.pathExists path)) host =
        (.ok (host.tree.pathExists path), host) := rfl
    rw [verifyAncestor, evaluate_bind asked]
    cases present : host.tree.pathExists path with
    | true =>
      obtain ⟨place, found⟩ := Tree.pathExists_iff.mp present
      obtain ⟨result, ran, inside⟩ := evaluate_canonicalInside found
        "write target traverses a symlink outside the workspace"
      refine ⟨result, ran, ?_⟩
      rw [nearest_found found]
      simpa using inside
    | false =>
      rw [nearest_missing present]
      exact ih

theorem evaluate_verifyWriteTarget (host : Host) (workspace : Place) (target : Path) :
    ∃ result, evaluate Host.serve (verifyWriteTarget workspace target) host = (result, host) ∧
      (result = .ok () ↔ Verified host.tree workspace target) := by
  rw [verifyWriteTarget]
  by_cases starts : target.StartsWith (.ofPlace workspace)
  · rw [evaluate_bind (evaluate_ensure _ starts)]
    obtain ⟨checked, ran, ancestor⟩ := evaluate_verifyAncestor host workspace target.parents
    cases checked with
    | error error =>
      refine ⟨.error error, evaluate_stop ran _, ?_⟩
      constructor
      · intro none
        cases none
      · intro verified
        cases ancestor.mpr verified.ancestor
    | ok done =>
      have asked : evaluate (ε := ToolError) Host.serve (request (FileOp.pathExists target)) host =
          (.ok (host.tree.pathExists target), host) := rfl
      rw [evaluate_bind ran, evaluate_bind asked]
      cases present : host.tree.pathExists target with
      | true =>
        obtain ⟨place, found⟩ := Tree.pathExists_iff.mp present
        obtain ⟨result, ran, inside⟩ := evaluate_canonicalInside found
          "write target resolves outside the workspace"
        refine ⟨result, ran, ?_⟩
        rw [inside]
        constructor
        · intro inside
          refine ⟨starts, ancestor.mp rfl, ?_⟩
          intro place' found'
          rw [found] at found'
          cases found'
          exact inside
        · intro verified
          exact verified.present place found
      | false =>
        refine ⟨.ok (), rfl, ?_⟩
        constructor
        · intro _
          refine ⟨starts, ancestor.mp rfl, ?_⟩
          intro place found
          rw [Tree.pathExists_iff.mpr ⟨place, found⟩] at present
          cases present
        · intro _
          rfl
  · refine ⟨_, evaluate_stop (evaluate_ensure_error _ starts) _, ?_⟩
    constructor
    · intro none
      cases none
    · intro verified
      exact absurd verified.starts starts

/-! ## Directories -/

/-- Making directories touches places inside the workspace.  If anything is new, the last directory
is, and so it is empty. -/
structure Made (workspace : Place) (path : Path) (host : Host) (result : Except IoError Unit)
    (host' : Host) : Prop where
  touched : ∀ place ∈ host'.touched, place ∈ host.touched ∨ workspace <:+ place
  empty : result = .ok () → host' = host ∨ ∃ place, workspace <:+ place ∧
    host'.tree.resolve path = .ok (.found place) ∧ ∀ name, host'.tree.node (name :: place) = none

theorem Made.kept (result : Except IoError Unit) : Made workspace path host result host where
  touched _ member := .inl member
  empty _ := .inl rfl

theorem Made.vacant (vacant : host.tree.vacancy path = .ok entry) (inside : workspace <:+ entry)
    (result : Except IoError Unit) :
    Made workspace path host result (host.withNew entry .directory) := by
  obtain ⟨missing, larger, made, childless⟩ := Tree.vacancy_ok vacant
  constructor
  · intro place member
    obtain rfl | member := List.mem_cons.mp member
    · exact .inr inside
    · exact .inl member
  · intro _
    exact .inr ⟨entry, inside, Tree.resolve_made larger made missing, childless⟩

theorem evaluate_createDirectory (vacant : host.tree.vacancy path = .ok entry) :
    evaluate (ε := IoError) Host.serve (request (FileOp.createDirectory path)) host =
      (.ok (.ok ()), host.withNew entry .directory) := by
  rw [Interaction.evaluate_request, Host.serve, vacant]

theorem evaluate_createDirectory_error {error : IoError}
    (refused : host.tree.vacancy path = .error error) :
    evaluate (ε := IoError) Host.serve (request (FileOp.createDirectory path)) host =
      (.ok (.error error), host) := by
  rw [Interaction.evaluate_request, Host.serve, refused]

theorem evaluate_settle (host : Host) (path : Path) (error : IoError) :
    ∃ result, evaluate Host.serve (createDirAll.settle path error) host = (result, host) ∧
      (result = .ok () ↔ host.tree.isDirectory path = true) := by
  have asked : evaluate (ε := IoError) Host.serve (request (FileOp.isDirectory path)) host =
      (.ok (host.tree.isDirectory path), host) := rfl
  rw [createDirAll.settle, evaluate_bind asked]
  cases directory : host.tree.isDirectory path with
  | true => exact ⟨_, evaluate_ensure _ rfl, by simp⟩
  | false => exact ⟨_, evaluate_ensure_error _ (by simp), by simp⟩

/-- Nothing is made where nothing is missing. -/
theorem evaluate_createDirAll_present (found : host.tree.resolve path = .ok (.found place))
    (directory : host.tree.node place = some .directory) (ups : List Path) :
    evaluate Host.serve (createDirAll path ups) host = (.ok (), host) := by
  obtain ⟨entry, looked⟩ := Tree.resolve_exists found
  have refused : host.tree.vacancy path = .error .alreadyExists := by rw [Tree.vacancy, looked]
  have isDirectory : host.tree.isDirectory path = true := by
    rw [Tree.isDirectory, found]
    simp [directory]
  obtain ⟨result, settled, ok⟩ := evaluate_settle host path .alreadyExists
  rw [ok.mpr isDirectory] at settled
  cases ups with
  | nil =>
    rw [createDirAll, evaluate_bind (evaluate_createDirectory_error refused)]
    exact settled
  | cons up ups =>
    rw [createDirAll, evaluate_bind (evaluate_createDirectory_error refused)]
    exact settled

/-- The directory is made behind its parent, which is inside the workspace. -/
theorem vacancy_inside (parents : path.parents = up :: ups)
    (vacant : tree.vacancy path = .ok entry)
    (inside : ∀ place, tree.resolve up = .ok (.found place) → workspace <:+ place) :
    workspace <:+ entry := by
  obtain ⟨parent, name, found, rfl⟩ := Tree.lookup_absent parents (Tree.vacancy_ok vacant).1
  exact (inside parent found).trans (List.suffix_cons name parent)

theorem vacancy_missing (free : tree.vacancy path ≠ .error .alreadyExists) :
    tree.pathExists path = false := by
  by_contra present
  obtain ⟨place, found⟩ := Tree.pathExists_iff.mp (Bool.eq_true_of_not_eq_false present)
  obtain ⟨entry, looked⟩ := Tree.resolve_exists found
  exact free (by rw [Tree.vacancy, looked])

/-- The second attempt to make the directory, behind a parent that was made. -/
theorem made_again {start : Host} (parents : path.parents = up :: ups)
    (plain : .dotDot ∉ path.segments) (refused : start.tree.vacancy path = .error .notFound)
    (made : Made workspace up start (.ok ()) host) :
    ∃ result host', evaluate Host.serve (do
      match ← request (FileOp.createDirectory path) with
      | .ok () => pure ()
      | .error error => createDirAll.settle path error) host = (result, host') ∧
      Made workspace path start result host' := by
  cases vacant : host.tree.vacancy path with
  | ok entry =>
    obtain rfl | ⟨parent, inside, found, _⟩ := made.empty rfl
    · rw [refused] at vacant
      cases vacant
    · have within : workspace <:+ entry := by
        apply vacancy_inside parents vacant
        intro place found'
        rw [found] at found'
        cases found'
        exact inside
      have entered := Made.vacant vacant within (.ok ())
      refine ⟨.ok (), host.withNew entry .directory, ?_, ?_, fun _ => ?_⟩
      · rw [evaluate_bind (evaluate_createDirectory vacant)]
        rfl
      · intro place member
        obtain member | inside := entered.touched place member
        · exact made.touched place member
        · exact .inr inside
      · obtain same | empty := entered.empty rfl
        · exact absurd (congrArg (List.length ∘ Host.touched) same) (by simp [Host.withNew])
        · exact .inr empty
  | error error =>
    obtain ⟨result, settled, ok⟩ := evaluate_settle host path error
    refine ⟨result, host, ?_, made.touched, ?_⟩
    · rw [evaluate_bind (evaluate_createDirectory_error vacant)]
      exact settled
    · intro done
      obtain same | ⟨parent, inside, found, childless⟩ := made.empty rfl
      · exact .inl same
      · -- The new parent is empty, so that only the parent itself can be there.
        obtain ⟨place, found'⟩ := Tree.isDirectory_found (ok.mp done)
        have same := Tree.resolve_childless parents plain found childless found'
        rw [same] at found'
        exact .inr ⟨parent, inside, found', childless⟩

theorem evaluate_createDirAll (host : Host) (parents : path.parents = ups)
    (plain : .dotDot ∉ path.segments)
    (inside : ∀ place ∈ nearest host.tree (path :: ups), workspace <:+ place) :
    ∃ result host', evaluate Host.serve (createDirAll path ups) host = (result, host') ∧
      Made workspace path host result host' := by
  induction ups generalizing path with
  | nil =>
    cases vacant : host.tree.vacancy path with
    | ok entry => exact absurd (Tree.vacancy_ok vacant).1 (Tree.lookup_root parents)
    | error error =>
      rw [createDirAll, evaluate_bind (evaluate_createDirectory_error vacant)]
      obtain ⟨result, settled, _⟩ := evaluate_settle host path error
      cases error with
      | notFound => exact ⟨_, host, rfl, .kept _⟩
      | _ => exact ⟨result, host, settled, .kept _⟩
  | cons up ups ih =>
    obtain ⟨idle, segment, idle', _, split, above⟩ := Path.parents_cons parents
    have plain' : .dotDot ∉ up.segments := by
      intro member
      apply plain
      rw [split]
      exact List.mem_append_left _ member
    rw [createDirAll]
    cases vacant : host.tree.vacancy path with
    | ok entry =>
      have missing := vacancy_missing (by simp [vacant] : host.tree.vacancy path ≠ _)
      rw [nearest_missing missing] at inside
      have within : workspace <:+ entry := by
        apply vacancy_inside parents vacant
        intro place found
        exact inside place (nearest_found found)
      refine ⟨.ok (), host.withNew entry .directory, ?_, .vacant vacant within _⟩
      rw [evaluate_bind (evaluate_createDirectory vacant)]
      rfl
    | error error =>
      rw [evaluate_bind (evaluate_createDirectory_error vacant)]
      obtain ⟨result, settled, _⟩ := evaluate_settle host path error
      cases error with
      | notFound =>
        have missing := vacancy_missing (by simp [vacant] : host.tree.vacancy path ≠ _)
        rw [nearest_missing missing] at inside
        obtain ⟨result, host', ran, made⟩ := ih above plain' inside
        cases result with
        | error error => exact ⟨.error error, host', evaluate_stop ran _, made.touched, nofun⟩
        | ok done =>
          obtain ⟨result, host'', ran', again⟩ := made_again parents plain vacant made
          refine ⟨result, host'', ?_, again⟩
          exact (evaluate_bind ran _).trans ran'
      | _ => exact ⟨result, host, settled, .kept _⟩

/-! ## The target -/

/-- The target is a link, and at the end of the links a name is missing. -/
def Dangles (tree : Tree) (target : Path) (entry : Place) : Prop :=
  ∃ link path, tree.lookup target = .ok (.found link) ∧ tree.node link = some (.link path) ∧
    tree.resolve target = .ok (.absent entry)

/-- What is opened is inside the workspace, unless the target is a link to a missing name. -/
theorem Verified.writable (verified : Verified tree workspace target) (parents : target.parents = up :: ups)
    (opened : tree.writable target = .ok entry)
    (direct : (∃ place, tree.resolve up = .ok (.found place) ∧
      ∀ name, tree.node (name :: place) = none) ∨ (Dangles tree target entry → workspace <:+ entry)) :
    workspace <:+ entry := by
  obtain found | absent := Tree.writable_ok opened
  · exact verified.present entry found
  · obtain ⟨parent, found, _, behind⟩ := Tree.resolve_absent parents absent
    have inside : workspace <:+ parent := by
      apply verified.ancestor
      rw [parents, nearest_found found]
      rfl
    obtain ⟨place, found', childless⟩ | dangles := direct
    · rw [found] at found'
      cases found'
      obtain ⟨name, rfl⟩ := behind childless
      exact inside.trans (List.suffix_cons name parent)
    · obtain ⟨link, path, looked, present⟩ | looked := Tree.resolve_direct absent
      · exact dangles ⟨link, path, looked, present, absent⟩
      · obtain ⟨parent', name, found', rfl⟩ := Tree.lookup_absent parents looked
        rw [found] at found'
        cases found'
        exact inside.trans (List.suffix_cons name parent)

namespace WriteFileTool

variable {tool : WriteFileTool} {content : String} {createDirectories : Bool}

theorem toOption_mem {result : Except IoError Place} (member : place ∈ result.toOption.toList) :
    result = .ok place := by
  cases result with
  | ok place' =>
    cases List.mem_singleton.mp member
    rfl
  | error error => cases member

/-- Writing touches the file that is opened. -/
theorem write_touched (host : Host) (target : Path) (content : String) :
    (evaluate Host.serve (write target content) host).2.touched =
      (host.tree.writable target).toOption.toList ++ host.touched := by
  cases opened : host.tree.writable target with
  | ok entry =>
    have served : evaluate (ε := ToolError) Host.serve (request (FileOp.openFile target)) host =
        (.ok (.ok entry), host.withNew entry (.file [])) := by
      rw [Interaction.evaluate_request, Host.serve, opened]
    rw [write, evaluate_bind served]
    rfl
  | error error =>
    have served : evaluate (ε := ToolError) Host.serve (request (FileOp.openFile target)) host =
        (.ok (.error error), host) := by
      rw [Interaction.evaluate_request, Host.serve, opened]
    rw [write, evaluate_bind served]
    rfl

theorem writeVerified_eq (tool : WriteFileTool) (content : String)
    (parents : target.parents = up :: ups) :
    tool.writeVerified false target content = write target content ∧
    tool.writeVerified true target content = (do
      mapError (fun error => .execution error.toString) (createDirAll up ups)
      verifyWriteTarget tool.workspace target
      write target content) := by
  rw [writeVerified, writeVerified, parents]
  exact ⟨rfl, rfl⟩

/-- The last directory is the only new one in the path. -/
theorem opened_inside (verified : Verified host'.tree tool.workspace target)
    (parents : target.parents = up :: ups) (made : Made tool.workspace up host (.ok ()) host')
    (direct : ∀ entry, Dangles host.tree target entry → tool.workspace <:+ entry)
    (opened : host'.tree.writable target = .ok entry) : tool.workspace <:+ entry := by
  apply verified.writable parents opened
  obtain rfl | ⟨place, _, found, childless⟩ := made.empty rfl
  · exact .inr (direct entry)
  · exact .inl ⟨place, found, childless⟩

/-- Behind the first check only places inside the workspace are touched, unless the target is a link to
a name that is missing outside. -/
theorem writeVerified_inside (verified : Verified host.tree tool.workspace target)
    (plain : .dotDot ∉ target.segments)
    (direct : ∀ entry, Dangles host.tree target entry → tool.workspace <:+ entry) :
    ∀ place ∈ (evaluate Host.serve (tool.writeVerified createDirectories target content) host).2.touched,
      place ∈ host.touched ∨ tool.workspace <:+ place := by
  intro place member
  cases parents : target.parents with
  | nil =>
    rw [writeVerified, parents] at member
    exact .inl member
  | cons up ups =>
    obtain ⟨straight, making⟩ := writeVerified_eq tool content parents
    cases createDirectories with
    | false =>
      rw [straight, write_touched, List.mem_append] at member
      obtain opened | before := member
      · exact .inr (opened_inside verified parents (.kept _) direct (toOption_mem opened))
      · exact .inl before
    | true =>
      obtain ⟨idle, segment, idle', _, split, above⟩ := Path.parents_cons parents
      have plain' : .dotDot ∉ up.segments := by
        intro member
        apply plain
        rw [split]
        exact List.mem_append_left _ member
      have inside := verified.ancestor
      rw [parents] at inside
      obtain ⟨result, host', ran, made⟩ := evaluate_createDirAll host above plain' inside
      have mapped := evaluate_mapError (fun error => ToolError.execution error.toString) ran
      rw [making] at member
      cases result with
      | error error =>
        rw [evaluate_stop mapped] at member
        exact made.touched place member
      | ok done =>
        obtain ⟨checked, again, ok⟩ := evaluate_verifyWriteTarget host' tool.workspace target
        rw [evaluate_bind mapped] at member
        cases checked with
        | error error =>
          rw [evaluate_stop again] at member
          exact made.touched place member
        | ok done =>
          rw [evaluate_bind again, write_touched, List.mem_append] at member
          obtain opened | before := member
          · exact .inr (opened_inside (ok.mp rfl) parents made direct (toOption_mem opened))
          · exact made.touched place before

/-- A link to a missing name is opened, and nothing is made in front of it. -/
theorem writeVerified_dangling (verified : Verified host.tree tool.workspace target)
    (dangles : Dangles host.tree target entry) : entry ∈
      (evaluate Host.serve (tool.writeVerified createDirectories target content) host).2.touched := by
  obtain ⟨_, _, _, _, missing⟩ := dangles
  have opened : host.tree.writable target = .ok entry := by rw [Tree.writable, missing]
  have touched : entry ∈ (evaluate Host.serve (write target content) host).2.touched := by
    rw [write_touched, opened]
    exact List.mem_cons_self
  cases parents : target.parents with
  | nil => exact absurd missing (Tree.resolve_root parents)
  | cons up ups =>
    obtain ⟨straight, making⟩ := writeVerified_eq tool content parents
    cases createDirectories with
    | false =>
      rw [straight]
      exact touched
    | true =>
      obtain ⟨parent, found, directory, _⟩ := Tree.resolve_absent parents missing
      have mapped := evaluate_mapError (fun error => ToolError.execution error.toString)
        (evaluate_createDirAll_present found directory ups)
      obtain ⟨checked, again, ok⟩ := evaluate_verifyWriteTarget host tool.workspace target
      rw [ok.mpr verified] at again
      rw [making, evaluate_bind mapped, evaluate_bind again]
      exact touched

/-! ## Calls -/

theorem validateRelative_ok {requested : Path} (relative : validateRelative requested = .ok ()) :
    requested.absolute = false ∧ .dotDot ∉ requested.segments := by
  rw [validateRelative] at relative
  split at relative
  · cases relative
  next normal =>
    have normal : ∀ component ∈ requested.components, isNormal component = true := by
      intro component member
      by_contra other
      apply normal
      exact .inr (List.any_eq_true.mpr ⟨component, member, by simpa using other⟩)
    constructor
    · by_contra rooted
      have root : Component.rootDir ∈ requested.components := by
        simp [Path.components, Bool.eq_true_of_not_eq_false rooted]
      cases normal _ root
    · intro member
      have above : Component.parentDir ∈ requested.components :=
        List.mem_append_right _ (List.mem_filterMap.mpr ⟨_, member, rfl⟩)
      cases normal _ above

/-- What a call that was prepared holds: a target that was verified, and is spelled without `..`. -/
theorem prepare_ok {call : ToolCall} {prepared : PreparedToolCall}
    (made : (evaluate Host.serve (tool.prepare call) host).1 = .ok prepared) :
    ∃ target content createDirectories,
      prepared.action.arguments = preparedArguments content createDirectories target ∧
      pathArgument prepared.action.arguments "path" = .ok target ∧
      Verified host.tree tool.workspace target ∧ .dotDot ∉ target.segments := by
  obtain ⟨requested, _, named, made⟩ := evaluate_bind_ok made
  obtain ⟨named, rfl⟩ := Prod.mk.inj ((evaluate_ofExcept _).symm.trans named)
  obtain ⟨content, _, filled, made⟩ := evaluate_bind_ok made
  obtain ⟨filled, rfl⟩ := Prod.mk.inj ((evaluate_ofExcept _).symm.trans filled)
  obtain ⟨_, host', small, made⟩ := evaluate_bind_ok made
  have same : host = host' := by
    rw [ensure] at small
    split at small <;> cases small
    rfl
  subst same
  obtain ⟨target, _, resolved, made⟩ := evaluate_bind_ok made
  cases made
  have resolved : (evaluate Host.serve (resolveWriteTarget tool.workspace (Path.parse requested))
      host).1 = .ok target := congrArg Prod.fst resolved
  obtain ⟨_, _, normal, resolved⟩ := evaluate_bind_ok resolved
  obtain ⟨relative, rfl⟩ := Prod.mk.inj ((evaluate_ofExcept _).symm.trans normal)
  obtain ⟨straight, plain⟩ := validateRelative_ok relative
  obtain ⟨_, _, checked, resolved⟩ := evaluate_bind_ok resolved
  cases resolved
  obtain ⟨result, ran, verified⟩ := evaluate_verifyWriteTarget host tool.workspace
    ((Path.ofPlace tool.workspace).join (Path.parse requested))
  obtain ⟨ok, rfl⟩ := Prod.mk.inj (ran.symm.trans checked)
  have spelled := Path.join_relative tool.workspace straight
  refine ⟨_, content, flagArgument call.arguments "create_directories", rfl, ?_, verified.mp ok, ?_⟩
  · show Except.ok (Path.parse (Path.text _)) = _
    rw [Path.parse_text]
    · rw [spelled]
    · rw [spelled]
      simp [Path.parse_segments_ne_nil]
  · rw [spelled]
    simpa using plain

/-- Execution of what was prepared goes past the first check. -/
theorem evaluate_execute {prepared : PreparedToolCall} (context : ToolExecutionContext)
    (given : prepared.action.arguments = preparedArguments content createDirectories target)
    (named : pathArgument prepared.action.arguments "path" = .ok target)
    (verified : Verified host.tree tool.workspace target) :
    evaluate Host.serve (tool.execute prepared context) host =
      evaluate Host.serve (tool.writeVerified createDirectories target content) host := by
  have asked : evaluate (ε := ToolError) Host.serve
      (request (FileOp.isCancelled context.cancellation)) host = (.ok false, host) := rfl
  have filled : stringArgument prepared.action.arguments "content" = .ok content := by
    rw [given]
    rfl
  have flag : flagArgument prepared.action.arguments "create_directories" = createDirectories := by
    rw [given]
    rfl
  obtain ⟨result, ran, ok⟩ := evaluate_verifyWriteTarget host tool.workspace target
  rw [ok.mpr verified] at ran
  rw [execute, evaluate_bind asked, evaluate_bind (evaluate_ensure _ rfl)]
  dsimp only
  rw [named, filled, flag, evaluate_bind (evaluate_ofExcept _), evaluate_bind (evaluate_ofExcept _),
    evaluate_bind ran]

/-- Every directory that is made and the file that is opened are inside the workspace, unless the
target is a link and the missing name behind it is not. -/
theorem writes_inside {call : ToolCall} {prepared : PreparedToolCall}
    (made : (evaluate Host.serve (tool.prepare call) ⟨tree, []⟩).1 = .ok prepared)
    (context : ToolExecutionContext) :
    ∃ target, pathArgument prepared.action.arguments "path" = .ok target ∧
      ((∀ place ∈ (evaluate Host.serve (tool.execute prepared context) ⟨tree, []⟩).2.touched,
        tool.workspace <:+ place) ↔
        ∀ entry, Dangles tree target entry → tool.workspace <:+ entry) := by
  obtain ⟨target, content, createDirectories, given, named, verified, plain⟩ := prepare_ok made
  refine ⟨target, named, ?_⟩
  rw [evaluate_execute context given named verified]
  constructor
  · intro inside entry dangles
    exact inside entry (writeVerified_dangling verified dangles)
  · intro direct place member
    obtain none | inside := writeVerified_inside verified plain direct place member
    · cases none
    · exact inside

/-! ## A sample -/

namespace Sample

def home : Posix.Name := ⟨"workspace", by decide, by decide, by decide, by decide⟩

def link : Posix.Name := ⟨"link", by decide, by decide, by decide, by decide⟩

def outside : Posix.Name := ⟨"outside", by decide, by decide, by decide, by decide⟩

/-- A link in the workspace, to a name that is missing in the root. -/
def linked : Tree :=
  (Tree.bare.put [home] .directory).put [link, home] (.link ⟨true, [.named outside]⟩)

def writer : WriteFileTool := ⟨[home], 100⟩

def call (path : String) : ToolCall :=
  ⟨⟨"call"⟩, "write_file", .object [("content", .string "text"), ("path", .string path)]⟩

def prepared (path : String) : PreparedToolCall where
  callId := ⟨"call"⟩
  action := {
    toolName := "write_file"
    arguments := preparedArguments "text" false ((Path.ofPlace [home]).join (Path.parse path))
    effect := .workspaceWrite
    retrySafety := .idempotent
    scope := some (Path.ofPlace [home]).text }

def context : ToolExecutionContext := ⟨⟨"thread"⟩, ⟨"turn"⟩, none, ⟨0⟩, ∅⟩

end Sample

theorem writes_inside_file :
    ∃ target, pathArgument (Sample.prepared "file").action.arguments "path" = .ok target ∧
      ((∀ place ∈ (evaluate Host.serve (Sample.writer.execute (Sample.prepared "file")
          Sample.context) ⟨Sample.linked, []⟩).2.touched, Sample.writer.workspace <:+ place) ↔
        ∀ entry, Dangles Sample.linked target entry → Sample.writer.workspace <:+ entry) := by
  have made : (evaluate Host.serve (Sample.writer.prepare (Sample.call "file"))
      ⟨Sample.linked, []⟩).1 = .ok (Sample.prepared "file") := rfl
  exact writes_inside made Sample.context

/-- The link is followed, and the file is created in the root. -/
theorem writes_outside :
    (evaluate Host.serve (Sample.writer.prepare (Sample.call "link")) ⟨Sample.linked, []⟩).1 =
      .ok (Sample.prepared "link") ∧
    ∃ place ∈ (evaluate Host.serve (Sample.writer.execute (Sample.prepared "link") Sample.context)
      ⟨Sample.linked, []⟩).2.touched, ¬ Sample.writer.workspace <:+ place := by
  have made : (evaluate Host.serve (Sample.writer.prepare (Sample.call "link"))
      ⟨Sample.linked, []⟩).1 = .ok (Sample.prepared "link") := rfl
  refine ⟨made, [Sample.outside], ?_, by decide⟩
  obtain ⟨target, content, createDirectories, given, named, verified, _⟩ := prepare_ok made
  have same : (Path.ofPlace [Sample.home]).join (Path.parse "link") = target := by
    have shown : pathArgument (Sample.prepared "link").action.arguments "path" =
        .ok ((Path.ofPlace [Sample.home]).join (Path.parse "link")) := rfl
    rw [shown] at named
    exact Except.ok.inj named
  subst same
  rw [evaluate_execute Sample.context given named verified]
  exact writeVerified_dangling verified ⟨[Sample.link, Sample.home], ⟨true, [.named Sample.outside]⟩,
    by decide, by decide, by decide⟩

end WriteFileTool

end Nausicaa.Executor
