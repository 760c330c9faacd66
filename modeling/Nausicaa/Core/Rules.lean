import Nausicaa.Core.Protocol
import Nausicaa.Core.Operation
import Nausicaa.Interaction.Evaluation
import Nausicaa.Posix.Canonical
import Nausicaa.Text.Utf8

/-! # Directory rules

`DirectoryRuleLoader` of `harness-core/src/context.rs`: one rule file for each directory from the
project root to the current directory.  It loads exactly those and reads nothing outside the root
(`load_rules`). -/

namespace Nausicaa.Core

open Interaction (Fallible evaluate request)
open Posix (IoError Node Path Place Tree)

/-! ## The loader -/

inductive RuleOp where
  | canonicalize (path : Path)
  | isDirectory (path : Path)
  | isFile (path : Path)
  | readToString (path : Path)

/-- A canonical path is the place that it leads to. -/
abbrev RuleOp.Answer : RuleOp → Type
  | .canonicalize _ => Except IoError Place
  | .isDirectory _ | .isFile _ => Bool
  | .readToString _ => Except IoError String

abbrev Loading (α : Type) := Fallible RuleOp RuleOp.Answer ContextError α

def canonicalDirectory (path : Path) : Loading Place := do
  match ← request (RuleOp.canonicalize path) with
  | .error error => throw (.path s!"{path.text}: {error.toString}")
  | .ok canonical =>
    let directory : Bool ← request (RuleOp.isDirectory (.ofPlace canonical))
    if directory then return canonical
    else throw (.path s!"`{(Path.ofPlace canonical).text}` is not a directory")

theorem parent_shorter {path up : Path} (parent : path.parent = some up) :
    up.segments.length < path.segments.length := by
  obtain ⟨ups, parents⟩ := List.head?_eq_some_iff.mp parent
  obtain ⟨idle, segment, idle', _, split, _⟩ := Path.parents_cons parents
  rw [split]
  simp only [List.length_append, List.length_cons]
  omega

/-- The directories from the cursor up to the root. -/
def walkParents (root : Path) (cursor : Path) : Except ContextError (List Path) :=
  if cursor.components = root.components then .ok [cursor]
  else match _ : cursor.parent with
    | none => .error (.path "project root was not found while walking parents")
    | some parent => do
      let directories ← walkParents root parent
      return cursor :: directories
termination_by cursor.segments.length
decreasing_by exact parent_shorter (by assumption)

structure DirectoryRuleLoader where
  fileNames : List String

def DirectoryRuleLoader.default : DirectoryRuleLoader := ⟨["AGENTS.override.md", "AGENTS.md"]⟩

/-- The first candidate that is a file. -/
def selectRule (directory : Path) : List String → Loading (Option Path)
  | [] => return none
  | name :: names => do
    let candidate := directory.join (.parse name)
    let file : Bool ← request (RuleOp.isFile candidate)
    if file then return some candidate else selectRule directory names

def loadRule (fileNames : List String) (root : Place) (directory : Path) :
    Loading (List PromptSegment) := do
  match ← selectRule directory fileNames with
  | none => return []
  | some path =>
    match ← request (RuleOp.canonicalize path) with
    | .error error => throw (.path s!"{path.text}: {error.toString}")
    | .ok canonical =>
      let canonicalPath := Path.ofPlace canonical
      if canonicalPath.StartsWith (.ofPlace root) then
        match ← request (RuleOp.readToString canonicalPath) with
        | .error error => throw (.read s!"{canonicalPath.text}: {error.toString}")
        | .ok text =>
          let name := (canonicalPath.stripPrefix root).getD canonicalPath
          return [⟨.rules, name.text, text⟩]
      else throw (.path s!"rule file `{path.text}` resolves outside project root")

def loadRules (fileNames : List String) (root : Place) : List Path → Loading (List PromptSegment)
  | [] => return []
  | directory :: directories => do
    let segments ← loadRule fileNames root directory
    let rest ← loadRules fileNames root directories
    return segments ++ rest

def DirectoryRuleLoader.load (loader : DirectoryRuleLoader)
    (projectRoot currentDirectory : Path) : Loading (List PromptSegment) := do
  let root ← canonicalDirectory projectRoot
  let current ← canonicalDirectory currentDirectory
  if (Path.ofPlace current).StartsWith (.ofPlace root) then
    match walkParents (.ofPlace root) (.ofPlace current) with
    | .error error => throw error
    | .ok directories => loadRules loader.fileNames root directories.reverse
  else throw (.path <|
    s!"current directory `{(Path.ofPlace current).text}` is outside project root " ++
      s!"`{(Path.ofPlace root).text}`")

/-! ## The file system -/

/-- The text of a file. -/
def textAt (tree : Tree) (place : Place) : Except IoError String :=
  match tree.node place with
  | some (.file bytes) => match Text.decode bytes with
    | some text => .ok text
    | none => .error (.other "stream did not contain valid UTF-8")
  | some .directory => .error .isDirectory
  | _ => .error .notFound

/-- The answers of a tree, in a working directory.  The state holds the places that were read. -/
def serveRules (tree : Tree) (working : Place) (read : List Place) : (op : RuleOp) → op.Answer × List Place
  | .canonicalize path => (tree.canonicalize ((Path.ofPlace working).join path), read)
  | .isDirectory path => (tree.isDirectory ((Path.ofPlace working).join path), read)
  | .isFile path => (tree.isFile ((Path.ofPlace working).join path), read)
  | .readToString path =>
    match tree.canonicalize ((Path.ofPlace working).join path) with
    | .ok place => (textAt tree place, place :: read)
    | .error error => (.error error, read)

/-! ## The directories -/

/-- The directories from the root to the current one. -/
def pathDirectories (root current : Place) : List Place :=
  (current.tails.filter fun place => root <:+ place).reverse

section Directories

variable {root current : Place}

theorem tails_self (root : Place) : (root.tails.filter fun place => root <:+ place) = [root] := by
  cases root with
  | nil => rfl
  | cons name place =>
    have shorter : ∀ other ∈ place.tails, ¬ name :: place <:+ other := by
      intro other member below
      have longer := below.length_le
      have shorter := ((List.mem_tails _ _).mp member).length_le
      rw [List.length_cons] at longer
      omega
    rw [List.tails_cons, List.filter_cons_of_pos (by simp),
      List.filter_eq_nil_iff.mpr fun other member => by simpa using shorter other member]

theorem walkParents_below (root inner : Place) :
    walkParents (.ofPlace root) (.ofPlace (inner ++ root)) =
      .ok (((inner ++ root).tails.filter fun place => root <:+ place).map .ofPlace) := by
  induction inner with
  | nil =>
    rw [walkParents, List.nil_append, if_pos rfl, tails_self]
    rfl
  | cons name inner ih =>
    have apart : (Path.ofPlace (name :: inner ++ root)).components ≠ (Path.ofPlace root).components := by
      intro same
      have length := congrArg List.length (Path.components_ofPlace_inj same)
      simp at length
      omega
    rw [walkParents, if_neg apart]
    split
    next none =>
      rw [List.cons_append, Path.parent_ofPlace] at none
      cases none
    next parent above =>
      rw [List.cons_append, Path.parent_ofPlace] at above
      cases above
      rw [ih, List.cons_append, List.tails_cons, List.filter_cons_of_pos (by simp)]
      rfl

end Directories

/-! ## One directory -/

/-- The first candidate of a directory that is a regular file, links followed. -/
def ruleFile (tree : Tree) (fileNames : List String) (directory : Place) : Option Path :=
  (fileNames.map fun name => (Path.ofPlace directory).join (.parse name)).find? tree.isFile

/-- Where the rules of a directory are. -/
def selectedRule (tree : Tree) (fileNames : List String) (directory : Place) : Option Place :=
  (ruleFile tree fileNames directory).bind fun path => (tree.canonicalize path).toOption

/-- The segment of a file inside the root. -/
structure RuleSegment (tree : Tree) (root place : Place) (segment : PromptSegment) : Prop where
  inside : root <:+ place
  layer : segment.layer = .rules
  name : ((Path.ofPlace place).stripPrefix root).map Path.text = some segment.name
  text : textAt tree place = .ok segment.text

section Evaluation

variable {tree : Tree} {working root place : Place} {path : Path} {read : List Place}
variable {fileNames : List String} {directory : Place}

theorem working_join (absolute : path.absolute = true) :
    (Path.ofPlace working).join path = path := by
  rw [Path.join, if_pos absolute]

theorem rules_inside {places : List Place} {segments : List PromptSegment}
    (rules : List.Forall₂ (RuleSegment tree root) places segments) :
    ∀ place ∈ places, root <:+ place := by
  induction rules with
  | nil => simp
  | cons rule _ ih => exact List.forall_mem_cons.mpr ⟨rule.inside, ih⟩

theorem evaluate_canonicalDirectory
    (canonical : tree.canonicalize ((Path.ofPlace working).join path) = .ok place)
    (housed : tree.node place = some .directory) :
    evaluate (serveRules tree working) (canonicalDirectory path) read = (.ok place, read) := by
  have asked : evaluate (ε := ContextError) (serveRules tree working)
      (request (RuleOp.canonicalize path)) read = (.ok (.ok place), read) := by
    rw [Interaction.evaluate_request, serveRules, canonical]
  have there : tree.isDirectory (.ofPlace place) = true := by
    rw [Tree.isDirectory, Tree.resolve_ofPlace (Tree.solid_directory housed)]
    simp [housed]
  have directory : evaluate (ε := ContextError) (serveRules tree working)
      (request (RuleOp.isDirectory (.ofPlace place))) read = (.ok true, read) := by
    rw [Interaction.evaluate_request, serveRules, working_join rfl, there]
  rw [canonicalDirectory, Interaction.evaluate_bind asked]
  dsimp only
  rw [Interaction.evaluate_bind directory]
  rfl

theorem evaluate_selectRule (fileNames : List String) :
    evaluate (serveRules tree working) (selectRule (.ofPlace directory) fileNames) read =
      (.ok (ruleFile tree fileNames directory), read) := by
  induction fileNames with
  | nil => rfl
  | cons name names ih =>
    have asked : evaluate (ε := ContextError) (serveRules tree working)
        (request (RuleOp.isFile ((Path.ofPlace directory).join (.parse name)))) read =
        (.ok (tree.isFile ((Path.ofPlace directory).join (.parse name))), read) := by
      rw [Interaction.evaluate_request, serveRules, working_join (Path.join_absolute _ _)]
    rw [selectRule, Interaction.evaluate_bind asked, ruleFile, List.map_cons, List.find?_cons]
    cases tree.isFile ((Path.ofPlace directory).join (.parse name)) with
    | true => rfl
    | false => exact ih

theorem ruleFile_found (found : ruleFile tree fileNames directory = some path) :
    path.absolute = true ∧ ∃ place, tree.canonicalize path = .ok place ∧ tree.Solid place := by
  have file := List.find?_some found
  obtain ⟨name, _, rfl⟩ := List.mem_map.mp (List.mem_of_find?_eq_some found)
  refine ⟨Path.join_absolute _ _, ?_⟩
  rw [Tree.isFile] at file
  split at file
  next place resolved =>
    exact ⟨place, Tree.canonicalize_ok.mpr resolved, Tree.resolve_solid resolved⟩
  next => cases file

/-- What loading the rules of one directory comes to, and what it reads. -/
structure LoadsRule (tree : Tree) (fileNames : List String) (root directory : Place)
    (read : List Place) (result : Except ContextError (List PromptSegment)) (read' : List Place) :
    Prop where
  known : ∀ message, result = .error (.path message) →
    message ≠ "project root was not found while walking parents"
  exact : ∀ segments, result = .ok segments → List.Forall₂ (RuleSegment tree root)
    (selectedRule tree fileNames directory).toList segments
  inside : ∀ place ∈ read', place ∈ read ∨ root <:+ place

theorem evaluate_loadRule (tree : Tree) (working : Place) (fileNames : List String)
    (root directory : Place) (read : List Place) :
    ∃ result read', evaluate (serveRules tree working)
      (loadRule fileNames root (.ofPlace directory)) read = (result, read') ∧
      LoadsRule tree fileNames root directory read result read' := by
  rw [loadRule, Interaction.evaluate_bind (evaluate_selectRule fileNames)]
  cases found : ruleFile tree fileNames directory with
  | none =>
    refine ⟨.ok [], read, rfl, ?_, ?_, fun place member => .inl member⟩
    · intro message failed
      cases failed
    · intro segments loaded
      cases loaded
      rw [selectedRule, found]
      exact .nil
  | some path =>
    obtain ⟨absolute, place, canonical, solid⟩ := ruleFile_found found
    have selected : selectedRule tree fileNames directory = some place := by
      rw [selectedRule, found, Option.bind_some, canonical]
      rfl
    have asked : evaluate (ε := ContextError) (serveRules tree working)
        (request (RuleOp.canonicalize path)) read = (.ok (.ok place), read) := by
      rw [Interaction.evaluate_request, serveRules, working_join absolute, canonical]
    dsimp only
    rw [Interaction.evaluate_bind asked]
    dsimp only
    by_cases within : (Path.ofPlace place).StartsWith (.ofPlace root)
    · have inside := Posix.startsWith_ofPlace.mp within
      have asked : evaluate (ε := ContextError) (serveRules tree working)
          (request (RuleOp.readToString (.ofPlace place))) read =
          (.ok (textAt tree place), place :: read) := by
        rw [Interaction.evaluate_request, serveRules, working_join rfl,
          Tree.canonicalize_ofPlace solid]
      have reads : ∀ other ∈ place :: read, other ∈ read ∨ root <:+ other := by
        intro other member
        obtain rfl | member := List.mem_cons.mp member
        · exact .inr inside
        · exact .inl member
      rw [if_pos within, Interaction.evaluate_bind asked]
      cases text : textAt tree place with
      | error error =>
        refine ⟨_, _, rfl, ?_, ?_, reads⟩
        · intro message failed
          cases failed
        · intro segments loaded
          cases loaded
      | ok text' =>
        refine ⟨_, _, rfl, ?_, ?_, reads⟩
        · intro message failed
          cases failed
        · intro segments loaded
          cases loaded
          obtain ⟨inner, rfl⟩ := inside
          rw [selected]
          refine .cons ⟨List.suffix_append _ _, rfl, ?_, text⟩ .nil
          simp only [Path.stripPrefix_ofPlace, Option.map_some, Option.getD_some]
    · rw [if_neg within]
      refine ⟨_, _, rfl, ?_, ?_, fun place member => .inl member⟩
      · intro message failed
        cases failed
        intro same
        have first := congrArg (fun text : String => text.toList.head?) same
        simp [ToString.toString] at first
      · intro segments loaded
        cases loaded

theorem evaluate_loadRules (tree : Tree) (working : Place) (fileNames : List String)
    (root : Place) (directories read : List Place) :
    ∃ result read', evaluate (serveRules tree working)
      (loadRules fileNames root (directories.map .ofPlace)) read = (result, read') ∧
      (∀ message, result = .error (.path message) →
        message ≠ "project root was not found while walking parents") ∧
      (∀ segments, result = .ok segments → List.Forall₂ (RuleSegment tree root)
        (directories.filterMap (selectedRule tree fileNames)) segments) ∧
      ∀ place ∈ read', place ∈ read ∨ root <:+ place := by
  induction directories generalizing read with
  | nil =>
    refine ⟨.ok [], read, rfl, ?_, ?_, fun place member => .inl member⟩
    · intro message failed
      cases failed
    · intro segments loaded
      cases loaded
      exact .nil
  | cons directory directories ih =>
    obtain ⟨result, read₁, ran, loads⟩ :=
      evaluate_loadRule tree working fileNames root directory read
    rw [List.map_cons, loadRules]
    cases result with
    | error error =>
      refine ⟨.error error, read₁, Interaction.evaluate_stop ran _, loads.known, ?_, loads.inside⟩
      intro segments loaded
      cases loaded
    | ok segments =>
      obtain ⟨result, read₂, ran', known, exact', inside⟩ := ih read₁
      rw [Interaction.evaluate_bind ran]
      have kept : ∀ place ∈ read₂, place ∈ read ∨ root <:+ place := by
        intro place member
        obtain member | below := inside place member
        · exact loads.inside place member
        · exact .inr below
      cases result with
      | error error =>
        refine ⟨.error error, read₂, Interaction.evaluate_stop ran' _, known, ?_, kept⟩
        intro segments loaded
        cases loaded
      | ok rest =>
        refine ⟨.ok (segments ++ rest), read₂, Interaction.evaluate_bind ran' _, ?_, ?_, kept⟩
        · intro message failed
          cases failed
        · intro segments' loaded
          cases loaded
          rw [List.filterMap_eq_flatMap_toList, List.flatMap_cons, ← List.filterMap_eq_flatMap_toList]
          exact List.rel_append (loads.exact segments rfl) (exact' rest rfl)

end Evaluation

/-- From the root to a directory below it, the loader gives exactly the segments of the first rule
files that the directories between them have, and reads nothing outside the root. -/
theorem load_rules (tree : Tree) (working : Place) (loader : DirectoryRuleLoader)
    {projectRoot currentDirectory : Path} {root current : Place}
    (rooted : tree.canonicalize ((Path.ofPlace working).join projectRoot) = .ok root)
    (rootDirectory : tree.node root = some .directory)
    (located : tree.canonicalize ((Path.ofPlace working).join currentDirectory) = .ok current)
    (directory : tree.node current = some .directory) (below : root <:+ current) :
    ∃ result read, evaluate (serveRules tree working)
      (loader.load projectRoot currentDirectory) [] = (result, read) ∧
      result ≠ .error (.path "project root was not found while walking parents") ∧
      (∀ segments, result = .ok segments → List.Forall₂ (RuleSegment tree root)
        ((pathDirectories root current).filterMap (selectedRule tree loader.fileNames)) segments) ∧
      (∀ directory ∈ pathDirectories root current, ∀ place,
        selectedRule tree loader.fileNames directory = some place → ¬ root <:+ place →
          ∃ error, result = .error error) ∧
      ∀ place ∈ read, root <:+ place := by
  obtain ⟨inner, rfl⟩ := below
  obtain ⟨result, read, ran, known, exactly, inside⟩ := evaluate_loadRules tree working
    loader.fileNames root (pathDirectories root (inner ++ root)) []
  have loaded : evaluate (serveRules tree working) (loader.load projectRoot currentDirectory) [] =
      (result, read) := by
    have within : (Path.ofPlace (inner ++ root)).StartsWith (.ofPlace root) :=
      Posix.startsWith_ofPlace.mpr (List.suffix_append _ _)
    rw [DirectoryRuleLoader.load,
      Interaction.evaluate_bind (evaluate_canonicalDirectory rooted rootDirectory),
      Interaction.evaluate_bind (evaluate_canonicalDirectory located directory), if_pos within,
      walkParents_below]
    dsimp only
    rw [← List.map_reverse]
    exact ran
  refine ⟨result, read, loaded, fun failed => known _ failed rfl, exactly, ?_, ?_⟩
  · intro directory member place selected outside
    cases result with
    | error error => exact ⟨error, rfl⟩
    | ok segments =>
      -- Every file that was selected has a segment, and is inside the root.
      have found : place ∈ (pathDirectories root (inner ++ root)).filterMap
          (selectedRule tree loader.fileNames) := List.mem_filterMap.mpr ⟨directory, member, selected⟩
      exact absurd (rules_inside (exactly segments rfl) place found) outside
  · intro place member
    obtain none | below := inside place member
    · cases none
    · exact below

def agentsMd : Posix.Name := ⟨"AGENTS.md", by decide, by decide, by decide, by decide⟩

def services : Posix.Name := ⟨"services", by decide, by decide, by decide, by decide⟩

/-- Rules in the root, and a directory. -/
def ruledTree : Tree := (Tree.single agentsMd (Text.encode "root rules")).put [services] .directory

theorem ruledTree_services : ruledTree.node [services] = some .directory := by
  have other : (Tree.single agentsMd (Text.encode "root rules")).node [services] = none := by
    rw [Tree.single_node, Function.update_of_ne (by decide)]
    rfl
  rw [ruledTree, Tree.put_node (Tree.root _) (by simp [other]), Function.update_self]

theorem load_rules_services :
    ∃ result read, evaluate (serveRules ruledTree [])
      (DirectoryRuleLoader.default.load (.ofPlace []) (.ofPlace [services])) [] = (result, read) ∧
      result ≠ .error (.path "project root was not found while walking parents") ∧
      (∀ segments, result = .ok segments → List.Forall₂ (RuleSegment ruledTree [])
        ((pathDirectories [] [services]).filterMap
          (selectedRule ruledTree DirectoryRuleLoader.default.fileNames)) segments) ∧
      (∀ directory ∈ pathDirectories [] [services], ∀ place,
        selectedRule ruledTree DirectoryRuleLoader.default.fileNames directory = some place →
          ¬ [] <:+ place → ∃ error, result = .error error) ∧
      ∀ place ∈ read, [] <:+ place :=
  load_rules ruledTree [] .default
    (Tree.canonicalize_ofPlace (Tree.solid_directory ruledTree.root)) ruledTree.root
    (Tree.canonicalize_ofPlace (Tree.solid_directory ruledTree_services)) ruledTree_services
    List.nil_suffix

end Nausicaa.Core
