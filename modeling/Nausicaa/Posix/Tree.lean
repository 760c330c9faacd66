import Nausicaa.Posix.Path

/-! # File systems

A tree of directories, files and symbolic links, as a map from places to what is there.  A walk
follows a path through it, and at most forty links, as the operating system does. -/

namespace Nausicaa.Posix

/-- The names that lead there from the root, the last one first. -/
abbrev Place := List Name

/-- The canonical path to a place. -/
def Path.ofPlace (place : Place) : Path := ⟨true, place.reverse.map .named⟩

theorem components_ofPlace (place : Place) : (Path.ofPlace place).components =
    Component.rootDir :: place.reverse.map .normal := by
  have normal : ∀ names : List Name,
      (names.map Segment.named).filterMap Segment.component = names.map .normal := by
    intro names
    induction names with
    | nil => rfl
    | cons name names ih => exact congrArg (Component.normal name :: ·) ih
  rw [Path.components, Path.ofPlace, normal]
  rfl

/-- Of canonical paths, one starts with the other if it is the place or further in. -/
theorem startsWith_ofPlace {place base : Place} :
    (Path.ofPlace place).StartsWith (.ofPlace base) ↔ base <:+ place := by
  have injective : Function.Injective Component.normal := by
    intro name name' same
    cases same
    rfl
  rw [Path.StartsWith, components_ofPlace, components_ofPlace, List.prefix_cons_inj,
    List.prefix_map_iff_of_injective injective, List.reverse_prefix]

inductive Node where
  | directory
  | file (content : List UInt8)
  | link (target : Path)
  deriving DecidableEq

inductive IoError where
  | notFound | alreadyExists | notDirectory | isDirectory | tooManyLinks
  | other (message : String)
  deriving DecidableEq, Repr

def IoError.toString : IoError → String
  | .notFound => "No such file or directory (os error 2)"
  | .alreadyExists => "File exists (os error 17)"
  | .notDirectory => "Not a directory (os error 20)"
  | .isDirectory => "Is a directory (os error 21)"
  | .tooManyLinks => "Too many levels of symbolic links (os error 40)"
  | .other message => message

structure Tree where
  node : Place → Option Node
  root : node [] = some .directory
  nested : ∀ name place, node (name :: place) ≠ none → node place = some .directory

namespace Tree

/-- Something is put where there is no directory. -/
def set (tree : Tree) (name : Name) (place : Place) (node : Node)
    (housed : tree.node place = some .directory)
    (leaf : tree.node (name :: place) ≠ some .directory) : Tree where
  node := Function.update tree.node (name :: place) (some node)
  root := by
    rw [Function.update_of_ne (by simp)]
    exact tree.root
  nested := by
    intro name' place' present
    by_cases here : place' = name :: place
    · subst here
      rw [Function.update_of_ne (by simp)] at present
      exact absurd (tree.nested name' _ present) leaf
    · rw [Function.update_of_ne here]
      by_cases entry : name' :: place' = name :: place
      · cases entry
        exact housed
      · rw [Function.update_of_ne entry] at present
        exact tree.nested name' place' present

/-- `set` where it can be done. -/
def put (tree : Tree) (place : Place) (node : Node) : Tree :=
  match place with
  | [] => tree
  | name :: place =>
    if legal : tree.node place = some .directory ∧ tree.node (name :: place) ≠ some .directory then
      tree.set name place node legal.1 legal.2
    else tree

/-! ## Walks -/

/-- What a segment leads to from a place. -/
inductive Look where
  | at (place : Place)
  | missing (entry : Place)
  | link (entry : Place) (target : Path)
  | blocked

def look (tree : Tree) (place : Place) (segment : Segment) : Look :=
  match tree.node place with
  | some .directory =>
    match segment with
    | .empty | .dot => .at place
    | .dotDot => .at place.tail
    | .named name =>
      match tree.node (name :: place) with
      | none => .missing (name :: place)
      | some (.link target) => .link (name :: place) target
      | some _ => .at (name :: place)
  | _ => .blocked

/-- Where a walk ends: at something, or where only the last name is missing. -/
inductive End where
  | found (place : Place)
  | absent (place : Place)
  deriving DecidableEq

/-- Where the target of a link starts. -/
def linked (entry : Place) (target : Path) : Place := if target.absolute then [] else entry.tail

/-- A walk that may still follow some links, and hands the next one over. -/
def walkIn (tree : Tree) (last : Bool) (links : Nat)
    (follow : Place → List Segment → Except IoError (Nat × End)) :
    Place → List Segment → Except IoError (Nat × End)
  | place, [] => .ok (links, .found place)
  | place, segment :: rest =>
    match tree.look place segment with
    | .at place => walkIn tree last links follow place rest
    | .missing entry => if rest = [] then .ok (links, .absent entry) else .error .notFound
    | .link entry target =>
      if rest = [] ∧ last = false then .ok (links, .found entry)
      else follow (linked entry target) (target.segments ++ rest)
    | .blocked => .error .notDirectory

/-- The walk follows a link at the end of the path if `last` says so. -/
def walk (tree : Tree) (last : Bool) : Nat → Place → List Segment → Except IoError (Nat × End)
  | 0 => tree.walkIn last 0 fun _ _ => .error .tooManyLinks
  | links + 1 => tree.walkIn last (links + 1) (tree.walk last links)

/-- Of an absolute path. -/
def resolve (tree : Tree) (path : Path) : Except IoError End :=
  (tree.walk true 40 [] path.segments).map Prod.snd

def lookup (tree : Tree) (path : Path) : Except IoError End :=
  (tree.walk false 40 [] path.segments).map Prod.snd

/-! ## Calls -/

def pathExists (tree : Tree) (path : Path) : Bool :=
  match tree.resolve path with
  | .ok (.found _) => true
  | _ => false

def isDirectory (tree : Tree) (path : Path) : Bool :=
  match tree.resolve path with
  | .ok (.found place) => tree.node place = some .directory
  | _ => false

def canonicalize (tree : Tree) (path : Path) : Except IoError Place :=
  match tree.resolve path with
  | .ok (.found place) => .ok place
  | .ok (.absent _) => .error .notFound
  | .error error => .error error

/-- Where `mkdir` makes a directory. -/
def vacancy (tree : Tree) (path : Path) : Except IoError Place :=
  match tree.lookup path with
  | .ok (.found _) => .error .alreadyExists
  | .ok (.absent entry) => .ok entry
  | .error error => .error error

/-- What `open` with `O_CREAT | O_TRUNC` creates or makes empty. -/
def writable (tree : Tree) (path : Path) : Except IoError Place :=
  match tree.resolve path with
  | .ok (.found place) =>
    if tree.node place = some .directory then .error .isDirectory else .ok place
  | .ok (.absent entry) => .ok entry
  | .error error => .error error

/-- What stands in a file. -/
def content (tree : Tree) (place : Place) : List UInt8 :=
  match tree.node place with
  | some (.file content) => content
  | _ => []

end Tree

end Nausicaa.Posix
