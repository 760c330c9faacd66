import Nausicaa.Posix.Walk

/-! # Canonical paths

The canonical path to a place leads there (`resolve_ofPlace`), and where a walk ends there is no
link (`resolve_solid`). -/

namespace Nausicaa.Posix

namespace Path

/-- What is left behind the first components. -/
def dropComponents : Nat → List Segment → List Segment
  | 0, segments => segments
  | _ + 1, [] => []
  | count + 1, segment :: rest =>
    if segment.idle then dropComponents (count + 1) rest else dropComponents count rest

/-- `Path::strip_prefix` of a canonical path. -/
def stripPrefix (path : Path) (base : Place) : Option Path :=
  if path.StartsWith (.ofPlace base) then
    let inner := (dropComponents base.length path.segments).dropWhile Segment.idle
    some ⟨false, (inner.reverse.dropWhile Segment.idle).reverse⟩
  else none

variable {inner base : Place}

theorem dropComponents_named (names more : List Name) :
    dropComponents names.length ((names ++ more).map .named) = more.map .named := by
  induction names with
  | nil => simp [dropComponents]
  | cons name names ih => exact ih

theorem dropWhile_named (names : List Name) :
    (names.map Segment.named).dropWhile Segment.idle = names.map .named := by
  cases names with
  | nil => rfl
  | cons name names => rfl

theorem stripPrefix_ofPlace :
    (Path.ofPlace (inner ++ base)).stripPrefix base = some ⟨false, inner.reverse.map .named⟩ := by
  have dropped : dropComponents base.length ((inner ++ base).reverse.map .named) =
      inner.reverse.map .named := by
    have drop := dropComponents_named base.reverse inner.reverse
    rwa [List.length_reverse, ← List.reverse_append] at drop
  rw [stripPrefix, if_pos (startsWith_ofPlace.mpr (List.suffix_append _ _))]
  simp only [Path.ofPlace, dropped, dropWhile_named, ← List.map_reverse, List.reverse_reverse]

theorem join_relative (base : Place) {path : Path} (relative : path.absolute = false) :
    (Path.ofPlace base).join path = ⟨true, base.reverse.map .named ++ path.segments⟩ := by
  have named : (Path.ofPlace base).segments.getLast? ≠ some .empty := by
    intro last
    obtain ⟨name, _, same⟩ := List.mem_map.mp (List.mem_of_getLast? last)
    cases same
  rw [join, if_neg (by simp [relative]), if_neg named]
  rfl

theorem join_ofPlace :
    (Path.ofPlace base).join ⟨false, inner.reverse.map .named⟩ = .ofPlace (inner ++ base) := by
  rw [join_relative base rfl]
  simp [Path.ofPlace]

theorem components_ofPlace_inj (same : (Path.ofPlace inner).components = (Path.ofPlace base).components) :
    inner = base := by
  have first : base <:+ inner := startsWith_ofPlace.mp (by rw [StartsWith, same])
  have second : inner <:+ base := startsWith_ofPlace.mp (by rw [StartsWith, same])
  exact first.eq_of_length_le second.length_le |>.symm

theorem parent_ofPlace (name : Name) (place : Place) :
    (Path.ofPlace (name :: place)).parent = some (.ofPlace place) := by
  have named : (place.map Segment.named).dropWhile Segment.idle = place.map .named :=
    dropWhile_named place
  simp [parent, parents, ofPlace, parentsFrom, ← List.map_reverse, named]

theorem join_absolute (base : Place) (path : Path) :
    ((Path.ofPlace base).join path).absolute = true := by
  rw [join]
  split
  next absolute => exact absolute
  next => split <;> rfl

end Path

namespace Tree

variable {tree : Tree} {links links' : Nat} {place base entry : Place} {segments : List Segment}
variable {path : Path} {node : Node} {bytes : List UInt8}

/-- Something is there that is not a link. -/
def Solid (tree : Tree) (place : Place) : Prop :=
  ∃ node, tree.node place = some node ∧ ∀ target, node ≠ .link target

/-- What is above something is a directory. -/
theorem node_above {inner : List Name} (below : inner ≠ [])
    (present : tree.node (inner ++ base) ≠ none) : tree.node base = some .directory := by
  induction inner with
  | nil => exact absurd rfl below
  | cons name inner ih =>
    have above := tree.nested name (inner ++ base) present
    cases inner with
    | nil => exact above
    | cons other inner =>
      apply ih (List.cons_ne_nil _ _)
      rw [above]
      simp

theorem solid_directory (directory : tree.node place = some .directory) : tree.Solid place :=
  ⟨.directory, directory, by simp⟩

theorem walk_named {last : Bool} (names : List Name) (solid : tree.Solid (names.reverse ++ place)) :
    tree.walk last links place (names.map .named) = .ok (links, .found (names.reverse ++ place)) := by
  induction names generalizing place with
  | nil => exact walk_nil
  | cons name rest ih =>
    rw [List.reverse_cons, List.append_assoc, List.singleton_append] at solid ⊢
    obtain ⟨node, present, plain⟩ := solid
    have housed : tree.node place = some .directory := by
      have inside : tree.node ((rest.reverse ++ [name]) ++ place) ≠ none := by
        rw [List.append_assoc, List.singleton_append, present]
        simp
      exact node_above (by simp) inside
    have leads : tree.look place (.named name) = .at (name :: place) := by
      by_cases ends : rest = []
      · subst ends
        rw [List.reverse_nil, List.nil_append] at present
        cases node with
        | link target => exact absurd rfl (plain target)
        | directory => simp [look, housed, present]
        | file content => simp [look, housed, present]
      · have inside : tree.node (rest.reverse ++ (name :: place)) ≠ none := by simp [present]
        have above := node_above (by simpa using ends) inside
        simp [look, housed, above]
    rw [List.map_cons, walk_cons, leads]
    exact ih ⟨node, present, plain⟩

/-- The canonical path to a place leads there. -/
theorem resolve_ofPlace (solid : tree.Solid place) :
    tree.resolve (.ofPlace place) = .ok (.found place) := by
  apply resolve_ok.mpr
  refine ⟨40, ?_⟩
  have walks : tree.walk true 40 [] (place.reverse.map .named) =
      .ok (40, .found (place.reverse.reverse ++ [])) :=
    walk_named place.reverse (by rwa [List.reverse_reverse, List.append_nil])
  rwa [List.reverse_reverse, List.append_nil] at walks

theorem canonicalize_ofPlace (solid : tree.Solid place) :
    tree.canonicalize (.ofPlace place) = .ok place := by
  rw [canonicalize, resolve_ofPlace solid]

theorem solid_tail (housed : tree.node place = some .directory) : tree.Solid place.tail := by
  cases place with
  | nil => exact solid_directory tree.root
  | cons name parent => exact solid_directory (tree.nested name parent (by simp [housed]))

theorem look_solid {segment : Segment} {next : Place} (leads : tree.look place segment = .at next) :
    tree.Solid next := by
  obtain ⟨housed, _⟩ := look_at leads
  simp only [look, housed] at leads
  cases segment with
  | empty => cases leads; exact solid_directory housed
  | dot => cases leads; exact solid_directory housed
  | dotDot => cases leads; exact solid_tail housed
  | named name =>
    cases found : tree.node (name :: place) with
    | none => simp [found] at leads
    | some node =>
      cases node with
      | link target => simp [found] at leads
      | directory =>
        simp only [found, Look.at.injEq] at leads
        exact leads ▸ solid_directory found
      | file content =>
        simp only [found, Look.at.injEq] at leads
        exact leads ▸ ⟨_, found, by simp⟩

/-- Where a walk through all links ends there is no link. -/
theorem walk_solid (start : tree.Solid place)
    (walks : tree.walk true links place segments = .ok (links', .found entry)) :
    tree.Solid entry := by
  induction links, place, segments using walk_induct with
  | nil links place =>
    rw [walk_nil] at walks
    cases walks
    exact start
  | cons links place segment rest ih lower =>
    rw [walk_cons] at walks
    split at walks
    next next leads => exact ih next (look_solid leads) walks
    next missed misses => split at walks <;> cases walks
    next link target leads =>
      simp only [reduceCtorEq, and_false, if_false] at walks
      obtain ⟨present, name, rfl⟩ := look_link leads
      cases links with
      | zero => cases walks
      | succ links =>
        apply lower links _ _ rfl _ walks
        rw [linked]
        split
        next => exact solid_directory tree.root
        next => exact solid_directory (tree.nested name place (by simp [present]))
    · cases walks

theorem resolve_solid (found : tree.resolve path = .ok (.found place)) : tree.Solid place := by
  obtain ⟨links, walks⟩ := resolve_ok.mp found
  exact walk_solid (solid_directory tree.root) walks

theorem canonicalize_ok :
    tree.canonicalize path = .ok place ↔ tree.resolve path = .ok (.found place) := by
  rw [canonicalize]
  split
  next found => simp [found]
  next missing => simp [missing]
  next error failed => simp [failed]

/-! ## Trees -/

theorem eq_of_node {tree tree' : Tree} (same : tree.node = tree'.node) : tree = tree' := by
  cases tree
  cases tree'
  cases same
  rfl

/-- The root alone. -/
def bare : Tree where
  node place := if place = [] then some .directory else none
  root := rfl
  nested _ _ present := absurd rfl present

/-- One file in the root. -/
def single (name : Name) (bytes : List UInt8) : Tree := bare.put [name] (.file bytes)

theorem single_node (name : Name) (bytes : List UInt8) :
    (single name bytes).node = Function.update bare.node [name] (some (.file bytes)) :=
  put_node rfl (by simp [bare])

theorem single_file (name : Name) (bytes : List UInt8) :
    (single name bytes).node [name] = some (.file bytes) := by
  rw [single_node, Function.update_self]

/-! ## Calls -/

/-- `Metadata::is_file` of what is open. -/
def isRegular (tree : Tree) (place : Place) : Bool :=
  match tree.node place with
  | some (.file _) => true
  | _ => false

/-- `Path::is_file`. -/
def isFile (tree : Tree) (path : Path) : Bool :=
  match tree.resolve path with
  | .ok (.found place) => tree.isRegular place
  | _ => false

/-- What `open` opens for reading and writing. -/
def editable (tree : Tree) (path : Path) : Except IoError Place :=
  match tree.canonicalize path with
  | .ok place => if tree.node place = some .directory then .error .isDirectory else .ok place
  | .error error => .error error

theorem solid_file (file : tree.node place = some (.file bytes)) : tree.Solid place :=
  ⟨.file bytes, file, by simp⟩

theorem isRegular_iff :
    tree.isRegular place = true ↔ ∃ bytes, tree.node place = some (.file bytes) := by
  rw [isRegular]
  split
  next bytes file => simp [file]
  next other =>
    constructor
    · intro none
      cases none
    · rintro ⟨bytes, file⟩
      exact absurd file (other bytes)

theorem isFile_ofPlace (solid : tree.Solid place) :
    tree.isFile (.ofPlace place) = tree.isRegular place := by
  rw [isFile, resolve_ofPlace solid]

theorem editable_file (file : tree.node place = some (.file bytes)) :
    tree.editable (.ofPlace place) = .ok place := by
  rw [editable, canonicalize_ofPlace (solid_file file)]
  simp [file]

theorem content_file (file : tree.node place = some (.file bytes)) : tree.content place = bytes := by
  rw [content, file]

/-- The content of a file is replaced. -/
theorem put_file (file : tree.node place = some (.file bytes)) (bytes' : List UInt8) :
    (tree.put place (.file bytes')).node = Function.update tree.node place (some (.file bytes')) := by
  cases place with
  | nil =>
    rw [tree.root] at file
    cases file
  | cons name parent =>
    apply put_node
    · exact tree.nested name parent (by simp [file])
    · simp [file]

end Tree

end Nausicaa.Posix
