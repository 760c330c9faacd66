import Nausicaa.Posix.Canonical

/-! # Files

What stands in the files of a tree.  A path that leads somewhere does so while the tree grows, whatever
is written (`Grows.resolve`), and one that was opened to write leads to its file (`resolve_written`). -/

namespace Nausicaa.Posix

/-- The contents of files, by their places. -/
abbrev Files := Place → Option (List UInt8)

/-- A node without its content. -/
def Node.kind : Node → Node
  | .file _ => .file []
  | node => node

theorem Node.kind_directory {node : Node} : node.kind = .directory ↔ node = .directory := by
  cases node <;> simp [kind]

theorem Node.kind_link {node : Node} {target : Path} :
    node.kind = .link target ↔ node = .link target := by
  cases node <;> simp [kind]

/-- What stands there if it is a file. -/
def contentOf : Option Node → Option (List UInt8)
  | some (.file content) => some content
  | _ => none

namespace Tree

def files (tree : Tree) : Files := fun place => contentOf (tree.node place)

/-- What is in a tree is in the other one too, but for the contents of files. -/
def Grows (tree tree' : Tree) : Prop :=
  ∀ place node, tree.node place = some node →
    ∃ node', tree'.node place = some node' ∧ node'.kind = node.kind

variable {tree tree' : Tree} {last : Bool} {links links' : Nat} {place entry : Place}
variable {segment : Segment} {segments : List Segment} {path : Path} {bytes : List UInt8}

theorem files_eq : tree.files place = some bytes ↔ tree.node place = some (.file bytes) := by
  rw [files]
  cases tree.node place with
  | none => simp [contentOf]
  | some node => cases node <;> simp [contentOf]

/-- The files of a tree with another node in one place. -/
theorem files_update {node : Option Node}
    (changed : tree'.node = Function.update tree.node place node) :
    tree'.files = Function.update tree.files place (contentOf node) := by
  funext other
  by_cases same : other = place
  · subst same
    rw [files, changed, Function.update_self, Function.update_self]
  · rw [files, changed, Function.update_of_ne same, Function.update_of_ne same, files]

/-! ## Walks -/

theorem Grows.refl (tree : Tree) : tree.Grows tree := fun _ node present => ⟨node, present, rfl⟩

theorem Grows.trans {tree'' : Tree} (first : tree.Grows tree') (second : tree'.Grows tree'') :
    tree.Grows tree'' := by
  intro place node present
  obtain ⟨node', present', same⟩ := first place node present
  obtain ⟨node'', present'', same'⟩ := second place node' present'
  exact ⟨node'', present'', same'.trans same⟩

theorem Extends.grows (larger : tree.Extends tree') : tree.Grows tree' :=
  fun place node present => ⟨node, larger place node present, rfl⟩

theorem Grows.directory (grows : tree.Grows tree') (directory : tree.node place = some .directory) :
    tree'.node place = some .directory := by
  obtain ⟨node, present, same⟩ := grows place _ directory
  rw [present, Node.kind_directory.mp same]

/-- A segment that leads somewhere leads there in the tree that grew. -/
theorem Grows.look (grows : tree.Grows tree') (place : Place) (segment : Segment) :
    tree.look place segment = .blocked ∨ (∃ entry, tree.look place segment = .missing entry) ∨
      tree'.look place segment = tree.look place segment := by
  by_cases directory : tree.node place = some .directory
  · have directory' := grows.directory directory
    cases segment with
    | empty | dot | dotDot => exact .inr (.inr (by simp [Tree.look, directory, directory']))
    | named name =>
      cases found : tree.node (name :: place) with
      | none => exact .inr (.inl ⟨name :: place, by simp [Tree.look, directory, found]⟩)
      | some node =>
        obtain ⟨node', found', same⟩ := grows _ _ found
        refine .inr (.inr ?_)
        cases node with
        | directory =>
          have kept := Node.kind_directory.mp same
          simp [Tree.look, directory, directory', found, found', kept]
        | link target =>
          have kept := Node.kind_link.mp same
          simp [Tree.look, directory, directory', found, found', kept]
        | file content =>
          -- The content may be another one, but it is a file.
          cases node' with
          | directory | link => cases same
          | file content' => simp [Tree.look, directory, directory', found, found']
  · refine .inl ?_
    unfold Tree.look
    split
    next found => exact absurd found directory
    next => rfl

theorem Grows.walk (grows : tree.Grows tree')
    (walks : tree.walk last links place segments = .ok (links', .found entry)) :
    tree'.walk last links place segments = .ok (links', .found entry) := by
  induction links, place, segments using walk_induct with
  | nil links place => rwa [walk_nil] at walks ⊢
  | cons links place segment rest ih lower =>
    rw [walk_cons] at walks ⊢
    obtain blocked | ⟨missed, misses⟩ | same := grows.look place segment
    · rw [blocked] at walks
      cases walks
    · rw [misses] at walks
      dsimp only at walks
      split at walks <;> cases walks
    · rw [same]
      split at walks
      next next leads => exact ih next walks
      next missed misses => split at walks <;> cases walks
      next link target leads =>
        split at walks
        next ends =>
          rw [if_pos ends]
          exact walks
        next more =>
          rw [if_neg more]
          cases links with
          | zero => cases walks
          | succ links => exact lower links _ _ rfl walks
      · cases walks

/-- A path that leads somewhere leads there in the tree that grew. -/
theorem Grows.resolve (grows : tree.Grows tree') (found : tree.resolve path = .ok (.found place)) :
    tree'.resolve path = .ok (.found place) := by
  obtain ⟨links, walks⟩ := resolve_ok.mp found
  exact resolve_ok.mpr ⟨links, grows.walk walks⟩

/-- What was missing behind all links is found when it is there. -/
theorem walk_filled (grows : tree.Grows tree') (solid : tree'.Solid entry)
    (walks : tree.walk true links place segments = .ok (links', .absent entry)) :
    tree'.walk true links place segments = .ok (links', .found entry) := by
  induction links, place, segments using walk_induct with
  | nil links place =>
    rw [walk_nil] at walks
    cases walks
  | cons links place segment rest ih lower =>
    rw [walk_cons] at walks ⊢
    obtain blocked | ⟨missed, misses⟩ | same := grows.look place segment
    · rw [blocked] at walks
      cases walks
    · rw [misses] at walks
      by_cases ends : rest = []
      · subst ends
        cases walks
        obtain ⟨directory, _, name, rfl, rfl⟩ := look_missing misses
        obtain ⟨node, found, plain⟩ := solid
        have leads : tree'.look place (.named name) = .at (name :: place) := by
          cases node with
          | link target => exact absurd rfl (plain target)
          | directory | file => simp [Tree.look, grows.directory directory, found]
        rw [leads]
        exact walk_nil
      · simp [ends] at walks
    · rw [same]
      split at walks
      next next leads => exact ih next walks
      next missed misses =>
        -- Where the larger tree misses it too, it would not be there.
        split at walks
        · cases walks
          rw [misses] at same
          obtain ⟨node, found, _⟩ := solid
          rw [(look_missing same).2.1] at found
          cases found
        · cases walks
      next link target leads =>
        simp only [reduceCtorEq, and_false, if_false] at walks ⊢
        cases links with
        | zero => cases walks
        | succ links => exact lower links _ _ rfl walks
      · cases walks

/-! ## Writing -/

/-- What was opened to write is in a directory, and was a file or was not there. -/
theorem writable_leaf (opened : tree.writable path = .ok entry) :
    (∃ name parent, entry = name :: parent ∧ tree.node parent = some .directory) ∧
      (tree.node entry = none ∨ ∃ content, tree.node entry = some (.file content)) := by
  obtain found | missing := writable_ok opened
  · obtain ⟨node, present, plain⟩ := resolve_solid found
    rw [writable, found] at opened
    dsimp only at opened
    cases node with
    | link target => exact absurd rfl (plain target)
    | directory =>
      rw [if_pos present] at opened
      cases opened
    | file content =>
      refine ⟨?_, .inr ⟨content, present⟩⟩
      cases entry with
      | nil =>
        rw [tree.root] at present
        cases present
      | cons name parent => exact ⟨name, parent, rfl, tree.nested name parent (by simp [present])⟩
  · obtain ⟨links, walks⟩ := resolve_ok.mp missing
    obtain ⟨absent, inside⟩ := walk_absent walks
    exact ⟨inside, .inl absent⟩

theorem writable_put (opened : tree.writable path = .ok entry) (bytes : List UInt8) :
    (tree.put entry (.file bytes)).node = Function.update tree.node entry (some (.file bytes)) := by
  obtain ⟨⟨name, parent, rfl, housed⟩, leaf⟩ := writable_leaf opened
  apply put_node housed
  obtain absent | ⟨content, file⟩ := leaf
  · simp [absent]
  · simp [file]

/-- A file in a place where there was one, or nothing, does not end a path. -/
theorem grows_update (leaf : tree.node place = none ∨ ∃ content, tree.node place = some (.file content))
    (written : tree'.node = Function.update tree.node place (some (.file bytes))) :
    tree.Grows tree' := by
  intro other node present
  by_cases same : other = place
  · subst same
    refine ⟨.file bytes, by rw [written, Function.update_self], ?_⟩
    obtain absent | ⟨content, before⟩ := leaf
    · rw [absent] at present
      cases present
    · rw [before] at present
      cases present
      rfl
  · exact ⟨node, by rw [written, Function.update_of_ne same, present], rfl⟩

/-- The path leads to the file that was opened, whatever was written to it. -/
theorem resolve_written (opened : tree.writable path = .ok entry)
    (written : tree'.node = Function.update tree.node entry (some (.file bytes))) :
    tree'.resolve path = .ok (.found entry) := by
  have file : tree'.node entry = some (.file bytes) := by rw [written, Function.update_self]
  have grows := grows_update (writable_leaf opened).2 written
  obtain found | missing := writable_ok opened
  · exact grows.resolve found
  · obtain ⟨links, walks⟩ := resolve_ok.mp missing
    exact resolve_ok.mpr ⟨links, walk_filled grows (solid_file file) walks⟩

/-- Where a directory is made no file changes. -/
theorem vacancy_files (vacant : tree.vacancy path = .ok entry) :
    (tree.put entry .directory).files = tree.files := by
  obtain ⟨missing, _, _, _⟩ := vacancy_ok vacant
  obtain ⟨links, walks⟩ := lookup_ok.mp missing
  obtain ⟨absent, name, parent, rfl, housed⟩ := walk_absent walks
  have put : (tree.put (name :: parent) .directory).node = _ := put_node housed (by simp [absent])
  rw [files_update put]
  funext other
  by_cases same : other = name :: parent
  · subst same
    rw [Function.update_self, files, absent]
    rfl
  · rw [Function.update_of_ne same]

end Tree

end Nausicaa.Posix
