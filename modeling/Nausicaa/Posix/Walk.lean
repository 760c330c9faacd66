import Nausicaa.Posix.Tree
import Nausicaa.Interaction.Fallible

/-! # Walks

A walk along two paths, one after the other, is two walks (`walk_append`).  What it finds stays
there when a directory is added (`walk_mono`), and what it misses is where one can be made
(`walk_made`). -/

namespace Nausicaa.Posix

namespace Tree

variable {tree tree' : Tree} {last : Bool} {links links' : Nat} {place entry : Place}
variable {segment : Segment} {segments more rest : List Segment} {stop : End}

/-- The walk behind a link. -/
def follow (tree : Tree) (last : Bool) : Nat → Place → List Segment → Except IoError (Nat × End)
  | 0 => fun _ _ => .error .tooManyLinks
  | links + 1 => tree.walk last links

theorem walk_nil : tree.walk last links place [] = .ok (links, .found place) := by
  cases links <;> rfl

theorem walk_cons : tree.walk last links place (segment :: rest) =
    match tree.look place segment with
    | .at next => tree.walk last links next rest
    | .missing entry => if rest = [] then .ok (links, .absent entry) else .error .notFound
    | .link entry target =>
      if rest = [] ∧ last = false then .ok (links, .found entry)
      else tree.follow last links (linked entry target) (target.segments ++ rest)
    | .blocked => .error .notDirectory := by
  cases links <;> rfl

/-- The rest of a walk, from where the first part ended. -/
def resume (tree : Tree) (last : Bool) (more : List Segment) :
    Nat × End → Except IoError (Nat × End)
  | (links, .found place) => tree.walk last links place more
  | (_, .absent _) => .error .notFound

/-- What holds of every walk, by the links that it may still follow and the segments it has left. -/
theorem walk_induct {motive : Nat → Place → List Segment → Prop}
    (nil : ∀ links place, motive links place [])
    (cons : ∀ links place segment rest, (∀ next, motive links next rest) →
      (∀ lower next segments, links = lower + 1 → motive lower next segments) →
      motive links place (segment :: rest)) (links : Nat) (place : Place)
    (segments : List Segment) : motive links place segments := by
  induction links generalizing place segments with
  | zero =>
    induction segments generalizing place with
    | nil => exact nil 0 place
    | cons segment rest ih => exact cons 0 place segment rest ih fun _ _ _ none => by cases none
  | succ links outer =>
    induction segments generalizing place with
    | nil => exact nil _ place
    | cons segment rest ih =>
      apply cons _ place segment rest ih
      intro lower next segments same
      cases same
      exact outer next segments

theorem walk_append (filled : more ≠ []) : tree.walk last links place (segments ++ more) =
    tree.walk true links place segments >>= tree.resume last more := by
  induction links, place, segments using walk_induct with
  | nil links place =>
    rw [walk_nil]
    rfl
  | cons links place segment rest ih lower =>
    have filled' : rest ++ more ≠ [] := by simp [filled]
    rw [List.cons_append, walk_cons, walk_cons]
    cases tree.look place segment with
    | «at» next => exact ih next
    | missing entry =>
      simp only [if_neg filled']
      by_cases ends : rest = []
      · rw [if_pos ends]
        rfl
      · rw [if_neg ends]
        rfl
    | link entry target =>
      simp only [filled', false_and, if_false, reduceCtorEq, and_false]
      cases links with
      | zero => rfl
      | succ links =>
        rw [← List.append_assoc]
        exact lower links _ _ rfl
    | blocked => rfl

/-! ## What is there -/

theorem look_at {next : Place} (leads : tree.look place segment = .at next) :
    tree.node place = some .directory ∧ ∃ node, tree.node next = some node := by
  unfold look at leads
  split at leads
  next directory =>
    refine ⟨directory, ?_⟩
    split at leads
    · cases leads
      exact ⟨_, directory⟩
    · cases leads
      exact ⟨_, directory⟩
    · cases leads
      cases place with
      | nil => exact ⟨_, tree.root⟩
      | cons name parent =>
        exact ⟨_, tree.nested name parent (by simp [directory])⟩
    · split at leads
      · cases leads
      · cases leads
      next node _ found =>
        cases leads
        exact ⟨node, found⟩
  next => cases leads

theorem look_missing (misses : tree.look place segment = .missing entry) :
    tree.node place = some .directory ∧ tree.node entry = none ∧
      ∃ name, segment = .named name ∧ entry = name :: place := by
  unfold look at misses
  split at misses
  next directory =>
    split at misses
    · cases misses
    · cases misses
    · cases misses
    next name =>
      split at misses
      next absent =>
        cases misses
        exact ⟨directory, absent, name, rfl, rfl⟩
      · cases misses
      · cases misses
  next => cases misses

theorem look_link {target : Path} (leads : tree.look place segment = .link entry target) :
    tree.node entry = some (.link target) ∧ ∃ name, entry = name :: place := by
  unfold look at leads
  split at leads
  next directory =>
    split at leads
    · cases leads
    · cases leads
    · cases leads
    next name =>
      split at leads
      · cases leads
      next target' found =>
        cases leads
        exact ⟨found, name, rfl⟩
      · cases leads
  next => cases leads

/-- A name that is missing is the last one, in a directory. -/
theorem walk_absent (walks : tree.walk last links place segments = .ok (links', .absent entry)) :
    tree.node entry = none ∧
      ∃ name parent, entry = name :: parent ∧ tree.node parent = some .directory := by
  induction links, place, segments using walk_induct with
  | nil links place =>
    rw [walk_nil] at walks
    cases walks
  | cons links place segment rest ih lower =>
    rw [walk_cons] at walks
    split at walks
    next next leads => exact ih next walks
    next entry' misses =>
      split at walks
      · cases walks
        obtain ⟨directory, absent, name, _, same⟩ := look_missing misses
        exact ⟨absent, name, place, same, directory⟩
      · cases walks
    next entry' target leads =>
      split at walks
      · cases walks
      · cases links with
        | zero => cases walks
        | succ links => exact lower links _ _ rfl walks
    · cases walks

/-- A walk that ends well with the last link followed ends well without. -/
theorem walk_exists (walks : tree.walk true links place segments = .ok (links', .found entry)) :
    ∃ links' entry, tree.walk false links place segments = .ok (links', .found entry) := by
  induction links, place, segments using walk_induct with
  | nil links place => exact ⟨_, _, walk_nil⟩
  | cons links place segment rest ih lower =>
    rw [walk_cons] at walks ⊢
    split at walks
    next next leads => exact ih next walks
    next entry' misses => split at walks <;> cases walks
    next entry' target leads =>
      simp only [reduceCtorEq, and_false, if_false] at walks
      by_cases ends : rest = []
      · exact ⟨links, entry', by simp [ends]⟩
      · simp only [ends, false_and, if_false]
        cases links with
        | zero => cases walks
        | succ links => exact lower links _ _ rfl walks
    · cases walks

/-- A name that is missing behind all links is missing, unless there is a link at the end of the path. -/
theorem walk_direct (walks : tree.walk true links place segments = .ok (links', .absent entry)) :
    (∃ links'' link target, tree.walk false links place segments = .ok (links'', .found link) ∧
      tree.node link = some (.link target)) ∨
      tree.walk false links place segments = .ok (links', .absent entry) := by
  induction links, place, segments using walk_induct with
  | nil links place =>
    rw [walk_nil] at walks
    cases walks
  | cons links place segment rest ih lower =>
    rw [walk_cons] at walks ⊢
    split at walks
    next next leads => exact ih next walks
    next entry' misses => exact .inr walks
    next link target leads =>
      by_cases ends : rest = []
      · exact .inl ⟨links, link, target, by simp [ends], (look_link leads).1⟩
      · simp only [reduceCtorEq, and_false, if_false] at walks
        simp only [ends, false_and, if_false]
        cases links with
        | zero => cases walks
        | succ links => exact lower links _ _ rfl walks
    · cases walks

/-- Segments that stay where they are, in a directory. -/
theorem walk_idle (idle : ∀ segment ∈ segments, segment.idle = true)
    (directory : tree.node place = some .directory) :
    tree.walk last links place segments = .ok (links, .found place) := by
  induction segments with
  | nil => exact walk_nil
  | cons segment rest ih =>
    have stays : tree.look place segment = .at place := by
      have first := idle segment List.mem_cons_self
      cases segment with
      | empty => simp [look, directory]
      | dot => simp [look, directory]
      | dotDot => cases first
      | named name => cases first
    rw [walk_cons, stays]
    exact ih fun segment member => idle segment (List.mem_cons_of_mem _ member)

theorem walk_directory (walks : tree.walk last links place (segment :: rest) = .ok (links', stop)) :
    tree.node place = some .directory := by
  rw [walk_cons] at walks
  split at walks
  next leads => exact (look_at leads).1
  next misses => exact (look_missing misses).1
  next leads =>
    obtain ⟨found, name, rfl⟩ := look_link leads
    exact tree.nested name place (by simp [found])
  · cases walks

theorem walk_idle_found (idle : ∀ segment ∈ segments, segment.idle = true)
    (walks : tree.walk last links place segments = .ok (links', stop)) : stop = .found place := by
  cases segments with
  | nil =>
    rw [walk_nil] at walks
    cases walks
    rfl
  | cons segment rest =>
    rw [walk_idle idle (walk_directory walks)] at walks
    cases walks
    rfl

/-! ## More is there -/

/-- What is in a tree is in the other one too. -/
def Extends (tree tree' : Tree) : Prop :=
  ∀ place node, tree.node place = some node → tree'.node place = some node

/-- A segment that leads somewhere leads there in the larger tree. -/
theorem Extends.look (larger : tree.Extends tree') (place : Place) (segment : Segment) :
    tree.look place segment = .blocked ∨ (∃ entry, tree.look place segment = .missing entry) ∨
      tree'.look place segment = tree.look place segment := by
  by_cases directory : tree.node place = some .directory
  · cases segment with
    | empty => exact .inr (.inr (by simp [Tree.look, directory, larger _ _ directory]))
    | dot => exact .inr (.inr (by simp [Tree.look, directory, larger _ _ directory]))
    | dotDot => exact .inr (.inr (by simp [Tree.look, directory, larger _ _ directory]))
    | named name =>
      cases found : tree.node (name :: place) with
      | none => exact .inr (.inl ⟨name :: place, by simp [Tree.look, directory, found]⟩)
      | some node =>
        have same := larger _ _ found
        exact .inr (.inr (by simp [Tree.look, directory, larger _ _ directory, found, same]))
  · refine .inl ?_
    unfold Tree.look
    split
    next found => exact absurd found directory
    next => rfl

/-- What was missing is found when it is made. -/
theorem walk_made (larger : tree.Extends tree') (made : tree'.node entry = some .directory)
    (walks : tree.walk false links place segments = .ok (links', .absent entry)) :
    tree'.walk true links place segments = .ok (links', .found entry) := by
  induction links, place, segments using walk_induct with
  | nil links place =>
    rw [walk_nil] at walks
    cases walks
  | cons links place segment rest ih lower =>
    rw [walk_cons] at walks ⊢
    obtain blocked | ⟨missed, misses⟩ | same := larger.look place segment
    · rw [blocked] at walks
      cases walks
    · rw [misses] at walks
      by_cases ends : rest = []
      · subst ends
        cases walks
        obtain ⟨directory, _, name, rfl, rfl⟩ := look_missing misses
        have leads : tree'.look place (.named name) = .at (name :: place) := by
          simp [Tree.look, larger _ _ directory, made]
        rw [leads]
        exact walk_nil
      · simp [ends] at walks
    · rw [same]
      split at walks
      next next leads => exact ih next walks
      next missed misses =>
        obtain ⟨_, absent, _⟩ := look_missing misses
        rw [misses] at same
        split at walks
        · cases walks
          rw [(look_missing same).2.1] at made
          cases made
        · cases walks
      next entry' target leads =>
        split at walks
        · cases walks
        next more =>
          have more' : ¬ (rest = [] ∧ true = false) := by simp
          rw [if_neg more']
          cases links with
          | zero => cases walks
          | succ links => exact lower links _ _ rfl walks
      · cases walks

/-! ## Parents -/

variable {path up : Path} {ups : List Path}

/-- A walk goes through the parent, which is a directory. -/
theorem walk_parent (parents : path.parents = up :: ups)
    (walks : tree.walk last links place path.segments = .ok (links', stop)) :
    ∃ between parent segment idle,
      tree.walk true links place up.segments = .ok (between, .found parent) ∧
      tree.node parent = some .directory ∧ (∀ other ∈ idle, other.idle = true) ∧
      segment ∈ path.segments ∧
      tree.walk last between parent (segment :: idle) = .ok (links', stop) := by
  obtain ⟨idle, segment, idle', all, split, _⟩ := Path.parents_cons parents
  have member : segment ∈ path.segments := by simp [split]
  rw [split, walk_append (by simp)] at walks
  obtain ⟨⟨between, reached⟩, first, second⟩ := Fallible.bind_ok.mp walks
  cases reached with
  | absent entry => cases second
  | found parent =>
    have second : tree.walk last between parent (idle ++ segment :: idle') = .ok (links', stop) :=
      second
    have directory : tree.node parent = some .directory := by
      cases idle with
      | nil => exact walk_directory second
      | cons other idle => exact walk_directory second
    rw [walk_append (by simp), walk_idle (fun other member => all other
      (List.mem_append_left _ member)) directory] at second
    exact ⟨between, parent, segment, idle', first, directory,
      fun other member => all other (List.mem_append_right _ member), member, second⟩

/-- A walk that does not follow a link from the parent misses an entry of the parent. -/
theorem walk_entry (idle : ∀ other ∈ rest, other.idle = true)
    (direct : last = false ∨ ∀ name, tree.node (name :: place) = none)
    (walks : tree.walk last links place (segment :: rest) = .ok (links', .absent entry)) :
    ∃ name, entry = name :: place := by
  rw [walk_cons] at walks
  split at walks
  next next leads => cases walk_idle_found idle walks
  next missed misses =>
    split at walks
    · cases walks
      obtain ⟨_, _, name, _, same⟩ := look_missing misses
      exact ⟨name, same⟩
    · cases walks
  next link target leads =>
    obtain ⟨present, name, rfl⟩ := look_link leads
    obtain rfl | childless := direct
    · split at walks
      · cases walks
      next more =>
        have filled : rest ≠ [] := fun none => more ⟨none, rfl⟩
        cases links with
        | zero => cases walks
        | succ links =>
          rw [follow, walk_append filled] at walks
          obtain ⟨⟨between, reached⟩, _, second⟩ := Fallible.bind_ok.mp walks
          cases reached with
          | absent entry => cases second
          | found parent => cases walk_idle_found idle second
    · rw [childless name] at present
      cases present
  · cases walks

/-! ## Paths -/

theorem resolve_ok : tree.resolve path = .ok stop ↔
    ∃ links, tree.walk true 40 [] path.segments = .ok (links, stop) := by
  rw [resolve]
  cases tree.walk true 40 [] path.segments with
  | error error => simp [Except.map]
  | ok result =>
    obtain ⟨links, stop'⟩ := result
    simp [Except.map]

theorem lookup_ok : tree.lookup path = .ok stop ↔
    ∃ links, tree.walk false 40 [] path.segments = .ok (links, stop) := by
  rw [lookup]
  cases tree.walk false 40 [] path.segments with
  | error error => simp [Except.map]
  | ok result =>
    obtain ⟨links, stop'⟩ := result
    simp [Except.map]

theorem resolve_exists (found : tree.resolve path = .ok (.found place)) :
    ∃ entry, tree.lookup path = .ok (.found entry) := by
  obtain ⟨links, walks⟩ := resolve_ok.mp found
  obtain ⟨links', entry, walks⟩ := walk_exists walks
  exact ⟨entry, lookup_ok.mpr ⟨links', walks⟩⟩

theorem resolve_made (larger : tree.Extends tree') (made : tree'.node entry = some .directory)
    (missing : tree.lookup path = .ok (.absent entry)) :
    tree'.resolve path = .ok (.found entry) := by
  obtain ⟨links, walks⟩ := lookup_ok.mp missing
  exact resolve_ok.mpr ⟨links, walk_made larger made walks⟩

theorem lookup_absent (parents : path.parents = up :: ups)
    (missing : tree.lookup path = .ok (.absent entry)) :
    ∃ parent name, tree.resolve up = .ok (.found parent) ∧ entry = name :: parent := by
  obtain ⟨links, walks⟩ := lookup_ok.mp missing
  obtain ⟨between, parent, segment, idle, first, _, all, _, second⟩ := walk_parent parents walks
  obtain ⟨name, same⟩ := walk_entry all (.inl rfl) second
  exact ⟨parent, name, resolve_ok.mpr ⟨between, first⟩, same⟩

theorem resolve_absent (parents : path.parents = up :: ups)
    (missing : tree.resolve path = .ok (.absent entry)) :
    ∃ parent, tree.resolve up = .ok (.found parent) ∧ tree.node parent = some .directory ∧
      ((∀ name, tree.node (name :: parent) = none) → ∃ name, entry = name :: parent) := by
  obtain ⟨links, walks⟩ := resolve_ok.mp missing
  obtain ⟨between, parent, segment, idle, first, directory, all, _, second⟩ :=
    walk_parent parents walks
  exact ⟨parent, resolve_ok.mpr ⟨between, first⟩, directory,
    fun childless => walk_entry all (.inr childless) second⟩

theorem resolve_direct (missing : tree.resolve path = .ok (.absent entry)) :
    (∃ link target, tree.lookup path = .ok (.found link) ∧ tree.node link = some (.link target)) ∨
      tree.lookup path = .ok (.absent entry) := by
  obtain ⟨links, walks⟩ := resolve_ok.mp missing
  obtain ⟨links', link, target, walks, present⟩ | walks := walk_direct walks
  · exact .inl ⟨link, target, lookup_ok.mpr ⟨links', walks⟩, present⟩
  · exact .inr (lookup_ok.mpr ⟨links, walks⟩)

/-- In an empty directory only the directory itself can be found. -/
theorem resolve_childless (parents : path.parents = up :: ups) (plain : .dotDot ∉ path.segments)
    (above : tree.resolve up = .ok (.found place))
    (childless : ∀ name, tree.node (name :: place) = none)
    (found : tree.resolve path = .ok (.found entry)) : entry = place := by
  obtain ⟨links, walks⟩ := resolve_ok.mp found
  obtain ⟨between, parent, segment, idle, first, directory, all, member, second⟩ :=
    walk_parent parents walks
  rw [resolve_ok.mpr ⟨between, first⟩] at above
  cases above
  have stays (idles : segment.idle = true) : entry = place := by
    cases walk_idle_found (List.forall_mem_cons.mpr ⟨idles, all⟩) second
    rfl
  cases segment with
  | empty => exact stays rfl
  | dot => exact stays rfl
  | dotDot => exact absurd member plain
  | named name =>
    have misses : tree.look place (.named name) = .missing (name :: place) := by
      simp [look, directory, childless]
    rw [walk_cons, misses] at second
    dsimp only at second
    split at second <;> cases second

/-- A path without a parent leads to the root. -/
theorem lookup_root (parents : path.parents = []) : tree.lookup path ≠ .ok (.absent entry) := by
  intro missing
  obtain ⟨links, walks⟩ := lookup_ok.mp missing
  cases walk_idle_found (Path.parents_nil parents) walks

theorem resolve_root (parents : path.parents = []) : tree.resolve path ≠ .ok (.absent entry) := by
  intro missing
  obtain ⟨links, walks⟩ := resolve_ok.mp missing
  cases walk_idle_found (Path.parents_nil parents) walks

theorem pathExists_iff :
    tree.pathExists path = true ↔ ∃ place, tree.resolve path = .ok (.found place) := by
  rw [pathExists]
  split
  next place found => simp [found]
  next missing =>
    constructor
    · intro none
      cases none
    · rintro ⟨place, found⟩
      exact absurd found (missing place)

theorem isDirectory_found (directory : tree.isDirectory path = true) :
    ∃ place, tree.resolve path = .ok (.found place) := by
  rw [isDirectory] at directory
  split at directory
  next place found => exact ⟨place, found⟩
  next => cases directory

/-! ## Calls -/

theorem writable_ok (opened : tree.writable path = .ok entry) :
    tree.resolve path = .ok (.found entry) ∨ tree.resolve path = .ok (.absent entry) := by
  rw [writable] at opened
  split at opened
  next found =>
    split at opened
    · cases opened
    · cases opened
      exact .inl found
  next missing =>
    cases opened
    exact .inr missing
  · cases opened

theorem put_node {name : Name} {node : Node} (housed : tree.node place = some .directory)
    (leaf : tree.node (name :: place) ≠ some .directory) :
    (tree.put (name :: place) node).node = Function.update tree.node (name :: place) (some node) := by
  rw [put, dif_pos ⟨housed, leaf⟩]
  rfl

/-- A directory is made where nothing was. -/
theorem vacancy_ok (vacant : tree.vacancy path = .ok entry) :
    tree.lookup path = .ok (.absent entry) ∧ tree.Extends (tree.put entry .directory) ∧
      (tree.put entry .directory).node entry = some .directory ∧
      ∀ name, (tree.put entry .directory).node (name :: entry) = none := by
  have missing : tree.lookup path = .ok (.absent entry) := by
    rw [vacancy] at vacant
    split at vacant
    · cases vacant
    next missing =>
      cases vacant
      exact missing
    · cases vacant
  obtain ⟨links, walks⟩ := lookup_ok.mp missing
  obtain ⟨absent, name, parent, rfl, directory⟩ := walk_absent walks
  have put : (tree.put (name :: parent) .directory).node = _ :=
    put_node directory (by simp [absent])
  refine ⟨missing, ?_, ?_, ?_⟩
  · intro place node present
    rw [put, Function.update_of_ne]
    · exact present
    · rintro rfl
      rw [absent] at present
      cases present
  · rw [put, Function.update_self]
  · intro child
    rw [put, Function.update_of_ne (by simp)]
    by_contra present
    have parent' := tree.nested child (name :: parent) present
    rw [absent] at parent'
    cases parent'

end Tree

end Nausicaa.Posix
