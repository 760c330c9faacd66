import Mathlib.Data.List.DropRight
import Mathlib.Data.List.Infix

/-! # Paths

A path is the text between its slashes, dots and empty names included, and what `std::path` makes of
it: components, prefixes, parents.  The text of an absolute path is read back as that path
(`Path.parse_text`). -/

namespace Nausicaa.Posix

/-- The name of an entry of a directory. -/
structure Name where
  text : String
  filled : text ≠ ""
  notSelf : text ≠ "."
  notParent : text ≠ ".."
  whole : '/' ∉ text.toList
  deriving DecidableEq

/-- What stands between two slashes. -/
inductive Segment where
  | empty | dot | dotDot
  | named (name : Name)
  deriving DecidableEq

namespace Segment

def text : Segment → String
  | .empty => ""
  | .dot => "."
  | .dotDot => ".."
  | .named name => name.text

def parse (text : String) : Segment :=
  if filled : text = "" then .empty
  else if notSelf : text = "." then .dot
  else if notParent : text = ".." then .dotDot
  -- Texts between slashes have none themselves.
  else if whole : '/' ∈ text.toList then .empty
  else .named ⟨text, filled, notSelf, notParent, whole⟩

theorem parse_text (segment : Segment) : parse segment.text = segment := by
  cases segment with
  | empty => rfl
  | dot => rfl
  | dotDot => rfl
  | named name => simp [parse, text, name.filled, name.notSelf, name.notParent, name.whole]

theorem whole (segment : Segment) : '/' ∉ segment.text.toList := by
  cases segment with
  | empty => decide
  | dot => decide
  | dotDot => decide
  | named name => exact name.whole

/-- The segment stays where it is. -/
def idle : Segment → Bool
  | .empty | .dot => true
  | .dotDot | .named _ => false

end Segment

/-- `std::path::Component`. -/
inductive Component where
  | rootDir | curDir | parentDir
  | normal (name : Name)
  deriving DecidableEq

def Segment.component : Segment → Option Component
  | .empty | .dot => none
  | .dotDot => some .parentDir
  | .named name => some (.normal name)

structure Path where
  absolute : Bool
  segments : List Segment
  deriving DecidableEq

namespace Path

def split (chars : List Char) : List Segment :=
  (chars.splitOn '/').map fun part => Segment.parse (String.ofList part)

def parse (text : String) : Path :=
  match text.toList with
  | '/' :: chars => ⟨true, split chars⟩
  | chars => ⟨false, split chars⟩

def body (path : Path) : List Char :=
  ['/'].intercalate (path.segments.map fun segment => segment.text.toList)

def text (path : Path) : String :=
  String.ofList (if path.absolute then '/' :: path.body else path.body)

def components (path : Path) : List Component :=
  (if path.absolute then [.rootDir]
    else if path.segments.head? = some .dot then [.curDir] else []) ++
    path.segments.filterMap Segment.component

def StartsWith (path base : Path) : Prop := base.components <+: path.components

instance (path base : Path) : Decidable (path.StartsWith base) := by
  unfold StartsWith
  infer_instance

/-- A base that ends with a slash gets no other one. -/
def join (base path : Path) : Path :=
  if path.absolute then path
  else if base.segments.getLast? = some .empty then
    ⟨base.absolute, base.segments.dropLast ++ path.segments⟩
  else ⟨base.absolute, base.segments ++ path.segments⟩

/-- The parents, the nearest first, of segments that are given the last first. -/
def parentsFrom : List Segment → List (List Segment)
  | [] => []
  | .empty :: before | .dot :: before => parentsFrom before
  | .dotDot :: before | .named _ :: before =>
    before.dropWhile Segment.idle :: parentsFrom before

/-- What `parent` gives, again and again, of a path that does not start with a dot. -/
def parents (path : Path) : List Path :=
  (parentsFrom path.segments.reverse).map fun segments => ⟨path.absolute, segments.reverse⟩

def parent (path : Path) : Option Path := path.parents.head?

/-! ## Texts -/

theorem split_body (path : Path) (filled : path.segments ≠ []) :
    split path.body = path.segments := by
  have whole : ∀ part ∈ path.segments.map fun segment => segment.text.toList, '/' ∉ part := by
    intro part member
    obtain ⟨segment, _, rfl⟩ := List.mem_map.mp member
    exact segment.whole
  have back : (fun part => Segment.parse (String.ofList part)) ∘
      (fun segment : Segment => segment.text.toList) = id := by
    funext segment
    simp [Segment.parse_text]
  rw [split, body, List.splitOn_intercalate '/' whole (by simpa using filled), List.map_map, back,
    List.map_id]

theorem parse_text {path : Path} (absolute : path.absolute = true) (filled : path.segments ≠ []) :
    parse path.text = path := by
  cases path with
  | mk rooted segments =>
    cases absolute
    simp [parse, text, split_body _ filled]

theorem split_ne_nil (chars : List Char) : split chars ≠ [] := by
  simp [split, List.splitOn_ne_nil]

theorem parse_segments_ne_nil (text : String) : (parse text).segments ≠ [] := by
  rw [parse]
  split <;> exact split_ne_nil _

/-! ## Parents -/

theorem parentsFrom_dropWhile (segments : List Segment) :
    parentsFrom (segments.dropWhile Segment.idle) = parentsFrom segments := by
  induction segments with
  | nil => rfl
  | cons segment before ih =>
    cases segment with
    | empty => exact ih
    | dot => exact ih
    | dotDot => rfl
    | named name => rfl

theorem parentsFrom_cons {segments up : List Segment} {ups : List (List Segment)}
    (parents : parentsFrom segments = up :: ups) :
    ∃ idle segment idle', (∀ other ∈ idle ++ idle', other.idle = true) ∧
      segments = idle' ++ segment :: (idle ++ up) ∧ parentsFrom up = ups := by
  induction segments with
  | nil => cases parents
  | cons segment before ih =>
    have skip (stays : segment.idle = true) (later : parentsFrom before = up :: ups) :
        ∃ idle segment' idle', (∀ other ∈ idle ++ idle', other.idle = true) ∧
          segment :: before = idle' ++ segment' :: (idle ++ up) ∧ parentsFrom up = ups := by
      obtain ⟨idle, segment', idle', all, rfl, rest⟩ := ih later
      refine ⟨idle, segment', segment :: idle', ?_, rfl, rest⟩
      intro other member
      simp only [List.mem_append, List.mem_cons] at member all
      obtain member | rfl | member := member
      · exact all other (.inl member)
      · exact stays
      · exact all other (.inr member)
    have stop (parts : before.dropWhile Segment.idle :: parentsFrom before =
        up :: ups) :
        ∃ idle segment' idle', (∀ other ∈ idle ++ idle', other.idle = true) ∧
          segment :: before = idle' ++ segment' :: (idle ++ up) ∧ parentsFrom up = ups := by
      cases parts
      refine ⟨before.takeWhile Segment.idle, segment, [], ?_, ?_,
        parentsFrom_dropWhile before⟩
      · intro other member
        rw [List.append_nil] at member
        exact List.mem_takeWhile_imp member
      · rw [List.takeWhile_append_dropWhile]
        rfl
    cases segment with
    | empty => exact skip rfl parents
    | dot => exact skip rfl parents
    | dotDot => exact stop parents
    | named name => exact stop parents

theorem parentsFrom_nil {segments : List Segment} (parents : parentsFrom segments = []) :
    ∀ segment ∈ segments, segment.idle = true := by
  induction segments with
  | nil => simp
  | cons segment before ih =>
    cases segment with
    | empty => exact List.forall_mem_cons.mpr ⟨rfl, ih parents⟩
    | dot => exact List.forall_mem_cons.mpr ⟨rfl, ih parents⟩
    | dotDot => cases parents
    | named name => cases parents

/-- A path without a parent goes nowhere. -/
theorem parents_nil {path : Path} (parents : path.parents = []) :
    ∀ segment ∈ path.segments, segment.idle = true := by
  intro segment member
  exact parentsFrom_nil (List.map_eq_nil_iff.mp parents) segment (List.mem_reverse.mpr member)

/-- A path is its parent, one segment that leads somewhere, and segments that do not. -/
theorem parents_cons {path up : Path} {ups : List Path} (parents : path.parents = up :: ups) :
    ∃ idle segment idle', (∀ other ∈ idle ++ idle', other.idle = true) ∧
      path.segments = up.segments ++ (idle ++ segment :: idle') ∧ up.parents = ups := by
  rw [Path.parents] at parents
  obtain ⟨first, others, found, rfl, rfl⟩ := List.map_eq_cons_iff.mp parents
  obtain ⟨idle, segment, idle', all, split, rest⟩ := parentsFrom_cons found
  refine ⟨idle.reverse, segment, idle'.reverse, ?_, ?_, ?_⟩
  · intro other member
    apply all
    simpa using member
  · rw [← List.reverse_reverse path.segments, split]
    simp
  · simp [Path.parents, rest]

end Path

end Nausicaa.Posix
