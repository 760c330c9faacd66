import Nausicaa.Posix.Path

/-! # File names

The last name of a path, its stem and its extension, as `std::path` finds them.  An entry of a
directory has the name it is listed under (`fileName_entry`), and the name of its parent is that of
the directory (`fileName_parent`). -/

namespace Nausicaa.Posix

/-- A name is split at its last dot, but for a dot that it starts with. -/
def rsplitFileAtDot (name : Name) : Option String × Option String :=
  let before := name.text.toList.rdropWhile (· ≠ '.')
  let after := name.text.toList.rtakeWhile (· ≠ '.')
  if before = [] then (none, some name.text)
  else if before.dropLast = [] then (some name.text, none)
  else (some (String.ofList before.dropLast), some (String.ofList after))

namespace Path

def fileName (path : Path) : Option Name :=
  match path.components.getLast? with
  | some (.normal name) => some name
  | _ => none

/-- `before.or(after)`. -/
def fileStem (path : Path) : Option String :=
  path.fileName.bind fun name => (rsplitFileAtDot name).1.or (rsplitFileAtDot name).2

/-- `before.and(after)`. -/
def extension (path : Path) : Option String :=
  path.fileName.bind fun name => (rsplitFileAtDot name).1.bind fun _ => (rsplitFileAtDot name).2

/-- The path of an entry of a directory. -/
def entry (directory : Path) (name : Name) : Path := directory.join ⟨false, [.named name]⟩

/-! ## Entries -/

variable {path : Path} {before : List Segment} {name : Name}

/-- Only segments that lead somewhere count. -/
theorem fileName_segments (path : Path) : path.fileName =
    match (path.segments.filterMap Segment.component).getLast? with
    | some (.normal name) => some name
    | _ => none := by
  rw [fileName, components]
  cases found : (path.segments.filterMap Segment.component).getLast? with
  | some last => rw [List.getLast?_append, found]; rfl
  | none =>
    rw [List.getLast?_append, found, Option.none_or]
    by_cases rooted : path.absolute = true
    · simp [rooted]
    · by_cases dotted : path.segments.head? = some .dot
      · simp [rooted, dotted]
      · simp [rooted, dotted]

theorem entry_segments (directory : Path) (name : Name) : ∃ before,
    (directory.entry name).segments = before ++ [.named name] ∧
      before.filterMap Segment.component = directory.segments.filterMap Segment.component := by
  rw [entry, join, if_neg (by simp)]
  split
  next ends =>
    -- The segment that is left out is the empty one behind a last slash.
    refine ⟨directory.segments.dropLast, rfl, ?_⟩
    obtain ⟨init, split⟩ := List.getLast?_eq_some_iff.mp ends
    simp [split, Segment.component]
  next => exact ⟨directory.segments, rfl, rfl⟩

@[simp] theorem fileName_entry (directory : Path) (name : Name) :
    (directory.entry name).fileName = some name := by
  obtain ⟨before, split, _⟩ := entry_segments directory name
  rw [fileName_segments, split]
  simp [Segment.component]

theorem filterMap_idle {segments : List Segment} :
    (segments.dropWhile Segment.idle).filterMap Segment.component =
      segments.filterMap Segment.component := by
  induction segments with
  | nil => rfl
  | cons segment segments ih =>
    cases segment with
    | empty => exact ih
    | dot => exact ih
    | dotDot => rfl
    | named name => rfl

theorem fileName_parent (directory : Path) (name : Name) :
    (directory.entry name).parent.bind fileName = directory.fileName := by
  obtain ⟨before, split, same⟩ := entry_segments directory name
  have up : (directory.entry name).parent =
      some ⟨(directory.entry name).absolute, (before.reverse.dropWhile Segment.idle).reverse⟩ := by
    simp [parent, parents, split, parentsFrom]
  rw [up, Option.bind_some, fileName_segments, fileName_segments, ← same]
  simp only [List.filterMap_reverse, filterMap_idle, List.reverse_reverse]

end Path

end Nausicaa.Posix
