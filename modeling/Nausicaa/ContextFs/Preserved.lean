import Nausicaa.ContextFs.Publishing

/-! # What every step keeps

Under the discipline of `permit` what is published stays as it is (`Disk.Extends`), a file that
is written is its call's alone (`Draft.Held`), and what calls were answered stays true
(`Disk.Remembers`); together they are the invariant `Consistent` of any number of calls side by
side. -/

namespace Nausicaa.ContextFs

namespace Disk

/-- Directories and published files stay as they are. -/
structure Extends (disk disk' : Disk) : Prop where
  directories : ∀ directory fileType, disk.directories directory = some fileType →
    disk'.directories directory = some fileType
  files : ∀ path entry, ¬ path.Pending → disk.files path = some entry →
    disk'.files path = some entry
  contents : ∀ path inode, ¬ path.Pending → disk.files path = some (.file inode) →
    disk'.contents inode = disk.contents inode

theorem Extends.refl (disk : Disk) : Extends disk disk :=
  ⟨fun _ _ found => found, fun _ _ _ found => found, fun _ _ _ _ => rfl⟩

theorem Extends.trans {disk disk' disk'' : Disk} (first : Extends disk disk')
    (second : Extends disk' disk'') : Extends disk disk'' where
  directories directory fileType found :=
    second.directories _ _ (first.directories directory fileType found)
  files path entry published found :=
    second.files path entry published (first.files path entry published found)
  contents path inode published found :=
    (second.contents path inode published (first.files path _ published found)).trans
      (first.contents path inode published found)

/-- The path shows a published file with these bytes. -/
def Holds (disk : Disk) (path : ArchivePath) (bytes : Bytes) : Prop :=
  ¬ path.Pending ∧ ∃ inode, disk.files path = some (.file inode) ∧ disk.contents inode = bytes

theorem Holds.extends {disk disk' : Disk} {path : ArchivePath} {bytes : Bytes}
    (holds : disk.Holds path bytes) (extended : Extends disk disk') : disk'.Holds path bytes := by
  obtain ⟨published, inode, found, filled⟩ := holds
  refine ⟨published, inode, extended.files path _ published found, ?_⟩
  exact (extended.contents path inode published found).trans filled

/-- Some snapshot has the contents of the inode. -/
def Published (disk : Disk) (inode : Inode) : Prop :=
  ∃ path, ¬ path.Pending ∧ disk.files path = some (.file inode)

/-- What the answer told is still so. -/
def Remembers (disk : Disk) : Event → Prop
  | ⟨.file (.directoryMetadata directory), .ok fileType⟩ =>
      disk.directories directory = some fileType
  | ⟨.file (.metadata path), .ok metadata⟩ => ¬ path.Pending ∧
      ∃ entry, disk.files path = some entry ∧ disk.Describes entry metadata
  | ⟨.file (.openFile path), .ok inode⟩ => ¬ path.Pending ∧ disk.files path = some (.file inode)
  | ⟨.file (.length inode), .ok length⟩ => disk.Published inode ∧
      length = (disk.contents inode).length
  | ⟨.file (.readAt inode offset limit), .ok bytes⟩ => disk.Published inode ∧
      bytes = ((disk.contents inode).drop offset).take limit
  | _ => True

theorem Published.extends {disk disk' : Disk} {inode : Inode} (published : disk.Published inode)
    (extended : Extends disk disk') :
    disk'.Published inode ∧ disk'.contents inode = disk.contents inode := by
  obtain ⟨path, final, found⟩ := published
  exact ⟨⟨path, final, extended.files path _ final found⟩, extended.contents path inode final found⟩

theorem Describes.extends {disk disk' : Disk} {path : ArchivePath} {entry : Entry}
    {metadata : Metadata} (describes : disk.Describes entry metadata) (final : ¬ path.Pending)
    (found : disk.files path = some entry) (extended : Extends disk disk') :
    disk'.Describes entry metadata := by
  cases entry with
  | file inode =>
    rw [Describes, extended.contents path inode final found]
    exact describes
  | directory => exact describes
  | symlink => exact describes

theorem Remembers.extends {disk disk' : Disk} {event : Event} (remembers : disk.Remembers event)
    (extended : Extends disk disk') : disk'.Remembers event := by
  obtain ⟨op, answer⟩ := event
  cases op with
  | file op =>
    cases answer with
    | error error => cases op <;> exact True.intro
    | ok result =>
      cases op with
      | directoryMetadata directory => exact extended.directories _ _ remembers
      | metadata path =>
        obtain ⟨final, entry, found, describes⟩ := remembers
        exact ⟨final, entry, extended.files path _ final found,
          describes.extends final found extended⟩
      | openFile path => exact ⟨remembers.1, extended.files path _ remembers.1 remembers.2⟩
      | length inode =>
        obtain ⟨published, same⟩ := remembers.1.extends extended
        have told : result = (disk.contents inode).length := remembers.2
        exact ⟨published, by rw [same]; exact told⟩
      | readAt inode offset limit =>
        obtain ⟨published, same⟩ := remembers.1.extends extended
        have told : result = ((disk.contents inode).drop offset).take limit := remembers.2
        exact ⟨published, by rw [same]; exact told⟩
      | _ => exact True.intro
  | _ => exact True.intro

end Disk

/-! ## One step -/

section Moves

variable {call : Call} {disk disk' : Disk} {own : Own} {draft draft' : Option Draft}
variable {published : Option (ArchivePath × Bytes)}

theorem Draft.Held.unpublished {draft : Draft} {disk : Disk} (held : draft.Held disk)
    (unfinished : draft.stage ≠ .closed) : disk.Unpublished draft.inode := by
  have filled := held.filled
  cases stage : draft.stage with
  | empty =>
    rw [stage] at filled
    exact filled.2
  | written bytes =>
    rw [stage] at filled
    exact filled.2
  | closed => exact absurd stage unfinished

/-- A step leaves what is published. -/
theorem Moves.extends (wellFormed : disk.WellFormed)
    (held : ∀ draft, own.draft = some draft → draft.Held disk)
    (moved : Moves call disk own disk' draft' published) : disk.Extends disk' := by
  cases moved with
  | same locked weaker =>
    exact ⟨fun _ _ found => found, fun _ _ _ found => found, fun _ _ _ _ => rfl⟩
  | @directory path about absent =>
    refine ⟨?_, fun _ _ _ found => found, fun _ _ _ _ => rfl⟩
    intro directory fileType found
    have other : directory ≠ path.directory := by
      intro same
      rw [same, absent] at found
      cases found
    exact (Function.update_of_ne other _ _).trans found
  | @created path pending bytes draft' publishes isPending housed absent made =>
    refine ⟨fun _ _ found => found, ?_, ?_⟩
    · intro path entry final found
      have other : path ≠ pending := by
        intro same
        rw [same, absent] at found
        cases found
      exact (Function.update_of_ne other _ _).trans found
    · intro path inode final found
      have old := wellFormed.fresh path inode found
      exact Function.update_of_ne (Nat.ne_of_lt old) _ _
  | @wrote path pending inode bytes bytes' stage publishes current done =>
    refine ⟨fun _ _ found => found, fun _ _ _ found => found, ?_⟩
    intro path inode' final found
    have unpublished := (held _ current).unpublished (by simp)
    have other : inode' ≠ inode := by
      intro same
      rw [same] at found
      exact final (unpublished path found)
    exact Function.update_of_ne other _ _
  | @linked source target inode bytes published publishes current housed absent made =>
    refine ⟨fun _ _ found => found, ?_, fun _ _ _ _ => rfl⟩
    intro path entry final found
    have other : path ≠ target := by
      intro same
      rw [same, absent] at found
      cases found
    exact (Function.update_of_ne other _ _).trans found
  | @removed path bytes draft publishes current =>
    refine ⟨fun _ _ found => found, ?_, fun _ _ _ _ => rfl⟩
    intro path entry final found
    have other : path ≠ draft.path := by
      intro same
      rw [same] at final
      exact final (held _ current).pending
    exact (Function.update_of_ne other _ _).trans found

theorem Draft.Held.old {draft : Draft} (held : draft.Held disk) (wellFormed : disk.WellFormed) :
    draft.inode < disk.next := wellFormed.fresh _ _ held.kept

/-- A file that is written is not disturbed by what leaves its name, its contents and the other
names of it. -/
theorem Draft.Held.mono {draft : Draft} (held : draft.Held disk)
    (kept : disk'.files draft.path = disk.files draft.path)
    (contents : disk'.contents draft.inode = disk.contents draft.inode)
    (names : ∀ path, disk'.files path = some (.file draft.inode) → ¬ path.Pending →
      disk.files path = some (.file draft.inode)) : draft.Held disk' := by
  have unpublished : disk.Unpublished draft.inode → disk'.Unpublished draft.inode := by
    intro unpublished path found
    by_cases isPending : path.Pending
    · exact isPending
    · exact unpublished path (names path found isPending)
  refine ⟨held.pending, kept.trans held.kept, ?_⟩
  have filled := held.filled
  cases stage : draft.stage with
  | empty =>
    rw [stage] at filled
    exact ⟨contents.trans filled.1, unpublished filled.2⟩
  | written bytes =>
    rw [stage] at filled
    exact ⟨contents.trans filled.1, unpublished filled.2⟩
  | closed => trivial

section Updates

variable {path : ArchivePath} {inode : Inode}

theorem Draft.Held.withNew {draft : Draft} (held : draft.Held disk) (wellFormed : disk.WellFormed)
    (isPending : path.Pending) (absent : disk.files path = none) :
    draft.Held (disk.withNew path) := by
  have apart : draft.path ≠ path := by
    intro same
    rw [← same, held.kept] at absent
    cases absent
  apply held.mono
  · exact Function.update_of_ne apart _ _
  · exact Function.update_of_ne (Nat.ne_of_lt (held.old wellFormed)) _ _
  · intro path' found final
    have apart : path' ≠ path := by
      intro same
      exact final (same ▸ isPending)
    exact (Function.update_of_ne apart _ _).symm.trans found

theorem Draft.Held.withContents {draft : Draft} (held : draft.Held disk)
    (other : draft.inode ≠ inode) (bytes : Bytes) : draft.Held (disk.withContents inode bytes) := by
  apply held.mono
  · rfl
  · exact Function.update_of_ne other _ _
  · intro path found _
    exact found

theorem Draft.Held.withLink {draft : Draft} (held : draft.Held disk) (final : ¬ path.Pending)
    (other : draft.inode ≠ inode) : draft.Held (disk.withFile path (some (.file inode))) := by
  apply held.mono
  · have apart : draft.path ≠ path := by
      intro same
      exact final (same ▸ held.pending)
    exact Function.update_of_ne apart _ _
  · rfl
  · intro path' found _
    by_cases same : path' = path
    · subst same
      have linked : some (Entry.file inode) = some (.file draft.inode) :=
        (Function.update_self path' _ disk.files).symm.trans found
      exact absurd (Entry.file.inj (Option.some.inj linked)).symm other
    · exact (Function.update_of_ne same _ _).symm.trans found

theorem Draft.Held.withoutFile {draft : Draft} (held : draft.Held disk)
    (apart : draft.path ≠ path) : draft.Held (disk.withFile path none) := by
  apply held.mono
  · exact Function.update_of_ne apart _ _
  · rfl
  · intro path' found _
    by_cases same : path' = path
    · subst same
      have gone : none = some (Entry.file draft.inode) :=
        (Function.update_self path' _ disk.files).symm.trans found
      cases gone
    · exact (Function.update_of_ne same _ _).symm.trans found

/-- A file that is not written any more is its call's whatever shows it. -/
theorem Draft.Held.closed {draft : Draft} (pending : draft.path.Pending)
    (kept : disk.files draft.path = some (.file draft.inode)) : draft.close.Held disk :=
  ⟨pending, kept, trivial⟩

end Updates

/-- A step leaves the files that other calls write. -/
theorem Moves.held_other {draft : Draft} (wellFormed : disk.WellFormed)
    (mine : ∀ draft, own.draft = some draft → draft.Held disk) (held : draft.Held disk)
    (other : ∀ mine, own.draft = some mine → draft.inode ≠ mine.inode)
    (moved : Moves call disk own disk' draft' published) : draft.Held disk' := by
  cases moved with
  | same locked weaker => exact held.mono rfl rfl fun _ found _ => found
  | directory about absent => exact held.mono rfl rfl fun _ found _ => found
  | created publishes isPending housed absent made => exact held.withNew wellFormed isPending absent
  | wrote publishes current done => exact held.withContents (other _ current) _
  | linked publishes current housed absent made =>
    exact held.withLink publishes.1.at_path.not_pending (other _ current)
  | @removed path bytes draft' publishes current =>
    apply held.withoutFile
    intro same
    have found := held.kept
    rw [same, (mine _ current).kept] at found
    exact other _ current (Entry.file.inj (Option.some.inj found)).symm

theorem Weaker.held (weaker : Weaker draft' draft)
    (held : ∀ mine, draft = some mine → mine.Held disk) :
    ∀ mine, draft' = some mine → mine.Held disk := by
  intro mine found
  obtain rfl | rfl | rfl := weaker
  · exact held mine found
  · obtain ⟨before, current, rfl⟩ := Option.map_eq_some_iff.mp found
    exact .closed (held before current).pending (held before current).kept
  · cases found

/-- The file that a call writes is its own behind each of its steps. -/
theorem Moves.held_own (wellFormed : disk.WellFormed)
    (held : ∀ draft, own.draft = some draft → draft.Held disk)
    (moved : Moves call disk own disk' draft' published) :
    ∀ draft, draft' = some draft → draft.Held disk' := by
  intro draft found
  cases moved with
  | same locked weaker =>
    exact (weaker.held held draft found).mono rfl rfl fun _ found _ => found
  | directory about absent => exact (held draft found).mono rfl rfl fun _ found _ => found
  | @created path pending bytes draft' publishes isPending housed absent made =>
    obtain rfl | rfl := made
    · cases found
      refine ⟨isPending, Function.update_self _ _ _, Function.update_self _ _ _, ?_⟩
      -- Only the new name shows the new file.
      intro path' shown
      by_cases same : path' = pending
      · exact same ▸ isPending
      · have before := (Function.update_of_ne same _ _).symm.trans shown
        exact absurd (wellFormed.fresh _ _ before) (Nat.lt_irrefl _)
    · exact (held draft found).withNew wellFormed isPending absent
  | @wrote path pending inode bytes bytes' stage publishes current done =>
    rw [current] at found
    cases found
    have before := held _ current
    refine ⟨before.pending, before.kept, ?_⟩
    obtain ⟨rfl, rfl⟩ | rfl := done
    · have empty : disk.contents inode = [] := before.filled.1
      refine ⟨?_, before.filled.2⟩
      exact (Function.update_self _ _ _).trans (by rw [empty, List.nil_append])
    · trivial
  | @linked source target inode bytes published publishes current housed absent made =>
    rw [current] at found
    cases found
    have before := held _ current
    have apart : source ≠ target := by
      intro same
      exact publishes.1.at_path.not_pending (same ▸ before.pending)
    exact ⟨before.pending, (Function.update_of_ne apart _ _).trans before.kept, trivial⟩
  | removed publishes current => cases found

theorem Moves.wellFormed (wellFormed : disk.WellFormed)
    (held : ∀ draft, own.draft = some draft → draft.Held disk)
    (moved : Moves call disk own disk' draft' published) : disk'.WellFormed := by
  cases moved with
  | same locked weaker => exact ⟨wellFormed.fresh, wellFormed.housed⟩
  | @directory path about absent =>
    refine ⟨wellFormed.fresh, ?_⟩
    intro path' present
    by_cases same : path'.directory = path.directory
    · have made := Function.update_self path.directory (some FileType.directory) disk.directories
      rw [same]
      intro gone
      cases made.symm.trans gone
    · have kept := Function.update_of_ne same (some FileType.directory) disk.directories
      intro gone
      exact wellFormed.housed path' present (kept.symm.trans gone)
  | @created path pending bytes draft' publishes isPending housed absent made =>
    constructor
    · intro path' inode found
      by_cases same : path' = pending
      · subst same
        have new := (Function.update_self path' _ _).symm.trans found
        cases new
        exact Nat.lt_succ_self _
      · have before := (Function.update_of_ne same _ _).symm.trans found
        exact Nat.lt_succ_of_lt (wellFormed.fresh path' inode before)
    · intro path' present
      by_cases same : path' = pending
      · exact same ▸ housed
      · apply wellFormed.housed path'
        intro gone
        exact present ((Function.update_of_ne same _ _).trans gone)
  | wrote publishes current done => exact ⟨wellFormed.fresh, wellFormed.housed⟩
  | @linked source target inode bytes published publishes current housed absent made =>
    constructor
    · intro path' inode' found
      by_cases same : path' = target
      · subst same
        have linked := (Function.update_self path' _ _).symm.trans found
        cases linked
        exact (held _ current).old wellFormed
      · exact wellFormed.fresh path' inode' ((Function.update_of_ne same _ _).symm.trans found)
    · intro path' present
      by_cases same : path' = target
      · exact same ▸ housed
      · apply wellFormed.housed path'
        intro gone
        exact present ((Function.update_of_ne same _ _).trans gone)
  | @removed path bytes draft publishes current =>
    constructor
    · intro path' inode found
      by_cases same : path' = draft.path
      · subst same
        cases (Function.update_self draft.path _ _).symm.trans found
      · exact wellFormed.fresh path' inode ((Function.update_of_ne same _ _).symm.trans found)
    · intro path' present
      by_cases same : path' = draft.path
      · subst same
        exact absurd (Function.update_self draft.path _ _) present
      · apply wellFormed.housed path'
        intro gone
        exact present ((Function.update_of_ne same _ _).trans gone)

/-- A call goes on with the file that it wrote, or with a new one. -/
theorem Moves.inode (moved : Moves call disk own disk' draft' published) {draft : Draft}
    (made : draft' = some draft) :
    (∃ mine, own.draft = some mine ∧ draft.inode = mine.inode) ∨ draft.inode = disk.next := by
  cases moved with
  | same locked weaker =>
    obtain rfl | rfl | rfl := weaker
    · exact .inl ⟨draft, made, rfl⟩
    · obtain ⟨mine, current, rfl⟩ := Option.map_eq_some_iff.mp made
      exact .inl ⟨mine, current, rfl⟩
    · cases made
  | directory about absent => exact .inl ⟨draft, made, rfl⟩
  | created publishes isPending housed absent new =>
    obtain rfl | rfl := new
    · cases made
      exact .inr rfl
    · exact .inl ⟨draft, made, rfl⟩
  | wrote publishes current done =>
    obtain ⟨mine, current, rfl⟩ := Option.map_eq_some_iff.mp made
    exact .inl ⟨mine, current, rfl⟩
  | linked publishes current housed absent new =>
    obtain ⟨mine, current, rfl⟩ := Option.map_eq_some_iff.mp made
    exact .inl ⟨mine, current, rfl⟩
  | removed publishes current => cases made

/-- What a call has published is there. -/
theorem Moves.holds (wellFormed : disk.WellFormed)
    (held : ∀ draft, own.draft = some draft → draft.Held disk)
    (before : ∀ path bytes, own.published = some (path, bytes) → disk.Holds path bytes)
    (moved : Moves call disk own disk' draft' published) :
    ∀ path bytes, published = some (path, bytes) → disk'.Holds path bytes := by
  intro path bytes made
  have extended := moved.extends wellFormed held
  cases moved with
  | @linked source target inode bytes' published publishes current housed absent linked =>
    obtain rfl | rfl := linked
    · cases made
      have filled : disk.contents inode = bytes := (held _ current).filled.1
      exact ⟨publishes.1.at_path.not_pending, inode, Function.update_self _ _ _, filled⟩
    · exact (before path bytes made).extends extended
  | _ => exact (before path bytes made).extends extended

/-- Snapshots come from calls that keep their bytes. -/
theorem Moves.origin (held : ∀ draft, own.draft = some draft → draft.Held disk)
    (moved : Moves call disk own disk' draft' published) {path : ArchivePath} {inode : Inode}
    (final : ¬ path.Pending) (found : disk'.files path = some (.file inode)) :
    disk.files path = some (.file inode) ∨ call.Retains path (disk'.contents inode) := by
  cases moved with
  | @created path' pending bytes draft' publishes isPending housed absent made =>
    have other : path ≠ pending := by
      intro same
      exact final (same ▸ isPending)
    exact .inl ((Function.update_of_ne other _ _).symm.trans found)
  | @linked source target inode' bytes published publishes current housed absent linked =>
    by_cases same : path = target
    · subst same
      cases (Function.update_self path _ _).symm.trans found
      have filled : disk.contents inode = bytes := (held _ current).filled.1
      right
      exact filled ▸ publishes.1
    · exact .inl ((Function.update_of_ne same _ _).symm.trans found)
  | @removed path' bytes draft publishes current =>
    have other : path ≠ draft.path := by
      intro same
      exact final (same ▸ (held _ current).pending)
    exact .inl ((Function.update_of_ne other _ _).symm.trans found)
  | _ => exact .inl found

/-- What an answer tells is so. -/
theorem remembers_new {op : Op} {answer : op.Answer}
    (history : ∀ event ∈ own.history, disk.Remembers event) (permitted : permit call own op)
    (effect : disk.Effect op answer disk') : disk'.Remembers ⟨op, answer⟩ := by
  cases op with
  | file op =>
    cases answer with
    | error error => cases op <;> exact True.intro
    | ok result =>
      cases op with
      | directoryMetadata directory =>
        obtain ⟨found, rfl⟩ := effect
        exact found
      | metadata path =>
        have about : call.At path := permitted
        obtain ⟨⟨entry, found, describes⟩, rfl⟩ := effect
        exact ⟨about.not_pending, entry, found, describes⟩
      | openFile path =>
        obtain ⟨about, length, saw⟩ := permitted
        obtain ⟨final, entry, found, describes⟩ := history _ saw
        obtain ⟨file | link, rfl⟩ := effect
        · exact ⟨final, file⟩
        · cases link.symm.trans found
          cases describes
      | length inode =>
        obtain ⟨path, about, shown⟩ := permitted
        obtain ⟨same, rfl⟩ := effect
        obtain ⟨final, found⟩ := history _ shown
        exact ⟨⟨path, final, found⟩, same⟩
      | readAt inode offset limit =>
        obtain ⟨path, about, shown⟩ := permitted
        obtain ⟨same, rfl⟩ := effect
        obtain ⟨final, found⟩ := history _ shown
        exact ⟨⟨path, final, found⟩, same⟩
      | _ => exact True.intro
  | _ => exact True.intro

end Moves

/-! ## All calls -/

/-- What holds of the disk and of the calls, with every snapshot there was at first or that a
call keeps. -/
structure Consistent (initial disk : Disk) (owned : List (Call × Own)) : Prop where
  wellFormed : disk.WellFormed
  held : ∀ entry ∈ owned, ∀ draft, entry.2.draft = some draft → draft.Held disk
  distinct : ∀ (index index' : Nat) (entry entry' : Call × Own) (draft draft' : Draft),
    owned[index]? = some entry → owned[index']? = some entry' → entry.2.draft = some draft →
    entry'.2.draft = some draft' → draft.inode = draft'.inode → index = index'
  remembers : ∀ entry ∈ owned, ∀ event ∈ entry.2.history, disk.Remembers event
  published : ∀ entry ∈ owned, ∀ path bytes, entry.2.published = some (path, bytes) →
    disk.Holds path bytes
  grown : initial.Extends disk
  origin : ∀ path inode, ¬ path.Pending → disk.files path = some (.file inode) →
    initial.files path = some (.file inode) ∨
      ∃ entry ∈ owned, entry.1.Retains path (disk.contents inode)

section Consistent

variable {initial disk disk' : Disk} {owned : List (Call × Own)} {index : Nat} {call : Call}
variable {own own' : Own} {op : Op} {answer : op.Answer}

theorem Consistent.start (wellFormed : initial.WellFormed) : Consistent initial initial [] where
  wellFormed := wellFormed
  held := by simp
  distinct := by simp
  remembers := by simp
  published := by simp
  grown := .refl initial
  origin path inode final found := .inl found

theorem mem_set_self (present : owned[index]? = some (call, own)) :
    (call, own') ∈ owned.set index (call, own') := by
  have bound := (List.getElem?_eq_some_iff.mp present).1
  exact List.mem_set bound _

/-- A call whose own part changes keeps the invariant when the new part satisfies it. -/
theorem Consistent.set (consistent : Consistent initial disk owned)
    (present : owned[index]? = some (call, own)) (wellFormed : disk'.WellFormed)
    (extended : disk.Extends disk') (heldOwn : ∀ draft, own'.draft = some draft → draft.Held disk')
    (heldOther : ∀ draft : Draft, draft.Held disk →
      (∀ mine, own.draft = some mine → draft.inode ≠ mine.inode) → draft.Held disk')
    (inodes : ∀ draft, own'.draft = some draft →
      (∃ mine, own.draft = some mine ∧ draft.inode = mine.inode) ∨ draft.inode = disk.next)
    (remembers : ∀ event ∈ own'.history, disk'.Remembers event)
    (published : ∀ path bytes, own'.published = some (path, bytes) → disk'.Holds path bytes)
    (origin : ∀ path inode, ¬ path.Pending → disk'.files path = some (.file inode) →
      disk.files path = some (.file inode) ∨ call.Retains path (disk'.contents inode)) :
    Consistent initial disk' (owned.set index (call, own')) := by
  have bound := (List.getElem?_eq_some_iff.mp present).1
  have mine := List.mem_of_getElem? present
  have others : ∀ entry ∈ owned.set index (call, own'), entry = (call, own') ∨
      entry ∈ owned ∧ ∀ draft, entry.2.draft = some draft →
        ∀ before, own.draft = some before → draft.inode ≠ before.inode := by
    intro entry member
    obtain ⟨place, found⟩ := List.mem_iff_getElem?.mp member
    by_cases same : place = index
    · subst same
      rw [List.getElem?_set_self bound] at found
      exact .inl (Option.some.inj found).symm
    · rw [List.getElem?_set_ne (Ne.symm same)] at found
      refine .inr ⟨List.mem_of_getElem? found, ?_⟩
      intro draft current before current' shared
      exact same (consistent.distinct _ _ _ _ _ _ found present current current' shared)
  -- A file made now is none that another call writes.
  have apart : ∀ (place : Nat) (entry : Call × Own) (draft draft' : Draft), place ≠ index →
      owned[place]? = some entry → entry.2.draft = some draft → own'.draft = some draft' →
      draft.inode ≠ draft'.inode := by
    intro place entry draft draft' different found current made shared
    obtain ⟨before, current', same⟩ | new := inodes draft' made
    · exact different (consistent.distinct _ _ _ _ _ _ found present current current'
        (shared.trans same))
    · have old := (consistent.held entry (List.mem_of_getElem? found) draft current).old
        consistent.wellFormed
      rw [shared, new] at old
      exact Nat.lt_irrefl _ old
  refine ⟨wellFormed, ?_, ?_, ?_, ?_, consistent.grown.trans extended, ?_⟩
  · intro entry member draft current
    obtain rfl | ⟨old, apart⟩ := others entry member
    · exact heldOwn draft current
    · exact heldOther draft (consistent.held entry old draft current) (apart draft current)
  · intro place place' entry entry' draft draft' found found' current current' shared
    by_cases here : place = index
    · by_cases here' : place' = index
      · rw [here, here']
      · subst here
        rw [List.getElem?_set_self bound] at found
        rw [List.getElem?_set_ne (Ne.symm here')] at found'
        cases found
        exact absurd shared.symm (apart place' entry' draft' draft here' found' current' current)
    · rw [List.getElem?_set_ne (Ne.symm here)] at found
      by_cases here' : place' = index
      · subst here'
        rw [List.getElem?_set_self bound] at found'
        cases found'
        exact absurd shared (apart place entry draft draft' here found current current')
      · rw [List.getElem?_set_ne (Ne.symm here')] at found'
        exact consistent.distinct _ _ _ _ _ _ found found' current current' shared
  · intro entry member event happened
    obtain rfl | ⟨old, _⟩ := others entry member
    · exact remembers event happened
    · exact (consistent.remembers entry old event happened).extends extended
  · intro entry member path bytes made
    obtain rfl | ⟨old, _⟩ := others entry member
    · exact published path bytes made
    · exact (consistent.published entry old path bytes made).extends extended
  · intro path inode final found
    obtain before | retains := origin path inode final found
    · obtain first | ⟨entry, old, retains⟩ := consistent.origin path inode final before
      · exact .inl first
      · right
        have same := extended.contents path inode final before
        obtain ⟨place, shown⟩ := List.mem_iff_getElem?.mp old
        by_cases here : place = index
        · subst here
          cases present.symm.trans shown
          exact ⟨_, mem_set_self present, by rw [same]; exact retains⟩
        · refine ⟨entry, ?_, by rw [same]; exact retains⟩
          apply List.mem_of_getElem?
          rw [List.getElem?_set_ne (Ne.symm here)]
          exact shown
    · exact .inr ⟨_, mem_set_self present, retains⟩

theorem Consistent.act (consistent : Consistent initial disk owned)
    (present : owned[index]? = some (call, own)) (permitted : permit call own op)
    (effect : disk.Effect op answer disk') :
    Consistent initial disk' (owned.set index (call, own.after op answer)) := by
  have member := List.mem_of_getElem? present
  have held := consistent.held _ member
  have moved := moves held permitted effect
  have extended := moved.extends consistent.wellFormed held
  apply consistent.set present (moved.wellFormed consistent.wellFormed held) extended
  · exact moved.held_own consistent.wellFormed held
  · intro draft other apart
    exact moved.held_other consistent.wellFormed held other apart
  · intro draft made
    exact moved.inode made
  · intro event happened
    cases List.mem_append.mp happened with
    | inl earlier => exact (consistent.remembers _ member event earlier).extends extended
    | inr new =>
      rw [List.mem_singleton.mp new]
      exact remembers_new (consistent.remembers _ member) permitted effect
  · exact moved.holds consistent.wellFormed held (consistent.published _ member)
  · intro path inode final found
    exact moved.origin held final found

theorem Consistent.drop (consistent : Consistent initial disk owned)
    (present : owned[index]? = some (call, own)) :
    Consistent initial (machine.release disk own)
      (owned.set index (call, machine.abandon own)) := by
  have member := List.mem_of_getElem? present
  have released : ∃ locked, machine.release disk own = { disk with locked } := by
    show ∃ locked, (if own.locked then { disk with locked := false } else disk) = _
    cases own.locked with
    | true => exact ⟨false, rfl⟩
    | false => exact ⟨disk.locked, rfl⟩
  obtain ⟨locked, released⟩ := released
  rw [released]
  apply consistent.set present
  · exact ⟨consistent.wellFormed.fresh, consistent.wellFormed.housed⟩
  · exact ⟨fun _ _ found => found, fun _ _ _ found => found, fun _ _ _ _ => rfl⟩
  · intro draft made
    cases made
  · intro draft held _
    exact held.mono rfl rfl fun _ found _ => found
  · intro draft made
    cases made
  · intro event happened
    have before := consistent.remembers _ member event happened
    exact before.extends ⟨fun _ _ found => found, fun _ _ _ found => found, fun _ _ _ _ => rfl⟩
  · intro path bytes made
    exact consistent.published _ member path bytes made
  · intro path inode final found
    exact .inl found

theorem Consistent.spawn (consistent : Consistent initial disk owned) (call : Call) :
    Consistent initial disk (owned ++ [(call, machine.idle)]) := by
  have placed : ∀ (place : Nat) (entry : Call × Own), ∀ draft, entry.2.draft = some draft →
      (owned ++ [(call, machine.idle)])[place]? = some entry → owned[place]? = some entry := by
    intro place entry draft current found
    cases Nat.lt_or_ge place owned.length with
    | inl old => rwa [List.getElem?_append_left old] at found
    | inr new =>
      rw [List.getElem?_append_right new] at found
      rw [List.mem_singleton.mp (List.mem_of_getElem? found)] at current
      cases current
  refine ⟨consistent.wellFormed, ?_, ?_, ?_, ?_, consistent.grown, ?_⟩
  · intro entry member draft current
    obtain ⟨place, found⟩ := List.mem_iff_getElem?.mp member
    exact consistent.held entry (List.mem_of_getElem? (placed place entry draft current found))
      draft current
  · intro place place' entry entry' draft draft' found found' current current' same
    exact consistent.distinct _ _ _ _ _ _ (placed place entry draft current found)
      (placed place' entry' draft' current' found') current current' same
  · intro entry member event happened
    cases List.mem_append.mp member with
    | inl old => exact consistent.remembers entry old event happened
    | inr new =>
      rw [List.mem_singleton.mp new] at happened
      cases happened
  · intro entry member path bytes made
    cases List.mem_append.mp member with
    | inl old => exact consistent.published entry old path bytes made
    | inr new =>
      rw [List.mem_singleton.mp new] at made
      cases made
  · intro path inode final found
    obtain first | ⟨entry, old, retains⟩ := consistent.origin path inode final found
    · exact .inl first
    · exact .inr ⟨entry, List.mem_append_left _ old, retains⟩

/-- Calls that ask only what is permitted keep the invariant, whatever is interleaved. -/
theorem discipline (initial : Disk) :
    Interaction.Discipline machine contract (fun _ own => own) .idle (Consistent initial) where
  idle _ := rfl
  spawn call consistent := consistent.spawn call
  act := by
    intro disk owned index call own op answer disk' own' consistent present permitted exec
    obtain ⟨effect, rfl⟩ := exec
    exact ⟨rfl, consistent.act present permitted effect, fun _ _ _ _ => rfl⟩
  drop := by
    intro disk owned index call own consistent present
    exact ⟨consistent.drop present, fun _ _ _ _ => rfl⟩

end Consistent

end Nausicaa.ContextFs
