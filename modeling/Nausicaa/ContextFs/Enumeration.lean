import Nausicaa.ContextFs.Skills

/-! # The order of the entries

The operating system lists the entries of a directory in any order.  What a scan finds and what the
prompt shows depends on that order, unless the first root with a skill of some name has only one of
that name (`order_free`). -/

namespace Nausicaa.ContextFs

open Core (CompiledContext ContextError ContextInput PromptSegment TranscriptMessage)
open Posix (IoError Name Path)

/-! ## Two listings -/

/-- A directory that is listed twice. -/
inductive Relisted : Except IoError (List (Except IoError Name)) →
    Except IoError (List (Except IoError Name)) → Prop where
  | error (error : IoError) : Relisted (.error error) (.error error)
  | ok {entries entries' : List (Except IoError Name)} (same : entries.Perm entries') :
      Relisted (.ok entries) (.ok entries')

/-- The same files, with the entries of each directory in another order. -/
structure Reordered (files files' : Files) : Prop where
  pathExists : files'.pathExists = files.pathExists
  isDirectory : files'.isDirectory = files.isDirectory
  isFile : files'.isFile = files.isFile
  readToString : files'.readToString = files.readToString
  readDirectory : ∀ path, Relisted (files.readDirectory path) (files'.readDirectory path)

/-- The skills in one root, before they are sorted. -/
def skillsIn (files : Files) (root : Path) : List SkillInfo :=
  ((listed files root).filterMap (entrySkill files root)).map (entryOf files)

/-- The first of the roots that has skills of a name has only one of them. -/
def FirstAlone (files : Files) (name : String) (roots : List Path) : Prop :=
  ∀ before root after, roots = before ++ root :: after →
    (∀ earlier ∈ before, ∀ skill ∈ skillsIn files earlier, skill.name ≠ name) →
    ∀ skill ∈ skillsIn files root, ∀ skill' ∈ skillsIn files root,
      skill.name = name → skill'.name = name → skill = skill'

variable {files files' : Files} {root : Path} {roots : List Path} {skill : SkillInfo} {name : String}

theorem Relisted.symm {first second : Except IoError (List (Except IoError Name))}
    (same : Relisted first second) : Relisted second first := by
  cases same with
  | error error => exact .error error
  | ok same => exact .ok same.symm

theorem Reordered.symm (same : Reordered files files') : Reordered files' files where
  pathExists := same.pathExists.symm
  isDirectory := same.isDirectory.symm
  isFile := same.isFile.symm
  readToString := same.readToString.symm
  readDirectory path := (same.readDirectory path).symm

namespace Reordered

theorem listed (same : Reordered files files') (root : Path) :
    (listed files root).Perm (listed files' root) := by
  rw [ContextFs.listed, ContextFs.listed, same.pathExists]
  split
  next =>
    have entries := same.readDirectory root
    cases first : files.readDirectory root with
    | error error =>
      rw [first] at entries
      cases second : files'.readDirectory root with
      | error error' => exact .nil
      | ok entries' =>
        rw [second] at entries
        cases entries
    | ok entries₁ =>
      rw [first] at entries
      cases second : files'.readDirectory root with
      | error error =>
        rw [second] at entries
        cases entries
      | ok entries₂ =>
        rw [second] at entries
        cases entries with
        | ok perm => exact perm.filterMap _
  next => exact .nil

theorem entrySkill (same : Reordered files files') (root : Path) :
    entrySkill files' root = entrySkill files root := by
  funext name
  rw [ContextFs.entrySkill, ContextFs.entrySkill, same.isDirectory, same.isFile]

theorem entryOf (same : Reordered files files') : entryOf files' = entryOf files := by
  funext file
  rw [ContextFs.entryOf, ContextFs.entryOf, same.readToString]

theorem skillsIn (same : Reordered files files') (root : Path) :
    (skillsIn files root).Perm (skillsIn files' root) := by
  rw [ContextFs.skillsIn, ContextFs.skillsIn, same.entrySkill, same.entryOf]
  exact ((same.listed root).filterMap _).map _

theorem readable (same : Reordered files files') (readable : Readable files roots) :
    Readable files' roots := by
  refine ⟨?_, ?_⟩
  · intro root member present
    rw [same.pathExists] at present
    obtain ⟨names, lists⟩ := readable.lists root member present
    have entries := same.readDirectory root
    rw [lists] at entries
    cases second : files'.readDirectory root with
    | error error =>
      rw [second] at entries
      cases entries
    | ok entries' =>
      rw [second] at entries
      cases entries with
      | ok perm =>
        -- A permutation of names is a list of names.
        obtain ⟨names', rfl⟩ : entries' ∈ Set.range (List.map Except.ok) := by
          rw [Set.range_list_map]
          intro entry member
          obtain ⟨name, _, rfl⟩ := List.mem_map.mp (perm.mem_iff.mpr member)
          exact ⟨name, rfl⟩
        exact ⟨names', rfl⟩
  · intro file member
    obtain ⟨root, present, member⟩ := List.mem_flatMap.mp member
    rw [same.entrySkill] at member
    rw [same.readToString]
    obtain ⟨name, listed, found⟩ := List.mem_filterMap.mp member
    refine readable.reads file (List.mem_flatMap.mpr ⟨root, present, ?_⟩)
    exact List.mem_filterMap.mpr ⟨name, (same.listed root).mem_iff.mpr listed, found⟩

end Reordered

/-! ## The scan -/

theorem skillFiles_entries (files : Files) (roots : List Path) :
    (skillFiles files roots).map (entryOf files) = roots.flatMap (skillsIn files) := by
  rw [skillFiles, List.map_flatMap]
  rfl

theorem scan_none (unreadable : ¬ Readable files roots) : (scan files roots).toOption = none := by
  cases scanned : scan files roots with
  | error error => rfl
  | ok skills => exact absurd (scan_ok.mp scanned).1 unreadable

theorem scan_some (readable : Readable files roots) : (scan files roots).toOption =
    some (Sorting.sortedOnce SkillInfo.name (roots.flatMap (skillsIn files))) := by
  rw [scan_ok.mpr ⟨readable, rfl⟩, skillFiles_entries]
  rfl

/-- Which skill of each name a scan keeps. -/
theorem scan_same_iff (same : Reordered files files') (readable : Readable files roots) :
    (scan files' roots).toOption = (scan files roots).toOption ↔
      ∀ name, roots.findSome? (fun root =>
          (skillsIn files' root).find? fun skill => skill.name = name) =
        roots.findSome? fun root => (skillsIn files root).find? fun skill => skill.name = name := by
  rw [scan_some readable, scan_some (same.readable readable), Option.some.injEq,
    Sorting.sortedOnce_inj]
  simp only [List.find?_flatMap]

/-- The one item with a property is found in every order. -/
theorem find?_perm {α : Type} {items items' : List α} {test : α → Bool} (same : items.Perm items')
    (alone : ∀ item ∈ items, ∀ item' ∈ items, test item = true → test item' = true → item = item') :
    items'.find? test = items.find? test := by
  cases found : items.find? test with
  | none =>
    rw [List.find?_eq_none] at found ⊢
    intro item member
    exact found item (same.mem_iff.mpr member)
  | some item =>
    have member := List.mem_of_find?_eq_some found
    have holds := List.find?_some found
    cases found' : items'.find? test with
    | none => exact absurd holds (List.find?_eq_none.mp found' item (same.mem_iff.mp member))
    | some item' =>
      have member' := same.mem_iff.mpr (List.mem_of_find?_eq_some found')
      rw [alone item' member' item member (List.find?_some found') holds]

theorem findSome?_same (same : Reordered files files') (alone : FirstAlone files name roots) :
    roots.findSome? (fun root => (skillsIn files' root).find? fun skill => skill.name = name) =
      roots.findSome? fun root => (skillsIn files root).find? fun skill => skill.name = name := by
  induction roots with
  | nil => rfl
  | cons root roots ih =>
    have here : (skillsIn files' root).find? (fun skill => skill.name = name) =
        (skillsIn files root).find? fun skill => skill.name = name := by
      apply find?_perm (same.skillsIn root)
      intro skill member skill' member' named named'
      exact alone [] root roots rfl (by simp) skill member skill' member' (by simpa using named)
        (by simpa using named')
    rw [List.findSome?_cons, List.findSome?_cons, here]
    cases found : (skillsIn files root).find? fun skill => skill.name = name with
    | some skill => rfl
    | none =>
      -- The roots behind this one are the first with the name.
      apply ih
      rintro before root' after rfl none
      refine alone (root :: before) root' after rfl ?_
      intro earlier present skill member
      obtain rfl | present := List.mem_cons.mp present
      · simpa using List.find?_eq_none.mp found skill member
      · exact none earlier present skill member

/-! ## Another order -/

/-- One directory lists its entries in a given order. -/
def relist (files : Files) (root : Path) (names : List Name) : Files :=
  { files with readDirectory := fun path =>
      if path = root then .ok (names.map .ok) else files.readDirectory path }

theorem relist_reordered {names names' : List Name} (same : names.Perm names')
    (lists : files.readDirectory root = .ok (names.map .ok)) :
    Reordered files (relist files root names') where
  pathExists := rfl
  isDirectory := rfl
  isFile := rfl
  readToString := rfl
  readDirectory path := by
    rw [relist]
    dsimp only
    split
    next equal =>
      subst equal
      rw [lists]
      exact .ok (same.map _)
    next =>
      cases files.readDirectory path with
      | error error => exact .error error
      | ok entries => exact .ok (.refl _)

theorem skillsIn_relist (files : Files) (root : Path) (names : List Name) {other : Path}
    (apart : other ≠ root) : skillsIn (relist files root names) other = skillsIn files other := by
  have listing : listed (relist files root names) other = listed files other := by
    rw [listed, listed, relist]
    dsimp only
    rw [if_neg apart]
  rw [skillsIn, skillsIn, listing]
  rfl

/-- Every skill of a root is in front in some order. -/
theorem skill_in_front (readable : Readable files roots) (present : root ∈ roots)
    (member : skill ∈ skillsIn files root) : ∃ files', Reordered files files' ∧
      (∃ skills, skillsIn files' root = skill :: skills) ∧
      ∀ other, other ≠ root → skillsIn files' other = skillsIn files other := by
  obtain ⟨file, found, rfl⟩ := List.mem_map.mp member
  obtain ⟨name, entry, found⟩ := List.mem_filterMap.mp found
  by_cases there : files.pathExists root = true
  · obtain ⟨names, lists⟩ := readable.lists root present there
    have names_eq : listed files root = names := by
      rw [listed, if_pos there, lists]
      exact names_listed names
    rw [names_eq] at entry
    refine ⟨relist files root (name :: names.erase name),
      relist_reordered (List.perm_cons_erase entry) lists, ?_,
      fun other apart => skillsIn_relist files root _ apart⟩
    have front : listed (relist files root (name :: names.erase name)) root =
        name :: names.erase name := by
      rw [listed, relist]
      dsimp only
      rw [if_pos there, if_pos rfl]
      exact names_listed _
    have first : entrySkill (relist files root (name :: names.erase name)) root name = some file :=
      found
    rw [skillsIn, front, List.filterMap_cons_some first, List.map_cons]
    exact ⟨_, rfl⟩
  · rw [listed, if_neg there] at entry
    cases entry

theorem findSome?_front {before after : List Path} (named : skill.name = name)
    (front : ∃ skills, skillsIn files' root = skill :: skills)
    (others : ∀ other, other ≠ root → skillsIn files' other = skillsIn files other)
    (apart : root ∉ before)
    (none : ∀ earlier ∈ before, ∀ skill ∈ skillsIn files earlier, skill.name ≠ name) :
    (before ++ root :: after).findSome? (fun root =>
      (skillsIn files' root).find? fun skill => skill.name = name) = some skill := by
  obtain ⟨skills, front⟩ := front
  have nothing : before.findSome? (fun root =>
      (skillsIn files' root).find? fun skill => skill.name = name) = Option.none := by
    rw [List.findSome?_eq_none_iff]
    intro earlier present
    rw [others earlier (fun equal => apart (equal ▸ present)), List.find?_eq_none]
    intro skill member
    simpa using none earlier present skill member
  have here : (skillsIn files' root).find? (fun skill => skill.name = name) = some skill := by
    rw [front]
    exact List.find?_cons_of_pos (by simpa using named)
  rw [List.findSome?_append, nothing, List.findSome?_cons, here]
  rfl

theorem firstAlone_of_same (readable : Readable files roots)
    (free : ∀ files', Reordered files files' →
      (scan files' roots).toOption = (scan files roots).toOption) (name : String) :
    FirstAlone files name roots := by
  rintro before root after rfl none skill member skill' member' named named'
  have present : root ∈ before ++ root :: after := by simp
  have apart : root ∉ before := fun earlier => none root earlier skill member named
  -- Each of the two skills is kept where it is listed first, and the order does not matter.
  have kept : ∀ skill ∈ skillsIn files root, skill.name = name →
      (before ++ root :: after).findSome? (fun root =>
        (skillsIn files root).find? fun skill => skill.name = name) = some skill := by
    intro skill member named
    obtain ⟨files', same, front, others⟩ := skill_in_front readable present member
    rw [← (scan_same_iff same readable).mp (free files' same) name]
    exact findSome?_front named front others apart none
  exact Option.some.inj ((kept skill member named).symm.trans (kept skill' member' named'))

/-! ## The prompt -/

section Compiler

variable {ε ε' α β : Type}

theorem toOption_bind (first : Except ε α) (next : α → Except ε β) :
    (first >>= next).toOption = first.toOption.bind fun value => (next value).toOption := by
  cases first <;> rfl

theorem toOption_mapError (wrap : ε → ε') (result : Except ε α) :
    (result.mapError wrap).toOption = result.toOption := by
  cases result <;> rfl

variable (config : FsContextConfig) (rules : Except ContextError (List PromptSegment))
variable (debug : TranscriptMessage → String) (input : ContextInput)

theorem selectSkill_same (same : Reordered files files') : selectSkill files' = selectSkill files := by
  funext skills selected
  rw [selectSkill, selectSkill, same.readToString]

theorem compilePrompt_same (same : Reordered files files')
    (scanned : (scan files' config.skillRoots).toOption = (scan files config.skillRoots).toOption) :
    (compilePrompt config files' rules).toOption = (compilePrompt config files rules).toOption := by
  simp only [compilePrompt, toOption_bind, scanned, selectSkill_same same]

theorem compile_same (same : Reordered files files')
    (scanned : (scan files' config.skillRoots).toOption = (scan files config.skillRoots).toOption) :
    (compile config files' rules debug input).toOption =
      (compile config files rules debug input).toOption := by
  rw [compile, compile, toOption_bind, toOption_bind, toOption_mapError, toOption_mapError,
    compilePrompt_same config rules same scanned]

/-- The list and the prompt are the same in every order of the entries if and only if something
cannot be read, or the first root that has skills of a name has only one of them. -/
theorem order_free :
    (∀ files', Reordered files files' →
      (scan files' config.skillRoots).toOption = (scan files config.skillRoots).toOption ∧
      (compile config files' rules debug input).toOption.map CompiledContext.prompt =
        (compile config files rules debug input).toOption.map CompiledContext.prompt) ↔
      (Readable files config.skillRoots → ∀ name, FirstAlone files name config.skillRoots) := by
  constructor
  · intro free readable
    exact firstAlone_of_same readable fun files' same => (free files' same).1
  · intro alone files' same
    have scanned : (scan files' config.skillRoots).toOption =
        (scan files config.skillRoots).toOption := by
      by_cases readable : Readable files config.skillRoots
      · rw [scan_same_iff same readable]
        intro name
        exact findSome?_same same (alone readable name)
      · rw [scan_none readable, scan_none fun read => readable (same.symm.readable read)]
    exact ⟨scanned, by rw [compile_same config rules debug input same scanned]⟩

end Compiler

/-! ## Two skills of one name -/

def reviewText (summary : String) : String := "---\nname: review\n---\n" ++ summary

/-- Two directories with a `SKILL.md` that declares the same name. -/
def twins (first second : Name) : Files where
  pathExists path := path = skillRoot
  isDirectory path := path = skillRoot || path = skillRoot.entry review || path = skillRoot.entry release
  isFile path := path = (skillRoot.entry review).entry skillMd ||
    path = (skillRoot.entry release).entry skillMd
  readDirectory _ := .ok [.ok first, .ok second]
  readToString path := .ok (if path = (skillRoot.entry review).entry skillMd
    then reviewText "Read the change." else reviewText "Build the archive.")

def twinReview : SkillInfo :=
  ⟨"review", "Read the change.", (skillRoot.entry review).entry skillMd⟩

def twinRelease : SkillInfo :=
  ⟨"review", "Build the archive.", (skillRoot.entry release).entry skillMd⟩

theorem twins_review : scan (twins review release) [skillRoot] = .ok [twinReview] := by
  refine scan_ok.mpr ⟨⟨?_, fun file _ => ⟨_, rfl⟩⟩, ?_⟩
  · intro root _ _
    exact ⟨[review, release], rfl⟩
  · rw [Sorting.sortedOnce, List.mergeSort_of_pairwise (by decide)]
    decide

theorem twins_release : scan (twins release review) [skillRoot] = .ok [twinRelease] := by
  refine scan_ok.mpr ⟨⟨?_, fun file _ => ⟨_, rfl⟩⟩, ?_⟩
  · intro root _ _
    exact ⟨[release, review], rfl⟩
  · rw [Sorting.sortedOnce, List.mergeSort_of_pairwise (by decide)]
    decide

def shelfConfig : FsContextConfig := ⟨[skillRoot], ∅, [], [], none, none⟩

def emptyInput : ContextInput := ⟨⟨"thread"⟩, ⟨"turn"⟩, []⟩

theorem compile_indexed {files : Files} {skills : List SkillInfo}
    (scanned : scan files [skillRoot] = .ok skills) :
    compile shelfConfig files (.ok []) (fun _ => "") emptyInput = .ok ⟨skillIndex skills, []⟩ := by
  have prompt : compilePrompt shelfConfig files (.ok []) = .ok (skillIndex skills) := by
    simp only [compilePrompt, shelfConfig, scanned]
    exact congrArg Except.ok (by simp)
  have messages : compactTranscript emptyInput.transcript
      (shelfConfig.maxTranscriptGroups.getD usizeMax) = ([], 0) := by
    simp [compactTranscript, emptyInput, Grouping.lastGroups, Grouping.groups]
  rw [compile, prompt, messages]
  exact congrArg Except.ok (by simp [omittedNote])

/-- The one name stands for the skill that is listed first. -/
theorem order_matters :
    (compile shelfConfig (twins review release) (.ok []) (fun _ => "") emptyInput =
      .ok ⟨[⟨.skills, "skill-index", "Available skills:\n- review: Read the change."⟩], []⟩ ∧
    compile shelfConfig (twins release review) (.ok []) (fun _ => "") emptyInput =
      .ok ⟨[⟨.skills, "skill-index", "Available skills:\n- review: Build the archive."⟩], []⟩) ∧
    ¬ ∀ (config : FsContextConfig) (files files' : Files)
      (rules : Except ContextError (List PromptSegment)) (debug : TranscriptMessage → String)
      (input : ContextInput), Reordered files files' →
        (scan files' config.skillRoots).toOption = (scan files config.skillRoots).toOption ∧
        (compile config files' rules debug input).toOption.map CompiledContext.prompt =
          (compile config files rules debug input).toOption.map CompiledContext.prompt := by
  refine ⟨⟨compile_indexed twins_review, compile_indexed twins_release⟩, ?_⟩
  intro free
  have same : Reordered (twins review release) (twins release review) := by
    refine ⟨rfl, rfl, rfl, rfl, fun _ => .ok (.swap _ _ _)⟩
  have scanned := (free shelfConfig _ _ (.ok []) (fun _ => "") emptyInput same).1
  rw [shelfConfig, twins_review, twins_release] at scanned
  exact absurd (Option.some.inj scanned) (by decide)

end Nausicaa.ContextFs
