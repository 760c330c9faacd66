import Mathlib.Algebra.GroupWithZero.Nat
import Mathlib.Data.Set.List
import Mathlib.Data.String.Basic
import Nausicaa.ContextFs.Compaction
import Nausicaa.Core.Operation
import Nausicaa.Interaction.Fallible
import Nausicaa.Jsonl.Lines
import Nausicaa.Posix.FileName
import Nausicaa.Posix.Tree
import Nausicaa.Sorting.Distinct
import Nausicaa.Text.Trim

/-! # Skills

`SkillCatalog` and `FsContextCompiler` of `context-fs/src/lib.rs`: the skill files of some
directories, their index and the selected ones in the prompt.  What the file system answers is given;
the rules of the directories and the debug output of messages are parameters. -/

namespace Nausicaa.ContextFs

open Core (CompiledContext ContextError ContextInput PromptSegment TranscriptMessage isWhitespace)
open Posix (IoError Name Path)
open Text (stripPrefix trim)

/-! ## Skill files -/

/-- What the file system answers about a path. -/
structure Files where
  pathExists : Path → Bool
  isDirectory : Path → Bool
  isFile : Path → Bool
  readDirectory : Path → Except IoError (List (Except IoError Name))
  readToString : Path → Except IoError String

structure SkillInfo where
  name : String
  summary : String
  path : Path
  deriving DecidableEq

inductive FsContextError where
  | io (message : String)
  | unknownSkill (name : String)
  deriving DecidableEq, Repr

def FsContextError.toString : FsContextError → String
  | .io message => s!"filesystem context I/O error: {message}"
  | .unknownSkill name => s!"selected skill `{name}` was not found"

/-- `text.lines()`. -/
def textLines (text : String) : List String :=
  (Jsonl.lines '\n' text.toList).map fun line =>
    -- A carriage return goes with the line feed behind it only.
    String.ofList (if line.getLast? = some '\n' then
      if line.dropLast.getLast? = some '\r' then line.dropLast.dropLast else line.dropLast
    else line)

def isQuote (char : Char) : Bool := char.toNat = 0x22 || char.toNat = 0x27

def trimmedLines (text : String) : List String := (textLines text).map (trim isWhitespace)

def frontmatterValue (text key : String) : Option String :=
  match trimmedLines text with
  | "---" :: lines => (lines.takeWhile (· ≠ "---")).findSome? fun line =>
      (stripPrefix s!"{key}:" line).map fun value => trim isQuote (trim isWhitespace value)
  | _ => none

def firstProseLine (text : String) : Option String :=
  let lines := match trimmedLines text with
    | "---" :: lines => (lines.dropWhile (· ≠ "---")).tail
    | lines => lines
  lines.find? fun line => line ≠ "" && line.toList.head? ≠ some '#'

def skillMd : Name := ⟨"SKILL.md", by decide, by decide, by decide, by decide⟩

def skillPath (files : Files) (entryPath : Path) : Option Path :=
  if files.isDirectory entryPath then some (entryPath.entry skillMd)
  else if entryPath.extension = some "md" then some entryPath
  else none

def fallbackName (skillPath : Path) : String :=
  (((skillPath.parent.bind Path.fileName).map Name.text).or skillPath.fileStem).getD "skill"

def skillInfo (skillPath : Path) (text : String) : SkillInfo where
  name := (frontmatterValue text "name").getD (fallbackName skillPath)
  summary := ((frontmatterValue text "description").or (firstProseLine text)).getD
    "No description provided"
  path := skillPath

def scanEntry (files : Files) (root : Path) (skills : List SkillInfo) :
    Except IoError Name → Except FsContextError (List SkillInfo)
  | .error error => .error (.io error.toString)
  | .ok name =>
    match skillPath files (root.entry name) with
    | none => .ok skills
    | some path =>
      if files.isFile path then
        match files.readToString path with
        | .ok text => .ok (skills ++ [skillInfo path text])
        | .error error => .error (.io s!"{path.text}: {error.toString}")
      else .ok skills

def scanRoot (files : Files) (skills : List SkillInfo) (root : Path) :
    Except FsContextError (List SkillInfo) :=
  if files.pathExists root then
    match files.readDirectory root with
    | .ok entries => entries.foldlM (scanEntry files root) skills
    | .error error => .error (.io s!"{root.text}: {error.toString}")
  else .ok skills

def scan (files : Files) (roots : List Path) : Except FsContextError (List SkillInfo) := do
  let skills ← roots.foldlM (scanRoot files) []
  return Sorting.sortedOnce SkillInfo.name skills

/-! ## The prompt -/

structure FsContextConfig where
  skillRoots : List Path
  selectedSkills : Std.TreeSet String
  stableSegments : List PromptSegment
  volatileSegments : List PromptSegment
  maxTranscriptGroups : Option Nat
  maxCharacters : Option Nat

def indexLine (skill : SkillInfo) : String := s!"- {skill.name}: {skill.summary}"

def skillIndex (skills : List SkillInfo) : List PromptSegment :=
  if skills = [] then []
  else [⟨.skills, "skill-index", "Available skills:\n" ++ "\n".intercalate (skills.map indexLine)⟩]

def selectSkill (files : Files) (skills : List SkillInfo) (selected : String) :
    Except FsContextError PromptSegment :=
  match skills.find? fun skill => skill.name = selected with
  | none => .error (.unknownSkill selected)
  | some skill =>
    match files.readToString skill.path with
    | .ok content => .ok ⟨.skills, s!"skill:{skill.name}", content⟩
    | .error error => .error (.io s!"{skill.path.text}: {error.toString}")

section Compiler

variable (config : FsContextConfig) (files : Files)
variable (rules : Except ContextError (List PromptSegment))

/-- The rules are what the loader of the directory rules answers. -/
def compilePrompt : Except FsContextError (List PromptSegment) := do
  let rules ← rules.mapError fun error => FsContextError.io error.toString
  let skills ← scan files config.skillRoots
  let selected ← config.selectedSkills.toList.mapM (selectSkill files skills)
  return config.stableSegments ++ rules ++ skillIndex skills ++ selected ++ config.volatileSegments

def usizeMax : Nat := 2 ^ 64 - 1

def omittedNote (omitted : Nat) : List PromptSegment :=
  if 0 < omitted then
    [⟨.compaction, "deterministic-transcript-window",
      s!"{omitted} earlier complete transcript group(s) were omitted by the deterministic context window. No semantic summary was invented."⟩]
  else []

/-- `debug` is how a message is shown by its derived `Debug`. -/
def compile (debug : TranscriptMessage → String) (input : ContextInput) :
    Except ContextError CompiledContext := do
  let prompt ← (compilePrompt config files rules).mapError fun error => .read error.toString
  let (messages, omitted) :=
    compactTranscript input.transcript (config.maxTranscriptGroups.getD usizeMax)
  let prompt := prompt ++ omittedNote omitted
  let actual := (prompt.map fun segment => segment.text.utf8ByteSize).sum +
    (messages.map fun message => (debug message).utf8ByteSize).sum
  match config.maxCharacters with
  | some maximum => if maximum < actual then throw (.tooLarge actual maximum)
  | none => pure ()
  return ⟨prompt, messages⟩

end Compiler

/-! ## What a scan finds -/

/-- A skill file and the name that its path gives it. -/
structure SkillFile where
  path : Path
  name : String
  deriving DecidableEq

def SkillInfo.file (skill : SkillInfo) : SkillFile := ⟨skill.path, skill.name⟩

section Scan

variable (files : Files)

/-- The names in a root, but for those that cannot be read. -/
def listed (root : Path) : List Name :=
  if files.pathExists root then
    match files.readDirectory root with
    | .ok entries => entries.filterMap Except.toOption
    | .error _ => []
  else []

/-- The stem of a Markdown file. -/
def stem (name : Name) : String := (Posix.rsplitFileAtDot name).1.getD ""

/-- `SKILL.md` in a directory is named after the directory, a Markdown file by its stem. -/
def entrySkill (root : Path) (name : Name) : Option SkillFile :=
  let path := root.entry name
  if files.isDirectory path then
    if files.isFile (path.entry skillMd) then some ⟨path.entry skillMd, name.text⟩ else none
  else if path.extension = some "md" ∧ files.isFile path = true then some ⟨path, stem name⟩
  else none

def skillFiles (roots : List Path) : List SkillFile :=
  roots.flatMap fun root => (listed files root).filterMap (entrySkill files root)

/-- The Markdown files that stand directly in a root. -/
def markdownFiles (root : Path) : List Name :=
  (listed files root).filter fun name => !files.isDirectory (root.entry name) &&
    (root.entry name).extension = some "md" && files.isFile (root.entry name)

/-- Every root that is there can be listed, and every skill file is text. -/
structure Readable (roots : List Path) : Prop where
  lists : ∀ root ∈ roots, files.pathExists root = true →
    ∃ names : List Name, files.readDirectory root = .ok (names.map .ok)
  reads : ∀ file ∈ skillFiles files roots, ∃ text, files.readToString file.path = .ok text

/-- No Markdown file stands in a root whose path ends with a name, but for the stem of the file. -/
def PathNamed (roots : List Path) : Prop :=
  ∀ root ∈ roots, ∀ name ∈ markdownFiles files root,
    root.fileName = none ∨ root.fileName.map Name.text = some (stem name)

/-- Every skill file has exactly one entry, that the index shows and that can be selected. -/
structure Catalogued (found : List SkillFile) (skills : List SkillInfo) : Prop where
  once : (skills.map SkillInfo.file).Nodup
  exact : ∀ file, file ∈ skills.map SkillInfo.file ↔ file ∈ found
  indexed : ∀ file ∈ found, ∃ summary : String, ∃ segment ∈ skillIndex skills,
    s!"- {file.name}: {summary}".toList <:+: segment.text.toList
  selectable : ∀ file ∈ found, ∃ content, files.readToString file.path = .ok content ∧
    selectSkill files skills file.name = .ok ⟨.skills, s!"skill:{file.name}", content⟩

variable {files} {root : Path} {roots : List Path} {name : Name} {file : SkillFile}
variable {skills skills' : List SkillInfo}

/-- The entry of a skill file, where it can be read. -/
def entryOf (files : Files) (file : SkillFile) : SkillInfo :=
  skillInfo file.path ((files.readToString file.path).toOption.getD "")

theorem entrySkill_path (files : Files) (root : Path) (name : Name) :
    (entrySkill files root name).map SkillFile.path =
      (skillPath files (root.entry name)).filter files.isFile := by
  rw [entrySkill, skillPath]
  by_cases directory : files.isDirectory (root.entry name) = true
  · by_cases present : files.isFile ((root.entry name).entry skillMd) = true
    · simp [directory, Option.filter_some_pos present, present]
    · simp [directory, present, Option.filter]
  · by_cases markdown : (root.entry name).extension = some "md"
    · by_cases present : files.isFile (root.entry name) = true
      · simp [directory, markdown, Option.filter_some_pos present, present]
      · simp [directory, markdown, present, Option.filter]
    · simp [directory, markdown]

theorem scanEntry_ok {entry : Except IoError Name} :
    scanEntry files root skills entry = .ok skills' ↔
      (∃ name, entry = .ok name ∧ ∀ file ∈ entrySkill files root name,
        ∃ text, files.readToString file.path = .ok text) ∧
      skills' = skills ++
        ((entry.toOption.bind (entrySkill files root)).toList.map (entryOf files)) := by
  cases entry with
  | error error => simp [scanEntry]
  | ok name =>
    have same := entrySkill_path files root name
    rw [scanEntry]
    cases candidate : skillPath files (root.entry name) with
    | none =>
      rw [candidate, Option.filter_none, Option.map_eq_none_iff] at same
      simp [Except.toOption, same, eq_comm]
    | some path =>
      rw [candidate] at same
      by_cases present : files.isFile path = true
      · rw [Option.filter_some_pos present, Option.map_eq_some_iff] at same
        obtain ⟨file, found, rfl⟩ := same
        cases text : files.readToString file.path with
        | ok text' =>
          simp [present, text, found, Except.toOption, entryOf, eq_comm]
        | error error => simp [present, text, found]
      · rw [Option.filter_some_neg (by simpa using present), Option.map_eq_none_iff] at same
        simp [present, Except.toOption, same, eq_comm]

/-- The root can be listed, and the skill files in it are text. -/
def ReadableRoot (files : Files) (root : Path) : Prop :=
  (files.pathExists root = true → ∃ names : List Name, files.readDirectory root = .ok (names.map .ok)) ∧
    ∀ file ∈ (listed files root).filterMap (entrySkill files root),
      ∃ text, files.readToString file.path = .ok text

theorem readable_iff : Readable files roots ↔ ∀ root ∈ roots, ReadableRoot files root := by
  constructor
  · intro readable root member
    refine ⟨readable.lists root member, ?_⟩
    intro file found
    exact readable.reads file (List.mem_flatMap.mpr ⟨root, member, found⟩)
  · intro readable
    refine ⟨fun root member => (readable root member).1, ?_⟩
    intro file found
    obtain ⟨root, member, found⟩ := List.mem_flatMap.mp found
    exact (readable root member).2 file found

@[simp] theorem names_listed (names : List Name) :
    (names.map (Except.ok (ε := IoError))).filterMap Except.toOption = names := by
  induction names with
  | nil => rfl
  | cons name names ih => simpa [Except.toOption] using ih

theorem scanEntries_ok {entries : List (Except IoError Name)} :
    entries.foldlM (scanEntry files root) skills = .ok skills' ↔
      ((∃ names : List Name, entries = names.map .ok) ∧
        ∀ file ∈ (entries.filterMap Except.toOption).filterMap (entrySkill files root),
          ∃ text, files.readToString file.path = .ok text) ∧
      skills' = skills ++
        ((entries.filterMap Except.toOption).filterMap (entrySkill files root)).map
          (entryOf files) := by
  have adds : entries.flatMap
      (fun entry => (entry.toOption.bind (entrySkill files root)).toList.map (entryOf files)) =
      ((entries.filterMap Except.toOption).filterMap (entrySkill files root)).map
        (entryOf files) := by
    rw [List.filterMap_filterMap, List.filterMap_eq_flatMap_toList, List.map_flatMap]
  rw [Fallible.foldlM_collects (scanEntry files root) fun _ _ _ => scanEntry_ok, adds]
  refine and_congr_left fun _ => ?_
  constructor
  · intro admitted
    obtain ⟨names, rfl⟩ : entries ∈ Set.range (List.map Except.ok) := by
      rw [Set.range_list_map]
      intro entry member
      obtain ⟨name, rfl, _⟩ := admitted entry member
      exact ⟨name, rfl⟩
    refine ⟨⟨names, rfl⟩, ?_⟩
    intro file found
    rw [names_listed, List.mem_filterMap] at found
    obtain ⟨name, member, found⟩ := found
    obtain ⟨name', same, reads⟩ := admitted (.ok name) (List.mem_map_of_mem member)
    cases same
    exact reads file found
  · rintro ⟨⟨names, rfl⟩, reads⟩ entry member
    obtain ⟨name, present, rfl⟩ := List.mem_map.mp member
    refine ⟨name, rfl, fun file found => reads file ?_⟩
    rw [names_listed, List.mem_filterMap]
    exact ⟨name, present, found⟩

theorem scanRoot_ok : scanRoot files skills root = .ok skills' ↔
    ReadableRoot files root ∧
      skills' = skills ++
        ((listed files root).filterMap (entrySkill files root)).map (entryOf files) := by
  rw [scanRoot, ReadableRoot, listed]
  by_cases present : files.pathExists root = true
  · cases answer : files.readDirectory root with
    | error error => simp [present]
    | ok entries =>
      simp only [present, if_true, true_imp_iff, Except.ok.injEq]
      exact scanEntries_ok
  · simp [present, eq_comm]

/-- A scan succeeds if everything can be read, and describes every skill file. -/
theorem scan_ok : scan files roots = .ok skills ↔ Readable files roots ∧
    skills = Sorting.sortedOnce SkillInfo.name ((skillFiles files roots).map (entryOf files)) := by
  have collected : ∀ skills', roots.foldlM (scanRoot files) [] = .ok skills' ↔
      Readable files roots ∧ skills' = (skillFiles files roots).map (entryOf files) := by
    intro skills'
    rw [Fallible.foldlM_collects (scanRoot files) fun _ _ _ => scanRoot_ok, ← readable_iff,
      List.nil_append, ← List.map_flatMap]
    rfl
  rw [scan, Fallible.bind_ok]
  constructor
  · rintro ⟨skills', found, sorted⟩
    cases sorted
    obtain ⟨readable, rfl⟩ := (collected skills').mp found
    exact ⟨readable, rfl⟩
  · rintro ⟨readable, rfl⟩
    exact ⟨_, (collected _).mpr ⟨readable, rfl⟩, rfl⟩

/-! ## Names -/

theorem fallbackName_directory (root : Path) (name : Name) :
    fallbackName ((root.entry name).entry skillMd) = name.text := by
  rw [fallbackName, Path.fileName_parent, Path.fileName_entry]
  rfl

theorem fallbackName_markdown (markdown : (root.entry name).extension = some "md") :
    fallbackName (root.entry name) = (root.fileName.map Name.text).getD (stem name) := by
  rw [Path.extension, Path.fileName_entry, Option.bind_some] at markdown
  rw [fallbackName, Path.fileName_parent, Path.fileStem, Path.fileName_entry, Option.bind_some, stem]
  cases before : (Posix.rsplitFileAtDot name).1 with
  | none => simp [before] at markdown
  | some start => cases root.fileName <;> simp

theorem mem_markdownFiles : name ∈ markdownFiles files root ↔ name ∈ listed files root ∧
    files.isDirectory (root.entry name) = false ∧ (root.entry name).extension = some "md" ∧
      files.isFile (root.entry name) = true := by
  simp [markdownFiles, and_assoc]

/-- A skill file gets the name of its path, unless the name of the root hides the stem. -/
theorem pathNamed_iff : PathNamed files roots ↔
    ∀ file ∈ skillFiles files roots, fallbackName file.path = file.name := by
  constructor
  · intro named file member
    obtain ⟨root, present, member⟩ := List.mem_flatMap.mp member
    obtain ⟨name, entry, found⟩ := List.mem_filterMap.mp member
    rw [entrySkill] at found
    split at found
    next directory =>
      split at found <;> cases found
      exact fallbackName_directory root name
    next plain =>
      split at found
      next markdown =>
        cases found
        rw [fallbackName_markdown markdown.1]
        obtain none | same := named root present name
          (mem_markdownFiles.mpr ⟨entry, by simpa using plain, markdown⟩)
        · simp [none]
        · simp [same]
      next => cases found
  · intro named root present name markdown
    obtain ⟨entry, plain, extension, file⟩ := mem_markdownFiles.mp markdown
    have found : entrySkill files root name = some ⟨root.entry name, stem name⟩ := by
      simp [entrySkill, plain, extension, file]
    have same := named ⟨root.entry name, stem name⟩
      (List.mem_flatMap.mpr ⟨root, present, List.mem_filterMap.mpr ⟨name, entry, found⟩⟩)
    rw [fallbackName_markdown extension] at same
    cases final : root.fileName with
    | none => exact .inl rfl
    | some name' =>
      rw [final] at same
      exact .inr (congrArg some same)

/-! ## The catalog -/

theorem entryOf_file (read : ∃ text, files.readToString file.path = .ok text)
    (anonymous : ∀ text, files.readToString file.path = .ok text →
      frontmatterValue text "name" = none) :
    (entryOf files file).file = ⟨file.path, fallbackName file.path⟩ := by
  obtain ⟨text, read⟩ := read
  simp [entryOf, skillInfo, SkillInfo.file, read, Except.toOption, anonymous text read]

theorem infix_intercalate {line : String} {lines : List String} (member : line ∈ lines) :
    line.toList <:+: ("\n".intercalate lines).toList := by
  induction lines with
  | nil => cases member
  | cons first lines ih =>
    by_cases last : lines = []
    · subst last
      rw [List.mem_singleton.mp member, String.intercalate_singleton]
    · rw [String.intercalate_cons_of_ne_nil last]
      simp only [String.toList_append]
      obtain rfl | member := List.mem_cons.mp member
      · exact (List.prefix_append _ _).isInfix.trans (List.prefix_append _ _).isInfix
      · exact (ih member).trans (List.suffix_append _ _).isInfix

theorem skillIndex_shows {skill : SkillInfo} (member : skill ∈ skills) :
    ∃ segment ∈ skillIndex skills, (indexLine skill).toList <:+: segment.text.toList := by
  rw [skillIndex, if_neg (List.ne_nil_of_mem member)]
  refine ⟨_, List.mem_singleton_self _, ?_⟩
  rw [String.toList_append]
  exact (infix_intercalate (List.mem_map_of_mem member)).trans (List.suffix_append _ _).isInfix

theorem selectSkill_found {skill : SkillInfo} {content : String} (member : skill ∈ skills)
    (distinct : (skills.map SkillInfo.name).Nodup)
    (read : files.readToString skill.path = .ok content) :
    selectSkill files skills skill.name = .ok ⟨.skills, s!"skill:{skill.name}", content⟩ := by
  have first : (skills.find? fun other => other.name = skill.name) = some skill := by
    induction skills with
    | nil => cases member
    | cons other skills ih =>
      rw [List.map_cons, List.nodup_cons] at distinct
      obtain rfl | member := List.mem_cons.mp member
      · simp
      · have apart : other.name ≠ skill.name := fun same =>
          distinct.1 (same ▸ List.mem_map_of_mem member)
        simpa [apart] using ih member distinct.2
  simp only [selectSkill, first, read]

end Scan

/-! ## A directory with skills -/

def named (text : String) (legal : text ≠ "" ∧ text ≠ "." ∧ text ≠ ".." ∧ '/' ∉ text.toList) : Name :=
  ⟨text, legal.1, legal.2.1, legal.2.2.1, legal.2.2.2⟩

def review : Name := named "review" (by decide)

def release : Name := named "release" (by decide)

def reviewMd : Name := named "review.md" (by decide)

def releaseMd : Name := named "release.md" (by decide)

/-- `/skills` -/
def skillRoot : Path := ⟨true, [.named (named "skills" (by decide))]⟩

/-- Two entries, both directories with a `SKILL.md` in them or both Markdown files. -/
def shelf (directories : Bool) (first second : Name) : Files where
  pathExists path := path = skillRoot
  isDirectory path := path = skillRoot ||
    directories && (path = skillRoot.entry first || path = skillRoot.entry second)
  isFile path := path ≠ skillRoot &&
    !(directories && (path = skillRoot.entry first || path = skillRoot.entry second))
  readDirectory _ := .ok [.ok first, .ok second]
  readToString _ := .ok "# Notes"

end Nausicaa.ContextFs
