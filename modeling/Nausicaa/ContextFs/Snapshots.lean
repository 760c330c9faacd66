import Nausicaa.ContextFs.Calls
import Nausicaa.ContextFs.Host

/-! # Snapshots

Any number of calls side by side, crashes and faults at any point: a snapshot is never changed, a
page shows the bytes of the snapshot of its own thread and call, and every snapshot holds all
bytes of a call of `retain` (`archived`). -/

namespace Nausicaa.ContextFs

open Core (ThreadId ToolCall ToolExecutionContext PreparedToolCall)
open Interaction (Sound Step)
open Json (Value)
open Text (encode)

/-! ## Pages -/

/-- The page shows bytes of the snapshot, from the offset on. -/
def PageOf (bytes : Bytes) (call : String) (offset limit : Nat) (value : Value) : Prop :=
  ∃ text, value = OutputArchive.pageValue call text (offset + (encode text).length) bytes.length ∧
    encode text <+: bytes.drop offset ∧ (encode text).length ≤ limit ∧ offset ≤ bytes.length

theorem validBytes_le {offset total valid : Nat} {bytes : Bytes}
    (validated : OutputArchive.validBytes offset total bytes = .ok valid) :
    valid ≤ bytes.length := by
  rw [OutputArchive.validBytes] at validated
  split at validated
  next text decoded =>
    cases validated
    rw [Text.fromUtf8_ok decoded]
  next error invalid =>
    split at validated
    next =>
      cases validated
      exact Text.fromUtf8_error invalid
    next => cases validated

theorem page_of {bytes : Bytes} {call : String} {offset limit : Nat} {value : Value}
    (inside : offset ≤ bytes.length)
    (made : OutputArchive.page call offset bytes.length ((bytes.drop offset).take limit) =
      .ok value) : PageOf bytes call offset limit value := by
  obtain ⟨valid, validated, made⟩ := Fallible.bind_ok.mp made
  split at made
  next text decoded =>
    cases made
    have shown := Text.fromUtf8_ok decoded
    have length : (encode text).length = valid := by
      rw [shown, List.length_take]
      exact Nat.min_eq_left (validBytes_le validated)
    refine ⟨text, by rw [length], ?_, ?_, inside⟩
    · rw [shown]
      exact (List.take_prefix _ _).trans (List.take_prefix _ _)
    · have most := List.length_take_le limit (bytes.drop offset)
      have least := validBytes_le validated
      omega
  next => cases made

/-! ## What the calls saw -/

section Saw

variable {initial disk disk' : Disk} {owned : List (Call × Own)} {call : Call} {own : Own}
variable {path : ArchivePath} {thread : ThreadId} {id : String} {inode : Inode} {bytes : Bytes}

theorem snapshot_iff : disk.snapshot thread id = some bytes ↔ ∃ path inode,
    paths thread id = .ok path ∧ disk.directories path.directory = some .directory ∧
      disk.files path = some (.file inode) ∧ disk.contents inode = bytes := by
  unfold Disk.snapshot
  constructor
  · intro found
    split at found
    next => cases found
    next path named =>
      split at found
      next directory =>
        split at found
        next inode file =>
          cases found
          exact ⟨path, inode, named, directory, file, rfl⟩
        next => cases found
      next => cases found
  · intro shown
    obtain ⟨path, inode, named, directory, file, rfl⟩ := shown
    simp only [named, directory, file, ↓reduceIte]

/-- A snapshot stays as it is. -/
theorem Disk.Extends.snapshot (extended : disk.Extends disk')
    (found : disk.snapshot thread id = some bytes) : disk'.snapshot thread id = some bytes := by
  obtain ⟨path, inode, named, directory, file, rfl⟩ := snapshot_iff.mp found
  have final := (paths_plain named).2.2
  exact snapshot_iff.mpr ⟨path, inode, named, extended.directories _ _ directory,
    extended.files path _ final file, extended.contents path inode final file⟩

theorem Own.Opened.snapshot (opened : own.Opened path inode) (named : paths thread id = .ok path)
    (remembers : ∀ event ∈ own.history, disk.Remembers event) :
    disk.snapshot thread id = some (disk.contents inode) :=
  snapshot_iff.mpr ⟨path, inode, named, remembers _ opened.directory,
    (remembers _ opened.file).2, rfl⟩

/-- Bytes that were read in full are those of the snapshot. -/
theorem Own.Read.snapshot {maximum : Nat} (read : own.Read path 0 (maximum + 1) bytes)
    (named : paths thread id = .ok path) (remembers : ∀ event ∈ own.history, disk.Remembers event) :
    ∃ whole, disk.snapshot thread id = some whole ∧ bytes = whole.take (maximum + 1) := by
  obtain ⟨inode, opened, saw⟩ := read
  exact ⟨_, opened.snapshot named remembers, (remembers _ saw).2⟩

theorem take_fits {whole : Bytes} {maximum : Nat} (fits : bytes.length ≤ maximum)
    (same : bytes = whole.take (maximum + 1)) : whole = bytes := by
  have length := congrArg List.length same
  rw [List.length_take] at length
  rw [same, List.take_of_length_le]
  omega

/-- What a call has kept is a snapshot. -/
theorem Own.Kept.snapshot {maximum : Nat} (kept : own.Kept path maximum bytes)
    (fits : bytes.length ≤ maximum) (named : paths thread id = .ok path)
    (remembers : ∀ event ∈ own.history, disk.Remembers event)
    (published : ∀ path bytes, own.published = some (path, bytes) → disk.Holds path bytes) :
    disk.snapshot thread id = some bytes := by
  obtain read | ⟨made, directory⟩ := kept
  · obtain ⟨whole, found, same⟩ := read.snapshot named remembers
    rw [found, take_fits fits same]
  · obtain ⟨_, inode, file, filled⟩ := published _ _ made
    exact snapshot_iff.mpr ⟨path, inode, named, remembers _ directory, file, filled⟩

/-- A page that was read is one of the snapshot. -/
theorem PageRead.snapshot {offset limit : Nat} {value : Value}
    (read : PageRead thread id offset limit own value)
    (remembers : ∀ event ∈ own.history, disk.Remembers event) :
    ∃ bytes, disk.snapshot thread id = some bytes ∧ PageOf bytes id offset limit value := by
  obtain ⟨path, inode, total, bytes, named, opened, length, inside, saw, made⟩ := read
  refine ⟨_, opened.snapshot named remembers, ?_⟩
  have total_eq : total = (disk.contents inode).length := (remembers _ length).2
  have bytes_eq : bytes = ((disk.contents inode).drop offset).take limit := (remembers _ saw).2
  subst total_eq bytes_eq
  exact page_of inside made

end Saw

/-! ## Every interleaving -/

/-- What the calls that are over tell, and where the snapshots are from. -/
structure Archived (initial : Disk) (config : Configuration) : Prop where
  retained : ∀ task ∈ config.tasks, ∀ archive thread id bytes,
    task.call = .retain archive thread id bytes →
    task.program = some (.done (.retained (.ok ()))) →
    config.shared.snapshot thread id = some bytes
  read : ∀ task ∈ config.tasks, ∀ archive thread id offset limit value,
    task.call = .readPage archive thread id offset limit →
    task.program = some (.done (.page (.ok value))) →
    ∃ bytes, config.shared.snapshot thread id = some bytes ∧ PageOf bytes id offset limit value
  executed : ∀ task ∈ config.tasks, ∀ archive prepared context output,
    task.call = .execute archive prepared context →
    task.program = some (.done (.output (.ok output))) →
    prepared.action.scope = some context.threadId.value ∧ ∃ id offset limit bytes,
      (prepared.action.arguments.get "call_id").bind Value.asString = some id ∧
      config.shared.snapshot context.threadId id = some bytes ∧
      PageOf bytes id offset limit output.value
  origin : ∀ thread id bytes, config.shared.snapshot thread id = some bytes →
    initial.snapshot thread id = some bytes ∨
      ∃ task ∈ config.tasks, ∃ archive, task.call = .retain archive thread id bytes ∧
        bytes.length ≤ archive.maxOutputBytes

section Reachable

variable {initial : Disk} {config config' : Configuration}

theorem reachable_sound (wellFormed : initial.WellFormed) (reached : Reachable initial config) :
    Sound machine contract (fun _ own => own) (Consistent initial) Ends config :=
  Interaction.Reachable.sound (discipline initial) code_meets (.start wellFormed) reached

/-- How a call that is over ended. -/
theorem ends (sound : Sound machine contract (fun _ own => own) (Consistent initial) Ends config)
    {task : Interaction.Task Op Op.Answer Own Call Reply} (member : task ∈ config.tasks)
    {reply : Reply} (done : task.program = some (.done reply)) : Ends task.call reply task.own := by
  obtain ⟨place, found⟩ := List.mem_iff_getElem?.mp member
  exact sound.meets place task _ found done

theorem owned_mem {task : Interaction.Task Op Op.Answer Own Call Reply}
    (member : task ∈ config.tasks) : (task.call, task.own) ∈ config.owned :=
  List.mem_map_of_mem member

theorem sound_archived (wellFormed : initial.WellFormed)
    (sound : Sound machine contract (fun _ own => own) (Consistent initial) Ends config) :
    Archived initial config where
  retained := by
    intro task member archive thread id bytes same done
    have told := ends sound member done
    rw [same] at told
    obtain ⟨path, named, fits, kept⟩ := told
    exact kept.snapshot fits named (sound.invariant.remembers _ (owned_mem member))
      (sound.invariant.published _ (owned_mem member))
  read := by
    intro task member archive thread id offset limit value same done
    have told := ends sound member done
    rw [same] at told
    exact PageRead.snapshot told (sound.invariant.remembers _ (owned_mem member))
  executed := by
    intro task member archive prepared context output same done
    have told := ends sound member done
    rw [same] at told
    obtain ⟨inScope, id, offset, limit, named, _, _, read⟩ := told
    obtain ⟨bytes, found, page⟩ := read.snapshot (sound.invariant.remembers _ (owned_mem member))
    exact ⟨inScope, id, offset, limit, bytes, named, found, page⟩
  origin := by
    intro thread id bytes found
    obtain ⟨path, inode, named, directory, file, rfl⟩ := snapshot_iff.mp found
    have final := (paths_plain named).2.2
    obtain first | ⟨entry, member, retains⟩ := sound.invariant.origin path inode final file
    · left
      have grown := sound.invariant.grown
      cases before : initial.directories path.directory with
      | none => exact absurd before (wellFormed.housed path (by simp [first]))
      | some fileType =>
        cases directory.symm.trans (grown.directories _ _ before)
        have same := grown.contents path inode final first
        exact snapshot_iff.mpr ⟨path, inode, named, before, first, same.symm⟩
    · right
      obtain ⟨archive, thread', id', same, named', fits⟩ := retains
      obtain ⟨rfl, rfl⟩ := paths_inj named named'
      obtain ⟨task, present, rfl⟩ := List.mem_map.mp member
      have member := present
      exact ⟨task, member, archive, same, fits⟩

end Reachable

/-! ## Later calls -/

theorem Call.At.unique {call : Call} {path path' : ArchivePath} (about : call.At path)
    (about' : call.At path') : path = path' := by
  cases call with
  | retain archive thread id bytes => exact Except.ok.inj (about.symm.trans about')
  | readPage archive thread id offset limit => exact Except.ok.inj (about.symm.trans about')
  | execute archive prepared context =>
    obtain ⟨id, named, found⟩ := about
    obtain ⟨id', named', found'⟩ := about'
    cases named.symm.trans named'
    exact Except.ok.inj (found.symm.trans found')

/-- The path shows a file. -/
def Disk.Shows (disk : Disk) (path : ArchivePath) (inode : Inode) : Prop :=
  disk.directories path.directory = some .directory ∧ disk.files path = some (.file inode)

/-- Without a fault, no operation failed but the making of the directory. -/
def Own.Unhindered (own : Own) : Prop := own.Faulted ∨ ∀ event ∈ own.history, ¬ event.Failed

section Later

variable {disk disk' : Disk} {call : Call} {own : Own} {op : Op} {answer : op.Answer}
variable {path : ArchivePath} {inode : Inode}

theorem Own.Faulted.after (faulted : own.Faulted) (op : Op) (answer : op.Answer) :
    (own.after op answer).Faulted := by
  obtain ⟨event, happened, isFault⟩ := faulted
  exact ⟨event, history_after own op answer happened, isFault⟩

/-- A call that publishes was told that there is no snapshot. -/
theorem Publishes.faulted {bytes : Bytes} {path : ArchivePath} (publishes : Publishes call own path bytes)
    (unhindered : own.Unhindered) : own.Faulted := by
  obtain ⟨_, error, saw⟩ := publishes
  obtain faulted | none := unhindered
  · exact faulted
  · exact absurd True.intro (none _ saw)

/-- What a call about a snapshot is refused. -/
theorem refuses_shown {op : FileOp} {error : IoError} (about : call.At path)
    (shows : disk.Shows path inode) (permitted : permit call own (.file op))
    (refuses : disk.Refuses op error) (unhindered : own.Unhindered) :
    own.Faulted ∨ ∃ directory, op = .createDirectory directory ∧ error = .alreadyExists := by
  obtain ⟨directory, file⟩ := shows
  cases op with
  | createDirectory name =>
    cases error with
    | alreadyExists => exact .inr ⟨name, rfl, rfl⟩
    | notFound => cases refuses
    | other message => cases refuses
  | directoryMetadata name =>
    obtain ⟨path', about', rfl⟩ := permitted
    cases about.unique about'
    cases error with
    | notFound => cases directory.symm.trans refuses
    | alreadyExists => cases refuses
    | other message => cases refuses
  | metadata path' =>
    cases about.unique permitted
    cases error with
    | notFound => cases file.symm.trans refuses
    | alreadyExists => cases refuses
    | other message => cases refuses
  | openFile path' =>
    cases about.unique permitted.1
    cases error with
    | notFound =>
      obtain gone | link := refuses
      · cases file.symm.trans gone
      · cases file.symm.trans link
    | alreadyExists => cases refuses
    | other message => cases refuses
  | createNew pending =>
    obtain ⟨_, _, publishes, _⟩ := permitted
    exact .inl (publishes.faulted unhindered)
  | writeAll file bytes =>
    obtain ⟨_, _, publishes, _⟩ := permitted
    exact .inl (publishes.faulted unhindered)
  | hardLink source target =>
    obtain ⟨_, _, publishes, _⟩ := permitted
    exact .inl (publishes.faulted unhindered)
  | removeFile pending =>
    obtain ⟨_, _, _, publishes, _⟩ := permitted
    exact .inl (publishes.faulted unhindered)
  | _ => cases error <;> cases refuses

theorem Own.Unhindered.after (unhindered : own.Unhindered) (about : call.At path)
    (shows : disk.Shows path inode) (permitted : permit call own op)
    (effect : disk.Effect op answer disk') : (own.after op answer).Unhindered := by
  obtain faulted | none := unhindered
  · exact .inl (faulted.after op answer)
  · have placed : ∀ event ∈ (own.after op answer).history, event.Failed →
        event = ⟨op, answer⟩ := by
      intro event happened failed
      cases List.mem_append.mp happened with
      | inl earlier => exact absurd failed (none event earlier)
      | inr new => exact List.mem_singleton.mp new
    by_cases failed : (⟨op, answer⟩ : Event).Failed
    · left
      cases op with
      | file op =>
        cases answer with
        | ok result => cases op <;> cases failed
        | error error =>
          have refused : ∀ known : disk.Refuses op error,
              (own.after (.file op) (.error error)).Faulted := by
            intro known
            obtain faulted | ⟨directory, rfl, rfl⟩ :=
              refuses_shown about shows permitted known (.inr none)
            · exact faulted.after _ _
            · cases failed
          cases error with
          | notFound => exact refused effect.1
          | alreadyExists => exact refused effect.1
          | other message => exact ⟨_, mem_after own _ _, True.intro⟩
      | _ => cases failed
    · right
      intro event happened failed'
      exact failed (placed event happened failed' ▸ failed')

theorem snapshot_congr (extended : disk.Extends disk')
    (directories : disk'.directories = disk.directories)
    (files : ∀ path, ¬ path.Pending → disk'.files path = disk.files path)
    (thread : ThreadId) (id : String) :
    disk'.snapshot thread id = disk.snapshot thread id := by
  unfold Disk.snapshot
  cases named : paths thread id with
  | error error => rfl
  | ok path =>
    have final := (paths_plain named).2.2
    simp only [directories, files path final]
    cases file : disk.files path with
    | none => rfl
    | some entry =>
      cases entry with
      | file inode => simp only [extended.contents path inode final file]
      | _ => rfl

/-- A call about a snapshot that is there changes no snapshot. -/
theorem Moves.snapshot {draft' : Option Draft} {published : Option (ArchivePath × Bytes)}
    (wellFormed : disk.WellFormed) (held : ∀ draft, own.draft = some draft → draft.Held disk)
    (about : call.At path) (shows : disk.Shows path inode)
    (moved : Moves call disk own disk' draft' published) (thread : ThreadId) (id : String) :
    disk'.snapshot thread id = disk.snapshot thread id := by
  have extended := moved.extends wellFormed held
  obtain ⟨directory, file⟩ := shows
  cases moved with
  | same locked weaker => rfl
  | @directory path' about' absent =>
    cases about.unique about'
    cases directory.symm.trans absent
  | @created path' pending bytes draft' publishes isPending housed absent made =>
    apply snapshot_congr extended rfl
    intro path final
    have other : path ≠ pending := by
      intro same
      exact final (same ▸ isPending)
    exact Function.update_of_ne other _ _
  | wrote publishes current done => exact snapshot_congr extended rfl (fun _ _ => rfl) _ _
  | @linked source target inode' bytes published publishes current housed absent made =>
    cases about.unique publishes.1.at_path
    cases file.symm.trans absent
  | @removed path' bytes draft publishes current =>
    apply snapshot_congr extended rfl
    intro path final
    have other : path ≠ draft.path := by
      intro same
      exact final (same ▸ (held _ current).pending)
    exact Function.update_of_ne other _ _

/-- What a call about a snapshot asks, a host without faults answers. -/
theorem answered_shown (about : call.At path) (shows : disk.Shows path inode)
    (permitted : permit call own op) (unhindered : own.Unhindered) (faultless : ¬ own.Faulted)
    (free : op = .file .lock → disk.locked = false) :
    ∃ answer disk', disk.Effect op answer disk' ∧ ¬ (⟨op, answer⟩ : Event).IsFault := by
  cases op with
  | file op =>
    have answers : disk.Answers op := by
      cases op with
      | lock => exact free rfl
      | openFile path' =>
        cases about.unique permitted.1
        intro entry found
        cases shows.2.symm.trans found
        exact ⟨inode, rfl⟩
      | hardLink source target =>
        obtain ⟨_, _, publishes, _⟩ := permitted
        exact absurd (publishes.faulted unhindered) faultless
      | _ => trivial
    obtain ⟨answer, disk', served, told⟩ := Disk.serve_answers answers
    refine ⟨answer, disk', Disk.serve_effect served, ?_⟩
    intro isFault
    cases answer with
    | ok result => cases isFault
    | error error =>
      cases error with
      | other message => exact told message rfl
      | notFound => cases isFault
      | alreadyExists => cases isFault
  | unlock => exact ⟨(), _, rfl, fun isFault => isFault⟩
  | newEventId => exact ⟨"", _, rfl, fun isFault => isFault⟩
  | isCancelled token => exact ⟨false, _, rfl, fun isFault => isFault⟩

/-- Without a fault, a call about a snapshot that is there changes nothing. -/
theorem Moves.sameFiles {draft' : Option Draft} {published : Option (ArchivePath × Bytes)}
    (about : call.At path) (shows : disk.Shows path inode) (unhindered : own.Unhindered)
    (faultless : ¬ own.Faulted) (moved : Moves call disk own disk' draft' published) :
    disk.SameFiles disk' := by
  cases moved with
  | same locked weaker => exact ⟨rfl, rfl, rfl⟩
  | @directory path' about' absent =>
    cases about.unique about'
    cases shows.1.symm.trans absent
  | created publishes isPending housed absent made =>
    exact absurd (publishes.faulted unhindered) faultless
  | wrote publishes current done => exact absurd (publishes.faulted unhindered) faultless
  | linked publishes current housed absent made =>
    exact absurd (publishes.faulted unhindered) faultless
  | removed publishes current => exact absurd (publishes.faulted unhindered) faultless

end Later

section Runs

variable {initial : Disk} {config config' : Configuration} {path : ArchivePath} {inode : Inode}
variable {thread : ThreadId} {id : String} {bytes : Bytes}

/-- No step changes a snapshot. -/
theorem step_extends
    (sound : Sound machine contract (fun _ own => own) (Consistent initial) Ends config)
    (step : Step machine Call.code config config') : config.shared.Extends config'.shared := by
  cases step with
  | spawn call => exact .refl _
  | @act index task op resume answer shared' own' present asks exec =>
    have member := owned_mem (List.mem_of_getElem? present)
    have permitted := (sound.meets index task _ present asks).1
    have held := sound.invariant.held _ member
    exact (moves held permitted exec.1).extends sound.invariant.wellFormed held
  | @drop index task present =>
    show config.shared.Extends (if task.own.locked then _ else _)
    split
    · exact ⟨fun _ _ found => found, fun _ _ _ found => found, fun _ _ _ _ => rfl⟩
    · exact .refl _

theorem steps_extends (wellFormed : initial.WellFormed) (reached : Reachable initial config)
    (steps : Relation.ReflTransGen (Step machine Call.code) config config') :
    config.shared.Extends config'.shared := by
  induction steps with
  | refl => exact .refl _
  | tail earlier step ih =>
    exact ih.trans (step_extends (reachable_sound wellFormed (reached.trans earlier)) step)

theorem Disk.Shows.extends {disk disk' : Disk} (shows : disk.Shows path inode)
    (final : ¬ path.Pending) (extended : disk.Extends disk') : disk'.Shows path inode :=
  ⟨extended.directories _ _ shows.1, extended.files path _ final shows.2⟩

/-- Calls that begin once there is a snapshot are told so, unless there is a fault. -/
theorem steps_unhindered (wellFormed : initial.WellFormed) (reached : Reachable initial config)
    (shows : config.shared.Shows path inode)
    (steps : Relation.ReflTransGen (Step machine Call.code) config config') :
    config.tasks.length ≤ config'.tasks.length ∧
      ∀ (index : Nat) (task : Interaction.Task Op Op.Answer Own Call Reply),
        config.tasks.length ≤ index → config'.tasks[index]? = some task → task.call.At path →
        task.own.Unhindered := by
  induction steps with
  | refl =>
    refine ⟨Nat.le_refl _, ?_⟩
    intro index task later found
    rw [List.getElem?_eq_none later] at found
    cases found
  | tail earlier step ih =>
    obtain ⟨grown, unhindered⟩ := ih
    have sound := reachable_sound wellFormed (reached.trans earlier)
    have extended := steps_extends wellFormed reached earlier
    cases step with
    | spawn call =>
      refine ⟨by rw [List.length_append]; omega, ?_⟩
      intro index task later found about
      cases Nat.lt_or_ge index _ with
      | inl old =>
        rw [List.getElem?_append_left old] at found
        exact unhindered index task later found about
      | inr new =>
        rw [List.getElem?_append_right new] at found
        rw [List.mem_singleton.mp (List.mem_of_getElem? found)]
        right
        intro event happened
        cases happened
    | @act index' task' op resume answer shared' own' present asks exec =>
      refine ⟨by rw [List.length_set]; exact grown, ?_⟩
      intro index task later found about
      by_cases same : index = index'
      · subst same
        rw [List.getElem?_set_self (List.getElem?_eq_some_iff.mp present).1] at found
        cases found
        obtain ⟨effect, rfl⟩ := exec
        have shows := shows.extends about.not_pending extended
        exact (unhindered index task' later present about).after about shows
          (sound.meets index task' _ present asks).1 effect
      · rw [List.getElem?_set_ne (Ne.symm same)] at found
        exact unhindered index task later found about
    | @drop index' task' present =>
      refine ⟨by rw [List.length_set]; exact grown, ?_⟩
      intro index task later found about
      by_cases same : index = index'
      · subst same
        rw [List.getElem?_set_self (List.getElem?_eq_some_iff.mp present).1] at found
        cases found
        exact unhindered index task' later present about
      · rw [List.getElem?_set_ne (Ne.symm same)] at found
        exact unhindered index task later found about

end Runs

/-- Two snapshots share no file, and two threads no directory; the names of both lead to entries
directly below the root and below the directory. -/
structure Separate (thread : ThreadId) (id : String) (path : ArchivePath) : Prop where
  directory : Plain path.directory
  file : Plain path.file
  threads : ∀ thread' id' path', paths thread' id' = .ok path' →
    path'.directory = path.directory → thread' = thread
  calls : ∀ thread' id', paths thread' id' = .ok path → thread' = thread ∧ id' = id

/-- A `retain` for a snapshot that is there. -/
structure Keeping (disk : Disk) (task : Interaction.Task Op Op.Answer Own Call Reply)
    (snapshot : Bytes) (archive : OutputArchive) (bytes : Bytes) : Prop where
  /-- It succeeds with the same bytes only, and then always if it meets no fault. -/
  ended : ∀ result, task.program = some (.done (.retained result)) →
    (result = .ok () → bytes = snapshot) ∧
    (¬ task.own.Faulted →
      (result = .ok () ↔ bytes = snapshot ∧ bytes.length ≤ archive.maxOutputBytes))
  /-- But for the lock it waits for nothing. -/
  answered : ∀ op resume, task.program = some (.ask op resume) → ¬ task.own.Faulted →
    (op = .file .lock → disk.locked = false) →
    ∃ answer disk', disk.Effect op answer disk' ∧ ¬ (⟨op, answer⟩ : Event).IsFault
  /-- Its steps change no snapshot, and without a fault nothing at all. -/
  steps : ∀ op resume answer disk' own', task.program = some (.ask op resume) →
    machine.exec disk task.own op answer disk' own' →
    (∀ thread id, disk'.snapshot thread id = disk.snapshot thread id) ∧
    (¬ own'.Faulted → disk.SameFiles disk')

theorem separate {thread : ThreadId} {id : String} {path : ArchivePath}
    (named : paths thread id = .ok path) : Separate thread id path where
  directory := (paths_plain named).1
  file := (paths_plain named).2.1
  threads _ _ _ named' same := paths_directory_inj named' named same
  calls _ _ named' := paths_inj named' named

theorem prepare_scope {call : ToolCall} {context : ToolExecutionContext}
    {prepared : PreparedToolCall} (made : ReadOutputTool.prepare call context = .ok prepared) :
    prepared.action.scope = some context.threadId.value := by
  obtain ⟨_, _, made⟩ := Fallible.bind_ok.mp made
  obtain ⟨_, _, made⟩ := Fallible.bind_ok.mp made
  obtain ⟨_, _, made⟩ := Fallible.bind_ok.mp made
  obtain ⟨_, _, made⟩ := Fallible.bind_ok.mp made
  obtain ⟨_, _, made⟩ := Fallible.bind_ok.mp made
  obtain ⟨_, _, made⟩ := Fallible.bind_ok.mp made
  cases made
  rfl

section Keeping

variable {initial : Disk} {config : Configuration} {path : ArchivePath} {inode : Inode}
variable {thread : ThreadId} {id : String} {snapshot bytes : Bytes}
variable {task : Interaction.Task Op Op.Answer Own Call Reply} {archive : OutputArchive}

/-- How a `retain` that is over ended, told by the snapshot. -/
theorem Retained.ended {disk : Disk} {own : Own} {result : Except Core.ContextError Unit}
    (retained : Retained archive thread id bytes own result)
    (found : disk.snapshot thread id = some snapshot)
    (remembers : ∀ event ∈ own.history, disk.Remembers event)
    (published : ∀ path bytes, own.published = some (path, bytes) → disk.Holds path bytes)
    (unhindered : own.Unhindered) :
    (result = .ok () → bytes = snapshot) ∧
    (¬ own.Faulted →
      (result = .ok () ↔ bytes = snapshot ∧ bytes.length ≤ archive.maxOutputBytes)) := by
  cases result with
  | ok value =>
    obtain ⟨path, named, fits, kept⟩ := retained
    have kept := kept.snapshot fits named remembers published
    have same := Option.some.inj (kept.symm.trans found)
    exact ⟨fun _ => same, fun _ => ⟨fun _ => ⟨same, fits⟩, fun _ => rfl⟩⟩
  | error error =>
    have failed : (Except.error error : Except Core.ContextError Unit) ≠ .ok () := by
      intro same
      cases same
    refine ⟨fun same => absurd same failed, ?_⟩
    intro faultless
    refine ⟨fun same => absurd same failed, ?_⟩
    intro both
    obtain ⟨rfl, fits⟩ := both
    obtain ⟨path, inode, named, directory, file, rfl⟩ := snapshot_iff.mp found
    have unfailed := unhindered.resolve_left faultless
    obtain large | refused := retained
    · omega
    · obtain hindered | ⟨other, read, different⟩ := refused path named
      · cases hindered with
        | failed event happened failed => exact absurd failed (unfailed event happened)
        | directory fileType other saw =>
          cases directory.symm.trans (remembers _ saw)
          exact absurd rfl other
        | file metadata other saw =>
          obtain ⟨_, entry, shown, describes⟩ := remembers _ saw
          cases file.symm.trans shown
          cases describes
          exact absurd ⟨rfl, fits⟩ other
      · obtain ⟨whole, found', cut⟩ := read.snapshot named remembers
        cases found.symm.trans found'
        rw [List.take_of_length_le (by omega)] at cut
        exact absurd cut different

theorem keeping
    (sound : Sound machine contract (fun _ own => own) (Consistent initial) Ends config)
    (member : task ∈ config.tasks) (same : task.call = .retain archive thread id bytes)
    (found : config.shared.snapshot thread id = some snapshot)
    (unhindered : task.own.Unhindered) :
    Keeping config.shared task snapshot archive bytes where
  ended := by
    intro result done
    have told := ends sound member done
    rw [same] at told
    exact Retained.ended told found (sound.invariant.remembers _ (owned_mem member))
      (sound.invariant.published _ (owned_mem member)) unhindered
  answered := by
    intro op resume asks faultless free
    obtain ⟨path, inode, named, directory, file, rfl⟩ := snapshot_iff.mp found
    have about : task.call.At path := by
      rw [same]
      exact named
    obtain ⟨place, present⟩ := List.mem_iff_getElem?.mp member
    have permitted := (sound.meets place task _ present asks).1
    exact answered_shown about ⟨directory, file⟩ permitted unhindered faultless free
  steps := by
    intro op resume answer disk' own' asks exec
    obtain ⟨effect, rfl⟩ := exec
    obtain ⟨path, inode, named, directory, file, rfl⟩ := snapshot_iff.mp found
    have about : task.call.At path := by
      rw [same]
      exact named
    obtain ⟨place, present⟩ := List.mem_iff_getElem?.mp member
    have permitted := (sound.meets place task _ present asks).1
    have held := sound.invariant.held _ (owned_mem member)
    have moved := moves held permitted effect
    constructor
    · exact moved.snapshot sound.invariant.wellFormed held about ⟨directory, file⟩
    · intro faultless
      apply moved.sameFiles about ⟨directory, file⟩ unhindered
      intro faulted
      exact faultless (faulted.after op answer)

end Keeping

/-- Archived outputs are immutable and isolated, in every interleaving of calls, with faults and
crashes at any step: here at one time of a run (`config`) and at any later one. -/
theorem outputs_archived {initial : Disk} {config config' : Configuration}
    (wellFormed : initial.WellFormed) (reached : Reachable initial config)
    (steps : Relation.ReflTransGen (Step machine Call.code) config config') :
    (∀ thread id path, paths thread id = .ok path → Separate thread id path) ∧
    (∀ call context prepared, ReadOutputTool.prepare call context = .ok prepared →
      prepared.action.scope = some context.threadId.value) ∧
    Archived initial config ∧ Archived initial config' ∧
    ∀ thread id snapshot, config.shared.snapshot thread id = some snapshot →
      config'.shared.snapshot thread id = some snapshot ∧
      ∀ (index : Nat) (task : Interaction.Task Op Op.Answer Own Call Reply) archive bytes,
        config.tasks.length ≤ index → config'.tasks[index]? = some task →
        task.call = .retain archive thread id bytes →
        Keeping config'.shared task snapshot archive bytes := by
  refine ⟨fun _ _ _ named => separate named, fun _ _ _ made => prepare_scope made,
    sound_archived wellFormed (reachable_sound wellFormed reached),
    sound_archived wellFormed (reachable_sound wellFormed (reached.trans steps)), ?_⟩
  intro thread id snapshot found
  have extended := steps_extends wellFormed reached steps
  have found' := extended.snapshot found
  refine ⟨found', ?_⟩
  intro index task archive bytes later present same
  obtain ⟨path, inode, named, directory, file, _⟩ := snapshot_iff.mp found
  have about : task.call.At path := by
    rw [same]
    exact named
  have unhindered := (steps_unhindered wellFormed reached ⟨directory, file⟩ steps).2 index task
    later present about
  have sound := reachable_sound wellFormed (reached.trans steps)
  exact keeping sound (List.mem_of_getElem? present) same found' unhindered

namespace Sample

def archive : OutputArchive := ⟨20, by decide⟩

/-- `retain` of `123` under an id that looks like a path. -/
def retain : Call := .retain archive ⟨"thread"⟩ "../../outside" [49, 50, 51]

/-- What the call leaves behind on a host without faults. -/
def retained : Option Reply × Disk := retain.code.run (Disk.handle fun _ => "id") .empty

theorem retained_ok : retained.1 = some (.retained (.ok ())) := by
  rfl

end Sample

/-- A call that ran to its end on an empty archive. -/
theorem outputs_archived_retained : ∃ config : Configuration, Reachable Disk.empty config ∧
    config.shared.snapshot ⟨"thread"⟩ "../../outside" = some [49, 50, 51] := by
  have ran : Sample.retain.code.run (Disk.handle fun _ => "id") Disk.empty =
      (some (.retained (.ok ())), Sample.retained.2) := by
    rw [← Sample.retained_ok]
    rfl
  have spawned : Step machine Call.code (Interaction.Config.start Disk.empty)
      ⟨Disk.empty, [⟨Sample.retain, some Sample.retain.code, .idle⟩]⟩ := .spawn _ _
  have allowed : ∀ (disk : Disk) (own : Own) (op : Op) (answer : op.Answer) (disk' : Disk),
      disk.handle (fun _ => "id") op = (some answer, disk') →
      ∃ own', machine.exec disk own op answer disk' own' :=
    fun disk own op answer disk' handled => ⟨_, Disk.handle_effect handled, rfl⟩
  have present : (Interaction.Config.mk Disk.empty
      [⟨Sample.retain, some Sample.retain.code, Own.idle⟩] : Configuration).tasks[0]? =
        some ⟨Sample.retain, some Sample.retain.code, .idle⟩ := rfl
  obtain ⟨config, own, steps, _, _, done⟩ := Interaction.steps_of_run allowed present ran
  have reached : Reachable Disk.empty config := .head spawned steps
  have archived := (outputs_archived .empty reached .refl).2.2.1
  exact ⟨config, reached, archived.retained _ (List.mem_of_getElem? done) _ _ _ _ rfl rfl⟩

end Nausicaa.ContextFs
