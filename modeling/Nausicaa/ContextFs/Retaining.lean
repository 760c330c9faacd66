import Nausicaa.ContextFs.Snapshots

/-! # Keeping outputs on a host without faults

On an archive that holds nothing but snapshots `retain` makes a new one, finds its bytes, or
meets others (`retain_host`), and an archive of that kind is left. -/

namespace Nausicaa.ContextFs

open Core (ContextError ThreadId)

namespace Disk

/-- Directories with bounded snapshots. -/
structure Settled (disk : Disk) (maximum : Nat) : Prop extends disk.WellFormed where
  directories : ∀ directory fileType, disk.directories directory = some fileType →
    fileType = .directory
  files : ∀ path entry, disk.files path = some entry → ¬ path.Pending ∧
    ∃ inode, entry = .file inode ∧ (disk.contents inode).length ≤ maximum

/-- An archive between calls. -/
structure Calm (disk : Disk) (maximum : Nat) : Prop extends disk.Settled maximum where
  unlocked : disk.locked = false

/-- The disk with a directory that was made if it was not there. -/
def housing (disk : Disk) (directory : String) : Disk :=
  match disk.directories directory with
  | none => disk.withDirectory directory
  | some _ => disk

/-- The disk with a published snapshot. -/
def withSnapshot (disk : Disk) (path : ArchivePath) (bytes : Bytes) : Disk :=
  { (disk.withFile path (some (.file disk.next))).withContents disk.next bytes with
    next := disk.next + 1 }

end Disk

section Calm

variable {disk : Disk} {maximum : Nat} {path : ArchivePath} {bytes : Bytes} {inode : Inode}
variable {thread : ThreadId} {id : String}

theorem Disk.Calm.empty (maximum : Nat) : Disk.empty.Calm maximum where
  toWellFormed := .empty
  directories directory fileType found := by cases found
  files path entry found := by cases found
  unlocked := rfl

theorem housing_directory (settled : disk.Settled maximum) (directory : String) :
    (disk.housing directory).directories directory = some .directory := by
  rw [Disk.housing]
  cases found : disk.directories directory with
  | none => exact Function.update_self _ _ _
  | some fileType =>
    rw [settled.directories directory fileType found] at found
    exact found

theorem housing_settled (settled : disk.Settled maximum) (directory : String) :
    (disk.housing directory).Settled maximum := by
  rw [Disk.housing]
  cases found : disk.directories directory with
  | some fileType => exact settled
  | none =>
    have kept : ∀ name, name ≠ directory →
        (disk.withDirectory directory).directories name = disk.directories name :=
      fun name other => Function.update_of_ne other _ _
    have made : (disk.withDirectory directory).directories directory = some .directory :=
      Function.update_self _ _ _
    refine ⟨⟨settled.fresh, ?_⟩, ?_, settled.files⟩
    · intro path present
      by_cases same : path.directory = directory
      · rw [same, made]
        simp
      · rw [kept _ same]
        exact settled.housed path present
    · intro name fileType shown
      by_cases same : name = directory
      · subst same
        rw [made] at shown
        exact (Option.some.inj shown).symm
      · rw [kept name same] at shown
        exact settled.directories name fileType shown

theorem withSnapshot_settled (settled : disk.Settled maximum) (final : ¬ path.Pending)
    (housed : disk.directories path.directory = some .directory) (fits : bytes.length ≤ maximum) :
    (disk.withSnapshot path bytes).Settled maximum := by
  have self : (disk.withSnapshot path bytes).files path = some (.file disk.next) :=
    Function.update_self _ _ _
  have others : ∀ path', path' ≠ path → (disk.withSnapshot path bytes).files path' =
      disk.files path' := fun path' other => Function.update_of_ne other _ _
  have filled : (disk.withSnapshot path bytes).contents disk.next = bytes :=
    Function.update_self _ _ _
  have kept : ∀ inode, inode < disk.next →
      (disk.withSnapshot path bytes).contents inode = disk.contents inode :=
    fun inode old => Function.update_of_ne (Nat.ne_of_lt old) _ _
  refine ⟨⟨?_, ?_⟩, settled.directories, ?_⟩
  · intro path' inode found
    by_cases same : path' = path
    · rw [same, self] at found
      cases found
      exact Nat.lt_succ_self _
    · rw [others path' same] at found
      exact Nat.lt_succ_of_lt (settled.fresh path' inode found)
  · intro path' present
    by_cases same : path' = path
    · rw [same]
      intro gone
      cases housed.symm.trans gone
    · rw [others path' same] at present
      exact settled.housed path' present
  · intro path' entry found
    by_cases same : path' = path
    · rw [same, self] at found
      cases found
      exact ⟨same ▸ final, _, rfl, by rw [filled]; exact fits⟩
    · rw [others path' same] at found
      obtain ⟨final', inode, rfl, fits'⟩ := settled.files path' entry found
      exact ⟨final', inode, rfl, by rw [kept inode (settled.fresh path' inode found)]; exact fits'⟩

/-! ## What there is -/

/-- There is a snapshot or nothing. -/
theorem Disk.Settled.snapshot_none (settled : disk.Settled maximum) (named : paths thread id = .ok path) :
    disk.snapshot thread id = none ↔ disk.files path = none := by
  constructor
  · intro none
    cases found : disk.files path with
    | none => rfl
    | some entry =>
      obtain ⟨_, inode, rfl, _⟩ := settled.files path entry found
      cases housed : disk.directories path.directory with
      | none => exact absurd housed (settled.housed path (by simp [found]))
      | some fileType =>
        rw [settled.directories _ _ housed] at housed
        have shown := snapshot_iff.mpr ⟨path, inode, named, housed, found, rfl⟩
        rw [none] at shown
        cases shown
  · intro absent
    cases found : disk.snapshot thread id with
    | none => rfl
    | some bytes =>
      obtain ⟨path', inode, named', _, file, _⟩ := snapshot_iff.mp found
      cases named.symm.trans named'
      cases absent.symm.trans file

theorem housing_snapshot (settled : disk.Settled maximum) (directory : String) (thread : ThreadId)
    (id : String) : (disk.housing directory).snapshot thread id = disk.snapshot thread id := by
  rw [Disk.housing]
  cases absent : disk.directories directory with
  | some fileType => rfl
  | none =>
    unfold Disk.snapshot
    cases named : paths thread id with
    | error error => rfl
    | ok path =>
      dsimp only
      by_cases same : path.directory = directory
      · have unused : disk.files path = none := by
          by_contra present
          exact settled.housed path present (same ▸ absent)
        have unused' : (disk.withDirectory directory).files path = none := unused
        simp only [unused, unused', ite_self]
      · have kept : (disk.withDirectory directory).directories path.directory =
            disk.directories path.directory := Function.update_of_ne same _ _
        rw [kept]
        rfl

theorem withSnapshot_snapshot (settled : disk.Settled maximum) (named : paths thread id = .ok path)
    (housed : disk.directories path.directory = some .directory) (thread' : ThreadId)
    (id' : String) : (disk.withSnapshot path bytes).snapshot thread' id' =
      if thread' = thread ∧ id' = id then some bytes else disk.snapshot thread' id' := by
  have self : (disk.withSnapshot path bytes).files path = some (.file disk.next) :=
    Function.update_self _ _ _
  have filled : (disk.withSnapshot path bytes).contents disk.next = bytes :=
    Function.update_self _ _ _
  split
  next same =>
    obtain ⟨rfl, rfl⟩ := same
    exact snapshot_iff.mpr ⟨path, disk.next, named, housed, self, filled⟩
  next other =>
    unfold Disk.snapshot
    cases named' : paths thread' id' with
    | error error => rfl
    | ok path' =>
      have apart : path' ≠ path := by
        intro same
        exact other (paths_inj named' (same ▸ named))
      have files : (disk.withSnapshot path bytes).files path' = disk.files path' :=
        Function.update_of_ne apart _ _
      have directories : (disk.withSnapshot path bytes).directories = disk.directories := rfl
      simp only [files, directories]
      cases found : disk.files path' with
      | none => rfl
      | some entry =>
        obtain ⟨_, inode, rfl, _⟩ := settled.files path' entry found
        have kept : (disk.withSnapshot path bytes).contents inode = disk.contents inode :=
          Function.update_of_ne (Nat.ne_of_lt (settled.fresh path' inode found)) _ _
        simp only [kept]

end Calm

/-! ## Running the code -/

section Running

variable {newId : Disk → String} {disk : Disk} {path : ArchivePath} {bytes : Bytes}
variable {inode : Inode} {thread : ThreadId} {id : String} {archive : OutputArchive}

theorem checkDirectory_host (housed : disk.directories path.directory = some .directory) :
    host newId (OutputArchive.checkDirectory path.directory) disk = (some (.ok ()), disk) := by
  have served : disk.serve (.directoryMetadata path.directory) =
      (some (.ok FileType.directory), disk) := by simp only [Disk.serve, housed]
  rw [OutputArchive.checkDirectory, host_bind _ (host_perform served)]
  exact host_ensure _ rfl

theorem openSnapshot_host (named : paths thread id = .ok path)
    (housed : disk.directories path.directory = some .directory)
    (file : disk.files path = some (.file inode))
    (fits : (disk.contents inode).length ≤ archive.maxOutputBytes) :
    host newId (archive.openSnapshot thread id) disk = (some (.ok inode), disk) := by
  have shown : disk.serve (.metadata path) =
      (some (.ok (⟨.file, (disk.contents inode).length⟩ : Metadata)), disk) := by
    simp only [Disk.serve, file, Disk.describe]
  have opened : disk.serve (.openFile path) = (some (.ok inode), disk) := by
    simp only [Disk.serve, file]
  rw [OutputArchive.openSnapshot, named, host_bind _ (host_ofExcept _),
    host_bind _ (checkDirectory_host housed), host_bind _ (host_perform shown),
    host_bind _ (host_ensure _ ⟨rfl, fits⟩)]
  exact host_perform opened

/-- A snapshot that is there is compared. -/
theorem confirm_host (named : paths thread id = .ok path)
    (housed : disk.directories path.directory = some .directory)
    (file : disk.files path = some (.file inode))
    (fits : (disk.contents inode).length ≤ archive.maxOutputBytes) :
    host newId (archive.confirm thread id bytes) disk =
      (some (if disk.contents inode = bytes then .ok ()
        else .error (readError "archive snapshot conflict; refusing overwrite")), disk) := by
  have opened : host newId (archive.openSnapshot thread id) disk = (some (.ok inode), disk) :=
    openSnapshot_host named housed file fits
  have read : disk.serve (.readAt inode 0 (archive.maxOutputBytes + 1)) =
      (some (.ok (disk.contents inode)), disk) := by
    simp only [Disk.serve, List.drop_zero]
    rw [List.take_of_length_le (by omega)]
  rw [OutputArchive.confirm, host_bind _ opened, host_bind _ (host_perform read)]
  by_cases same : disk.contents inode = bytes
  · rw [if_pos same, host_bind _ (host_ensure _ same), host_bind _ opened]
    exact host_perform rfl
  · rw [if_neg same]
    exact host_bind_error _ (host_ensure_error _ same)

theorem makeDirectory_host (directory : String) :
    host newId (OutputArchive.makeDirectory directory) disk =
      (some (.ok ()), disk.housing directory) := by
  rw [OutputArchive.makeDirectory, Disk.housing]
  cases found : disk.directories directory with
  | none =>
    have served : disk.serve (.createDirectory directory) =
        (some (.ok ()), disk.withDirectory directory) := by simp only [Disk.serve, found]
    rw [host_bind _ (host_attempt served)]
    exact host_perform rfl
  | some fileType =>
    have served : disk.serve (.createDirectory directory) =
        (some (.error .alreadyExists), disk) := by simp only [Disk.serve, found]
    rw [host_bind _ (host_attempt served)]
    rfl

/-- Publishing leaves the snapshot and nothing else. -/
theorem publish_host (settled : disk.Settled archive.maxOutputBytes) (final : ¬ path.Pending)
    (housed : disk.directories path.directory = some .directory) (absent : disk.files path = none) :
    host newId (OutputArchive.publish path bytes) disk =
      (some (.ok ()), disk.withSnapshot path bytes) := by
  -- The disk behind each of the operations, with the file under its pending name.
  let pending : ArchivePath := ⟨path.directory, pendingName (newId disk)⟩
  let created := disk.withNew pending
  let written := created.withContents disk.next (created.contents disk.next ++ bytes)
  let linked := written.withFile path (some (.file disk.next))
  have isPending : pending.Pending := ⟨_, rfl⟩
  have apart : path ≠ pending := fun same => final (same ▸ isPending)
  have free : disk.files pending = none := by
    by_contra present
    obtain ⟨entry, found⟩ := Option.ne_none_iff_exists'.mp present
    exact (settled.files pending entry found).1 isPending
  have served : disk.serve (.createNew pending) = (some (.ok disk.next), created) := by
    rw [Disk.serve, if_neg (by rw [housed]; simp), if_pos free]
  have wrote : created.serve (.writeAll disk.next bytes) = (some (.ok ()), written) := rfl
  have synced : written.serve (.syncFile disk.next) = (some (.ok ()), written) := rfl
  have source : written.files pending = some (.file disk.next) := Function.update_self _ _ _
  have target : written.files path = none := (Function.update_of_ne apart _ _).trans absent
  have hardLinked : written.serve (.hardLink pending path) = (some (.ok ()), linked) := by
    have housed : written.directories path.directory = some .directory := housed
    rw [Disk.serve, if_neg (by rw [housed]; simp), if_pos target, source]
  have shown : linked.files pending = some (.file disk.next) :=
    (Function.update_of_ne apart.symm _ _).trans source
  have removed : linked.serve (.removeFile pending) = (some (.ok ()), linked.withFile pending none) := by
    rw [Disk.serve, if_neg (by rw [shown]; simp)]
  have left : linked.withFile pending none = disk.withSnapshot path bytes := by
    apply Disk.ext
    · rfl
    · funext path'
      show Function.update (Function.update (Function.update disk.files pending _) path _) pending
        none path' = Function.update disk.files path _ path'
      by_cases other : path' = pending
      · rw [other, Function.update_self, Function.update_of_ne apart.symm, free]
      · rw [Function.update_of_ne other]
        by_cases same : path' = path
        · rw [same, Function.update_self, Function.update_self]
        · rw [Function.update_of_ne same, Function.update_of_ne other, Function.update_of_ne same]
    · show Function.update (Function.update disk.contents disk.next []) disk.next
        (Function.update disk.contents disk.next [] disk.next ++ bytes) =
          Function.update disk.contents disk.next bytes
      rw [Function.update_self, List.nil_append, Function.update_idem]
    · rfl
    · rfl
  have wrotePending : host newId (OutputArchive.writePending disk.next pending path bytes) created =
      (some (.ok ()), linked) := by
    rw [OutputArchive.writePending, host_bind _ (host_perform wrote),
      host_bind _ (host_perform synced)]
    exact host_perform hardLinked
  have named : host newId (Interaction.request Op.newEventId : Code ContextError String) disk =
      (some (.ok (newId disk)), disk) := rfl
  rw [OutputArchive.publish, host_bind _ named, host_bind _ (host_perform served),
    host_bind _ (host_outcome wrotePending), host_bind _ (host_attempt removed),
    host_bind _ (host_ofExcept _), left]
  rfl

theorem confirmOrPublish_absent (absent : disk.files path = none) :
    host newId (archive.confirmOrPublish thread id path bytes) disk =
      host newId (OutputArchive.publish path bytes) disk := by
  have missing : disk.serve (.metadata path) = (some (.error .notFound), disk) := by
    simp only [Disk.serve, absent]
  rw [OutputArchive.confirmOrPublish, host_bind _ (host_attempt missing)]

theorem confirmOrPublish_present (file : disk.files path = some (.file inode)) :
    host newId (archive.confirmOrPublish thread id path bytes) disk =
      host newId (archive.confirm thread id bytes) disk := by
  have shown : disk.serve (.metadata path) =
      (some (.ok ⟨.file, (disk.contents inode).length⟩), disk) := by
    simp only [Disk.serve, file, Disk.describe]
  rw [OutputArchive.confirmOrPublish, host_bind _ (host_attempt shown)]

/-! ## Keeping -/

theorem settled_locked (settled : disk.Settled archive.maxOutputBytes) (locked : Bool) :
    ({ disk with locked } : Disk).Settled archive.maxOutputBytes :=
  ⟨⟨settled.fresh, settled.housed⟩, settled.directories, settled.files⟩

theorem housing_locked (directory : String) (locked : Bool) :
    ({ disk with locked } : Disk).housing directory = { disk.housing directory with locked } := by
  simp only [Disk.housing]
  cases disk.directories directory <;> rfl

/-- What is done under the lock. -/
theorem retain_host {disk' : Disk} {result : Except ContextError Unit}
    (unlocked : disk.locked = false) (fits : bytes.length ≤ archive.maxOutputBytes)
    (kept : host newId (archive.retainLocked thread id bytes) { disk with locked := true } =
      (some result, { disk' with locked := true })) (same : disk'.locked = false) :
    host newId (archive.retain thread id bytes) disk = (some result, disk') := by
  have lock : disk.serve .lock = (some (.ok ()), { disk with locked := true }) := by
    rw [Disk.serve, unlocked]
    rfl
  have unlock : host newId (Interaction.request Op.unlock : Code ContextError Unit)
      { disk' with locked := true } = (some (.ok ()), disk') := by
    show (some (Except.ok ()), { disk' with locked := false }) = (some (.ok ()), disk')
    rw [← same]
  rw [OutputArchive.retain, host_bind _ (host_ensure _ fits), host_bind _ (host_perform lock),
    host_bind _ (host_outcome kept), host_bind _ unlock]
  exact host_ofExcept result

/-- A new snapshot. -/
theorem retain_new (calm : disk.Calm archive.maxOutputBytes) (named : paths thread id = .ok path)
    (fits : bytes.length ≤ archive.maxOutputBytes) (absent : disk.snapshot thread id = none) :
    host newId (archive.retain thread id bytes) disk =
      (some (.ok ()), (disk.housing path.directory).withSnapshot path bytes) := by
  have final := (paths_plain named).2.2
  have settled := settled_locked calm.toSettled true
  have housed := housing_directory settled path.directory
  have absent : disk.files path = none := (calm.toSettled.snapshot_none named).mp absent
  have absent' : (({ disk with locked := true } : Disk).housing path.directory).files path =
      none := by
    rw [Disk.housing]
    split
    · exact absent
    · exact absent
  apply retain_host calm.unlocked fits
  · rw [OutputArchive.retainLocked, named, host_bind _ (host_ofExcept _),
      host_bind _ (makeDirectory_host _), host_bind _ (checkDirectory_host housed)]
    have published : host newId (archive.confirmOrPublish thread id path bytes)
        (({ disk with locked := true } : Disk).housing path.directory) = (some (.ok ()),
          (({ disk with locked := true } : Disk).housing path.directory).withSnapshot path bytes) :=
      (confirmOrPublish_absent absent').trans
        (publish_host (housing_settled settled path.directory) final housed absent')
    rw [host_bind _ published, housing_locked]
    exact host_perform rfl
  · show (disk.housing path.directory).locked = false
    rw [Disk.housing]
    split
    · exact calm.unlocked
    · exact calm.unlocked

/-- A snapshot that is there. -/
theorem retain_old {old : Bytes} (calm : disk.Calm archive.maxOutputBytes)
    (fits : bytes.length ≤ archive.maxOutputBytes) (found : disk.snapshot thread id = some old) :
    host newId (archive.retain thread id bytes) disk =
      (some (if old = bytes then .ok ()
        else .error (readError "archive snapshot conflict; refusing overwrite")), disk) := by
  obtain ⟨path, inode, named, housed, file, rfl⟩ := snapshot_iff.mp found
  have most : (disk.contents inode).length ≤ archive.maxOutputBytes := by
    obtain ⟨_, inode', same, most⟩ := calm.files path _ file
    cases same
    exact most
  have made : ({ disk with locked := true } : Disk).housing path.directory =
      { disk with locked := true } := by simp only [Disk.housing, housed]
  have kept : host newId (archive.confirmOrPublish thread id path bytes)
      ({ disk with locked := true } : Disk) = (some (if disk.contents inode = bytes then .ok ()
        else .error (readError "archive snapshot conflict; refusing overwrite")),
          { disk with locked := true }) := by
    have file : ({ disk with locked := true } : Disk).files path = some (.file inode) := file
    rw [confirmOrPublish_present file]
    exact confirm_host named housed file most
  have housed : ({ disk with locked := true } : Disk).directories path.directory =
      some .directory := housed
  apply retain_host calm.unlocked fits _ calm.unlocked
  rw [OutputArchive.retainLocked, named, host_bind _ (host_ofExcept _),
    host_bind _ (makeDirectory_host _), made, host_bind _ (checkDirectory_host housed)]
  by_cases same : disk.contents inode = bytes
  · rw [if_pos same] at kept
    rw [if_pos same, host_bind _ kept]
    exact host_perform rfl
  · rw [if_neg same] at kept
    rw [if_neg same]
    exact host_bind_error _ kept

/-- How a `retain` without a fault ends, and what it leaves. -/
structure Retains (newId : Disk → String) (archive : OutputArchive) (thread : ThreadId) (id : String)
    (bytes : Bytes) (disk : Disk) (result : Except ContextError Unit) (disk' : Disk) : Prop where
  ran : host newId (archive.retain thread id bytes) disk = (some result, disk')
  calm : disk'.Calm archive.maxOutputBytes
  kept : ∀ thread' id' old, disk.snapshot thread' id' = some old →
    disk'.snapshot thread' id' = some old
  made : result = .ok () → disk'.snapshot thread id = some bytes
  others : ∀ thread' id' new, disk'.snapshot thread' id' = some new →
    disk.snapshot thread' id' = some new ∨ thread' = thread ∧ id' = id ∧ new = bytes
  free : (∀ old, disk.snapshot thread id = some old → old = bytes) → result = .ok ()

theorem retains (newId : Disk → String) (calm : disk.Calm archive.maxOutputBytes) (named : paths thread id = .ok path)
    (fits : bytes.length ≤ archive.maxOutputBytes) :
    ∃ result disk', Retains newId archive thread id bytes disk result disk' := by
  cases found : disk.snapshot thread id with
  | none =>
    have housed := housing_directory calm.toSettled path.directory
    have settled := housing_settled calm.toSettled path.directory
    have shown : ∀ thread' id',
        ((disk.housing path.directory).withSnapshot path bytes).snapshot thread' id' =
          if thread' = thread ∧ id' = id then some bytes else disk.snapshot thread' id' := by
      intro thread' id'
      rw [withSnapshot_snapshot settled named housed, housing_snapshot calm.toSettled]
    have unlocked : (disk.housing path.directory).locked = false := by
      rw [Disk.housing]
      split
      · exact calm.unlocked
      · exact calm.unlocked
    refine ⟨_, _, retain_new calm named fits found, ?_, ?_, ?_, ?_, fun _ => rfl⟩
    · exact ⟨withSnapshot_settled settled (paths_plain named).2.2 housed fits, unlocked⟩
    · intro thread' id' old before
      rw [shown, if_neg]
      · exact before
      · intro same
        rw [same.1, same.2, found] at before
        cases before
    · intro _
      rw [shown, if_pos ⟨rfl, rfl⟩]
    · intro thread' id' new after
      rw [shown] at after
      split at after
      next same => exact .inr ⟨same.1, same.2, (Option.some.inj after).symm⟩
      next => exact .inl after
  | some old =>
    refine ⟨_, _, retain_old calm fits found, calm, fun _ _ _ before => before, ?_,
      fun _ _ _ after => .inl after, ?_⟩
    · intro done
      split at done
      next same => exact same ▸ found
      next => cases done
    · intro free
      rw [if_pos (free old found)]

end Running

end Nausicaa.ContextFs
