import Nausicaa.ContextFs.Archive

/-! # The directory of the archive

The part of the file system under the archive's root, which only the archive's calls change, and
those calls side by side: a `Machine` whose operations act on the files and may fail at any time.
A write that fails leaves any first part of the bytes, and any other change may have been made
before its operation fails.  A call that is dropped is one that a crash cuts: what it did to the
files stays. -/

namespace Nausicaa.ContextFs

open Core (ThreadId)
open Interaction (Config Machine Step)

inductive Entry where
  | file (inode : Inode)
  | directory
  | symlink
  deriving DecidableEq, Repr

@[ext]
structure Disk where
  directories : String → Option FileType
  files : ArchivePath → Option Entry
  contents : Inode → Bytes
  next : Inode
  locked : Bool

namespace Disk

/-- The root of a new archive. -/
def empty : Disk := ⟨fun _ => none, fun _ => none, fun _ => [], 0, false⟩

variable (disk : Disk)

def withFile (path : ArchivePath) (entry : Option Entry) : Disk :=
  { disk with files := Function.update disk.files path entry }

def withContents (inode : Inode) (bytes : Bytes) : Disk :=
  { disk with contents := Function.update disk.contents inode bytes }

/-- The disk with an empty file. -/
def withNew (path : ArchivePath) : Disk :=
  { (disk.withFile path (some (.file disk.next))).withContents disk.next [] with
    next := disk.next + 1 }

def withDirectory (directory : String) : Disk :=
  { disk with directories := Function.update disk.directories directory (some .directory) }

/-- `symlink_metadata` does not follow the link. -/
def Describes : Entry → Metadata → Prop
  | .file inode, metadata => metadata = ⟨.file, (disk.contents inode).length⟩
  | .directory, metadata => metadata.fileType = .directory
  | .symlink, metadata => metadata.fileType = .symlink

/-- What an operation that succeeds gives and leaves.  A link leads to any file. -/
def Does : (op : FileOp) → op.Result → Disk → Prop
  | .lock, _, disk' => disk.locked = false ∧ disk' = { disk with locked := true }
  | .createDirectory directory, _, disk' => disk.directories directory = none ∧
      disk' = disk.withDirectory directory
  | .syncRoot, _, disk' | .syncFile _, _, disk' | .syncDirectory _, _, disk' => disk' = disk
  | .directoryMetadata directory, fileType, disk' =>
      disk.directories directory = some fileType ∧ disk' = disk
  | .metadata path, metadata, disk' =>
      (∃ entry, disk.files path = some entry ∧ disk.Describes entry metadata) ∧ disk' = disk
  | .openFile path, inode, disk' =>
      (disk.files path = some (.file inode) ∨ disk.files path = some .symlink) ∧ disk' = disk
  | .length inode, length, disk' => length = (disk.contents inode).length ∧ disk' = disk
  | .readAt inode offset limit, bytes, disk' =>
      bytes = ((disk.contents inode).drop offset).take limit ∧ disk' = disk
  | .createNew path, inode, disk' => disk.directories path.directory ≠ none ∧
      disk.files path = none ∧ inode = disk.next ∧ disk' = disk.withNew path
  | .writeAll inode bytes, _, disk' =>
      disk' = disk.withContents inode (disk.contents inode ++ bytes)
  | .hardLink source target, _, disk' => disk.directories target.directory ≠ none ∧
      disk.files target = none ∧ ∃ inode, disk.files source = some (.file inode) ∧
        disk' = disk.withFile target (some (.file inode))
  | .removeFile path, _, disk' => disk.files path ≠ none ∧ disk' = disk.withFile path none

/-- What an operation that fails by a fault may leave. -/
def Partly : FileOp → Disk → Prop
  | .writeAll inode bytes, disk' =>
      ∃ count, disk' = disk.withContents inode (disk.contents inode ++ bytes.take count)
  | .createDirectory directory, disk' =>
      disk' = disk ∨ disk.Does (.createDirectory directory) () disk'
  | .createNew path, disk' => disk' = disk ∨ disk.Does (.createNew path) disk.next disk'
  | .hardLink source target, disk' => disk' = disk ∨ disk.Does (.hardLink source target) () disk'
  | .removeFile path, disk' => disk' = disk ∨ disk.Does (.removeFile path) () disk'
  | _, disk' => disk' = disk

/-- The errors that tell what is there. -/
def Refuses : FileOp → IoError → Prop
  | .createDirectory directory, .alreadyExists => disk.directories directory ≠ none
  | .directoryMetadata directory, .notFound => disk.directories directory = none
  | .metadata path, .notFound => disk.files path = none
  | .openFile path, .notFound => disk.files path = none ∨ disk.files path = some .symlink
  | .createNew path, .alreadyExists => disk.files path ≠ none
  | .createNew path, .notFound => disk.directories path.directory = none
  | .hardLink source target, .notFound =>
      disk.files source = none ∨ disk.directories target.directory = none
  | .hardLink _ target, .alreadyExists => disk.files target ≠ none
  | .removeFile path, .notFound => disk.files path = none
  | _, _ => False

/-- What an operation may answer, and what it leaves. -/
def Effect : (op : Op) → op.Answer → Disk → Prop
  | .file op, .ok result, disk' => disk.Does op result disk'
  | .file op, .error (.other _), disk' => disk.Partly op disk'
  | .file op, .error error, disk' => disk.Refuses op error ∧ disk' = disk
  | .unlock, _, disk' => disk' = { disk with locked := false }
  | .newEventId, _, disk' | .isCancelled _, _, disk' => disk' = disk

end Disk

/-! ## Calls side by side -/

/-- How far the file is that a call writes; `closed` once it must not be written any more. -/
inductive Stage where
  | empty
  | written (bytes : Bytes)
  | closed

/-- The file that a call made and has not removed yet. -/
structure Draft where
  path : ArchivePath
  inode : Inode
  stage : Stage

def Draft.close (draft : Draft) : Draft := { draft with stage := .closed }

/-- An operation with its answer. -/
structure Event where
  op : Op
  answer : op.Answer

/-- What a call did: the file that it is writing, what it published and the answers it got. -/
structure Own where
  locked : Bool
  draft : Option Draft
  published : Option (ArchivePath × Bytes)
  history : List Event

namespace Own

def idle : Own := ⟨false, none, none, []⟩

def lockedAfter (own : Own) : (op : Op) → op.Answer → Bool
  | .file .lock, .ok _ => true
  | .unlock, _ => false
  | _, _ => own.locked

def draftAfter (own : Own) : (op : Op) → op.Answer → Option Draft
  | .file (.createNew path), .ok inode => some ⟨path, inode, .empty⟩
  | .file (.writeAll _ bytes), .ok _ =>
    own.draft.map fun draft => { draft with stage := .written bytes }
  | .file (.writeAll _ _), .error _ | .file (.hardLink _ _), _ => own.draft.map Draft.close
  | .file (.removeFile _), _ => none
  | _, _ => own.draft

def publishedAfter (own : Own) : (op : Op) → op.Answer → Option (ArchivePath × Bytes)
  | .file (.hardLink _ target), .ok _ =>
    match own.draft with
    | some ⟨_, _, .written bytes⟩ => some (target, bytes)
    | _ => own.published
  | _, _ => own.published

def after (own : Own) (op : Op) (answer : op.Answer) : Own where
  locked := own.lockedAfter op answer
  draft := own.draftAfter op answer
  published := own.publishedAfter op answer
  history := own.history ++ [⟨op, answer⟩]

end Own

/-- A call that is dropped lets go of the lock and of the file that it writes. -/
def machine : Machine Op Op.Answer Disk Own where
  idle := .idle
  exec disk own op answer disk' own' := disk.Effect op answer disk' ∧ own' = own.after op answer
  release disk own := if own.locked then { disk with locked := false } else disk
  abandon own := { own with locked := false, draft := none }

abbrev Configuration := Config Op Op.Answer Disk Own Call Reply

abbrev Reachable (disk : Disk) (config : Configuration) : Prop :=
  Interaction.Reachable machine Call.code disk config

/-- The answer was a fault. -/
def Event.IsFault : Event → Prop
  | ⟨.file _, .error (.other _)⟩ => True
  | _ => False

/-- An operation failed other than by telling what is there. -/
def Own.Faulted (own : Own) : Prop := ∃ event ∈ own.history, event.IsFault

/-! ## Snapshots -/

namespace Disk

/-- The bytes of the snapshot of a call. -/
def snapshot (disk : Disk) (thread : ThreadId) (call : String) : Option Bytes :=
  match paths thread call with
  | .error _ => none
  | .ok path =>
    if disk.directories path.directory = some .directory then
      match disk.files path with
      | some (.file inode) => some (disk.contents inode)
      | _ => none
    else none

/-- The files that are there can be told from the next one, and their directories are there. -/
structure WellFormed (disk : Disk) : Prop where
  fresh : ∀ path inode, disk.files path = some (.file inode) → inode < disk.next
  housed : ∀ path, disk.files path ≠ none → disk.directories path.directory ≠ none

theorem WellFormed.empty : empty.WellFormed where
  fresh path inode found := by cases found
  housed path present := absurd rfl present

/-- The same directories and files. -/
structure SameFiles (disk disk' : Disk) : Prop where
  directories : disk'.directories = disk.directories
  files : disk'.files = disk.files
  contents : disk'.contents = disk.contents

end Disk

end Nausicaa.ContextFs
