import Nausicaa.ContextFs.Disk

/-! # What a permitted step can do

A call names one path and touches no other published file: it writes a file that it made itself,
under a pending name, until it has linked it, and it links it only when it holds all bytes
(`permit`).  A step of such a call changes the disk in one of five ways (`moves`). -/

namespace Nausicaa.ContextFs

open Core (ThreadId)
open Interaction (Contract)
open Json (Value)

namespace Call

/-- The call keeps these bytes under the path. -/
def Retains (call : Call) (path : ArchivePath) (bytes : Bytes) : Prop :=
  ∃ archive thread id, call = .retain archive thread id bytes ∧ paths thread id = .ok path ∧
    bytes.length ≤ archive.maxOutputBytes

/-- The call is about the snapshot of this path. -/
def At (call : Call) (path : ArchivePath) : Prop :=
  match call with
  | .retain _ thread id _ | .readPage _ thread id _ _ => paths thread id = .ok path
  | .execute _ prepared context => ∃ id,
      (prepared.action.arguments.get "call_id").bind Value.asString = some id ∧
        paths context.threadId id = .ok path

theorem Retains.at_path {call : Call} {path : ArchivePath} {bytes : Bytes}
    (retains : call.Retains path bytes) : call.At path := by
  obtain ⟨archive, thread, id, rfl, found, _⟩ := retains
  exact found

theorem At.not_pending {call : Call} {path : ArchivePath} (at_path : call.At path) :
    ¬ path.Pending := by
  cases call with
  | retain archive thread id bytes => exact (paths_plain at_path).2.2
  | readPage archive thread id offset limit => exact (paths_plain at_path).2.2
  | execute archive prepared context =>
    obtain ⟨id, _, found⟩ := at_path
    exact (paths_plain found).2.2

end Call

/-- The call found no snapshot, and publishes one. -/
def Publishes (call : Call) (own : Own) (path : ArchivePath) (bytes : Bytes) : Prop :=
  call.Retains path bytes ∧ ∃ error, ⟨.file (.metadata path), .error error⟩ ∈ own.history

/-- The call found a regular file. -/
def FoundFile (own : Own) (path : ArchivePath) (length : Nat) : Prop :=
  ⟨.file (.metadata path), .ok (⟨.file, length⟩ : Metadata)⟩ ∈ own.history

/-- What a call may ask. -/
def permit (call : Call) (own : Own) : Op → Prop
  | .file (.createDirectory directory) | .file (.directoryMetadata directory) =>
      ∃ path, call.At path ∧ path.directory = directory
  | .file (.metadata path) => call.At path
  | .file (.openFile path) => call.At path ∧ ∃ length, FoundFile own path length
  | .file (.length inode) | .file (.readAt inode _ _) => ∃ path, call.At path ∧
      ⟨.file (.openFile path), .ok inode⟩ ∈ own.history
  | .file (.createNew pending) => ∃ path bytes, Publishes call own path bytes ∧ pending.Pending
  | .file (.writeAll inode bytes) => ∃ path pending, Publishes call own path bytes ∧
      own.draft = some ⟨pending, inode, .empty⟩
  | .file (.hardLink source target) => ∃ bytes inode, Publishes call own target bytes ∧
      own.draft = some ⟨source, inode, .written bytes⟩
  | .file (.removeFile pending) => ∃ path bytes draft, Publishes call own path bytes ∧
      own.draft = some draft ∧ draft.path = pending
  | _ => True

def contract (call : Call) : Contract Op Op.Answer Own where
  permit := permit call
  step own op answer own' := own' = own.after op answer

/-! ## What the disk keeps -/

/-- No snapshot has the contents of the inode. -/
def Disk.Unpublished (disk : Disk) (inode : Inode) : Prop :=
  ∀ path, disk.files path = some (.file inode) → path.Pending

/-- A file that is written is where its call made it, and nothing else shows it. -/
structure Draft.Held (draft : Draft) (disk : Disk) : Prop where
  pending : draft.path.Pending
  kept : disk.files draft.path = some (.file draft.inode)
  filled : match draft.stage with
    | .empty => disk.contents draft.inode = [] ∧ disk.Unpublished draft.inode
    | .written bytes => disk.contents draft.inode = bytes ∧ disk.Unpublished draft.inode
    | .closed => True

/-- After a step that leaves the files the draft is the one before, that one closed, or gone. -/
def Weaker (draft' draft : Option Draft) : Prop :=
  draft' = draft ∨ draft' = draft.map Draft.close ∨ draft' = none

/-- What a step of a call does to the disk, to the draft and to what was published. -/
inductive Moves (call : Call) (disk : Disk) (own : Own) :
    Disk → Option Draft → Option (ArchivePath × Bytes) → Prop
  | same (locked : Bool) {draft' : Option Draft} (weaker : Weaker draft' own.draft) :
      Moves call disk own { disk with locked } draft' own.published
  | directory {path : ArchivePath} (about : call.At path)
      (absent : disk.directories path.directory = none) :
      Moves call disk own (disk.withDirectory path.directory) own.draft own.published
  | created {path pending : ArchivePath} {bytes : Bytes} {draft' : Option Draft}
      (publishes : Publishes call own path bytes) (isPending : pending.Pending)
      (housed : disk.directories pending.directory ≠ none) (absent : disk.files pending = none)
      (made : draft' = some ⟨pending, disk.next, .empty⟩ ∨ draft' = own.draft) :
      Moves call disk own (disk.withNew pending) draft' own.published
  | wrote {path pending : ArchivePath} {inode : Inode} {bytes bytes' : Bytes} {stage : Stage}
      (publishes : Publishes call own path bytes)
      (current : own.draft = some ⟨pending, inode, .empty⟩)
      (done : stage = .written bytes ∧ bytes' = bytes ∨ stage = .closed) :
      Moves call disk own (disk.withContents inode (disk.contents inode ++ bytes'))
        (own.draft.map fun draft => { draft with stage }) own.published
  | linked {source target : ArchivePath} {inode : Inode} {bytes : Bytes}
      {published : Option (ArchivePath × Bytes)} (publishes : Publishes call own target bytes)
      (current : own.draft = some ⟨source, inode, .written bytes⟩)
      (housed : disk.directories target.directory ≠ none) (absent : disk.files target = none)
      (made : published = some (target, bytes) ∨ published = own.published) :
      Moves call disk own (disk.withFile target (some (.file inode)))
        (own.draft.map Draft.close) published
  | removed {path : ArchivePath} {bytes : Bytes} {draft : Draft}
      (publishes : Publishes call own path bytes) (current : own.draft = some draft) :
      Moves call disk own (disk.withFile draft.path none) none own.published

section Moves

variable {call : Call} {disk disk' : Disk} {own : Own} {draft' : Option Draft}

theorem Moves.unchanged (weaker : Weaker draft' own.draft) (same : disk' = disk) :
    Moves call disk own disk' draft' own.published := by
  subst same
  exact Moves.same disk'.locked weaker

/-- An operation that fails did a part of what it does, or nothing. -/
theorem Disk.Effect.failed {op : FileOp} {error : IoError}
    (effect : disk.Effect (.file op) (.error error) disk') : disk.Partly op disk' ∨ disk' = disk := by
  cases error with
  | notFound => exact .inr effect.2
  | alreadyExists => exact .inr effect.2
  | other message => exact .inl effect

/-- What a step does, operation by operation. -/
theorem moves {op : Op} {answer : op.Answer}
    (held : ∀ draft, own.draft = some draft → draft.Held disk) (permitted : permit call own op)
    (effect : disk.Effect op answer disk') :
    Moves call disk own disk' (own.draftAfter op answer) (own.publishedAfter op answer) := by
  cases op with
  | unlock =>
    subst effect
    exact .same false (.inl rfl)
  | newEventId => exact .unchanged (.inl rfl) effect
  | isCancelled token => exact .unchanged (.inl rfl) effect
  | file op =>
    cases op with
    | lock =>
      cases answer with
      | ok result =>
        obtain ⟨_, rfl⟩ := effect
        exact .same true (.inl rfl)
      | error error =>
        obtain partly | same := effect.failed
        · exact .unchanged (.inl rfl) partly
        · exact .unchanged (.inl rfl) same
    | createDirectory directory =>
      obtain ⟨path, about, rfl⟩ := permitted
      cases answer with
      | ok result =>
        obtain ⟨absent, rfl⟩ := effect
        exact .directory about absent
      | error error =>
        obtain (same | ⟨absent, rfl⟩) | same := effect.failed
        · exact .unchanged (.inl rfl) same
        · exact .directory about absent
        · exact .unchanged (.inl rfl) same
    | createNew pending =>
      obtain ⟨path, bytes, publishes, isPending⟩ := permitted
      cases answer with
      | ok result =>
        obtain ⟨housed, absent, rfl, rfl⟩ := effect
        exact .created publishes isPending housed absent (.inl rfl)
      | error error =>
        obtain (same | ⟨housed, absent, _, rfl⟩) | same := effect.failed
        · exact .unchanged (.inl rfl) same
        · exact .created publishes isPending housed absent (.inr rfl)
        · exact .unchanged (.inl rfl) same
    | writeAll inode bytes =>
      obtain ⟨path, pending, publishes, current⟩ := permitted
      cases answer with
      | ok result =>
        subst effect
        exact .wrote publishes current (.inl ⟨rfl, rfl⟩)
      | error error =>
        obtain ⟨count, rfl⟩ | same := effect.failed
        · exact .wrote publishes current (.inr rfl)
        · exact .unchanged (.inr (.inl rfl)) same
    | hardLink source target =>
      obtain ⟨bytes, inode, publishes, current⟩ := permitted
      have kept := (held _ current).kept
      cases answer with
      | ok result =>
        obtain ⟨housed, absent, inode', found, rfl⟩ := effect
        cases kept.symm.trans found
        have published : own.publishedAfter (.file (.hardLink source target)) (.ok result) =
            some (target, bytes) := by simp only [Own.publishedAfter, current]
        exact .linked publishes current housed absent (.inl published)
      | error error =>
        obtain (same | ⟨housed, absent, inode', found, rfl⟩) | same := effect.failed
        · exact .unchanged (.inr (.inl rfl)) same
        · cases kept.symm.trans found
          exact .linked publishes current housed absent (.inr rfl)
        · exact .unchanged (.inr (.inl rfl)) same
    | removeFile pending =>
      obtain ⟨path, bytes, draft, publishes, current, rfl⟩ := permitted
      cases answer with
      | ok result =>
        obtain ⟨_, rfl⟩ := effect
        exact .removed publishes current
      | error error =>
        obtain (same | ⟨_, rfl⟩) | same := effect.failed
        · exact .unchanged (.inr (.inr rfl)) same
        · exact .removed publishes current
        · exact .unchanged (.inr (.inr rfl)) same
    -- The others read.
    | _ =>
      cases answer with
      | ok result =>
        first
        | exact .unchanged (.inl rfl) effect
        | exact .unchanged (.inl rfl) effect.2
      | error error =>
        obtain same | same := effect.failed
        · exact .unchanged (.inl rfl) same
        · exact .unchanged (.inl rfl) same

end Moves

end Nausicaa.ContextFs
