import Nausicaa.ContextFs.Disk

/-! # A host without faults

The file system that answers every operation by what is there.  Its answers are among those of
the machine (`handle_effect`), so a call that runs alone on it is one of its runs
(`Interaction.steps_of_run`). -/

namespace Nausicaa.ContextFs

open Interaction (Program outcome)

namespace Disk

def describe (disk : Disk) : Entry → Metadata
  | .file inode => ⟨.file, (disk.contents inode).length⟩
  | .directory => ⟨.directory, 0⟩
  | .symlink => ⟨.symlink, 0⟩

/-- The answer to an operation without a fault; the lock is waited for. -/
def serve (disk : Disk) : (op : FileOp) → Option (Except IoError op.Result) × Disk
  | .lock =>
    if disk.locked then (none, disk) else (some (.ok ()), { disk with locked := true })
  | .createDirectory directory =>
    match disk.directories directory with
    | none => (some (.ok ()), disk.withDirectory directory)
    | some _ => (some (.error .alreadyExists), disk)
  | .syncRoot | .syncFile _ | .syncDirectory _ => (some (.ok ()), disk)
  | .directoryMetadata directory =>
    match disk.directories directory with
    | none => (some (.error .notFound), disk)
    | some fileType => (some (.ok fileType), disk)
  | .metadata path =>
    match disk.files path with
    | none => (some (.error .notFound), disk)
    | some entry => (some (.ok (disk.describe entry)), disk)
  | .openFile path =>
    match disk.files path with
    | none => (some (.error .notFound), disk)
    | some (.file inode) => (some (.ok inode), disk)
    | some .directory => (some (.error (.other "Is a directory (os error 21)")), disk)
    | some .symlink => (some (.error (.other "Permission denied (os error 13)")), disk)
  | .length inode => (some (.ok (disk.contents inode).length), disk)
  | .readAt inode offset limit => (some (.ok (((disk.contents inode).drop offset).take limit)), disk)
  | .createNew path =>
    if disk.directories path.directory = none then (some (.error .notFound), disk)
    else if disk.files path = none then (some (.ok disk.next), disk.withNew path)
    else (some (.error .alreadyExists), disk)
  | .writeAll inode bytes =>
    (some (.ok ()), disk.withContents inode (disk.contents inode ++ bytes))
  | .hardLink source target =>
    if disk.directories target.directory = none then (some (.error .notFound), disk)
    else if disk.files target = none then
      match disk.files source with
      | some (.file inode) => (some (.ok ()), disk.withFile target (some (.file inode)))
      | none => (some (.error .notFound), disk)
      | some _ => (some (.error (.other "Operation not permitted (os error 1)")), disk)
    else (some (.error .alreadyExists), disk)
  | .removeFile path =>
    if disk.files path = none then (some (.error .notFound), disk)
    else (some (.ok ()), disk.withFile path none)

/-- The host, with the ids that it makes. -/
def handle (newId : Disk → String) (disk : Disk) : (op : Op) → Option op.Answer × Disk
  | .file op => disk.serve op
  | .unlock => (some (), { disk with locked := false })
  | .newEventId => (some (newId disk), disk)
  | .isCancelled _ => (some false, disk)

variable {disk disk' : Disk} {newId : Disk → String}

theorem describe_describes (disk : Disk) (entry : Entry) :
    disk.Describes entry (disk.describe entry) := by
  cases entry <;> rfl

theorem serve_effect {op : FileOp} {answer : Except IoError op.Result}
    (served : disk.serve op = (some answer, disk')) : disk.Effect (.file op) answer disk' := by
  cases op with
  | lock =>
    rw [serve] at served
    split at served
    next => cases served
    next free =>
      cases served
      exact ⟨Bool.eq_false_of_not_eq_true free, rfl⟩
  | createDirectory directory =>
    rw [serve] at served
    split at served
    next absent =>
      cases served
      exact ⟨absent, rfl⟩
    next fileType present =>
      cases served
      exact ⟨by simp [Refuses, present], rfl⟩
  | syncRoot =>
    cases served
    rfl
  | syncFile inode =>
    cases served
    rfl
  | syncDirectory directory =>
    cases served
    rfl
  | directoryMetadata directory =>
    rw [serve] at served
    split at served
    next absent =>
      cases served
      exact ⟨absent, rfl⟩
    next fileType present =>
      cases served
      exact ⟨present, rfl⟩
  | metadata path =>
    rw [serve] at served
    split at served
    next absent =>
      cases served
      exact ⟨absent, rfl⟩
    next entry present =>
      cases served
      exact ⟨⟨entry, present, disk.describe_describes entry⟩, rfl⟩
  | openFile path =>
    rw [serve] at served
    split at served
    next absent =>
      cases served
      exact ⟨.inl absent, rfl⟩
    next inode file =>
      cases served
      exact ⟨.inl file, rfl⟩
    next =>
      cases served
      rfl
    next =>
      cases served
      rfl
  | length inode =>
    cases served
    exact ⟨rfl, rfl⟩
  | readAt inode offset limit =>
    cases served
    exact ⟨rfl, rfl⟩
  | createNew path =>
    rw [serve] at served
    split at served
    next missing =>
      cases served
      exact ⟨missing, rfl⟩
    next housed =>
      split at served
      next absent =>
        cases served
        exact ⟨housed, absent, rfl, rfl⟩
      next present =>
        cases served
        exact ⟨present, rfl⟩
  | writeAll inode bytes =>
    cases served
    rfl
  | hardLink source target =>
    rw [serve] at served
    split at served
    next missing =>
      cases served
      exact ⟨.inr missing, rfl⟩
    next housed =>
      split at served
      next absent =>
        split at served
        next inode file =>
          cases served
          exact ⟨housed, absent, inode, file, rfl⟩
        next gone =>
          cases served
          exact ⟨.inl gone, rfl⟩
        next =>
          cases served
          exact .inl rfl
      next present =>
        cases served
        exact ⟨present, rfl⟩
  | removeFile path =>
    rw [serve] at served
    split at served
    next absent =>
      cases served
      exact ⟨absent, rfl⟩
    next present =>
      cases served
      exact ⟨present, rfl⟩

/-- What an operation needs for an answer without a fault. -/
def Answers (disk : Disk) : FileOp → Prop
  | .lock => disk.locked = false
  | .openFile path | .hardLink path _ =>
      ∀ entry, disk.files path = some entry → ∃ inode, entry = .file inode
  | _ => True

theorem serve_answers {op : FileOp} (answers : disk.Answers op) :
    ∃ answer disk', disk.serve op = (some answer, disk') ∧
      ∀ message, answer ≠ .error (.other message) := by
  have told : ∀ {α : Type} (result : α) (message : String),
      (Except.ok result : Except IoError α) ≠ .error (.other message) := by
    intro α result message same
    cases same
  cases op with
  | lock =>
    have free : disk.locked = false := answers
    exact ⟨.ok (), _, by rw [serve, free]; rfl, told ()⟩
  | openFile path =>
    rw [serve]
    cases found : disk.files path with
    | none => exact ⟨_, _, rfl, by simp⟩
    | some entry =>
      obtain ⟨inode, rfl⟩ := answers entry found
      exact ⟨_, _, rfl, told _⟩
  | hardLink source target =>
    rw [serve]
    split
    · exact ⟨_, _, rfl, by simp⟩
    · split
      · cases found : disk.files source with
        | none => exact ⟨_, _, rfl, by simp⟩
        | some entry =>
          obtain ⟨inode, rfl⟩ := answers entry found
          exact ⟨_, _, rfl, told _⟩
      · exact ⟨_, _, rfl, by simp⟩
  | createDirectory directory =>
    rw [serve]
    split
    · exact ⟨_, _, rfl, told _⟩
    · exact ⟨_, _, rfl, by simp⟩
  | directoryMetadata directory =>
    rw [serve]
    split
    · exact ⟨_, _, rfl, by simp⟩
    · exact ⟨_, _, rfl, told _⟩
  | metadata path =>
    rw [serve]
    split
    · exact ⟨_, _, rfl, by simp⟩
    · exact ⟨_, _, rfl, told _⟩
  | createNew path =>
    rw [serve]
    split
    · exact ⟨_, _, rfl, by simp⟩
    · split
      · exact ⟨_, _, rfl, told _⟩
      · exact ⟨_, _, rfl, by simp⟩
  | removeFile path =>
    rw [serve]
    split
    · exact ⟨_, _, rfl, by simp⟩
    · exact ⟨_, _, rfl, told _⟩
  | _ => exact ⟨_, _, rfl, told _⟩

/-- What the host answers, the machine allows. -/
theorem handle_effect {op : Op} {answer : op.Answer}
    (handled : disk.handle newId op = (some answer, disk')) : disk.Effect op answer disk' := by
  cases op with
  | file op => exact serve_effect handled
  | unlock =>
    cases handled
    rfl
  | newEventId =>
    cases handled
    rfl
  | isCancelled token =>
    cases handled
    rfl

end Disk

/-! ## Running code -/

/-- A call that runs alone on the host. -/
def host {ε α : Type} (newId : Disk → String) (code : Code ε α) (disk : Disk) :
    Option (Except ε α) × Disk :=
  code.run.run (Disk.handle newId) disk

section Rules

variable {ε ε' α β : Type} {newId : Disk → String} {disk disk' : Disk} {code : Code ε α}

/-- Code goes on where the code before it ended well. -/
theorem host_bind {value : α} (next : α → Code ε β)
    (ran : host newId code disk = (some (.ok value), disk')) :
    host newId (code >>= next) disk = host newId (next value) disk' := by
  show Program.run _ (ExceptT.run code >>= ExceptT.bindCont next) disk = _
  rw [Program.run_bind]
  unfold host at ran
  rw [ran]
  rfl

theorem host_bind_error {error : ε} (next : α → Code ε β)
    (ran : host newId code disk = (some (.error error), disk')) :
    host newId (code >>= next) disk = (some (.error error), disk') := by
  show Program.run _ (ExceptT.run code >>= ExceptT.bindCont next) disk = _
  rw [Program.run_bind]
  unfold host at ran
  rw [ran]
  rfl

theorem host_outcome {result : Except ε α} (ran : host newId code disk = (some result, disk')) :
    host newId (outcome code : Code ε' (Except ε α)) disk = (some (.ok result), disk') := by
  show Program.run _ (ExceptT.run code >>= fun result => Program.done (Except.ok result)) disk = _
  rw [Program.run_bind]
  unfold host at ran
  rw [ran]
  rfl

theorem host_attempt {op : FileOp} {answer : Except IoError op.Result}
    (served : disk.serve op = (some answer, disk')) :
    host newId (attempt op : Code ε _) disk = (some (.ok answer), disk') := by
  show Program.run (Disk.handle newId)
    (Program.ask (Op.file op) fun answer => Program.done (Except.ok answer)) disk = _
  rw [Program.run]
  have handled : disk.handle newId (.file op) = (some answer, disk') := served
  rw [handled]
  rfl

theorem host_perform {op : FileOp} {result : op.Result}
    (served : disk.serve op = (some (.ok result), disk')) :
    host newId (perform op) disk = (some (.ok result), disk') :=
  host_bind _ (host_attempt served)

theorem host_ensure {condition : Prop} [Decidable condition] (error : ε) (holds : condition) :
    host newId (ensure condition error) disk = (some (.ok ()), disk) := by
  rw [ensure, if_pos holds]
  rfl

theorem host_ensure_error {condition : Prop} [Decidable condition] (error : ε)
    (fails : ¬ condition) :
    host newId (ensure condition error) disk = (some (.error error), disk) := by
  rw [ensure, if_neg fails]
  rfl

theorem host_ofExcept (result : Except ε α) :
    host newId (ofExcept result) disk = (some result, disk) := by
  cases result <;> rfl

end Rules

end Nausicaa.ContextFs
