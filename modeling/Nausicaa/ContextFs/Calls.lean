import Nausicaa.ContextFs.Preserved

/-! # What the calls do

Each call asks only what is permitted, and how it ends is told by the answers it got: a `retain`
that succeeds has published its bytes or read them, and one that fails has met a fault, another
entry under the names, or other bytes. -/

namespace Nausicaa.ContextFs

open Core (ContextError ThreadId ToolError)
open Interaction (Contract request)
open Interaction.Contract (Meets Tries)
open Json (Value)

/-- The operation failed, other than by finding the directory that it should make. -/
def Event.Failed : Event → Prop
  | ⟨.file (.createDirectory _), .error .alreadyExists⟩ => False
  | ⟨.file _, .error _⟩ => True
  | _ => False

/-- What a call did before it still did, and it writes what it wrote. -/
structure Since (own own' : Own) : Prop where
  draft : own'.draft = own.draft
  published : own'.published = own.published
  history : own.history ⊆ own'.history

namespace Own

variable (own : Own)

/-- The call opened the file of the path in a directory. -/
structure Opened (path : ArchivePath) (inode : Inode) : Prop where
  directory : ⟨.file (.directoryMetadata path.directory), .ok FileType.directory⟩ ∈ own.history
  file : ⟨.file (.openFile path), .ok inode⟩ ∈ own.history

/-- An operation failed, or an entry is not what it should be. -/
inductive Hindered (path : ArchivePath) (maximum : Nat) : Prop
  | failed (event : Event) (happened : event ∈ own.history) (failed : event.Failed)
  | directory (fileType : FileType) (other : fileType ≠ .directory)
      (saw : ⟨.file (.directoryMetadata path.directory), .ok fileType⟩ ∈ own.history)
  | file (metadata : Metadata)
      (other : ¬ (metadata.fileType = .file ∧ metadata.length ≤ maximum))
      (saw : ⟨.file (.metadata path), .ok metadata⟩ ∈ own.history)

/-- The call read these bytes from the start of the snapshot. -/
def Read (path : ArchivePath) (offset limit : Nat) (bytes : Bytes) : Prop :=
  ∃ inode, own.Opened path inode ∧ ⟨.file (.readAt inode offset limit), .ok bytes⟩ ∈ own.history

/-- The call published the bytes, or found them. -/
def Kept (path : ArchivePath) (maximum : Nat) (bytes : Bytes) : Prop :=
  own.Read path 0 (maximum + 1) bytes ∨
    own.published = some (path, bytes) ∧
      ⟨.file (.directoryMetadata path.directory), .ok FileType.directory⟩ ∈ own.history

/-- Why a `retain` fails. -/
def Refused (path : ArchivePath) (maximum : Nat) (bytes : Bytes) : Prop :=
  own.Hindered path maximum ∨ ∃ other, own.Read path 0 (maximum + 1) other ∧ other ≠ bytes

end Own

section Steps

variable {call : Call} {own own' own'' : Own} {path : ArchivePath} {inode : Inode} {maximum : Nat}
variable {bytes : Bytes}

theorem Since.refl (own : Own) : Since own own := ⟨rfl, rfl, fun _ member => member⟩

theorem Since.trans (first : Since own own') (second : Since own' own'') : Since own own'' where
  draft := second.draft.trans first.draft
  published := second.published.trans first.published
  history := fun _ member => second.history (first.history member)

theorem mem_after (own : Own) (op : Op) (answer : op.Answer) :
    ⟨op, answer⟩ ∈ (own.after op answer).history := by
  simp [Own.after]

theorem history_after (own : Own) (op : Op) (answer : op.Answer) :
    own.history ⊆ (own.after op answer).history := by
  intro event member
  exact List.mem_append_left _ member

theorem Own.Opened.mono (opened : own.Opened path inode) (more : own.history ⊆ own'.history) :
    own'.Opened path inode := ⟨more opened.directory, more opened.file⟩

theorem Own.Read.mono {offset limit : Nat} (read : own.Read path offset limit bytes)
    (more : own.history ⊆ own'.history) : own'.Read path offset limit bytes := by
  obtain ⟨inode, opened, saw⟩ := read
  exact ⟨inode, opened.mono more, more saw⟩

theorem Own.Hindered.mono (hindered : own.Hindered path maximum)
    (more : own.history ⊆ own'.history) : own'.Hindered path maximum := by
  cases hindered with
  | failed event happened failed => exact .failed event (more happened) failed
  | directory fileType other saw => exact .directory fileType other (more saw)
  | file metadata other saw => exact .file metadata other (more saw)

theorem Own.Refused.mono (refused : own.Refused path maximum bytes)
    (more : own.history ⊆ own'.history) : own'.Refused path maximum bytes := by
  obtain hindered | ⟨other, read, different⟩ := refused
  · exact .inl (hindered.mono more)
  · exact .inr ⟨other, read.mono more, different⟩

theorem Own.Kept.mono (kept : own.Kept path maximum bytes) (since : Since own own') :
    own'.Kept path maximum bytes := by
  obtain read | ⟨published, saw⟩ := kept
  · exact .inl (read.mono since.history)
  · exact .inr ⟨since.published.trans published, since.history saw⟩

theorem Publishes.mono (publishes : Publishes call own path bytes)
    (more : own.history ⊆ own'.history) : Publishes call own' path bytes := by
  obtain ⟨retains, error, saw⟩ := publishes
  exact ⟨retains, error, more saw⟩

section Rules

variable {ε α : Type} {ok : α → Own → Prop} {failed : ε → Own → Prop}

theorem attempt_tries {op : FileOp} {ok : Except IoError op.Result → Own → Prop}
    (permitted : permit call own (.file op))
    (answered : ∀ answer : Except IoError op.Result, ok answer (own.after (.file op) answer)) :
    (contract call).Tries (attempt op) ok failed own := by
  apply Tries.request permitted
  intro answer own' same
  rw [same]
  exact answered answer

theorem perform_tries {op : FileOp} {ok : op.Result → Own → Prop}
    {failed : ContextError → Own → Prop} (permitted : permit call own (.file op))
    (done : ∀ result : op.Result, ok result (own.after (.file op) (.ok result)))
    (refused : ∀ error : IoError,
      failed (readError error.toString) (own.after (.file op) (.error error))) :
    (contract call).Tries (perform op) ok failed own := by
  apply Tries.bind
  apply attempt_tries permitted
  intro answer
  cases answer with
  | ok result => exact Tries.pure (done result)
  | error error => exact Tries.throw (refused error)

/-- What neither writes nor publishes. -/
inductive FileOp.Observes : FileOp → Prop
  | lock : FileOp.lock.Observes
  | syncRoot : FileOp.syncRoot.Observes
  | directoryMetadata (directory : String) : (FileOp.directoryMetadata directory).Observes
  | metadata (path : ArchivePath) : (FileOp.metadata path).Observes
  | openFile (path : ArchivePath) : (FileOp.openFile path).Observes
  | length (file : Inode) : (FileOp.length file).Observes
  | readAt (file : Inode) (offset limit : Nat) : (FileOp.readAt file offset limit).Observes
  | syncFile (file : Inode) : (FileOp.syncFile file).Observes
  | syncDirectory (directory : String) : (FileOp.syncDirectory directory).Observes

theorem FileOp.Observes.since {op : FileOp} (observes : op.Observes)
    (answer : Except IoError op.Result) : Since own (own.after (.file op) answer) := by
  refine ⟨?_, ?_, history_after _ _ _⟩
  · cases observes <;> rfl
  · cases observes <;> rfl

theorem FileOp.Observes.fails {op : FileOp} (observes : op.Observes) (error : IoError) :
    (⟨.file op, .error error⟩ : Event).Failed := by
  cases observes <;> exact True.intro

/-- An operation that only observes tells what it found, or that it failed. -/
theorem observe_tries {op : FileOp} {ok : op.Result → Own → Prop}
    {failed : ContextError → Own → Prop} (observes : op.Observes)
    (permitted : permit call own (.file op))
    (done : ∀ (result : op.Result) (own' : Own), Since own own' →
      ⟨.file op, .ok result⟩ ∈ own'.history → ok result own')
    (refused : ∀ (error : ContextError) (own' : Own), Since own own' →
      (∀ path maximum, own'.Hindered path maximum) → failed error own') :
    (contract call).Tries (perform op) ok failed own := by
  apply perform_tries permitted
  · intro result
    exact done result _ (observes.since _) (mem_after _ _ _)
  · intro error
    apply refused _ _ (observes.since _)
    intro path maximum
    exact .failed _ (mem_after own _ _) (observes.fails error)

theorem ensure_tries {condition : Prop} [Decidable condition] {error : ε}
    {ok : Unit → Own → Prop} (held : condition → ok () own) (broken : ¬ condition → failed error own) :
    (contract call).Tries (ensure condition error) ok failed own := by
  rw [ensure]
  by_cases holds : condition
  · rw [if_pos holds]
    exact Tries.pure (held holds)
  · rw [if_neg holds]
    exact Tries.throw (broken holds)

theorem ofExcept_tries {result : Except ε α} (done : ∀ value, result = .ok value → ok value own)
    (refused : ∀ error, result = .error error → failed error own) :
    (contract call).Tries (ofExcept result) ok failed own := by
  cases result with
  | ok value => exact Tries.pure (done value rfl)
  | error error => exact Tries.throw (refused error rfl)

end Rules

/-! ## Opening a snapshot -/

theorem checkDirectory_tries (about : call.At path) :
    (contract call).Tries (OutputArchive.checkDirectory path.directory)
      (fun _ own' => Since own own' ∧
        ⟨.file (.directoryMetadata path.directory), .ok FileType.directory⟩ ∈ own'.history)
      (fun _ own' => Since own own' ∧ own'.Hindered path maximum) own := by
  apply Tries.bind
  apply observe_tries (.directoryMetadata path.directory) ⟨path, about, rfl⟩
  · intro (fileType : FileType) own' since saw
    apply ensure_tries
    · intro isDirectory
      exact ⟨since, isDirectory ▸ saw⟩
    · intro other
      exact ⟨since, .directory fileType other saw⟩
  · intro error own' since hindered
    exact ⟨since, hindered path maximum⟩

variable {archive : OutputArchive} {thread : ThreadId} {id : String}

theorem openSnapshot_tries (about : call.At path) (found : paths thread id = .ok path) :
    (contract call).Tries (archive.openSnapshot thread id)
      (fun inode own' => Since own own' ∧ own'.Opened path inode)
      (fun _ own' => Since own own' ∧ own'.Hindered path archive.maxOutputBytes) own := by
  apply Tries.bind
  apply ofExcept_tries
  · intro path' found'
    cases found.symm.trans found'
    apply Tries.bind
    apply Tries.mono (checkDirectory_tries about)
    · intro _ checked result
      obtain ⟨since, directory⟩ := result
      apply Tries.bind
      apply observe_tries (.metadata path) about
      · intro (metadata : Metadata) shown since' saw
        have since := since.trans since'
        apply Tries.bind
        apply ensure_tries
        · intro regular
          obtain ⟨fileType, length⟩ := metadata
          obtain ⟨rfl, _⟩ := regular
          apply observe_tries (.openFile path) ⟨about, length, saw⟩
          · intro inode opened since'' file
            exact ⟨since.trans since'', since''.history (since'.history directory), file⟩
          · intro error opened since'' hindered
            exact ⟨since.trans since'', hindered path _⟩
        · intro other
          exact ⟨since, .file metadata other saw⟩
      · intro error shown since' hindered
        exact ⟨since.trans since', hindered path _⟩
    · intro _ own' checked
      exact checked
  · intro error missing
    cases found.symm.trans missing

/-! ## Keeping bytes -/

theorem confirm_tries (about : call.At path) (found : paths thread id = .ok path) :
    (contract call).Tries (archive.confirm thread id bytes)
      (fun _ own' => own'.Read path 0 (archive.maxOutputBytes + 1) bytes)
      (fun _ own' => own'.Refused path archive.maxOutputBytes bytes) own := by
  apply Tries.bind
  apply Tries.mono (openSnapshot_tries about found)
  · intro inode opened result
    apply Tries.bind
    apply observe_tries (.readAt inode 0 (archive.maxOutputBytes + 1))
      ⟨path, about, result.2.file⟩
    · intro (retained : Bytes) compared since saw
      have read : compared.Read path 0 (archive.maxOutputBytes + 1) retained :=
        ⟨inode, result.2.mono since.history, saw⟩
      apply Tries.bind
      apply ensure_tries
      · intro same
        subst same
        apply Tries.bind
        apply Tries.mono (openSnapshot_tries about found)
        · intro inode' reopened result
          have read := read.mono result.1.history
          apply observe_tries (.syncFile inode') trivial
          · intro _ synced since _
            exact read.mono since.history
          · intro error synced since hindered
            exact .inl (hindered path _)
        · intro error reopened result
          exact .inl result.2
      · intro other
        exact .inr ⟨retained, read, other⟩
    · intro error compared since hindered
      exact .inl (hindered path _)
  · intro error opened result
    exact .inl result.2

/-- The file is linked only when it holds all bytes. -/
theorem writePending_tries {pending : ArchivePath} (publishes : Publishes call own path bytes)
    (current : own.draft = some ⟨pending, inode, .empty⟩) :
    (contract call).Tries (OutputArchive.writePending inode pending path bytes)
      (fun _ own' => own.history ⊆ own'.history ∧ own'.published = some (path, bytes) ∧
        ∃ draft, own'.draft = some draft ∧ draft.path = pending)
      (fun _ own' => own.history ⊆ own'.history ∧ (∀ maximum, own'.Hindered path maximum) ∧
        ∃ draft, own'.draft = some draft ∧ draft.path = pending) own := by
  have changed : ∀ (own : Own) (draft : Draft) (change : Draft → Draft), own.draft = some draft →
      own.draft.map change = some (change draft) := by
    intro own draft change current
    rw [current, Option.map_some]
  apply Tries.bind
  have permitted : permit call own (.file (.writeAll inode bytes)) :=
    ⟨path, pending, publishes, current⟩
  apply perform_tries permitted
  · intro result
    have written := changed own _ (fun draft => { draft with stage := .written bytes }) current
    apply Tries.bind
    apply observe_tries (.syncFile inode) trivial
    · intro _ synced since _
      have more : own.history ⊆ synced.history := fun _ member =>
        since.history (history_after own (.file (.writeAll inode bytes)) (.ok result) member)
      have publishes := publishes.mono more
      have written := since.draft.trans written
      have permitted : permit call synced (.file (.hardLink pending path)) :=
        ⟨bytes, inode, publishes, written⟩
      apply perform_tries permitted
      · intro result
        have published : synced.publishedAfter (.file (.hardLink pending path)) (.ok result) =
            some (path, bytes) := by simp only [Own.publishedAfter, written]
        refine ⟨fun _ member => history_after _ _ _ (more member), published, ?_⟩
        exact ⟨_, changed synced _ Draft.close written, rfl⟩
      · intro error
        refine ⟨fun _ member => history_after _ _ _ (more member), ?_, ?_⟩
        · intro maximum
          exact .failed _ (mem_after synced _ _) trivial
        · exact ⟨_, changed synced _ Draft.close written, rfl⟩
    · intro error synced since hindered
      refine ⟨fun _ member => since.history (history_after _ _ _ member), hindered path, ?_⟩
      exact ⟨_, since.draft.trans written, rfl⟩
  · intro error
    refine ⟨history_after _ _ _, ?_, _, changed own _ Draft.close current, rfl⟩
    intro maximum
    exact .failed _ (mem_after own _ _) trivial

theorem publish_tries (publishes : Publishes call own path bytes) :
    (contract call).Tries (OutputArchive.publish path bytes)
      (fun _ own' => own.history ⊆ own'.history ∧ own'.published = some (path, bytes))
      (fun _ own' => own.history ⊆ own'.history ∧ own'.Hindered path maximum) own := by
  apply Tries.bind
  apply Tries.request trivial
  intro id named same
  have more : own.history ⊆ named.history := by
    rw [same]
    exact history_after _ _ _
  apply Tries.bind
  have publishes := publishes.mono more
  have permitted : permit call named (.file (.createNew ⟨path.directory, pendingName id⟩)) :=
    ⟨path, bytes, publishes, id, rfl⟩
  apply perform_tries permitted
  · intro inode
    have created := history_after named
      (.file (.createNew ⟨path.directory, pendingName id⟩)) (.ok inode)
    apply Tries.bind
    apply Tries.outcome
    apply Tries.mono (writePending_tries (publishes.mono created) rfl)
    · intro _ linked result
      obtain ⟨since, published, draft, current, place⟩ := result
      have more : own.history ⊆ linked.history := fun _ member => since (created (more member))
      have permitted : permit call linked (.file (.removeFile ⟨path.directory, pendingName id⟩)) :=
        ⟨path, bytes, draft, publishes.mono fun _ member => since (created member), current, place⟩
      apply Tries.bind
      apply attempt_tries permitted
      intro cleanup
      apply Tries.bind
      apply ofExcept_tries
      · intro _ _
        cases cleanup with
        | ok result => exact Tries.pure ⟨fun _ member => history_after _ _ _ (more member), published⟩
        | error error =>
          refine Tries.throw ⟨fun _ member => history_after _ _ _ (more member), ?_⟩
          exact .failed _ (mem_after linked _ _) trivial
      · intro error failed
        cases failed
    · intro error linked result
      obtain ⟨since, hindered, draft, current, place⟩ := result
      have more : own.history ⊆ linked.history := fun _ member => since (created (more member))
      have permitted : permit call linked (.file (.removeFile ⟨path.directory, pendingName id⟩)) :=
        ⟨path, bytes, draft, publishes.mono fun _ member => since (created member), current, place⟩
      apply Tries.bind
      apply attempt_tries permitted
      intro cleanup
      apply Tries.bind
      apply ofExcept_tries
      · intro _ done
        cases done
      · intro error' _
        refine ⟨fun _ member => history_after _ _ _ (more member), ?_⟩
        exact (hindered maximum).mono (history_after _ _ _)
  · intro error
    refine ⟨fun _ member => history_after _ _ _ (more member), ?_⟩
    exact .failed _ (mem_after named _ _) trivial

theorem makeDirectory_tries (about : call.At path) :
    (contract call).Tries (OutputArchive.makeDirectory path.directory)
      (fun _ _ => True) (fun _ own' => own'.Hindered path maximum) own := by
  apply Tries.bind
  have permitted : permit call own (.file (.createDirectory path.directory)) := ⟨path, about, rfl⟩
  apply attempt_tries permitted
  intro answer
  have saw := mem_after own (.file (.createDirectory path.directory)) answer
  cases answer with
  | ok result =>
    apply observe_tries .syncRoot trivial
    · intro _ _ _ _
      trivial
    · intro error own' since hindered
      exact hindered path maximum
  | error error =>
    cases error with
    | alreadyExists => exact Tries.pure trivial
    | notFound => exact Tries.throw (.failed _ saw trivial)
    | other message => exact Tries.throw (.failed _ saw trivial)

theorem confirmOrPublish_tries (about : call.At path) (found : paths thread id = .ok path)
    (retains : call.Retains path bytes)
    (directory : ⟨.file (.directoryMetadata path.directory), .ok FileType.directory⟩ ∈ own.history) :
    (contract call).Tries (archive.confirmOrPublish thread id path bytes)
      (fun _ own' => own'.Kept path archive.maxOutputBytes bytes)
      (fun _ own' => own'.Refused path archive.maxOutputBytes bytes) own := by
  apply Tries.bind
  have permitted : permit call own (.file (.metadata path)) := about
  apply attempt_tries permitted
  intro answer
  have saw := mem_after own (.file (.metadata path)) answer
  cases answer with
  | ok metadata =>
    apply Tries.mono (confirm_tries about found)
    · intro _ own' read
      exact .inl read
    · intro error own' refused
      exact refused
  | error error =>
    apply Tries.mono (publish_tries ⟨retains, error, saw⟩)
    · intro _ own' result
      exact .inr ⟨result.2, result.1 (history_after _ _ _ directory)⟩
    · intro error own' result
      exact .inl result.2

theorem retainLocked_tries (about : call.At path) (found : paths thread id = .ok path)
    (retains : call.Retains path bytes) :
    (contract call).Tries (archive.retainLocked thread id bytes)
      (fun _ own' => own'.Kept path archive.maxOutputBytes bytes)
      (fun _ own' => own'.Refused path archive.maxOutputBytes bytes) own := by
  apply Tries.bind
  apply ofExcept_tries
  · intro path' found'
    cases found.symm.trans found'
    apply Tries.bind
    apply Tries.mono (makeDirectory_tries about)
    · intro _ made _
      apply Tries.bind
      apply Tries.mono (checkDirectory_tries about)
      · intro _ checked result
        apply Tries.bind
        apply Tries.mono (confirmOrPublish_tries about found retains result.2)
        · intro _ kept result
          apply observe_tries (.syncDirectory path.directory) trivial
          · intro _ synced since _
            exact result.mono since
          · intro error synced since hindered
            exact .inl (hindered path _)
        · intro error kept refused
          exact refused
      · intro error checked result
        exact .inl result.2
    · intro error made hindered
      exact .inl hindered
  · intro error missing
    cases found.symm.trans missing

end Steps

/-! ## Calls -/

/-- How a `retain` ends. -/
def Retained (archive : OutputArchive) (thread : ThreadId) (id : String) (bytes : Bytes) (own : Own) :
    Except ContextError Unit → Prop
  | .ok _ => ∃ path, paths thread id = .ok path ∧ bytes.length ≤ archive.maxOutputBytes ∧
      own.Kept path archive.maxOutputBytes bytes
  | .error _ => archive.maxOutputBytes < bytes.length ∨
      ∀ path, paths thread id = .ok path → own.Refused path archive.maxOutputBytes bytes

/-- What was read for a page. -/
def PageRead (thread : ThreadId) (id : String) (offset limit : Nat) (own : Own) (value : Value) :
    Prop :=
  ∃ path inode total bytes, paths thread id = .ok path ∧ own.Opened path inode ∧
    ⟨.file (.length inode), .ok total⟩ ∈ own.history ∧ offset ≤ total ∧
    ⟨.file (.readAt inode offset limit), .ok bytes⟩ ∈ own.history ∧
    OutputArchive.page id offset total bytes = .ok value

/-- How a call ends. -/
def Ends (call : Call) (reply : Reply) (own : Own) : Prop :=
  match call, reply with
  | .retain archive thread id bytes, .retained result => Retained archive thread id bytes own result
  | .readPage _ thread id offset limit, .page (.ok value) =>
      PageRead thread id offset limit own value
  | .readPage _ _ _ _ _, .page (.error _) => True
  | .execute _ prepared context, .output (.ok output) =>
      prepared.action.scope = some context.threadId.value ∧ ∃ id offset limit,
        (prepared.action.arguments.get "call_id").bind Value.asString = some id ∧
        (prepared.action.arguments.get "offset").bind Value.asNat = some offset ∧
        (prepared.action.arguments.get "limit").bind Value.asNat = some limit ∧
        PageRead context.threadId id offset limit own output.value
  | .execute _ _ _, .output (.error _) => True
  | _, _ => False

section Calls

variable {call : Call} {own : Own} {archive : OutputArchive} {thread : ThreadId} {id : String}
variable {offset limit : Nat}

theorem retain_tries (bytes : Bytes) :
    (contract (.retain archive thread id bytes)).Tries (archive.retain thread id bytes)
      (fun result own' => Retained archive thread id bytes own' (.ok result))
      (fun error own' => Retained archive thread id bytes own' (.error error)) own := by
  apply Tries.bind
  apply ensure_tries
  · intro fits
    apply Tries.bind
    apply observe_tries .lock trivial
    · intro _ locked _ _
      cases found : paths thread id with
      | error error =>
        apply Tries.bind
        apply Tries.outcome
        apply Tries.bind
        rw [found]
        apply Tries.throw
        apply Tries.bind
        apply Tries.request trivial
        intro _ unlocked _
        apply Tries.throw
        right
        intro path found'
        cases found.symm.trans found'
      | ok path =>
        have about : (Call.retain archive thread id bytes).At path := found
        have retains : (Call.retain archive thread id bytes).Retains path bytes :=
          ⟨archive, thread, id, rfl, found, fits⟩
        apply Tries.bind
        apply Tries.outcome
        apply Tries.mono (retainLocked_tries about found retains)
        · intro _ kept result
          apply Tries.bind
          apply Tries.request trivial
          intro _ unlocked same
          have since : Since kept unlocked := by
            rw [same]
            exact ⟨rfl, rfl, history_after _ _ _⟩
          apply ofExcept_tries
          · intro _ _
            exact ⟨path, found, fits, result.mono since⟩
          · intro error failed
            cases failed
        · intro error kept refused
          apply Tries.bind
          apply Tries.request trivial
          intro _ unlocked same
          have more : kept.history ⊆ unlocked.history := by
            rw [same]
            exact history_after _ _ _
          apply ofExcept_tries
          · intro _ done
            cases done
          · intro error' _
            right
            intro path' found'
            cases found.symm.trans found'
            exact refused.mono more
    · intro error locked since hindered
      exact .inr fun path _ => .inl (hindered path _)
  · intro large
    exact .inl (Nat.lt_of_not_le large)

theorem readPage_tries {call : Call} (about : ∀ path, paths thread id = .ok path → call.At path) :
    (contract call).Tries (archive.readPage thread id offset limit)
      (fun value own' => PageRead thread id offset limit own' value) (fun _ _ => True) own := by
  apply Tries.bind
  apply ensure_tries
  · intro _
    cases found : paths thread id with
    | error error =>
      apply Tries.bind
      apply Tries.bind
      rw [found]
      exact Tries.throw trivial
    | ok path =>
      apply Tries.bind
      apply Tries.mono (openSnapshot_tries (about path found) found)
      · intro inode opened result
        obtain ⟨_, shown⟩ := result
        apply Tries.bind
        apply observe_tries (.length inode) ⟨path, about path found, shown.file⟩
        · intro (total : Nat) measured since length
          have shown := shown.mono since.history
          apply Tries.bind
          apply ensure_tries
          · intro inside
            apply Tries.bind
            apply observe_tries (.readAt inode offset limit) ⟨path, about path found, shown.file⟩
            · intro (bytes : Bytes) read since saw
              apply ofExcept_tries
              · intro value made
                exact ⟨path, inode, total, bytes, found, shown.mono since.history,
                  since.history length, inside, saw, made⟩
              · intro error _
                trivial
            · intro error read _ _
              trivial
          · intro _
            trivial
        · intro error measured _ _
          trivial
      · intro error opened _
        trivial
  · intro _
    trivial

theorem execute_tries {prepared : Core.PreparedToolCall} {context : Core.ToolExecutionContext} :
    (contract (.execute archive prepared context)).Tries
      (ReadOutputTool.execute archive prepared context)
      (fun output own' => Ends (.execute archive prepared context) (.output (.ok output)) own')
      (fun _ _ => True) own := by
  apply Tries.bind
  apply Tries.request trivial
  intro (cancelled : Bool) asked _
  apply Tries.bind
  apply ensure_tries
  · intro _
    apply Tries.bind
    apply ensure_tries
    · intro inScope
      have required : ∀ {α : Type} {found : Option α} {error : ToolError} {value : α},
          ReadOutputTool.require found error = .ok value → found = some value := by
        intro α found error value same
        cases found with
        | none => cases same
        | some value' =>
          cases same
          rfl
      apply Tries.bind
      apply ofExcept_tries
      · intro id named
        apply Tries.bind
        apply ofExcept_tries
        · intro offset from_
          apply Tries.bind
          apply ofExcept_tries
          · intro limit most
            have about : ∀ path, paths context.threadId id = .ok path →
                (Call.execute archive prepared context).At path :=
              fun path found => ⟨id, required named, found⟩
            apply Tries.bind
            apply Tries.outcome
            apply Tries.mono (readPage_tries about)
            · intro value read page
              exact Tries.pure ⟨inScope.1, id, offset, limit, required named, required from_,
                required most, page⟩
            · intro error read _
              exact Tries.throw trivial
          · intro _ _
            trivial
        · intro _ _
          trivial
      · intro _ _
        trivial
    · intro _
      trivial
  · intro _
    trivial

/-- Every call asks only what is permitted, and ends as told. -/
theorem code_meets (call : Call) : (contract call).Meets call.code (Ends call) .idle := by
  cases call with
  | retain archive thread id bytes =>
    apply Meets.bind
    apply Meets.mono (retain_tries bytes)
    intro result own' ends
    cases result with
    | ok value => exact ends
    | error error => exact ends
  | readPage archive thread id offset limit =>
    have about : ∀ path, paths thread id = .ok path →
        (Call.readPage archive thread id offset limit).At path := fun _ found => found
    apply Meets.bind
    apply Meets.mono (readPage_tries about)
    intro result own' ends
    cases result with
    | ok value => exact ends
    | error error => trivial
  | execute archive prepared context =>
    apply Meets.bind
    apply Meets.mono execute_tries
    intro result own' ends
    cases result with
    | ok value => exact ends
    | error error => trivial

end Calls

end Nausicaa.ContextFs
