import Nausicaa.Text.HexOrder
import Nausicaa.TaskLedger.Runs

/-! # The oldest pending task

`claim_next` orders the pending tasks by the milliseconds of their submissions, and those of one
millisecond by the texts of their ids.  The hexadecimal numbers in an id have no leading zeros, so
their order as texts is that of the numbers for numbers of one length only.  A claim returns the
task that was submitted first exactly where no other pending task of its millisecond has a text before
its own (`CleanRuns.claimsOldest`). -/

namespace Nausicaa.TaskLedger

/-! ## Ids -/

/-- What `generated_id` reads: the nanoseconds since the epoch, `NEXT_ID` and the process. -/
structure Stamp where
  timestamp : Nat
  sequence : Nat
  process : Nat
  deriving DecidableEq

namespace Stamp

def text (stamp : Stamp) : List Char :=
  Nat.toDigits 16 stamp.timestamp ++ '_' ::
    (Nat.toDigits 16 stamp.sequence ++ '_' :: Nat.toDigits 16 stamp.process)

/-- The text of the first stamp comes before that of the second one. -/
def Before (first second : Stamp) : Prop :=
  Text.HexBefore first.timestamp second.timestamp ∨
    first.timestamp = second.timestamp ∧
      (Text.HexBefore first.sequence second.sequence ∨
        first.sequence = second.sequence ∧
          Nat.toDigits 16 first.process < Nat.toDigits 16 second.process)

theorem text_lt {first second : Stamp} : first.text < second.text ↔ first.Before second := by
  rw [text, text, Text.hex_lt, Text.hex_lt, Before]

end Stamp

def generatedId (label : String) (stamp : Stamp) : String :=
  label ++ "_" ++ String.ofList stamp.text

/-- `TaskId::new`. -/
def TaskId.generated (stamp : Stamp) : TaskId := ⟨"task_" ++ generatedId "thread" stamp⟩

theorem generatedId_text (first second : String) (stamp : Stamp) :
    (first ++ generatedId second stamp).toList =
      first.toList ++ (second.toList ++ ("_".toList ++ stamp.text)) := by
  simp only [generatedId, String.toList_append, String.toList_ofList, List.append_assoc]

theorem TaskId.compare_lt (first second : TaskId) :
    compare first second = .lt ↔ first.value.toList < second.value.toList := by
  have texts : compare first second = compareOfLessAndEq first.value second.value := rfl
  rw [texts, compareOfLessAndEq_eq_lt, String.lt_iff]

theorem TaskId.generated_lt {first second : Stamp} :
    compare (TaskId.generated first) (TaskId.generated second) = .lt ↔ first.Before second := by
  have texts (stamp : Stamp) : (TaskId.generated stamp).value.toList =
      "task_".toList ++ ("thread".toList ++ ("_".toList ++ stamp.text)) := generatedId_text _ _ _
  refine (TaskId.compare_lt _ _).trans ?_
  rw [texts, texts, Text.append_left_lt, Text.append_left_lt, Text.append_left_lt, Stamp.text_lt]

/-- `as_millis`, as `now_ms` gives it. -/
def millis (nanos : Nat) : Nat := min (nanos / 1000000) LedgerState.maxUnixMs

theorem millis_mono {earlier later : Nat} (ordered : earlier ≤ later) :
    millis earlier ≤ millis later := by
  have := Nat.div_le_div_right (c := 1000000) ordered
  unfold millis
  omega

/-! ## Submissions -/

/-- The task that the reply says was created. -/
def createdBy : Except LedgerError Reply → Option TaskRecord
  | .ok (.submission ⟨task, true⟩) => some task
  | _ => none

/-- The task that the reply says was claimed. -/
def claimedBy : Except LedgerError Reply → Option TaskRecord
  | .ok (.claim (some task)) => some task
  | _ => none

abbrev Entry.created (entry : Entry) : Option TaskRecord := createdBy entry.reply

abbrev Entry.claimed (entry : Entry) : Option TaskRecord := claimedBy entry.reply

/-- The created tasks, the first one first. -/
def submissions (history : List Entry) : List TaskRecord := history.reverse.filterMap Entry.created

/-- The claimed tasks, the first one first. -/
def claims (history : List Entry) : List TaskRecord := history.reverse.filterMap Entry.claimed

def LedgerState.isPending (state : LedgerState) (id : TaskId) : Bool :=
  (state.tasks[id]?.map fun task => decide (task.status = .pending)).getD false

/-- The submissions that are pending, the first one first. -/
def waiting (history : List Entry) (state : LedgerState) : List TaskRecord :=
  (submissions history).filter fun task => state.isPending task.id

/-- The clock never goes backwards: `submit` reads it for the time of the task and then for the id. -/
inductive Clocked : Nat → List Entry → Prop where
  | start : Clocked 0 []
  | submit {clock reading : Nat} {history : List Entry} {entry : Entry} {stamp : Stamp}
      {idempotencyKey : String} {payload : Json.Value} :
    Clocked clock history → clock ≤ reading → reading ≤ stamp.timestamp →
    entry.request = .submit idempotencyKey payload (.generated stamp) (millis reading) →
    Clocked stamp.timestamp (entry :: history)
  | other {clock : Nat} {history : List Entry} {entry : Entry} :
    Clocked clock history → entry.created = none → Clocked clock (entry :: history)

/-- No task of the same millisecond has a text before that of the first one. -/
def InOrder : List TaskRecord → Prop
  | [] => True
  | first :: rest => ∀ other ∈ rest, other.createdAtUnixMs = first.createdAtUnixMs →
      ∀ stamp stamp', first.id = .generated stamp → other.id = .generated stamp' →
        stamp.Before stamp'

section Oldest

variable {codec : Codec} {readable : Json.Value → Prop} {history later earlier : List Entry}
variable {entry : Entry} {state : LedgerState} {clock : Nat}

/-! ## What a call does to the pending tasks -/

theorem LedgerState.isPending_of_found {id : TaskId} {task : TaskRecord}
    (found : state.tasks[id]? = some task) : state.isPending id = decide (task.status = .pending) := by
  rw [LedgerState.isPending, found]
  rfl

theorem Quiet.silent {request : Request} {reply : Except LedgerError Reply}
    (quiet : Quiet state request reply) : claimedBy reply = none ∧ createdBy reply = none := by
  cases quiet <;> exact ⟨rfl, rfl⟩

theorem Consistent.noDelivery (consistent : Consistent codec state) {id : TaskId} {task : TaskRecord}
    (found : state.tasks[id]? = some task) (ready : task.delivery = .pending) :
    task.status ≠ .pending := by
  intro pending
  obtain ⟨life, shows⟩ := consistent.lives id task found
  rw [shows.wellFormed.delivery.mpr (.inl pending)] at ready
  cases ready

/-- A call creates a task, or none. -/
theorem Called.creates (called : Called codec entry) :
    (entry.created = none ∧ ∀ (id : TaskId) (task : TaskRecord), entry.after.tasks[id]? = some task →
      ∃ old, entry.before.tasks[id]? = some old) ∨
    ∃ id key payload now, entry.request = .submit key payload id now ∧
      entry.created = some (.submitted id key payload now) ∧ entry.before.tasks[id]? = none ∧
      entry.after.tasks[id]? = some (.submitted id key payload now) ∧
      ∀ other ≠ id, entry.after.tasks[other]? = entry.before.tasks[other]? := by
  obtain ⟨before, request, reply, after⟩ := entry
  obtain ⟨_, _, hosts, _, fresh, performed⟩ := called
  have old : request.newId = none → ∀ (id : TaskId) (task : TaskRecord),
      after.tasks[id]? = some task → ∃ old, before.tasks[id]? = some old := by
    intro none id task found
    by_contra absent
    rw [performed.new (Option.eq_none_iff_forall_ne_some.mpr (not_exists.mp absent)) found] at none
    cases none
  cases performed with
  | quiet quiet => exact .inl ⟨quiet.silent.2, fun _ task found => ⟨task, found⟩⟩
  | faulted due failed =>
    refine .inl ⟨rfl, ?_⟩
    intro id task found
    exact ⟨task, failed.tasks ▸ found⟩
  | recovered marks distinct replied =>
    refine .inl ⟨?_, old rfl⟩
    obtain ⟨_, _, rfl, _⟩ | ⟨_, _, rfl⟩ := replied <;> rfl
  | appended due done left =>
    cases due with
    | submit new =>
      refine .inr ⟨_, _, _, _, rfl, rfl, fresh _ rfl, ?_, fun other apart => done.others apart.symm⟩
      obtain ⟨task, same, there⟩ | ⟨_, _, fits, _⟩ := done.task (.submit new)
      · cases same
        exact there
      · cases fits
    | _ => exact .inl ⟨rfl, old rfl⟩

/-- Without cancellations, only a claim takes a task away from the pending ones. -/
theorem Called.isPending (called : Called codec entry)
    (uncancelled : ∀ taskId reason, entry.request ≠ .cancel taskId reason) (id : TaskId) :
    entry.after.isPending id =
      (entry.before.isPending id && entry.claimed.map TaskRecord.id != some id ||
        entry.created.map TaskRecord.id == some id) := by
  obtain ⟨before, request, reply, after⟩ := entry
  obtain ⟨consistent, _, hosts, harmless, fresh, performed⟩ := called
  have same (tasks : after.tasks[id]? = before.tasks[id]?) :
      after.isPending id = before.isPending id := by
    rw [LedgerState.isPending, tasks, LedgerState.isPending]
  show after.isPending id = (before.isPending id && (claimedBy reply).map TaskRecord.id != some id ||
    (createdBy reply).map TaskRecord.id == some id)
  cases performed with
  | quiet quiet => simp [quiet.silent]
  | faulted due failed => simp [same (by rw [failed.tasks]), claimedBy, createdBy]
  | recovered marks distinct replied =>
    have silent : claimedBy reply = none ∧ createdBy reply = none := by
      obtain ⟨_, _, rfl, _⟩ | ⟨_, _, rfl⟩ := replied <;> exact ⟨rfl, rfl⟩
    simp only [silent]
    obtain unchanged | ⟨task, _, _, found, running, _, changed⟩ := marks.task distinct id
    · simp [same unchanged]
    · simp [LedgerState.isPending_of_found found, LedgerState.isPending_of_found changed, running,
        TaskRecord.terminal]
  | @appended _ event task _ due done left =>
    have about := done.keyed consistent.keyed _ _ left
    by_cases own : event.taskId = id
    · subst own
      obtain ⟨new, rfl, there⟩ | ⟨old, found, fits, there⟩ := done.task due
      · cases due with
        | submit _ =>
          rw [LedgerState.isPending_of_found there]
          simp [createdBy, claimedBy, LedgerEvent.reply, TaskRecord.submitted, LedgerEvent.taskId]
      · rw [LedgerState.isPending_of_found there, LedgerState.isPending_of_found found]
        cases fits with
        | claimed waiting =>
          cases due with
          | claimNext _ _ _ =>
            simp only [LedgerEvent.taskId] at about
            simp [createdBy, claimedBy, LedgerEvent.reply, LedgerEvent.change, about,
              LedgerEvent.taskId]
        | cancelled _ =>
          cases due with
          | cancel _ _ => exact absurd rfl (uncancelled _ _)
        | deliveryAcknowledged ready =>
          -- A task with a delivery is not pending.
          have other := consistent.noDelivery found ready
          simp [createdBy, claimedBy, LedgerEvent.reply, LedgerEvent.change, other]
        | heartbeat running _ _ => simp [createdBy, claimedBy, LedgerEvent.reply, LedgerEvent.change, running]
        | succeeded running =>
          simp [createdBy, claimedBy, LedgerEvent.reply, LedgerEvent.change, running,
            TaskRecord.terminal]
        | failed running =>
          simp [createdBy, claimedBy, LedgerEvent.reply, LedgerEvent.change, running,
            TaskRecord.terminal]
        | markedUnknown running =>
          simp [createdBy, claimedBy, LedgerEvent.reply, LedgerEvent.change, running,
            TaskRecord.terminal]
    · rw [same (done.others own)]
      cases due with
      | submit _ =>
        simp only [LedgerEvent.taskId] at own
        have other : ((TaskRecord.submitted _ _ _ _).id == id) = false := beq_false_of_ne own
        simp [createdBy, claimedBy, LedgerEvent.reply, other]
      | claimNext _ _ _ =>
        simp only [LedgerEvent.taskId] at own about
        simp [createdBy, claimedBy, LedgerEvent.reply, about, own]
      | _ => simp [createdBy, claimedBy, LedgerEvent.reply, Request.lost]

/-! ## The list of submissions -/

theorem submissions_cons (entry : Entry) (history : List Entry) :
    submissions (entry :: history) = submissions history ++ entry.created.toList := by
  cases created : entry.created <;> simp [submissions, created]

theorem claims_cons (entry : Entry) (history : List Entry) :
    claims (entry :: history) = claims history ++ entry.claimed.toList := by
  cases claimed : entry.claimed <;> simp [claims, claimed]

/-- The submissions are the tasks of the ledger. -/
structure Listed (submitted : List TaskRecord) (state : LedgerState) : Prop where
  once : (submitted.map TaskRecord.id).Nodup
  present : ∀ task ∈ submitted, ∃ task', state.tasks[task.id]? = some task' ∧ task.SameTask task'
  all : ∀ (id : TaskId) (task : TaskRecord), state.tasks[id]? = some task →
    ∃ old ∈ submitted, old.id = id

theorem Calls.listed (calls : Calls codec history state) : Listed (submissions history) state := by
  induction calls with
  | nil => exact ⟨List.nodup_nil, by simp [submissions], by simp⟩
  | @cons history entry calls called ih =>
    have present : ∀ task ∈ submissions history,
        ∃ task', entry.after.tasks[task.id]? = some task' ∧ task.SameTask task' := by
      intro task member
      obtain ⟨task', found, same⟩ := ih.present task member
      obtain ⟨task'', found', steps⟩ := called.evolves task.id task' found
      exact ⟨task'', found', same.trans steps.sameTask⟩
    rw [submissions_cons]
    obtain ⟨none, old⟩ | ⟨id, key, payload, now, _, created, absent, there, others⟩ := called.creates
    · rw [none, Option.toList_none, List.append_nil]
      refine ⟨ih.once, present, ?_⟩
      intro id task found
      obtain ⟨task', found'⟩ := old id task found
      exact ih.all id task' found'
    · rw [created, Option.toList_some]
      refine ⟨?_, ?_, ?_⟩
      · rw [List.map_append, List.nodup_append]
        refine ⟨ih.once, List.nodup_singleton _, ?_⟩
        intro id' member id'' last same
        obtain ⟨task, listed, rfl⟩ := List.mem_map.mp member
        obtain ⟨task', found, _⟩ := ih.present task listed
        rw [List.map_singleton, List.mem_singleton] at last
        rw [same, last] at found
        cases absent.symm.trans found
      · intro task member
        obtain earlier | last := List.mem_append.mp member
        · exact present task earlier
        · rw [List.mem_singleton] at last
          subst last
          exact ⟨_, there, .refl _⟩
      · intro id' task found
        by_cases own : id' = id
        · subst own
          exact ⟨_, List.mem_append_right _ List.mem_cons_self, rfl⟩
        · rw [others id' own] at found
          obtain ⟨old, member, same⟩ := ih.all id' task found
          exact ⟨old, List.mem_append_left _ member, same⟩

/-- The times of the submissions do not go back. -/
theorem Clocked.sorted (clocked : Clocked clock history) (calls : Calls codec history state) :
    (submissions history).Pairwise (fun first second =>
      first.createdAtUnixMs ≤ second.createdAtUnixMs) ∧
    ∀ task ∈ submissions history, task.createdAtUnixMs ≤ millis clock ∧
      ∃ stamp, task.id = .generated stamp := by
  induction clocked generalizing state with
  | start => exact ⟨List.Pairwise.nil, by simp [submissions]⟩
  | other clocked none ih =>
    cases calls with
    | cons calls called =>
      rw [submissions_cons, none, Option.toList_none, List.append_nil]
      exact ih calls
  | @submit clock reading history entry stamp key payload clocked after before asked ih =>
    cases calls with
    | cons calls called =>
      obtain ⟨sorted, known⟩ := ih calls
      have later := millis_mono (Nat.le_trans after before)
      have older : ∀ task ∈ submissions history, task.createdAtUnixMs ≤ millis stamp.timestamp ∧
          ∃ stamp, task.id = .generated stamp :=
        fun task member => ⟨(known task member).1.trans later, (known task member).2⟩
      rw [submissions_cons]
      obtain ⟨none, _⟩ | ⟨id, key', payload', now, asked', created, _⟩ := called.creates
      · rw [none, Option.toList_none, List.append_nil]
        exact ⟨sorted, older⟩
      · cases asked.symm.trans asked'
        rw [created, Option.toList_some]
        constructor
        · rw [List.pairwise_append]
          refine ⟨sorted, List.pairwise_singleton _ _, ?_⟩
          intro task member last new
          rw [List.mem_singleton.mp new]
          exact (known task member).1.trans (millis_mono after)
        · intro task member
          obtain earlier | last := List.mem_append.mp member
          · exact older task earlier
          · rw [List.mem_singleton] at last
            subst last
            exact ⟨millis_mono before, stamp, rfl⟩

theorem Clocked.split (clocked : Clocked clock (later ++ entry :: earlier)) :
    ∃ clock', Clocked clock' earlier := by
  induction later generalizing clock with
  | nil =>
    cases clocked with
    | submit clocked _ _ _ => exact ⟨_, clocked⟩
    | other clocked _ => exact ⟨_, clocked⟩
  | cons last later ih =>
    cases clocked with
    | submit clocked _ _ _ => exact ih clocked
    | other clocked _ => exact ih clocked

/-! ## The first one -/

instance : Std.TransCmp LedgerState.created :=
  inferInstanceAs (Std.TransCmp
    (compareLex (compareOn TaskRecord.createdAtUnixMs) (compareOn TaskRecord.id)))

theorem firstCreated_none {tasks : List TaskRecord} (none : LedgerState.firstCreated tasks = none) :
    tasks = [] := by
  cases tasks with
  | nil => rfl
  | cons head rest =>
    rw [LedgerState.firstCreated] at none
    split at none
    next => cases none
    next => split at none <;> cases none

theorem firstCreated_least {tasks : List TaskRecord} {first : TaskRecord}
    (least : LedgerState.firstCreated tasks = some first) :
    ∀ task ∈ tasks, (LedgerState.created first task).isLE := by
  induction tasks generalizing first with
  | nil => cases least
  | cons head rest ih =>
    rw [LedgerState.firstCreated] at least
    split at least
    next alone =>
      cases least
      rw [firstCreated_none alone, List.forall_mem_singleton]
      exact Std.ReflCmp.isLE_rfl
    next other found =>
      rw [List.forall_mem_cons]
      split at least
      next earlier =>
        cases least
        rw [earlier]
        exact ⟨rfl, ih found⟩
      next later =>
        cases least
        have ordered : (LedgerState.created head other).isLE := by
          by_contra back
          exact later (Std.OrientedCmp.lt_of_not_isLE back)
        exact ⟨Std.ReflCmp.isLE_rfl,
          fun task member => Std.TransCmp.isLE_trans ordered (ih found task member)⟩

theorem created_lt {left right : TaskRecord} : LedgerState.created left right = .lt ↔
    left.createdAtUnixMs < right.createdAtUnixMs ∨
      left.createdAtUnixMs = right.createdAtUnixMs ∧ compare left.id right.id = .lt := by
  rw [LedgerState.created, Ordering.then_eq_lt, Nat.compare_eq_lt, Nat.compare_eq_eq]

theorem Listed.waiting (listed : Listed (submissions history) state) (task : TaskRecord)
    (member : task ∈ waiting history state) :
    ∃ task', state.tasks[task.id]? = some task' ∧ task'.status = .pending ∧ task.SameTask task' := by
  obtain ⟨submitted, pending⟩ := List.mem_filter.mp member
  obtain ⟨task', found, same⟩ := listed.present task submitted
  rw [LedgerState.isPending_of_found found, decide_eq_true_iff] at pending
  exact ⟨task', found, pending, same⟩

theorem Listed.pending (listed : Listed (submissions history) state) {id : TaskId} {task : TaskRecord}
    (found : state.tasks[id]? = some task) (pending : task.status = .pending) :
    ∃ old ∈ TaskLedger.waiting history state, old.id = id := by
  obtain ⟨old, submitted, same⟩ := listed.all id task found
  refine ⟨old, List.mem_filter.mpr ⟨submitted, ?_⟩, same⟩
  rw [same, LedgerState.isPending_of_found found, pending]
  rfl

/-- A claim takes the least of the pending tasks. -/
theorem Called.claims (called : Called codec entry) {task : TaskRecord}
    (claimed : entry.claimed = some task) :
    ∃ first, first.id = task.id ∧ entry.before.tasks[first.id]? = some first ∧
      first.status = .pending ∧
      ∀ (id : TaskId) (other : TaskRecord), entry.before.tasks[id]? = some other →
        other.status = .pending → (LedgerState.created first other).isLE := by
  obtain ⟨before, request, reply, after⟩ := entry
  obtain ⟨consistent, _, hosts, _, _, performed⟩ := called
  have keyed := consistent.keyed
  change claimedBy reply = some task at claimed
  cases performed with
  | quiet quiet => cases quiet.silent.1.symm.trans claimed
  | faulted due failed => cases claimed
  | recovered marks distinct replied =>
    obtain ⟨_, _, rfl, _⟩ | ⟨_, _, rfl⟩ := replied <;> cases claimed
  | appended due done left =>
    have about := done.keyed keyed _ _ left
    cases due with
    | claimNext first found pending =>
      cases claimed
      refine ⟨_, about.symm, found, pending, ?_⟩
      intro id other present waiting
      refine firstCreated_least first other (List.mem_filter.mpr ⟨?_, decide_eq_true waiting⟩)
      rw [mem_values keyed, keyed id other present]
      exact present
    | _ => cases claimed

/-- A claim returns the first of the pending tasks exactly where none of the same millisecond has a
text before it. -/
theorem Called.claims_first (called : Called codec entry)
    (listed : Listed (submissions earlier) entry.before)
    (sorted : (submissions earlier).Pairwise fun first second =>
      first.createdAtUnixMs ≤ second.createdAtUnixMs)
    (stamped : ∀ task ∈ submissions earlier, ∃ stamp, task.id = .generated stamp)
    {task : TaskRecord} (claimed : entry.claimed = some task) :
    (waiting earlier entry.before).head?.map TaskRecord.id = some task.id ↔
      InOrder (waiting earlier entry.before) := by
  obtain ⟨first, own, found, pending, least⟩ := called.claims claimed
  obtain ⟨mine, member, same⟩ := listed.pending found pending
  have once : ((waiting earlier entry.before).map TaskRecord.id).Nodup :=
    listed.once.sublist (List.filter_sublist.map _)
  have ordered := sorted.filter fun task => entry.before.isPending task.id
  change (waiting earlier entry.before).Pairwise _ at ordered
  have stamps : ∀ task ∈ waiting earlier entry.before, ∃ stamp, task.id = .generated stamp :=
    fun task member => stamped task (List.mem_filter.mp member).1
  have records := listed.waiting
  cases waits : waiting earlier entry.before with
  | nil => simp [waits] at member
  | cons oldest rest =>
    rw [waits] at member once ordered stamps records
    rw [List.map_cons, List.nodup_cons] at once
    rw [List.pairwise_cons] at ordered
    rw [List.head?_cons, Option.map_some, Option.some.injEq, ← own, InOrder]
    obtain ⟨oldest', present, waiting', sameOldest⟩ := records oldest List.mem_cons_self
    obtain ⟨mineTask, mineFound, _, sameMine⟩ := records mine member
    rw [same] at mineFound
    cases found.symm.trans mineFound
    constructor
    · intro head other among time stamp stamp' id id'
      rw [head] at present
      cases found.symm.trans present
      obtain ⟨other', there, pending', sameOther⟩ := records other (List.mem_cons_of_mem _ among)
      have apart : first.id ≠ other'.id := by
        intro equal
        rw [sameOther.id, ← head] at equal
        exact once.1 (equal ▸ List.mem_map_of_mem among)
      have before := least _ other' there pending'
      rw [Ordering.isLE_iff_eq_lt_or_eq_eq] at before
      obtain less | equal := before
      · obtain earlier | ⟨_, texts⟩ := created_lt.mp less
        · rw [sameOldest.createdAtUnixMs, sameOther.createdAtUnixMs] at earlier
          omega
        · rwa [← head, id, sameOther.id, id', TaskId.generated_lt] at texts
      · rw [LedgerState.created, Ordering.then_eq_eq] at equal
        exact absurd (Std.LawfulEqOrd.eq_of_compare equal.2) apart
    · intro inOrder
      by_contra head
      have among : mine ∈ rest := by
        obtain rfl | among := List.mem_cons.mp member
        · exact absurd same head
        · exact among
      have less : LedgerState.created oldest' first = .lt := by
        rw [created_lt, sameOldest.createdAtUnixMs, sameMine.createdAtUnixMs]
        obtain earlier | time := Nat.lt_or_eq_of_le (ordered.1 mine among)
        · exact .inl earlier
        · obtain ⟨stamp, id⟩ := stamps oldest List.mem_cons_self
          obtain ⟨stamp', id'⟩ := stamps mine member
          refine .inr ⟨time, ?_⟩
          rw [sameOldest.id, ← same, id, id', TaskId.generated_lt]
          exact inOrder mine among time.symm stamp stamp' id id'
      exact Std.OrientedCmp.not_isLE_of_lt less (least _ oldest' present waiting')

/-! ## All claims -/

theorem waiting_cons (calls : Calls codec history entry.before) (called : Called codec entry)
    (uncancelled : ∀ taskId reason, entry.request ≠ .cancel taskId reason) :
    waiting (entry :: history) entry.after =
      (waiting history entry.before).filter
        (fun task => entry.claimed.map TaskRecord.id != some task.id) ++ entry.created.toList := by
  have listed := calls.listed
  rw [waiting, submissions_cons, List.filter_append]
  congr 1
  · rw [waiting, List.filter_filter]
    refine List.filter_congr fun task member => ?_
    rw [called.isPending uncancelled]
    obtain ⟨none, _⟩ | ⟨id, key, payload, now, _, created, absent, _⟩ := called.creates
    · simp [none, Bool.and_comm]
    · have apart : ((TaskRecord.submitted id key payload now).id == task.id) = false := by
        refine beq_false_of_ne fun same => ?_
        obtain ⟨task', found, _⟩ := listed.present task member
        rw [← same] at found
        cases absent.symm.trans found
      simp [created, apart, Bool.and_comm]
  · cases created : entry.created with
    | none => rfl
    | some task => simp [called.isPending uncancelled, created]

/-- Where every claim takes the first pending task, what was submitted was claimed or is pending. -/
theorem Calls.claims_in_order (calls : Calls codec history state)
    (uncancelled : ∀ entry ∈ history, ∀ taskId reason, entry.request ≠ .cancel taskId reason)
    (first : ∀ later entry earlier task, history = later ++ entry :: earlier →
      entry.claimed = some task →
      (waiting earlier entry.before).head?.map TaskRecord.id = some task.id) :
    (submissions history).map TaskRecord.id =
      (claims history).map TaskRecord.id ++ (waiting history state).map TaskRecord.id := by
  induction calls with
  | nil => rfl
  | @cons history entry calls called ih =>
    have before := ih (fun entry' member => uncancelled entry' (List.mem_cons_of_mem _ member))
      fun later entry' earlier task split => first (entry :: later) entry' earlier task (by rw [split]; rfl)
    rw [submissions_cons, claims_cons, waiting_cons calls called (uncancelled entry List.mem_cons_self)]
    cases claimed : entry.claimed with
    | none =>
      have all : (waiting history entry.before).filter
          (fun task => (none : Option TaskId) != some task.id) = waiting history entry.before :=
        List.filter_eq_self.mpr fun _ _ => rfl
      rw [Option.map_none, all, Option.toList_none, List.append_nil, List.map_append, List.map_append,
        before, List.append_assoc]
    | some task =>
      have created : entry.created = none := by
        cases reply : entry.reply with
        | error error => simp [Entry.claimed, reply, claimedBy] at claimed
        | ok reply' => cases reply' <;> simp_all [Entry.claimed, Entry.created, claimedBy, createdBy]
      have head := first [] entry history task rfl claimed
      have once : ((waiting history entry.before).map TaskRecord.id).Nodup :=
        calls.listed.once.sublist (List.filter_sublist.map _)
      cases waits : waiting history entry.before with
      | nil => simp [waits] at head
      | cons oldest rest =>
        rw [waits] at head once before
        rw [List.map_cons, List.nodup_cons] at once
        have own : oldest.id = task.id := Option.some.inj head
        have others : rest.filter (fun other => some task.id != some other.id) = rest := by
          refine List.filter_eq_self.mpr fun other member => ?_
          rw [← own]
          have apart : oldest.id ≠ other.id := fun same => once.1 (same ▸ List.mem_map_of_mem member)
          simp [apart]
        simp [created, before, own, others]

theorem InOrder.of_texts {tasks : List TaskRecord}
    (sorted : (tasks.map TaskRecord.id).Pairwise fun first second => compare first second = .lt) :
    InOrder tasks := by
  cases tasks with
  | nil => trivial
  | cons first rest =>
    intro other member _ stamp stamp' id id'
    rw [← TaskId.generated_lt, ← id, ← id']
    exact (List.pairwise_cons.mp sorted).1 other.id (List.mem_map_of_mem member)

/-! ## Two submissions at one time -/

namespace Tied

def time : Nat := 1700000000000000000

def stamp (sequence : Nat) : Stamp := ⟨time, sequence, 1⟩

def submit (state : LedgerState) (key : String) (sequence : Nat) : Entry :=
  Sample.entry state (.submit key .null (.generated (stamp sequence)) (millis time))

def first (sequence : Nat) : Entry := submit ⟨[], 0, ∅, ∅⟩ "first" sequence

def second (sequence : Nat) : Entry := submit (first sequence).after "second" (sequence + 1)

def claim (sequence : Nat) : Entry :=
  Sample.entry (second sequence).after (.claimNext "worker" (millis time) 50)

def entries (sequence : Nat) : List Entry := [claim sequence, second sequence, first sequence]

theorem runs (sequence : Nat)
    (apart : TaskId.generated (stamp sequence) ≠ .generated (stamp (sequence + 1))) :
    CleanRuns serde Json.Value.Plain (entries sequence) (claim sequence).after := by
  have start : CleanRuns serde Json.Value.Plain [] ⟨[], 0, ∅, ∅⟩ := .create rfl
  have one : CleanRuns serde Json.Value.Plain [first sequence] (first sequence).after :=
    Sample.runs_entry start trivial (by simp)
  have two : CleanRuns serde Json.Value.Plain [second sequence, first sequence]
      (second sequence).after := by
    refine Sample.runs_entry one trivial ?_
    intro id new entry member same
    cases new
    rw [List.mem_singleton.mp member] at same
    exact apart (Option.some.inj same)
  exact Sample.runs_entry two trivial (by intro _ new; cases new)

theorem clocked (sequence : Nat) : Clocked time (entries sequence) := by
  have one : Clocked (stamp sequence).timestamp [first sequence] :=
    .submit .start (Nat.zero_le _) (Nat.le_refl _) rfl
  have two : Clocked (stamp (sequence + 1)).timestamp [second sequence, first sequence] :=
    .submit one (Nat.le_refl _) (Nat.le_refl _) rfl
  refine .other two ?_
  show createdBy (answer _ _).1 = none
  cases result : (second sequence).after.claimNext serde "worker" (millis time) 50
      (Sample.hosts 0) with
  | mk reply after => cases reply <;> rfl

theorem submit_claims (state : LedgerState) (key : String) (sequence : Nat) :
    (submit state key sequence).claimed = none := by
  show claimedBy (answer _ _).1 = none
  cases result : state.submit serde key .null (.generated (stamp sequence)) (millis time)
      (Sample.hosts 0) with
  | mk reply after => cases reply <;> rfl

/-- There is one claim. -/
theorem claims_split {sequence : Nat} {later earlier : List Entry} {entry : Entry} {task : TaskRecord}
    (split : entries sequence = later ++ entry :: earlier) (claimed : entry.claimed = some task) :
    entry = claim sequence ∧ earlier = [second sequence, first sequence] := by
  cases later with
  | nil =>
    cases split
    exact ⟨rfl, rfl⟩
  | cons last later =>
    have among : entry ∈ [second sequence, first sequence] := by
      rw [(List.cons.inj split).2]
      exact List.mem_append_right _ List.mem_cons_self
    have none : entry.claimed = none := by
      obtain rfl | one := List.mem_cons.mp among
      · exact submit_claims _ _ _
      · rw [List.mem_singleton.mp one]
        exact submit_claims _ _ _
    cases none.symm.trans claimed

end Tied

/-! ## Results -/

/-- In a run whose clock never goes backwards, a claim returns the task that was submitted first of
the pending ones exactly where no other one of its millisecond has a text before its own.  Where that
is so at every claim and nothing is cancelled, the tasks are claimed as they were submitted. -/
theorem CleanRuns.claimsOldest (faithful : codec.Faithful readable)
    (runs : CleanRuns codec readable history state) (clocked : Clocked clock history) :
    (∀ later entry earlier task, history = later ++ entry :: earlier → entry.claimed = some task →
      ((waiting earlier entry.before).head?.map TaskRecord.id = some task.id ↔
        InOrder (waiting earlier entry.before))) ∧
    ((∀ entry ∈ history, ∀ taskId reason, entry.request ≠ .cancel taskId reason) →
      (∀ later entry earlier task, history = later ++ entry :: earlier →
        entry.claimed = some task → InOrder (waiting earlier entry.before)) →
      (claims history).map TaskRecord.id <+: (submissions history).map TaskRecord.id) := by
  obtain ⟨_, calls, _⟩ := runs.consistent faithful
  have each : ∀ later entry earlier task, history = later ++ entry :: earlier →
      entry.claimed = some task →
      ((waiting earlier entry.before).head?.map TaskRecord.id = some task.id ↔
        InOrder (waiting earlier entry.before)) := by
    intro later entry earlier task split claimed
    subst split
    obtain ⟨before, called⟩ := calls.split
    obtain ⟨_, clocked'⟩ := clocked.split
    obtain ⟨sorted, known⟩ := clocked'.sorted before
    exact called.claims_first before.listed sorted (fun task member => (known task member).2) claimed
  refine ⟨each, ?_⟩
  intro uncancelled inOrder
  rw [calls.claims_in_order uncancelled fun later entry earlier task split claimed =>
    (each later entry earlier task split claimed).mpr (inOrder later entry earlier task split claimed)]
  exact List.prefix_append _ _

/-- Two ids of one length. -/
theorem CleanRuns.claimsOldest_tied :
    (claims (Tied.entries 1)).map TaskRecord.id <+:
      (submissions (Tied.entries 1)).map TaskRecord.id := by
  refine (CleanRuns.claimsOldest serde_faithful (Tied.runs 1 (by decide))
    (Tied.clocked 1)).2 ?_ ?_
  · intro entry member taskId reason
    simp only [Tied.entries, List.mem_cons, List.not_mem_nil, or_false] at member
    obtain rfl | rfl | rfl := member <;> rintro ⟨⟩
  · intro later entry earlier task split claimed
    obtain ⟨rfl, rfl⟩ := Tied.claims_split split claimed
    refine .of_texts ?_
    show List.Pairwise _ ((waiting [Tied.second 1, Tied.first 1] (Tied.second 1).after).map _)
    decide

/-- The ids `f` and `10` of one instant: the task that was submitted second is claimed first. -/
theorem CleanRuns.claims_later_first : ∃ history state later entry earlier task,
    CleanRuns serde Json.Value.Plain history state ∧ (∃ clock, Clocked clock history) ∧
    history = later ++ entry :: earlier ∧ entry.claimed = some task ∧
    (waiting earlier entry.before).head?.map TaskRecord.id ≠ some task.id := by
  have claimed : (Tied.claim 15).claimed.map TaskRecord.id = some (.generated (Tied.stamp 16)) := by
    decide
  obtain ⟨task, taken, id⟩ := Option.map_eq_some_iff.mp claimed
  refine ⟨Tied.entries 15, _, [], Tied.claim 15, _, task, Tied.runs 15 (by decide),
    ⟨_, Tied.clocked 15⟩, rfl, taken, ?_⟩
  rw [id]
  decide

end Oldest

end Nausicaa.TaskLedger
