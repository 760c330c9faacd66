import Nausicaa.Core.DeliverySpec
import Nausicaa.Interaction.Outbox

/-! # What calls owe observers

Each call's unannounced events are an outbox.  A thread is announced by one call at a time,
because its guard is exclusive and an event is only stored once whoever started the thread
has told everybody; `Delivering` says so of the store, the trace and what calls own, and
every permitted step keeps it.
-/

namespace Nausicaa.Core

open Interaction (Balanced Built Contract)

/-! ## One operation -/

section Operations

variable {world world' : World} {own own' : Own} {op : Operation} {answer : Answer op}
variable {rt : AgentRuntime} {call : Call} {threadId : ThreadId}

/-- An envelope that the store took gets the next sequence, whatever else is stored. -/
theorem exec_stored {envelope : EventEnvelope}
    (exec : machine.exec world own op answer world' own')
    (stores : Observation.envelope ⟨op, answer⟩ = some envelope) :
    world' = world.push envelope ∧ envelope.sequence = world.nextSequence ∧
      ∃ turnId event, op = .storeAppend envelope.threadId turnId event := by
  obtain ⟨proposed, after, performed, _⟩ := exec
  cases op with
  | storeAppend threadId turnId event =>
    cases proposed with
    | error source =>
      cases performed
      cases stores
    | ok stamp =>
      cases performed
      cases stores
      exact ⟨rfl, rfl, turnId, event, rfl⟩
  | _ => cases stores

theorem exec_unstored (exec : machine.exec world own op answer world' own')
    (keeps : Observation.envelope ⟨op, answer⟩ = none) :
    world'.events = world.events ∧ world'.nextSequence = world.nextSequence := by
  obtain ⟨proposed, after, performed, _⟩ := exec
  cases op with
  | storeAppend threadId turnId event =>
    cases proposed with
    | error source =>
      cases performed
      exact ⟨rfl, rfl⟩
    | ok stamp =>
      cases performed
      cases keeps
  | newThreadId | activeInsert threadId =>
    simp only [World.perform] at performed
    split at performed <;> cases performed <;> exact ⟨rfl, rfl⟩
  | loadThread threadId => cases proposed <;> cases performed <;> exact ⟨rfl, rfl⟩
  | activeRemove threadId => cases performed; exact ⟨rfl, rfl⟩
  | isCancelled _ | compile _ | beforeModel _ _ _ | beforeTool _ _ _ | afterTool _ _ _
  | completeControlled _ _ | prepare _ _ _ | requestApproval _ | execute _ _ _ | onEvent _ _ =>
    cases performed
    exact ⟨rfl, rfl⟩

theorem exec_history (exec : machine.exec world own op answer world' own') :
    own'.history = own.history ++ [⟨op, answer⟩] := by
  obtain ⟨proposed, after, performed, rfl⟩ := exec
  have same : after.history = own.history := by
    cases op with
    | storeAppend threadId turnId event =>
      cases proposed with
      | error source => cases performed; rfl
      | ok stamp =>
        cases performed
        show (if _ then _ else _ : Own).history = own.history
        split <;> rfl
    | newThreadId | activeInsert threadId =>
      simp only [World.perform] at performed
      split at performed <;> cases performed <;> rfl
    | loadThread threadId => cases proposed <;> cases performed <;> rfl
    | activeRemove threadId => cases performed; rfl
    | isCancelled _ | compile _ | beforeModel _ _ _ | beforeTool _ _ _ | afterTool _ _ _
    | completeControlled _ _ | prepare _ _ _ | requestApproval _ | execute _ _ _ | onEvent _ _ =>
      cases performed
      rfl
  simp [Own.observe, same]

theorem exec_loaded {events : List EventEnvelope}
    (exec : machine.exec world own (.loadThread threadId) (.ok events) world' own') :
    events = world.log threadId := by
  obtain ⟨proposed, after, performed, _⟩ := exec
  cases proposed with
  | error source => cases performed
  | ok proposed =>
    cases performed
    rfl

/-- A guard is kept until it is dropped. -/
theorem exec_guard (exec : machine.exec world own op answer world' own')
    (permitted : permit rt False call (world.view own) op) (guard : own.held = .guard threadId) :
    own'.held = .guard threadId ∨ ∃ threadId', op = .activeRemove threadId' := by
  obtain ⟨proposed, after, performed, rfl⟩ := exec
  have seen : (world.view own).own.held = .guard threadId := guard
  cases op with
  | newThreadId =>
    rw [permit, seen] at permitted
    cases permitted
  | activeInsert threadId' =>
    obtain ⟨nothing, _⟩ := permitted
    rw [seen] at nothing
    cases nothing
  | activeRemove threadId' => exact .inr ⟨threadId', rfl⟩
  | storeAppend threadId' turnId event =>
    cases proposed with
    | error source => cases performed; exact .inl guard
    | ok stamp =>
      cases performed
      have held : ¬ own.held = .fresh threadId' := by simp [guard]
      rw [if_neg held]
      exact .inl guard
  | loadThread threadId' => cases proposed <;> cases performed <;> exact .inl guard
  | isCancelled _ | compile _ | beforeModel _ _ _ | beforeTool _ _ _ | afterTool _ _ _
  | completeControlled _ _ | prepare _ _ _ | requestApproval _ | execute _ _ _ | onEvent _ _ =>
    cases performed
    exact .inl guard

theorem World.Ordered.exec (ordered : world.Ordered)
    (exec : machine.exec world own op answer world' own') : world'.Ordered := by
  cases stores : Observation.envelope ⟨op, answer⟩ with
  | none =>
    obtain ⟨events, next⟩ := exec_unstored exec stores
    constructor
    · rw [events]
      exact ordered.sorted
    · rw [events, next]
      exact ordered.below
  | some envelope =>
    obtain ⟨rfl, sequence, _⟩ := exec_stored exec stores
    constructor
    · show (world.events ++ [envelope]).Pairwise _
      rw [List.pairwise_append]
      refine ⟨ordered.sorted, List.pairwise_singleton _ _, ?_⟩
      intro earlier member last here
      have below := ordered.below earlier member
      rw [List.mem_singleton.mp here]
      omega
    · intro later member
      show later.sequence < world.nextSequence + 1
      cases List.mem_append.mp member with
      | inl earlier =>
        have below := ordered.below later earlier
        omega
      | inr last =>
        rw [List.mem_singleton.mp last]
        omega

end Operations

/-! ## What all calls owe -/

/-- What a call has still to tell about a thread. -/
def dueOf (observers : List EventObserver) (threadId : ThreadId) (history : List Observation) :
    List Notice :=
  (dueAfter observers history).filter fun notice => notice.2.threadId = threadId

/-- The store, its trace and what calls own agree: only the holder of a thread or the call
that starts it owes anything, and what is owed is what is missing. -/
structure Delivering (rt : AgentRuntime) (start : World) (watched : Watched)
    (owned : List (Call × Own)) : Prop where
  ownership : Owned watched.world owned
  ordered : watched.world.Ordered
  events : watched.world.events = start.events ++ storedIn watched.trace
  stored : Built (fun before observation => ∀ notice, observation.notice = some notice →
    notice.2 ∈ storedIn before) watched.trace
  holder : ∀ entry ∈ owned, ∀ threadId, dueOf rt.observers threadId entry.2.history ≠ [] →
    entry.2.held = .guard threadId ∨ entry.1.IsStart
  balanced : ∀ threadId, Balanced (toldOf threadId watched.trace)
    (notices rt.observers (appendedTo threadId watched.trace))
    (owned.map fun entry => dueOf rt.observers threadId entry.2.history)

/-- The contract of a call with the runtime and with its observers. -/
def observed (rt : AgentRuntime) (call : Call) : Contract Operation Answer Local where
  permit state op := (contract rt False call).permit state op ∧ deliveryPermit rt call state op
  step := (delivery rt call).step

def Watched.view (watched : Watched) (own : Own) : Local := watched.world.view own

section Delivering

variable {rt : AgentRuntime} {start : World} {watched watched' : Watched}
variable {owned : List (Call × Own)} {index : Nat} {call : Call} {own own' : Own}
variable {op : Operation} {answer : Answer op} {threadId : ThreadId}

theorem dueOf_snoc (observers : List EventObserver) (history : List Observation)
    (observation : Observation) : dueOf observers threadId (history ++ [observation]) =
      (owe observers (dueAfter observers history) observation).filter
        fun notice => notice.2.threadId = threadId := by
  rw [dueOf, dueAfter_snoc]

theorem dueOf_of_told {history : List Observation} (told : dueAfter rt.observers history = []) :
    dueOf rt.observers threadId history = [] := by
  rw [dueOf, told]
  rfl

/-- What is due was stored before. -/
theorem Delivering.due_stored (delivering : Delivering rt start watched owned)
    (present : owned[index]? = some (call, own)) {notice : Notice}
    (due : notice ∈ dueAfter rt.observers own.history) :
    notice.2 ∈ storedIn watched.trace := by
  have mine : notice ∈ dueOf rt.observers notice.2.threadId own.history := by
    simp [dueOf, due]
  have missing := (delivering.balanced notice.2.threadId).owing
    (dueOf rt.observers notice.2.threadId own.history)
    (List.mem_map.mpr ⟨_, List.mem_of_getElem? present, rfl⟩) (List.ne_nil_of_mem mine)
  have announced : notice ∈ notices rt.observers
      (appendedTo notice.2.threadId watched.trace) := by
    rw [← missing]
    exact List.mem_append_right _ mine
  obtain ⟨envelope, appended, told⟩ := List.mem_flatMap.mp announced
  obtain ⟨observer, _, rfl⟩ := List.mem_map.mp told
  exact List.mem_of_mem_filter appended

/-- The store answers what observers can rely on. -/
theorem Delivering.answered (delivering : Delivering rt start watched owned)
    (present : owned[index]? = some (call, own))
    (exec : machine.exec watched.world own op answer watched'.world own')
    (fits : HasSequence op answer) (prompt : Prompt rt owned index op answer) :
    deliveryAnswer rt (watched.view own) op answer := by
  have refused : Refuses op answer → rt.observers = [] ∨ ¬ JustStored own.history := by
    intro refuses
    cases prompt.follows refuses with
    | inl nobody => exact .inl nobody
    | inr calm => exact .inr (calm _ present)
  cases op with
  | storeAppend threadId turnId event =>
    cases answer with
    | error source => exact refused
    | ok envelope =>
      obtain ⟨_, sequence, _⟩ := exec_stored exec rfl
      refine ⟨?_, fits⟩
      intro earlier member
      have known : earlier ∈ watched.world.events := by
        unfold Watched.view World.view at member
        cases held : own.held with
        | guard threadId' =>
          simp only [held] at member
          exact List.mem_of_mem_filter member
        | nothing =>
          simp only [held] at member
          cases member
        | fresh threadId' =>
          simp only [held] at member
          cases member
      have below := delivering.ordered.below earlier known
      omega
  | loadThread threadId =>
    cases answer with
    | error source => exact refused
    | ok events =>
      rw [exec_loaded exec]
      exact delivering.ordered.sorted.sublist List.filter_sublist
  | _ => exact fun refuses => refuses.elim

/-- Only who holds a thread, or starts it, comes to owe anything about it. -/
theorem Delivering.holds (delivering : Delivering rt start watched owned)
    (present : owned[index]? = some (call, own))
    (permitted : (observed rt call).permit (watched.view own) op)
    (exec : machine.exec watched.world own op answer watched'.world own')
    (owes : dueOf rt.observers threadId own'.history ≠ []) :
    own'.held = .guard threadId ∨ call.IsStart := by
  have kept : own.held = .guard threadId → dueAfter rt.observers own.history ≠ [] →
      own'.held = .guard threadId := by
    intro guard due
    cases exec_guard exec permitted.1.2 guard with
    | inl held => exact held
    | inr letGo =>
      obtain ⟨threadId', same⟩ := letGo
      subst same
      have told : dueAfter rt.observers own.history = [] := permitted.2
      exact absurd told due
  have before : dueOf rt.observers threadId own.history ≠ [] →
      own'.held = .guard threadId ∨ call.IsStart := by
    intro owed
    cases delivering.holder _ (List.mem_of_getElem? present) threadId owed with
    | inr starts => exact .inr starts
    | inl guard =>
      refine .inl (kept guard ?_)
      intro told
      exact owed (dueOf_of_told told)
  rw [exec_history exec, dueOf_snoc] at owes
  cases stores : Observation.envelope ⟨op, answer⟩ with
  | some envelope =>
    rw [owe_stored rt.observers stores, List.filter_append] at owes
    by_cases same : envelope.threadId = threadId
    · obtain ⟨_, _, turnId, event, asked⟩ := exec_stored exec stores
      subst asked
      subst same
      cases turnId with
      | none => exact .inr permitted.2
      | some turnId =>
        have guard : own.held = .guard envelope.threadId := permitted.1.2.1
        cases exec_guard exec permitted.1.2 guard with
        | inl held => exact .inl held
        | inr letGo =>
          obtain ⟨threadId', same⟩ := letGo
          cases same
    · rw [filter_notices] at owes
      have none : [envelope].filter (fun envelope => envelope.threadId = threadId) = [] := by
        simp [same]
      rw [none] at owes
      apply before
      simpa [notices, dueOf] using owes
  | none =>
    cases tells : Observation.notice ⟨op, answer⟩ with
    | none =>
      rw [owe_silent rt.observers tells stores] at owes
      exact before owes
    | some notice =>
      rw [owe_told rt.observers tells stores] at owes
      apply before
      intro empty
      apply owes
      rw [List.filter_eq_nil_iff]
      intro notice' member
      exact List.filter_eq_nil_iff.mp empty notice' (List.mem_of_mem_tail member)

/-- Nobody else owes anything about the thread in which a call stores an event. -/
theorem Delivering.others_told (delivering : Delivering rt start watched owned)
    (present : owned[index]? = some (call, own))
    (permitted : (observed rt call).permit (watched.view own) op)
    (prompt : Prompt rt owned index op answer)
    (exec : machine.exec watched.world own op answer watched'.world own')
    {envelope : EventEnvelope} (stores : Observation.envelope ⟨op, answer⟩ = some envelope)
    {other : Nat} {entry : Call × Own} (different : other ≠ index)
    (found : owned[other]? = some entry) :
    dueOf rt.observers envelope.threadId entry.2.history = [] := by
  by_contra owes
  cases delivering.holder entry (List.mem_of_getElem? found) envelope.threadId owes with
  | inr starts =>
    apply owes
    rw [dueOf, List.filter_eq_nil_iff]
    intro notice member same
    exact prompt.announced envelope stores other entry different found starts notice member
      (by simpa using same)
  | inl guard =>
    obtain ⟨notFresh, notGuard⟩ := delivering.ownership.apart present different found
      envelope.threadId (.inr guard)
    obtain ⟨_, _, turnId, event, asked⟩ := exec_stored exec stores
    subst asked
    cases turnId with
    | none => exact notFresh permitted.1.2.1
    | some turnId => exact notGuard permitted.1.2.1

/-- One step posts to the outbox of the call, announces from it, or leaves it. -/
theorem Delivering.balances (delivering : Delivering rt start watched owned)
    (present : owned[index]? = some (call, own))
    (permitted : (observed rt call).permit (watched.view own) op)
    (exec : watchedMachine.exec watched own op answer watched' own')
    (prompt : Prompt rt owned index op answer) (threadId : ThreadId) :
    Balanced (toldOf threadId watched'.trace)
      (notices rt.observers (appendedTo threadId watched'.trace))
      ((owned.set index (call, own')).map fun entry =>
        dueOf rt.observers threadId entry.2.history) := by
  obtain ⟨exec, traced⟩ := exec
  have balanced := delivering.balanced threadId
  have mine : (owned.map fun entry => dueOf rt.observers threadId entry.2.history)[index]? =
      some (dueOf rt.observers threadId own.history) := by
    simp [present]
  have kept : dueOf rt.observers threadId own'.history =
      dueOf rt.observers threadId own.history →
      (owned.map fun entry => dueOf rt.observers threadId entry.2.history).set index
        (dueOf rt.observers threadId own'.history) =
      owned.map fun entry => dueOf rt.observers threadId entry.2.history := by
    intro same
    rw [same]
    exact Interaction.set_same mine
  rw [List.map_set, traced, toldOf_snoc, appendedTo_snoc]
  have due := exec_history exec
  cases stores : Observation.envelope ⟨op, answer⟩ with
  | some envelope =>
    have silent : Observation.notice ⟨op, answer⟩ = none := by
      cases tells : Observation.notice ⟨op, answer⟩ with
      | none => rfl
      | some notice =>
        have nothing := envelope_of_notice tells
        rw [stores] at nothing
        cases nothing
    have posted : dueOf rt.observers threadId own'.history =
        dueOf rt.observers threadId own.history ++
          notices rt.observers ([envelope].filter fun envelope => envelope.threadId = threadId) := by
      rw [due, dueOf_snoc, owe_stored rt.observers stores, List.filter_append, filter_notices]
      rfl
    rw [silent, Option.toList_none, Option.toList_some, List.filter_nil, List.append_nil,
      notices_append]
    by_cases same : envelope.threadId = threadId
    · subst same
      rw [posted]
      apply balanced.post mine
      intro other outbox different found
      rw [List.getElem?_map, Option.map_eq_some_iff] at found
      obtain ⟨entry, found, rfl⟩ := found
      exact delivering.others_told present permitted prompt exec stores different found
    · have none : [envelope].filter (fun envelope => envelope.threadId = threadId) = [] := by
        simp [same]
      have nothing : notices rt.observers [] = [] := rfl
      rw [none, nothing, List.append_nil] at posted ⊢
      rw [kept posted]
      exact balanced
  | none =>
    rw [Option.toList_none, List.filter_nil, List.append_nil]
    cases tells : Observation.notice ⟨op, answer⟩ with
    | none =>
      have same : dueOf rt.observers threadId own'.history =
          dueOf rt.observers threadId own.history := by
        rw [due, dueOf_snoc, owe_silent rt.observers tells stores]
        rfl
      rw [kept same, Option.toList_none, List.filter_nil, List.append_nil]
      exact balanced
    | some notice =>
      obtain ⟨rest, owed⟩ : ∃ rest, dueAfter rt.observers own.history = notice :: rest := by
        cases op with
        | onEvent observer envelope =>
          cases tells
          exact permitted.2
        | _ => cases tells
      have told : dueOf rt.observers threadId own'.history =
          rest.filter fun notice => notice.2.threadId = threadId := by
        rw [due, dueOf_snoc, owe_told rt.observers tells stores, owed]
        rfl
      rw [dueOf, owed, List.filter_cons] at mine
      by_cases same : notice.2.threadId = threadId
      · rw [if_pos (by simpa using same)] at mine
        have announces := balanced.announce mine
        rw [told]
        simpa [same] using announces
      · rw [if_neg (by simpa using same)] at mine
        have unchanged : dueOf rt.observers threadId own'.history =
            dueOf rt.observers threadId own.history := by
          rw [told, dueOf, owed, List.filter_cons, if_neg (by simpa using same)]
        rw [kept unchanged]
        simpa [same] using balanced

/-- What a call tells was stored before. -/
theorem Delivering.tells_stored (delivering : Delivering rt start watched owned)
    (present : owned[index]? = some (call, own))
    (permitted : (observed rt call).permit (watched.view own) op) (notice : Notice)
    (tells : Observation.notice ⟨op, answer⟩ = some notice) :
    notice.2 ∈ storedIn watched.trace := by
  cases op with
  | onEvent observer envelope =>
    cases tells
    obtain ⟨rest, owed⟩ := permitted.2
    have owed : dueAfter rt.observers own.history = (observer, envelope) :: rest := owed
    apply delivering.due_stored present
    rw [owed]
    exact List.mem_cons_self
  | _ => cases tells

/-- A permitted step keeps all of it and leaves the views of the other calls. -/
theorem Delivering.act (delivering : Delivering rt start watched owned)
    (present : owned[index]? = some (call, own))
    (permitted : (observed rt call).permit (watched.view own) op)
    (exec : watchedMachine.exec watched own op answer watched' own')
    (fits : HasSequence op answer) (prompt : Prompt rt owned index op answer) :
    (observed rt call).step (watched.view own) op answer (watched'.view own') ∧
      Delivering rt start watched' (owned.set index (call, own')) ∧
      ∀ other entry, other ≠ index → owned[other]? = some entry →
        watched'.view entry.2 = watched.view entry.2 := by
  obtain ⟨performed, traced⟩ := exec
  have acts := acted delivering.ownership present permitted.1
    (⟨performed, False.elim⟩ : (runtimeMachine False).exec watched.world own op answer
      watched'.world own')
  obtain ⟨ownership, views⟩ := delivering.ownership.moved present acts.moved
  refine ⟨⟨acts.step, delivering.answered present performed fits prompt⟩, ?_, views⟩
  exact {
    ownership := ownership
    ordered := delivering.ordered.exec performed
    events := by
      rw [traced, storedIn, List.filterMap_append]
      cases stores : Observation.envelope ⟨op, answer⟩ with
      | none =>
        rw [(exec_unstored performed stores).1, delivering.events]
        simp [stores, storedIn]
      | some envelope =>
        rw [(exec_stored performed stores).1]
        show watched.world.events ++ [envelope] = _
        rw [delivering.events]
        simp [stores, storedIn]
    stored := by
      rw [traced]
      exact delivering.stored.snoc (delivering.tells_stored present permitted)
    holder := by
      intro entry member threadId owes
      cases (mem_set present entry).mp member with
      | inl mine =>
        subst mine
        exact delivering.holds present permitted performed owes
      | inr theirs =>
        obtain ⟨other, _, found⟩ := theirs
        exact delivering.holder entry (List.mem_of_getElem? found) threadId owes
    balanced := delivering.balances present permitted ⟨performed, traced⟩ prompt }

/-- A call is only dropped when it has told everything. -/
theorem Delivering.rests {condition : StepCondition}
    (resting : condition.selection.Rests (observed rt call)
      (fun (_ : Except RuntimeError Reply) state => Told rt state) own (watched.view own)) :
    dueAfter rt.observers own.history = [] := by
  cases resting with
  | inl waits =>
    obtain ⟨op, permitted, unstarted | awaited⟩ := waits
    · rw [unstarted]
      rfl
    · cases op with
      | completeControlled request control => exact permitted.2
      | requestApproval request => exact permitted.2
      | execute tool prepared context => exact permitted.2
      | _ => exact awaited.elim
  | inr done =>
    obtain ⟨_, told⟩ := done
    exact told

/-- Dropping a call changes neither the store nor what was told. -/
theorem Delivering.drop (delivering : Delivering rt start watched owned)
    (present : owned[index]? = some (call, own))
    (told : dueAfter rt.observers own.history = []) :
    Delivering rt start (watchedMachine.release watched own)
        (owned.set index (call, watchedMachine.abandon own)) ∧
      ∀ other entry, other ≠ index → owned[other]? = some entry →
        (watchedMachine.release watched own).view entry.2 = watched.view entry.2 := by
  have events : (watchedMachine.release watched own).world.events = watched.world.events :=
    release_events watched.world own
  have next : (watchedMachine.release watched own).world.nextSequence =
      watched.world.nextSequence := by
    show (machine.release watched.world own).nextSequence = _
    cases held : own.held <;> simp [machine, held]
  have moved : Moved watched.world owned call own
      ((runtimeMachine False).release watched.world own) ((runtimeMachine False).abandon own) :=
    moved_drop delivering.ownership present
  obtain ⟨ownership, views⟩ := delivering.ownership.moved present moved
  refine ⟨?_, views⟩
  exact {
    ownership := ownership
    ordered := by
      constructor
      · rw [events]
        exact delivering.ordered.sorted
      · rw [events, next]
        exact delivering.ordered.below
    events := by
      rw [events]
      exact delivering.events
    stored := delivering.stored
    holder := by
      intro entry member threadId owes
      cases (mem_set present entry).mp member with
      | inl mine =>
        subst mine
        exact absurd (dueOf_of_told told) owes
      | inr theirs =>
        obtain ⟨other, _, found⟩ := theirs
        exact delivering.holder entry (List.mem_of_getElem? found) threadId owes
    balanced := by
      intro threadId
      have same : (owned.map fun entry => dueOf rt.observers threadId entry.2.history).set index
          (dueOf rt.observers threadId own.history) =
          owned.map fun entry => dueOf rt.observers threadId entry.2.history :=
        Interaction.set_same (by simp [present])
      rw [List.map_set]
      have balanced := delivering.balanced threadId
      rw [← same] at balanced
      exact balanced }

end Delivering

end Nausicaa.Core
