import Nausicaa.Core.InTurn

/-! # What recovery appends

The maps that `recover_thread` folds out of a log, read as statements about the log
(`scanned`), and the events it appends as one list, its plan.  The plan of a log that
already has the first event of its plan is the rest of that plan (`plan_snoc`): that
is why recovery can be interrupted and run again. -/

namespace Nausicaa.Core

open Std (TreeMap TreeSet)

/-! ## The folded maps -/

/-- A call that a message, a preparation or the start of an execution speaks of. -/
def Mentioned (log : TurnLog) (turnId : TurnId) (callId : CallId) : Prop :=
  (∃ call, Accepted log turnId call ∧ call.id = callId) ∨
  (∃ prepared, Prepared log turnId prepared ∧ prepared.callId = callId) ∨
  (∃ prepared, Started log turnId prepared ∧ prepared.callId = callId)

/-- The turn was started and has not ended since. -/
def Unfinished (log : TurnLog) (turnId : TurnId) : Prop :=
  ∃ before after, log = before ++ (turnId, .turnStarted) :: after ∧ ¬ Ended after turnId

namespace RecoveryState

/-- The state after the events of a turn log. -/
def scanLog (log : TurnLog) : RecoveryState :=
  log.foldl (fun state entry => state.observe entry.1 entry.2) empty

theorem scan_eq (events : List EventEnvelope) : scan events = scanLog (turnLog events) := by
  have folded : ∀ state : RecoveryState, events.foldl step state =
      (turnLog events).foldl (fun state entry => state.observe entry.1 entry.2) state := by
    induction events with
    | nil => intro state; rfl
    | cons envelope events ih =>
      intro state
      rw [List.foldl_cons, ih]
      cases tagged : envelope.turnId <;> simp [turnLog, turnEntry, step, tagged]
  exact folded empty

theorem scanLog_snoc (log : TurnLog) (turnId : TurnId) (event : RuntimeEvent) :
    scanLog (log ++ [(turnId, event)]) = (scanLog log).observe turnId event := by
  simp [scanLog]

/-- The map holds, under turn and call id, values the log speaks of, one for every key
that the log speaks of. -/
structure Collects {α : Type} (map : TreeMap CallKey α) (speaks : TurnId → α → Prop)
    (callId : α → CallId) : Prop where
  found : ∀ (key : CallKey) value, map[key]? = some value → speaks key.1 value ∧ callId value = key.2
  keys : ∀ key : CallKey, key ∈ map ↔ ∃ value, speaks key.1 value ∧ callId value = key.2

namespace Collects

variable {α : Type} {map : TreeMap CallKey α} {speaks speaks' : TurnId → α → Prop}
variable {callId : α → CallId}

theorem empty : Collects (∅ : TreeMap CallKey α) (fun _ _ => False) callId where
  found key value found := by simp at found
  keys key := by simp

theorem congr (collects : Collects map speaks callId)
    (same : ∀ turnId value, speaks turnId value ↔ speaks' turnId value) : Collects map speaks' callId := by
  have equal : speaks = speaks' := funext fun turnId => funext fun value => propext (same turnId value)
  exact equal ▸ collects

theorem insert (collects : Collects map speaks callId) (turnId : TurnId) (value : α) :
    Collects (map.insert (turnId, callId value) value)
      (fun turnId' value' => speaks turnId' value' ∨ (turnId' = turnId ∧ value' = value)) callId where
  found key value' found := by
    rw [TreeMap.getElem?_insert] at found
    split at found
    next same =>
      cases found
      have same := Std.LawfulEqCmp.eq_of_compare same
      subst same
      exact ⟨.inr ⟨rfl, rfl⟩, rfl⟩
    next other =>
      obtain ⟨said, same⟩ := collects.found key value' found
      exact ⟨.inl said, same⟩
  keys key := by
    rw [TreeMap.mem_insert, collects.keys]
    constructor
    · intro either
      obtain same | ⟨value', said, same⟩ := either
      · have same := Std.LawfulEqCmp.eq_of_compare same
        subst same
        exact ⟨value, .inr ⟨rfl, rfl⟩, rfl⟩
      · exact ⟨value', .inl said, same⟩
    · intro ⟨value', either, same⟩
      obtain said | ⟨turn, rfl⟩ := either
      · exact .inr ⟨value', said, same⟩
      · have same : (turnId, callId value') = key := Prod.ext turn.symm same
        exact .inl (by simp [same])

theorem insertAll (collects : Collects map speaks callId) (turnId : TurnId) (values : List α) :
    Collects (values.foldl (fun map value => map.insert (turnId, callId value) value) map)
      (fun turnId' value' => speaks turnId' value' ∨ (turnId' = turnId ∧ value' ∈ values)) callId := by
  induction values generalizing map speaks with
  | nil => exact collects.congr (by simp)
  | cons value values ih =>
    refine (ih (collects.insert turnId value)).congr ?_
    intro turnId' value'
    simp only [List.mem_cons, or_assoc, and_or_left]

end Collects

/-- What the folded maps and sets say about the log. -/
structure Scanned (log : TurnLog) (state : RecoveryState) : Prop where
  openTurns : ∀ turnId, turnId ∈ state.openTurns ↔ Unfinished log turnId
  calls : Collects state.calls (Accepted log) ToolCall.id
  prepared : Collects state.prepared (Prepared log) PreparedToolCall.callId
  started : Collects state.started (Started log) PreparedToolCall.callId
  completed : ∀ key : CallKey, key ∈ state.completed ↔ Receipted log key.1 key.2

section Scanning

variable {log : TurnLog} {turnId turnId' : TurnId} {event : RuntimeEvent}

theorem unfinished_snoc : Unfinished (log ++ [(turnId, event)]) turnId' ↔
    (turnId' = turnId ∧ event = .turnStarted) ∨
      (Unfinished log turnId' ∧ ¬ (turnId' = turnId ∧ event.IsTerminal)) := by
  constructor
  · intro ⟨before, after, split, notEnded⟩
    cases List.eq_nil_or_concat after with
    | inl nothing =>
      subst nothing
      obtain ⟨_, same⟩ := List.append_inj' split rfl
      cases same
      exact .inl ⟨rfl, rfl⟩
    | inr more =>
      obtain ⟨after, entry, rfl⟩ := more
      have ends : log ++ [(turnId, event)] =
          (before ++ (turnId', .turnStarted) :: after) ++ [entry] := by simpa using split
      obtain ⟨rfl, same⟩ := List.append_inj' ends rfl
      cases same
      rw [List.concat_eq_append, ended_snoc, not_or] at notEnded
      exact .inr ⟨⟨before, after, rfl, notEnded.1⟩, notEnded.2⟩
  · intro either
    cases either with
    | inl starts =>
      obtain ⟨rfl, rfl⟩ := starts
      exact ⟨log, [], rfl, by simp [Ended]⟩
    | inr goes =>
      obtain ⟨⟨before, after, rfl, notEnded⟩, continues⟩ := goes
      refine ⟨before, after ++ [(turnId, event)], by simp, ?_⟩
      rw [ended_snoc, not_or]
      exact ⟨notEnded, continues⟩

/-- One event keeps the maps in step with the log. -/
theorem Scanned.observe {state : RecoveryState} (scanned : Scanned log state) :
    Scanned (log ++ [(turnId, event)]) (state.observe turnId event) where
  openTurns turnId' := by
    rw [unfinished_snoc, @eq_comm _ turnId' turnId]
    cases event <;>
      simp [RecoveryState.observe, scanned.openTurns, RuntimeEvent.IsTerminal, TreeSet.mem_insert,
        TreeSet.mem_erase, and_comm]
  calls := by
    cases event with
    | assistantMessage content toolCalls stopReason usage =>
      refine (scanned.calls.insertAll turnId toolCalls).congr ?_
      intro turnId' call
      rw [accepted_snoc]
      rfl
    | _ => exact scanned.calls.congr (by simp [accepted_snoc, RuntimeEvent.acceptedCalls])
  prepared := by
    cases event with
    | toolPrepared action =>
      exact (scanned.prepared.insert turnId action).congr
        (by simp [prepared_snoc, @eq_comm _ action])
    | _ => exact scanned.prepared.congr (by simp [prepared_snoc])
  started := by
    cases event with
    | toolExecutionStarted action =>
      exact (scanned.started.insert turnId action).congr
        (by simp [started_snoc, @eq_comm _ action])
    | _ => exact scanned.started.congr (by simp [started_snoc])
  completed key := by
    rw [receipted_snoc]
    cases event with
    | toolReceiptRecorded receipt =>
      simp only [RecoveryState.observe, TreeSet.mem_insert, scanned.completed,
        RuntimeEvent.toolReceiptRecorded.injEq, exists_eq_left', Std.compare_eq_iff_eq, or_comm]
      rw [@eq_comm _ (turnId, receipt.callId) key, Prod.ext_iff, @eq_comm _ receipt.callId]
    | _ => simp [RecoveryState.observe, scanned.completed]

/-- The maps of `recover_thread` are what the log speaks. -/
theorem scanned (log : TurnLog) : Scanned log (scanLog log) := by
  induction log using List.reverseRecOn with
  | nil =>
    exact {
      openTurns := by simp [scanLog, empty, Unfinished]
      calls := Collects.empty.congr (by simp [Accepted])
      prepared := Collects.empty.congr (by simp [Prepared])
      started := Collects.empty.congr (by simp [Started])
      completed := by simp [scanLog, empty, Receipted] }
  | append_singleton log entry ih =>
    rw [scanLog_snoc]
    exact ih.observe

end Scanning

/-! ## The plan -/

/-- The receipt that one key is given, with its turn. -/
def receiptFor (state : RecoveryState) (key : CallKey) : Option (TurnId × ToolReceipt) :=
  if state.completed.contains key then none
  else (state.closingReceipt key).map fun receipt => (key.1, receipt)

def receipts (state : RecoveryState) : List (TurnId × ToolReceipt) :=
  state.keys.toList.filterMap state.receiptFor

/-- The events that `recover_thread` appends, in order. -/
def plan (state : RecoveryState) : TurnLog :=
  (state.receipts.map fun entry => (entry.1, .toolReceiptRecorded entry.2)) ++
    state.openTurns.toList.map fun turnId => (turnId, .turnFailed interruptedTurn)

def report (state : RecoveryState) : RecoveryReport :=
  ⟨state.receipts.map Prod.snd, state.openTurns.toList⟩

section Plan

variable {log : TurnLog} {state : RecoveryState} {key : CallKey} {receipt : ToolReceipt}
variable {turnId : TurnId}

theorem mem_keys : key ∈ state.keys ↔
    key ∈ state.calls ∨ key ∈ state.prepared ∨ key ∈ state.started := by
  simp [keys, TreeMap.mem_keys, or_assoc]

theorem keys_nodup (state : RecoveryState) : state.keys.toList.Nodup := by
  refine List.Pairwise.imp ?_ state.keys.distinct_toList
  intro first second distinct same
  exact distinct (by simp [same])

theorem openTurns_nodup (state : RecoveryState) : state.openTurns.toList.Nodup := by
  refine List.Pairwise.imp ?_ state.openTurns.distinct_toList
  intro first second distinct same
  exact distinct (by simp [same])

theorem Scanned.mem_keys (scanned : Scanned log state) :
    key ∈ state.keys ↔ Mentioned log key.1 key.2 := by
  rw [RecoveryState.mem_keys, scanned.calls.keys, scanned.prepared.keys, scanned.started.keys]
  exact Iff.rfl

/-- A closing receipt is for its key, unknown if the call was started and failed if it
was only prepared or accepted. -/
theorem Scanned.closingReceipt (scanned : Scanned log state)
    (closes : state.closingReceipt key = some receipt) : receipt.callId = key.2 ∧
      ((∃ action, Started log key.1 action ∧ action.callId = key.2 ∧
          receipt.toolName = action.action.toolName ∧ receipt.action = some action.action ∧
          receipt.status = .unknown) ∨
        ((∀ action, Started log key.1 action → action.callId ≠ key.2) ∧ receipt.status = .failed ∧
          ((∃ action, Prepared log key.1 action ∧ action.callId = key.2 ∧
              receipt.toolName = action.action.toolName) ∨
            ∃ call, Accepted log key.1 call ∧ call.id = key.2 ∧ receipt.toolName = call.name))) := by
  unfold RecoveryState.closingReceipt at closes
  split at closes
  next action started =>
    cases closes
    obtain ⟨starts, same⟩ := scanned.started.found key action started
    exact ⟨same, .inl ⟨action, starts, same, rfl, rfl, rfl⟩⟩
  next absent =>
    have unstarted : ∀ action, Started log key.1 action → action.callId ≠ key.2 := by
      intro action starts same
      have present := (scanned.started.keys key).mpr ⟨action, starts, same⟩
      rw [TreeMap.mem_iff_isSome_getElem?, absent] at present
      cases present
    split at closes
    next action prepared =>
      cases closes
      obtain ⟨prepares, same⟩ := scanned.prepared.found key action prepared
      exact ⟨same, .inr ⟨unstarted, rfl, .inl ⟨action, prepares, same, rfl⟩⟩⟩
    next unprepared =>
      split at closes
      next call accepted =>
        cases closes
        obtain ⟨accepts, same⟩ := scanned.calls.found key call accepted
        exact ⟨same, .inr ⟨unstarted, rfl, .inr ⟨call, accepts, same, rfl⟩⟩⟩
      next => cases closes

/-- Every key of the maps is given a receipt. -/
theorem closingReceipt_isSome (member : key ∈ state.keys) :
    ∃ receipt, state.closingReceipt key = some receipt := by
  have known := mem_keys.mp member
  simp only [TreeMap.mem_iff_isSome_getElem?, Option.isSome_iff_exists] at known
  unfold RecoveryState.closingReceipt
  split
  · exact ⟨_, rfl⟩
  next unstarted =>
    split
    · exact ⟨_, rfl⟩
    next unprepared =>
      split
      · exact ⟨_, rfl⟩
      next unknown => simp [unstarted, unprepared, unknown] at known

theorem Scanned.receiptFor (scanned : Scanned log state) {entry : TurnId × ToolReceipt}
    (given : state.receiptFor key = some entry) : key = (entry.1, entry.2.callId) ∧
      ¬ Receipted log entry.1 entry.2.callId ∧ state.closingReceipt key = some entry.2 := by
  unfold RecoveryState.receiptFor at given
  split at given
  · cases given
  next uncompleted =>
    obtain ⟨receipt, closes, rfl⟩ := Option.map_eq_some_iff.mp given
    have same := (scanned.closingReceipt closes).1
    refine ⟨by rw [same], ?_, closes⟩
    intro receipted
    rw [same] at receipted
    exact uncompleted ((scanned.completed key).mpr receipted)

theorem Scanned.mem_receipts (scanned : Scanned log state) {entry : TurnId × ToolReceipt}
    (member : entry ∈ state.receipts) : Mentioned log entry.1 entry.2.callId ∧
      ¬ Receipted log entry.1 entry.2.callId ∧
      state.closingReceipt (entry.1, entry.2.callId) = some entry.2 := by
  obtain ⟨key, known, given⟩ := List.mem_filterMap.mp member
  obtain ⟨rfl, open_, closes⟩ := scanned.receiptFor given
  exact ⟨scanned.mem_keys.mp (TreeSet.mem_toList.mp known), open_, closes⟩

/-- The calls that recovery closes are exactly those without a receipt. -/
theorem Scanned.receipts_iff (scanned : Scanned log state) {callId : CallId} :
    (∃ receipt, (turnId, receipt) ∈ state.receipts ∧ receipt.callId = callId) ↔
      Mentioned log turnId callId ∧ ¬ Receipted log turnId callId := by
  constructor
  · intro ⟨receipt, member, same⟩
    obtain ⟨mentioned, open_, _⟩ := scanned.mem_receipts member
    exact same ▸ ⟨mentioned, open_⟩
  · intro ⟨mentioned, open_⟩
    have known : (turnId, callId) ∈ state.keys := scanned.mem_keys.mpr mentioned
    obtain ⟨receipt, closes⟩ := closingReceipt_isSome known
    have uncompleted : state.completed.contains (turnId, callId) = false := by
      rw [← Bool.not_eq_true, TreeSet.contains_iff_mem, scanned.completed]
      exact open_
    refine ⟨receipt, List.mem_filterMap.mpr ⟨_, TreeSet.mem_toList.mpr known, ?_⟩,
      (scanned.closingReceipt closes).1⟩
    simp [RecoveryState.receiptFor, uncompleted, closes]

/-- No call is given two receipts. -/
theorem Scanned.receipts_nodup (scanned : Scanned log state) :
    (state.receipts.map fun entry => (entry.1, entry.2.callId)).Nodup := by
  have given : ∀ keys : List CallKey, keys.Nodup →
      ((keys.filterMap state.receiptFor).map fun entry => (entry.1, entry.2.callId)).Nodup := by
    intro keys distinct
    induction keys with
    | nil => simp
    | cons key keys ih =>
      obtain ⟨absent, distinct⟩ := List.nodup_cons.mp distinct
      cases found : state.receiptFor key with
      | none => simpa [found] using ih distinct
      | some entry =>
        rw [List.filterMap_cons_some found, List.map_cons, List.nodup_cons]
        refine ⟨?_, ih distinct⟩
        intro repeated
        obtain ⟨entry', member, same⟩ := List.mem_map.mp repeated
        obtain ⟨key', known, given'⟩ := List.mem_filterMap.mp member
        have here := (scanned.receiptFor found).1
        have there := (scanned.receiptFor given').1
        exact absent (by rw [here, ← same, ← there]; exact known)
  exact given _ state.keys_nodup

theorem eq_of_ordered {first second : List TurnId}
    (ordered : first.Pairwise fun a b => compare a b = .lt)
    (ordered' : second.Pairwise fun a b => compare a b = .lt)
    (same : ∀ turnId, turnId ∈ first ↔ turnId ∈ second) : first = second := by
  have distinct : ∀ turns : List TurnId, (turns.Pairwise fun a b => compare a b = .lt) →
      turns.Nodup := by
    intro turns ordered
    refine List.Pairwise.imp ?_ ordered
    intro a b before same
    simp [same] at before
  refine List.Perm.eq_of_pairwise ?_ ordered ordered'
    ((List.perm_ext_iff_of_nodup (distinct _ ordered) (distinct _ ordered')).mpr same)
  intro a b _ _ before after
  have opposite := Std.OrientedCmp.gt_of_lt before
  rw [after] at opposite
  cases opposite

/-- Once the first event of the plan is in the log, the rest is the plan. -/
theorem plan_snoc {entry : TurnEntry} {rest : TurnLog} (planned : (scanLog log).plan = entry :: rest) :
    (scanLog (log ++ [entry])).plan = rest := by
  obtain ⟨turnId, event⟩ := entry
  rw [scanLog_snoc]
  have scanned := scanned log
  generalize scanLog log = state at planned scanned
  cases given : state.receipts with
  | cons first more =>
    obtain ⟨turn, receipt⟩ := first
    simp only [plan, given, List.map_cons, List.cons_append, List.cons.injEq, Prod.mk.injEq]
      at planned
    obtain ⟨⟨rfl, rfl⟩, rfl⟩ := planned
    obtain ⟨before, key, after, keys, skipped, found, later⟩ := List.filterMap_eq_cons_iff.mp given
    have isKey := (scanned.receiptFor found).1
    have distinct := keys ▸ state.keys_nodup
    -- Only this key is completed by the event, and it comes once.
    have elsewhere : ∀ key', key' ≠ key →
        (state.observe turn (.toolReceiptRecorded receipt)).receiptFor key' =
          state.receiptFor key' := by
      intro key' other
      have other : compare key key' ≠ .eq := by simpa using Ne.symm other
      simp only [receiptFor, RecoveryState.observe, TreeSet.contains_insert]
      rw [← show key = (turn, receipt.callId) from isKey, beq_false_of_ne other, Bool.false_or]
      rfl
    have here : (state.observe turn (.toolReceiptRecorded receipt)).receiptFor key = none := by
      simp [receiptFor, RecoveryState.observe, TreeSet.contains_insert, isKey]
    have receipts : (state.observe turn (.toolReceiptRecorded receipt)).receipts = more := by
      show (state.keys.toList).filterMap _ = more
      rw [keys, List.filterMap_append, List.filterMap_cons_none here, ← later]
      have apart := List.nodup_append.mp distinct
      have unskipped : before.filterMap
          (state.observe turn (.toolReceiptRecorded receipt)).receiptFor = [] := by
        rw [List.filterMap_eq_nil_iff]
        intro key' member
        have other : key' ≠ key := apart.2.2 key' member key List.mem_cons_self
        rw [elsewhere key' other]
        exact skipped key' member
      rw [unskipped, List.nil_append]
      refine List.filterMap_congr ?_
      intro key' member
      refine elsewhere key' ?_
      intro same
      exact (List.nodup_cons.mp apart.2.1).1 (same ▸ member)
    simp only [plan, receipts]
    rfl
  | nil =>
    cases turns : state.openTurns.toList with
    | nil => simp [plan, given, turns] at planned
    | cons turn more =>
      simp only [plan, given, turns, List.map_nil, List.nil_append, List.map_cons,
        List.cons.injEq, Prod.mk.injEq] at planned
      obtain ⟨⟨rfl, rfl⟩, rfl⟩ := planned
      have receipts : (state.observe turn (.turnFailed interruptedTurn)).receipts = [] := given
      have ordered := state.openTurns.ordered_toList
      rw [turns] at ordered
      have erased : (state.openTurns.erase turn).toList = more := by
        refine eq_of_ordered TreeSet.ordered_toList (List.pairwise_cons.mp ordered).2 ?_
        intro turnId
        rw [TreeSet.mem_toList, TreeSet.mem_erase, ← TreeSet.mem_toList, turns]
        constructor
        · intro ⟨other, member⟩
          cases List.mem_cons.mp member with
          | inl same => exact absurd (by simp [same]) other
          | inr later => exact later
        · intro later
          have before := (List.pairwise_cons.mp ordered).1 turnId later
          exact ⟨by simp [before], List.mem_cons_of_mem _ later⟩
      simp only [plan, receipts, List.map_nil, List.nil_append]
      exact congrArg _ erased

/-- After any part of the plan the remaining part is the plan. -/
theorem plan_append {done rest : TurnLog} (planned : (scanLog log).plan = done ++ rest) :
    (scanLog (log ++ done)).plan = rest := by
  induction done generalizing log with
  | nil => simpa using planned
  | cons entry done ih =>
    have continued := ih (plan_snoc planned)
    rwa [List.append_assoc, List.singleton_append] at continued

/-- Without receipts to give, every call has one. -/
theorem settled_of_receipts_nil (given : (scanLog log).receipts = []) :
    Settled log ∧ Idle log := by
  have closed : ∀ turnId callId, Mentioned log turnId callId → Receipted log turnId callId := by
    intro turnId callId mentioned
    by_contra open_
    obtain ⟨receipt, member, _⟩ := (scanned log).receipts_iff.mpr ⟨mentioned, open_⟩
    rw [given] at member
    cases member
  refine ⟨?_, ?_⟩
  · intro turnId call accepted
    exact closed turnId call.id (.inl ⟨call, accepted, rfl⟩)
  · intro turnId prepared started
    exact closed turnId prepared.callId (.inr (.inr ⟨prepared, started, rfl⟩))

/-- In a conforming log every turn has its start. -/
theorem turnStarted_mem (conforms : Conforms log) (occurs : Occurs log turnId) :
    (turnId, .turnStarted) ∈ log := by
  induction conforms using Interaction.Built.snoc_induction with
  | empty => simp [Occurs] at occurs
  | step before entry built allowed ih =>
    obtain ⟨turnId', event⟩ := entry
    refine List.mem_append.mpr ?_
    cases occurs_snoc.mp occurs with
    | inl earlier => exact .inl (ih earlier)
    | inr same =>
      subst same
      cases allowed_cases allowed with
      | inl starts => exact .inr (by simp [starts.1])
      | inr continues => exact .inl (ih continues.2.1.occurs)

/-- A conforming log's unfinished turns are those without a terminal event. -/
theorem unfinished_iff (conforms : Conforms log) :
    Unfinished log turnId ↔ Occurs log turnId ∧ ¬ Ended log turnId := by
  constructor
  · intro ⟨before, after, split, notEnded⟩
    refine ⟨⟨.turnStarted, by simp [split]⟩, ?_⟩
    intro ⟨event, member, terminal⟩
    have first := (turnStarted_first conforms split).mp rfl
    rw [split, List.mem_append, List.mem_cons] at member
    obtain earlier | here | later := member
    · exact first ⟨event, earlier⟩
    · cases here
      exact terminal
    · exact notEnded ⟨event, later, terminal⟩
  · intro ⟨occurs, notEnded⟩
    obtain ⟨before, after, split⟩ := List.append_of_mem (turnStarted_mem conforms occurs)
    refine ⟨before, after, split, ?_⟩
    intro ⟨event, member, terminal⟩
    exact notEnded ⟨event, by simp [split, member], terminal⟩

/-- Recovery is done when its plan is empty. -/
theorem recovered_of_plan_nil (planned : (scanLog log).plan = []) : Recovered log := by
  obtain ⟨receipts, turns⟩ := List.append_eq_nil_iff.mp planned
  obtain ⟨settled, idle⟩ := settled_of_receipts_nil (List.map_eq_nil_iff.mp receipts)
  refine ⟨settled, idle, ?_⟩
  intro conforms turnId occurs
  by_contra notEnded
  have unfinished := (unfinished_iff conforms).mpr ⟨occurs, notEnded⟩
  have member := TreeSet.mem_toList.mpr (((scanned log).openTurns turnId).mpr unfinished)
  rw [List.map_eq_nil_iff.mp turns] at member
  cases member

/-- Recovery only adds to turns that occur. -/
theorem occurs_of_plan {entry : TurnEntry} (member : entry ∈ (scanLog log).plan) :
    Occurs log entry.1 := by
  cases List.mem_append.mp member with
  | inl receipts =>
    obtain ⟨⟨turnId, receipt⟩, given, rfl⟩ := List.mem_map.mp receipts
    obtain ⟨mentioned, _, _⟩ := (scanned log).mem_receipts given
    obtain ⟨_, ⟨event, logged, _⟩, _⟩ | ⟨_, logged, _⟩ | ⟨_, logged, _⟩ := mentioned
    · exact ⟨event, logged⟩
    · exact ⟨_, logged⟩
    · exact ⟨_, logged⟩
  | inr turns =>
    obtain ⟨turnId, open_, rfl⟩ := List.mem_map.mp turns
    obtain ⟨before, after, rfl, _⟩ := ((scanned log).openTurns turnId).mp (TreeSet.mem_toList.mp open_)
    exact ⟨.turnStarted, by simp⟩

/-- Every event of the plan is allowed where it is appended, and a turn is only ended
once every call has its receipt. -/
theorem allowed_of_plan {event : RuntimeEvent} {rest : TurnLog}
    (planned : (scanLog log).plan = (turnId, event) :: rest) :
    (Conforms log → Allowed log (turnId, event)) ∧ (event.IsTerminal → Settled log) := by
  have scanned := scanned log
  cases given : (scanLog log).receipts with
  | cons first more =>
    obtain ⟨turn, receipt⟩ := first
    simp only [plan, given, List.map_cons, List.cons_append, List.cons.injEq, Prod.mk.injEq]
      at planned
    obtain ⟨⟨rfl, rfl⟩, _⟩ := planned
    refine ⟨?_, fun terminal => terminal.elim⟩
    intro conforms
    have member : (turn, receipt) ∈ (scanLog log).receipts := by simp [given]
    obtain ⟨_, open_, closes⟩ : _ ∧ ¬ Receipted log turn receipt.callId ∧
      (scanLog log).closingReceipt (turn, receipt.callId) = some receipt :=
        scanned.mem_receipts member
    have awaits : ∀ call, Accepted log turn call → call.id = receipt.callId →
        call.name = receipt.toolName → Truthful log turn receipt →
        Allowed log (turn, .toolReceiptRecorded receipt) := by
      intro call accepted same named truthful
      exact ⟨current_of_unreceipted conforms accepted (same ▸ open_),
        ⟨⟨call, accepted, same, named⟩, open_⟩, truthful⟩
    obtain ⟨_, started | ⟨_, failed, from_⟩⟩ := scanned.closingReceipt closes
    · obtain ⟨action, starts, sameId, named, performed, unknown⟩ := started
      obtain ⟨call, accepted, same, sameName⟩ := accepted_of_prepared conforms (.inr starts)
      refine awaits call accepted (same.trans sameId) (sameName.trans named.symm) ⟨?_, ?_⟩
      · intro denied
        simp [unknown] at denied
      · exact fun _ => ⟨action, starts, sameId, performed⟩
    · have truthful : Truthful log turn receipt := by
        refine ⟨?_, ?_⟩ <;> intro status <;> simp [failed] at status
      obtain ⟨action, prepares, sameId, named⟩ | ⟨call, accepted, sameId, named⟩ := from_
      · obtain ⟨call, accepted, same, sameName⟩ := accepted_of_prepared conforms (.inl prepares)
        exact awaits call accepted (same.trans sameId) (sameName.trans named.symm) truthful
      · exact awaits call accepted sameId named.symm truthful
  | nil =>
    obtain ⟨settled, _⟩ := settled_of_receipts_nil given
    refine ⟨?_, fun _ => settled⟩
    intro conforms
    have member : (turnId, event) ∈ (scanLog log).plan := by simp [planned]
    simp only [plan, given, List.map_nil, List.nil_append] at member
    obtain ⟨turn, open_, same⟩ := List.mem_map.mp member
    cases same
    obtain ⟨occurs, notEnded⟩ := (unfinished_iff conforms).mp
      ((scanned.openTurns turnId).mp (TreeSet.mem_toList.mp open_))
    exact ⟨current_of_not_ended conforms occurs notEnded, notEnded⟩

end Plan

end RecoveryState

end Nausicaa.Core
