import Nausicaa.Memory.Serde
import Nausicaa.Memory.Snapshot
import Nausicaa.Sorting.Best

/-! # Recall

What is recalled from a memory store.  A store on disk, opened again whenever one likes, answers as
the store in memory, and both recall the records that match best (`recalls_best`). -/

namespace Nausicaa.Memory

open Sorting (Best best_take)
open Std (ExtTreeMap TransCmp TreeMap)
open TaskLedger (newline)

/-! ## The order of records -/

/-- The order that records are sorted by. -/
abbrev byRank : Nat × MemoryRecord → Nat × MemoryRecord → Ordering :=
  compareLex (fun left right => compareOn Prod.fst right left)
    (compareLex (fun left right => compareOn (fun entry => entry.2.updatedAtUnixMs) right left)
      (compareOn fun entry => entry.2.id))

theorem ranksBefore_eq (left right : Nat × MemoryRecord) :
    ranksBefore left right = (byRank left right).isLE := by
  show (byRank left right != .gt) = _
  cases byRank left right <;> rfl

theorem ranksBefore_trans {first second third : Nat × MemoryRecord}
    (before : ranksBefore first second = true) (after : ranksBefore second third = true) :
    ranksBefore first third = true := by
  rw [ranksBefore_eq] at before after ⊢
  exact TransCmp.isLE_trans before after

theorem ranksBefore_total (left right : Nat × MemoryRecord) :
    (ranksBefore left right || ranksBefore right left) = true := by
  have swapped : byRank left right = (byRank right left).swap := Std.OrientedCmp.eq_swap
  rw [ranksBefore_eq, ranksBefore_eq, swapped]
  cases byRank right left <;> rfl

/-- The last tie is broken by the ids, so that no two records share a rank. -/
theorem ranksBefore_antisymm {left right : Nat × MemoryRecord}
    (before : ranksBefore left right = true) (after : ranksBefore right left = true) :
    left.2.id = right.2.id := by
  have swapped : byRank left right = (byRank right left).swap := Std.OrientedCmp.eq_swap
  have equal : byRank left right = .eq := by
    rw [ranksBefore_eq] at before after
    rw [swapped] at before ⊢
    cases seen : byRank right left with
    | eq => rfl
    | lt | gt => simp_all
  simp only [byRank, compareLex, Ordering.then_eq_eq] at equal
  exact Std.LawfulEqOrd.compare_eq_iff_eq.mp equal.2.2

section Ranking

variable (unicode : Unicode) (query : String)

/-- Whether a record is recalled at all, where there is room. -/
def matchesQuery (record : MemoryRecord) : Bool :=
  score unicode query record > 0 || (tokens unicode query).isEmpty

def outranks (left right : MemoryRecord) : Bool :=
  ranksBefore (score unicode query left, left) (score unicode query right, right)

theorem filter_scored (records : List MemoryRecord) :
    (records.map fun record => (score unicode query record, record)).filter
      (fun entry => entry.1 > 0 || (tokens unicode query).isEmpty) =
        (records.filter (matchesQuery unicode query)).map fun record =>
          (score unicode query record, record) := by
  rw [List.filter_map, List.filter_congr (q := matchesQuery unicode query)]
  intro record _
  simp only [Function.comp_apply, matchesQuery]

theorem sort_scored (records : List MemoryRecord) :
    (records.map fun record => (score unicode query record, record)).mergeSort ranksBefore =
      (records.mergeSort (outranks unicode query)).map fun record =>
        (score unicode query record, record) := by
  rw [List.map_mergeSort (s := ranksBefore)]
  intro left _ right _
  rw [outranks]

theorem rank_eq (limit : Nat) (records : List MemoryRecord) :
    rank unicode query limit records =
      ((records.filter (matchesQuery unicode query)).mergeSort (outranks unicode query)).take
        limit := by
  have second (entries : List MemoryRecord) :
      (entries.map fun record => (score unicode query record, record)).map Prod.snd = entries := by
    rw [List.map_map]
    exact List.map_id entries
  -- The scores that the source sorts with are functions of the records.
  simp only [rank]
  rw [filter_scored, sort_scored, List.map_take, second]

theorem rank_best {records : List MemoryRecord} (distinct : (records.map MemoryRecord.id).Nodup)
    (limit : Nat) :
    Best (outranks unicode query) limit (records.filter (matchesQuery unicode query))
      (rank unicode query limit records) := by
  rw [rank_eq]
  apply best_take
  · exact fun _ _ _ => ranksBefore_trans
  · exact fun _ _ => ranksBefore_total _ _
  · intro left member right member' before after
    exact List.inj_on_of_nodup_map distinct (List.mem_of_mem_filter member)
      (List.mem_of_mem_filter member') (ranksBefore_antisymm before after)
  · exact distinct.of_map.filter _

end Ranking

/-! ## The store on disk -/

/-- `JsonlMemoryStore`, with what it reads from the clock, where no write fails. -/
def jsonlMemoryStore (codec : Codec) (now atUnixMs : Nat) : MemoryStore JsonlState where
  upsert record state :=
    (.ok (), state.append codec (.upsert { record with updatedAtUnixMs := now }) atUnixMs)
  forget id state :=
    if state.records.contains id then (.ok true, state.append codec (.forget id) atUnixMs)
    else (.ok false, state)
  list state := .ok state.records.values

inductive Action where
  | upsert (record : MemoryRecord) (now atUnixMs : Nat)
  | forget (id : String) (atUnixMs : Nat)
  | reopen

/-- An action on the file, with what `forget` answers. -/
def Action.onDisk (codec : Codec) (state : JsonlState) :
    Action → Except MemoryError (Option Bool × JsonlState)
  | .upsert record now atUnixMs =>
    .ok (none, ((jsonlMemoryStore codec now atUnixMs).upsert record state).2)
  -- An id that is not there writes no event.
  | .forget id atUnixMs =>
    let (existed, state) := (jsonlMemoryStore codec 0 atUnixMs).forget id state
    existed.map fun existed => (some existed, state)
  | .reopen => (openFile codec state.file).map fun state => (none, state)

/-- The same in memory, with the record as it is stamped. -/
def Action.inMemory (stored : InMemoryState) : Action → Option Bool × InMemoryState
  | .upsert record now _ =>
    (none, (inMemoryStore.upsert { record with updatedAtUnixMs := now } stored).2)
  | .forget id _ => ((inMemoryStore.forget id stored).1.toOption, (inMemoryStore.forget id stored).2)
  | .reopen => (none, stored)

def playOnDisk (codec : Codec) :
    JsonlState → List Action → Except MemoryError (List (Option Bool) × JsonlState)
  | state, [] => .ok ([], state)
  | state, action :: actions => do
    let (answer, state) ← action.onDisk codec state
    let (answers, state) ← playOnDisk codec state actions
    return (answer :: answers, state)

def playInMemory : InMemoryState → List Action → List (Option Bool) × InMemoryState
  | stored, [] => ([], stored)
  | stored, action :: actions =>
    let (answer, stored) := action.inMemory stored
    let (answers, stored) := playInMemory stored actions
    (answer :: answers, stored)

/-! ## Both stores agree -/

section Values

variable {β : Type}

theorem values_toList (map : TreeMap String β) : map.values = map.toList.map Prod.snd := by
  show map.inner.inner.values = (Std.DTreeMap.Internal.Impl.Const.toList map.inner.inner).map Prod.snd
  rw [Std.DTreeMap.Internal.Impl.values_eq_map_snd,
    Std.DTreeMap.Internal.Impl.Const.toList_eq_toListModel_map, List.map_map]
  rfl

theorem extValues_toList (map : ExtTreeMap String β) : map.values = map.toList.map Prod.snd := by
  obtain ⟨⟨quotient⟩⟩ := map
  induction quotient using Quotient.ind with
  | _ tree => exact values_toList ⟨tree⟩

theorem ordered_nodup {entries : List (String × β)}
    (ordered : entries.Pairwise fun entry entry' => compare entry.1 entry'.1 = .lt) :
    entries.Nodup := by
  apply ordered.imp
  rintro entry _ below rfl
  have same : compare entry.1 entry.1 = .eq := Std.ReflCmp.compare_self
  rw [below] at same
  cases same

theorem values_eq {map : ExtTreeMap String β} {map' : TreeMap String β}
    (same : ∀ key : String, map[key]? = map'[key]?) : map.values = map'.values := by
  rw [values_toList, extValues_toList]
  congr 1
  have ordered := map.ordered_keys_toList
  have ordered' := map'.ordered_keys_toList
  have perm : map.toList.Perm map'.toList := by
    rw [List.perm_ext_iff_of_nodup (ordered_nodup ordered) (ordered_nodup ordered')]
    rintro ⟨key, value⟩
    rw [ExtTreeMap.mem_toList_iff_getElem?_eq_some, TreeMap.mem_toList_iff_getElem?_eq_some, same]
  -- Both lists are in the order of the keys, which leaves one arrangement of the entries.
  refine List.Perm.eq_of_pairwise ?_ ordered ordered' perm
  intro entry entry' _ _ below above
  have swapped : compare entry.1 entry'.1 = (compare entry'.1 entry.1).swap :=
    Std.OrientedCmp.eq_swap
  rw [below, above] at swapped
  cases swapped

end Values

/-- The file gives the records, and the store in memory has the same ones, each under its id. -/
structure Agrees (codec : Codec) (state : JsonlState) (stored : InMemoryState) : Prop where
  opened : openFile codec state.file = .ok state
  ended : Jsonl.Ended newline state.file
  same : ∀ id : String, state.records[id]? = stored[id]?
  keyed : ∀ (id : String) record, stored[id]? = some record → record.id = id

namespace Agrees

variable {codec : Codec} {state : JsonlState} {stored : InMemoryState}

theorem start (codec : Codec) : Agrees codec ⟨[], 0, ∅⟩ ∅ where
  opened := rfl
  ended := by decide
  same id := by simp
  keyed id record found := by simp at found

theorem contains (agrees : Agrees codec state stored) (id : String) :
    state.records.contains id = stored.contains id := by
  rw [ExtTreeMap.contains_eq_isSome_getElem?, TreeMap.contains_eq_isSome_getElem?, agrees.same]

theorem ids (agrees : Agrees codec state stored) : (stored.values.map MemoryRecord.id).Nodup := by
  have keys : stored.values.map MemoryRecord.id = stored.keys := by
    rw [values_toList, ← TreeMap.map_fst_toList_eq_keys, List.map_map]
    apply List.map_congr_left
    rintro ⟨id, record⟩ member
    exact agrees.keyed id record (TreeMap.mem_toList_iff_getElem?_eq_some.mp member)
  rw [keys]
  exact TreeMap.nodup_keys

theorem append_ended (state : JsonlState) (event : MemoryEvent) (atUnixMs : Nat) :
    Jsonl.Ended newline (state.append codec event atUnixMs).file := by
  rw [JsonlState.append, JsonlState.record, ← List.append_assoc]
  exact Jsonl.Ended.concat _

theorem upsert (faithful : codec.Faithful) (agrees : Agrees codec state stored)
    (record : MemoryRecord) (atUnixMs : Nat) :
    Agrees codec (state.append codec (.upsert record) atUnixMs) (stored.insert record.id record) where
  opened := append_reopens faithful agrees.ended agrees.opened _ _
  ended := append_ended state _ _
  same id := by
    rw [JsonlState.append, applyEvent, ExtTreeMap.getElem?_insert, TreeMap.getElem?_insert,
      agrees.same]
  keyed id found stored := by
    rw [TreeMap.getElem?_insert] at stored
    split at stored
    next same =>
      cases stored
      exact Std.LawfulEqOrd.compare_eq_iff_eq.mp same
    next => exact agrees.keyed id found stored

theorem forget (faithful : codec.Faithful) (agrees : Agrees codec state stored) (id : String)
    (atUnixMs : Nat) :
    Agrees codec (state.append codec (.forget id) atUnixMs) (stored.erase id) where
  opened := append_reopens faithful agrees.ended agrees.opened _ _
  ended := append_ended state _ _
  same other := by
    rw [JsonlState.append, applyEvent, ExtTreeMap.getElem?_erase, TreeMap.getElem?_erase,
      agrees.same]
  keyed other record found := by
    rw [TreeMap.getElem?_erase] at found
    split at found
    next => cases found
    next => exact agrees.keyed other record found

theorem forget_absent (agrees : Agrees codec state stored) {id : String}
    (absent : stored.contains id = false) : Agrees codec state (stored.erase id) := by
  have erased (other : String) : (stored.erase id)[other]? = stored[other]? := by
    rw [TreeMap.getElem?_erase]
    split
    next same =>
      rw [TreeMap.contains_eq_isSome_getElem?, Option.isSome_eq_false_iff,
        Option.isNone_iff_eq_none] at absent
      rw [← Std.LawfulEqOrd.compare_eq_iff_eq.mp same, absent]
    next => rfl
  exact {
    opened := agrees.opened
    ended := agrees.ended
    same := fun other => by rw [erased, agrees.same]
    keyed := fun other record found => agrees.keyed other record (erased other ▸ found) }

/-- One action answers the same, and both agree behind it. -/
theorem step (faithful : codec.Faithful) (agrees : Agrees codec state stored) (action : Action) :
    ∃ state', action.onDisk codec state = .ok ((action.inMemory stored).1, state') ∧
      Agrees codec state' (action.inMemory stored).2 := by
  cases action with
  | upsert record now atUnixMs =>
    exact ⟨_, rfl, agrees.upsert faithful { record with updatedAtUnixMs := now } atUnixMs⟩
  | reopen =>
    refine ⟨state, ?_, agrees⟩
    rw [Action.onDisk, agrees.opened]
    rfl
  | forget id atUnixMs =>
    have there := agrees.contains id
    cases found : stored.contains id with
    | true =>
      refine ⟨state.append codec (.forget id) atUnixMs, ?_, agrees.forget faithful id atUnixMs⟩
      simp only [Action.onDisk, jsonlMemoryStore, there, found, if_true]
      simp [Action.inMemory, inMemoryStore, found, Except.map, Except.toOption]
    -- Nothing is written, and in memory nothing is erased.
    | false =>
      refine ⟨state, ?_, agrees.forget_absent found⟩
      simp only [Action.onDisk, jsonlMemoryStore, there, found]
      simp [Action.inMemory, inMemoryStore, found, Except.map, Except.toOption]

theorem run (faithful : codec.Faithful) (agrees : Agrees codec state stored)
    (actions : List Action) :
    ∃ state', playOnDisk codec state actions = .ok ((playInMemory stored actions).1, state') ∧
      Agrees codec state' (playInMemory stored actions).2 := by
  induction actions generalizing state stored with
  | nil => exact ⟨state, rfl, agrees⟩
  | cons action actions ih =>
    obtain ⟨state₁, stepped, agrees₁⟩ := agrees.step faithful action
    obtain ⟨state₂, played, agrees₂⟩ := ih agrees₁
    refine ⟨state₂, ?_, agrees₂⟩
    rw [playOnDisk, stepped]
    simp only [bind, Except.bind, played]
    rfl

end Agrees

namespace Sample

/-- Two records are kept, and one is forgotten again. -/
def actions : List Action :=
  [.upsert record 5 5, .upsert { record with id := "memory_2" } 7 7, .reopen,
    .forget "memory_2" 8, .forget "memory_2" 9, .reopen]

end Sample

/-- After any calls, and however often the file was opened again in between, the store on disk has
answered as the store in memory, no line is corrupt, and for every query both recall the same records:
those that match best, in the order of their ranks. -/
theorem recalls_best {codec : Codec} (faithful : codec.Faithful) (unicode : Unicode)
    (actions : List Action) (query : String) (limit : Nat) :
    ∃ state recalled,
      playOnDisk codec ⟨[], 0, ∅⟩ actions = .ok ((playInMemory ∅ actions).1, state) ∧
      (∀ now atUnixMs, (jsonlMemoryStore codec now atUnixMs).recall unicode query limit state =
        .ok recalled) ∧
      inMemoryStore.recall unicode query limit (playInMemory ∅ actions).2 = .ok recalled ∧
      ∀ best, Best (outranks unicode query) limit
        ((playInMemory ∅ actions).2.values.filter (matchesQuery unicode query)) best ↔
          best = recalled := by
  obtain ⟨state, played, agrees⟩ := (Agrees.start codec).run faithful actions
  have best := rank_best unicode query agrees.ids limit
  refine ⟨state, _, played, ?_, rfl, ?_⟩
  · intro now atUnixMs
    -- The list depends on the records alone, and not on the kind of map that holds them.
    show Except.ok (rank unicode query limit state.records.values) = _
    rw [values_eq agrees.same]
  · intro other
    constructor
    · exact fun chosen => chosen.unique (fun _ _ => ranksBefore_total _ _) best
    · rintro rfl
      exact best

theorem recalls_best_reopened :
    ∃ state recalled,
      playOnDisk serde ⟨[], 0, ∅⟩ Sample.actions =
        .ok ((playInMemory ∅ Sample.actions).1, state) ∧
      (∀ now atUnixMs, (jsonlMemoryStore serde now atUnixMs).recall Sample.unicode "rust" 3 state =
        .ok recalled) ∧
      inMemoryStore.recall Sample.unicode "rust" 3 (playInMemory ∅ Sample.actions).2 =
        .ok recalled ∧
      ∀ best, Best (outranks Sample.unicode "rust") 3
        ((playInMemory ∅ Sample.actions).2.values.filter (matchesQuery Sample.unicode "rust"))
          best ↔ best = recalled :=
  recalls_best serde_faithful Sample.unicode Sample.actions "rust" 3

end Nausicaa.Memory
