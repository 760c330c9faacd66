import Mathlib.Logic.Relation

/-! # Calls in locked sections

Calls that run side by side, each in sections that nothing interrupts.  Where the last section of a
call does at once what the call is for, and the sections in front of it change nothing, the calls
take effect one after the other, in the order of their last sections (`linearized_of_reachable`). -/

namespace Nausicaa.Interaction.Linear

open Relation (ReflTransGen)
open scoped List

variable {State Local Call Answer View : Type}

/-! ## Sections -/

/-- Where a call starts, and what a section does: it leaves more to do, or answers. -/
structure Code (State Local Call Answer : Type) where
  start : Call → Local
  next : Call → Local → State → State × (Local ⊕ Answer)

inductive Stage (Local Answer : Type) where
  | running (rest : Local)
  | answered (answer : Answer)
  | returned (answer : Answer)

structure Slot (Local Call Answer : Type) where
  call : Call
  stage : Stage Local Answer

/-- What the callers see, in the order of time. -/
inductive Moment where
  | invoked (index : Nat)
  | returned (index : Nat)

structure Config (State Local Call Answer : Type) where
  state : State
  slots : List (Slot Local Call Answer)
  moments : List Moment

def Config.start (state : State) : Config State Local Call Answer := ⟨state, [], []⟩

def Stage.after : Local ⊕ Answer → Stage Local Answer
  | .inl rest => .running rest
  | .inr answer => .answered answer

/-- A call is invoked, a call runs its next section if that is permitted, or an answer returns. -/
inductive Step (code : Code State Local Call Answer) (permit : Call → Local → State → Prop) :
    Config State Local Call Answer → Config State Local Call Answer → Prop
  | invoke (config : Config State Local Call Answer) (call : Call) :
    Step code permit config
      { config with
        slots := config.slots ++ [⟨call, .running (code.start call)⟩]
        moments := config.moments ++ [.invoked config.slots.length] }
  | act {config : Config State Local Call Answer} {index : Nat} {call : Call} {rest : Local} :
    config.slots[index]? = some ⟨call, .running rest⟩ → permit call rest config.state →
    Step code permit config
      { config with
        state := (code.next call rest config.state).1
        slots := config.slots.set index ⟨call, .after (code.next call rest config.state).2⟩ }
  | leave {config : Config State Local Call Answer} {index : Nat} {call : Call} {answer : Answer} :
    config.slots[index]? = some ⟨call, .answered answer⟩ →
    Step code permit config
      { config with
        slots := config.slots.set index ⟨call, .returned answer⟩
        moments := config.moments ++ [.returned index] }

/-! ## One call after the other -/

def replay (apply : Call → View → Answer × View) : View → List Call → List Answer × View
  | view, [] => ([], view)
  | view, call :: calls =>
    let applied := apply call view
    let rest := replay apply applied.2 calls
    (applied.1 :: rest.1, rest.2)

theorem replay_snoc (apply : Call → View → Answer × View) (view : View) (calls : List Call)
    (call : Call) : replay apply view (calls ++ [call]) =
      ((replay apply view calls).1 ++ [(apply call (replay apply view calls).2).1],
        (apply call (replay apply view calls).2).2) := by
  induction calls generalizing view with
  | nil => rfl
  | cons first calls ih =>
    rw [List.cons_append, replay, ih]
    rfl

/-- A call that took effect. -/
structure Effect (Call Answer : Type) where
  index : Nat
  call : Call
  answer : Answer

/-- The calls that have answers took effect one after the other, and a call that returned before
another was invoked took effect before it. -/
structure Linearized (apply : Call → View → Answer × View) (view : State → View) (initial : View)
    (config : Config State Local Call Answer) (effects : List (Effect Call Answer)) : Prop where
  distinct : (effects.map Effect.index).Nodup
  answered : ∀ index call answer, ⟨index, call, answer⟩ ∈ effects ↔
    config.slots[index]? = some ⟨call, .answered answer⟩ ∨
      config.slots[index]? = some ⟨call, .returned answer⟩
  sequential : replay apply initial (effects.map Effect.call) =
    (effects.map Effect.answer, view config.state)
  realTime : ∀ first second, [.returned first, .invoked second] <+ config.moments →
    second ∈ effects.map Effect.index → [first, second] <+ effects.map Effect.index

section Atomic

variable {code : Code State Local Call Answer} {permit : Call → Local → State → Prop}
variable {apply : Call → View → Answer × View} {view : State → View} {initial : View}
variable {config config' : Config State Local Call Answer} {effects : List (Effect Call Answer)}

/-- A section that is permitted changes nothing, or answers with what the call is for. -/
def Atomic (code : Code State Local Call Answer) (permit : Call → Local → State → Prop)
    (apply : Call → View → Answer × View) (view : State → View) : Prop :=
  ∀ call rest state, permit call rest state →
    match (code.next call rest state).2 with
    | .inl _ => view (code.next call rest state).1 = view state
    | .inr answer => apply call (view state) = (answer, view (code.next call rest state).1)

/-- What has returned has its answer. -/
def Left (config : Config State Local Call Answer) : Prop :=
  ∀ index, .returned index ∈ config.moments →
    ∃ call answer, config.slots[index]? = some ⟨call, .returned answer⟩

theorem pair_sublist_snoc {α : Type} {first second last : α} {items : List α}
    (within : [first, second] <+ items ++ [last]) :
    [first, second] <+ items ∨ second = last ∧ first ∈ items := by
  obtain ⟨front, back, split, front', back'⟩ := List.sublist_append_iff.mp within
  obtain rfl | rfl : back = [] ∨ back = [last] := by
    cases back with
    | nil => exact .inl rfl
    | cons item back =>
      cases back' with
      | cons _ none => cases none
      | cons_cons _ none =>
        cases none
        exact .inr rfl
  · rw [List.append_nil] at split
    exact .inl (split ▸ front')
  · have split : [first] ++ [second] = front ++ [last] := split
    obtain ⟨rfl, same⟩ := List.append_inj' split rfl
    exact .inr ⟨(List.cons.inj same).1, List.singleton_sublist.mp front'⟩

/-! ### Steps -/

theorem Left.step (left : Left config) (step : Step code permit config config') : Left config' := by
  intro index member
  cases step with
  | invoke call =>
    have member' : .returned index ∈ config.moments := by simpa using member
    obtain ⟨other, answer, found⟩ := left index member'
    exact ⟨other, answer, by rw [List.getElem?_append_left (List.getElem?_eq_some_iff.mp found).1, found]⟩
  | @act acting call rest running permitted =>
    obtain ⟨other, answer, found⟩ := left index member
    refine ⟨other, answer, ?_⟩
    rw [List.getElem?_set_ne, found]
    rintro rfl
    rw [running] at found
    cases found
  | @leave leaving call answer answered =>
    by_cases same : leaving = index
    · subst same
      exact ⟨call, answer, List.getElem?_set_self (List.getElem?_eq_some_iff.mp answered).1⟩
    · have member' : .returned index ∈ config.moments := by
        obtain member | last := List.mem_append.mp member
        · exact member
        · exact absurd (Moment.returned.inj (List.mem_singleton.mp last)).symm same
      obtain ⟨other, answer', found⟩ := left index member'
      exact ⟨other, answer', by rw [List.getElem?_set_ne same, found]⟩

/-- A call that is invoked has taken no effect. -/
theorem Linearized.invoke (linearized : Linearized apply view initial config effects) (call : Call)
    (rest : Local) : Linearized apply view initial
      { config with
        slots := config.slots ++ [⟨call, .running rest⟩]
        moments := config.moments ++ [.invoked config.slots.length] } effects := by
  have inside : ∀ index, index ∈ effects.map Effect.index → index < config.slots.length := by
    intro index member
    obtain ⟨effect, present, rfl⟩ := List.mem_map.mp member
    obtain found | found := (linearized.answered _ _ _).mp present <;>
      exact (List.getElem?_eq_some_iff.mp found).1
  refine ⟨linearized.distinct, ?_, linearized.sequential, ?_⟩
  · intro index other answer
    rw [linearized.answered]
    by_cases old : index < config.slots.length
    · rw [List.getElem?_append_left old]
    · rw [List.getElem?_append_right (Nat.le_of_not_lt old),
        List.getElem?_eq_none (Nat.le_of_not_lt old)]
      cases index - config.slots.length <;> simp
  · intro first second within member
    obtain within | ⟨new, _⟩ := pair_sublist_snoc within
    · exact linearized.realTime first second within member
    · rw [Moment.invoked.inj new] at member
      exact absurd (inside _ member) (Nat.lt_irrefl _)

/-- A section in front of the last. -/
theorem Linearized.advance (linearized : Linearized apply view initial config effects) {index : Nat}
    {call : Call} {rest rest' : Local} {state : State}
    (running : config.slots[index]? = some ⟨call, .running rest⟩)
    (same : view state = view config.state) : Linearized apply view initial
      { config with state, slots := config.slots.set index ⟨call, .running rest'⟩ } effects := by
  refine ⟨linearized.distinct, ?_, ?_, linearized.realTime⟩
  · intro other call' answer
    rw [linearized.answered]
    by_cases here : index = other
    · subst here
      rw [List.getElem?_set_self (List.getElem?_eq_some_iff.mp running).1, running]
      simp
    · rw [List.getElem?_set_ne here]
  · rw [linearized.sequential, same]

/-- The last section: the call takes effect. -/
theorem Linearized.answer (linearized : Linearized apply view initial config effects)
    (left : Left config) {index : Nat} {call : Call} {rest : Local} {state : State} {answer : Answer}
    (running : config.slots[index]? = some ⟨call, .running rest⟩)
    (applied : apply call (view config.state) = (answer, view state)) :
    Linearized apply view initial
      { config with state, slots := config.slots.set index ⟨call, .answered answer⟩ }
      (effects ++ [⟨index, call, answer⟩]) := by
  have fresh : ∀ effect ∈ effects, effect.index ≠ index := by
    rintro effect member rfl
    obtain found | found := (linearized.answered _ _ _).mp member <;>
      (rw [running] at found; cases found)
  constructor
  · rw [List.map_append, List.nodup_append]
    refine ⟨linearized.distinct, by simp, ?_⟩
    intro other member last same
    obtain ⟨effect, present, rfl⟩ := List.mem_map.mp member
    rw [List.mem_singleton.mp same]
    exact fresh effect present
  · intro other call' answer'
    rw [List.mem_append, linearized.answered, List.mem_singleton]
    by_cases here : index = other
    · subst here
      rw [List.getElem?_set_self (List.getElem?_eq_some_iff.mp running).1, running]
      simp [eq_comm]
    · rw [List.getElem?_set_ne here]
      simp [Ne.symm here]
  · rw [List.map_append, List.map_append, List.map_singleton, List.map_singleton, replay_snoc,
      linearized.sequential, applied]
  · intro first second within member
    rw [List.map_append] at member ⊢
    obtain old | new := List.mem_append.mp member
    · exact (linearized.realTime first second within old).trans (List.sublist_append_left _ _)
    · -- What has returned took effect before.
      have returned : .returned first ∈ config.moments :=
        within.subset (List.mem_cons_self)
      obtain ⟨call', answer', found⟩ := left first returned
      have effect := (linearized.answered _ _ _).mpr (.inr found)
      have before : [first] <+ effects.map Effect.index :=
        List.singleton_sublist.mpr (List.mem_map.mpr ⟨_, effect, rfl⟩)
      rw [List.mem_singleton.mp new]
      exact before.append (List.Sublist.refl _)

theorem Linearized.leave (linearized : Linearized apply view initial config effects) {index : Nat}
    {call : Call} {answer : Answer}
    (answered : config.slots[index]? = some ⟨call, .answered answer⟩) :
    Linearized apply view initial
      { config with
        slots := config.slots.set index ⟨call, .returned answer⟩
        moments := config.moments ++ [.returned index] } effects := by
  refine ⟨linearized.distinct, ?_, linearized.sequential, ?_⟩
  · intro other call' answer'
    rw [linearized.answered]
    by_cases here : index = other
    · subst here
      rw [List.getElem?_set_self (List.getElem?_eq_some_iff.mp answered).1, answered]
      simp
    · rw [List.getElem?_set_ne here]
  · intro first second within member
    obtain within | ⟨other, _⟩ := pair_sublist_snoc within
    · exact linearized.realTime first second within member
    · cases other

/-- Calls in atomic sections take effect one after the other. -/
theorem linearized_of_reachable (atomic : Atomic code permit apply view) {state : State}
    (reachable : ReflTransGen (Step code permit) (.start state) config) :
    Left config ∧ ∃ effects, Linearized apply view (view state) config effects := by
  induction reachable with
  | refl =>
    refine ⟨fun index member => (by cases member), [], by simp, ?_, rfl, ?_⟩
    · simp [Config.start]
    · intro first second _ member
      cases member
  | @tail config config' _ step ih =>
    obtain ⟨left, effects, linearized⟩ := ih
    refine ⟨left.step step, ?_⟩
    cases step with
    | invoke call => exact ⟨effects, linearized.invoke call _⟩
    | @act index call rest running permitted =>
      have section' := atomic call rest config.state permitted
      cases ends : (code.next call rest config.state).2 with
      | inl rest' =>
        rw [ends] at section'
        exact ⟨effects, linearized.advance running section'⟩
      | inr answer =>
        rw [ends] at section'
        exact ⟨_, linearized.answer left running section'⟩
    | leave answered => exact ⟨effects, linearized.leave answered⟩

end Atomic

end Nausicaa.Interaction.Linear
