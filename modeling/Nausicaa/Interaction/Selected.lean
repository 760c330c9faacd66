import Nausicaa.Interaction.Concurrent

/-! # Runs under a condition

The interleavings of `Concurrent` with a say about each step: `Selection.answers` is
asked before an operation is executed and knows what all calls own, `Selection.drops`
says where a call may be dropped.  What cannot happen in the program modelled is left
out this way, and so is what a result has to assume of a run, step by step.
-/

namespace Nausicaa.Interaction

variable {Op : Type} {Answer : Op → Type} {Shared Own Call α State : Type}

/-- Which steps a run may take: the answer of an operation of the call at an index, and
where a call that owns something may be dropped. -/
structure Selection (Op : Type) (Answer : Op → Type) (Shared Own Call : Type) where
  answers : Shared → List (Call × Own) → Nat → (op : Op) → Answer op → Prop
  drops : Own → Op → Prop

inductive SelectedStep (machine : Machine Op Answer Shared Own)
    (code : Call → Program Op Answer α) (selection : Selection Op Answer Shared Own Call) :
    Config Op Answer Shared Own Call α → Config Op Answer Shared Own Call α → Prop
  | spawn (config : Config Op Answer Shared Own Call α) (call : Call) :
      SelectedStep machine code selection config
        { config with tasks := config.tasks ++ [⟨call, some (code call), machine.idle⟩] }
  | act {config : Config Op Answer Shared Own Call α} {index : Nat}
      {task : Task Op Answer Own Call α} {op : Op}
      {resume : Answer op → Program Op Answer α} {answer : Answer op}
      {shared' : Shared} {own' : Own}
      (present : config.tasks[index]? = some task)
      (asks : task.program = some (.ask op resume))
      (exec : machine.exec config.shared task.own op answer shared' own')
      (selected : selection.answers config.shared config.owned index op answer) :
      SelectedStep machine code selection config
        ⟨shared', config.tasks.set index ⟨task.call, some (resume answer), own'⟩⟩
  | drop {config : Config Op Answer Shared Own Call α} {index : Nat}
      {task : Task Op Answer Own Call α} {program : Program Op Answer α}
      (present : config.tasks[index]? = some task) (running : task.program = some program)
      (rests : ∀ op resume, program = .ask op resume → selection.drops task.own op) :
      SelectedStep machine code selection config
        ⟨machine.release config.shared task.own,
          config.tasks.set index ⟨task.call, none, machine.abandon task.own⟩⟩

/-- Everything a run under the selection can reach from `shared` with no calls running. -/
def SelectedReachable (machine : Machine Op Answer Shared Own)
    (code : Call → Program Op Answer α) (selection : Selection Op Answer Shared Own Call)
    (shared : Shared) (config : Config Op Answer Shared Own Call α) : Prop :=
  Relation.ReflTransGen (SelectedStep machine code selection) (Config.start shared) config

section Soundness

variable {machine : Machine Op Answer Shared Own} {code : Call → Program Op Answer α}
variable {selection : Selection Op Answer Shared Own Call}
variable {contract : Call → Contract Op Answer State} {view : Shared → Own → State}
variable {fresh : State} {invariant : Shared → List (Call × Own) → Prop}
variable {post : Call → α → State → Prop} {gone : Call → Own → Prop}
variable {config config' : Config Op Answer Shared Own Call α}

/-- A selected run is a run. -/
theorem SelectedReachable.reachable {shared : Shared}
    (reachable : SelectedReachable machine code selection shared config) :
    Reachable machine code shared config := by
  induction reachable with
  | refl => exact Relation.ReflTransGen.refl
  | tail _ step ih =>
    apply ih.tail
    cases step with
    | spawn call => exact Step.spawn _ call
    | act present asks exec selected => exact Step.act present asks exec
    | drop present running rests => exact Step.drop present

/-- A call may be dropped in a state: it asks for something that waits, or it is done. -/
def Selection.Rests (selection : Selection Op Answer Shared Own Call)
    (contract : Contract Op Answer State) (post : α → State → Prop) (own : Own) (state : State) :
    Prop :=
  (∃ op, contract.permit state op ∧ selection.drops own op) ∨ ∃ result, post result state

/-- The ownership argument for runs under a selection.  A dropped call leaves `gone`
behind. -/
structure SelectedDiscipline (machine : Machine Op Answer Shared Own)
    (selection : Selection Op Answer Shared Own Call) (contract : Call → Contract Op Answer State)
    (view : Shared → Own → State) (fresh : State) (invariant : Shared → List (Call × Own) → Prop)
    (post : Call → α → State → Prop) (gone : Call → Own → Prop) : Prop where
  idle : ∀ shared, view shared machine.idle = fresh
  spawn : ∀ {shared owned} (call : Call), invariant shared owned →
    invariant shared (owned ++ [(call, machine.idle)])
  act : ∀ {shared : Shared} {owned : List (Call × Own)} {index : Nat} {call : Call} {own : Own}
    {op : Op} {answer : Answer op} {shared' : Shared} {own' : Own},
    invariant shared owned → owned[index]? = some (call, own) →
    (contract call).permit (view shared own) op → machine.exec shared own op answer shared' own' →
    selection.answers shared owned index op answer →
    (contract call).step (view shared own) op answer (view shared' own') ∧
      invariant shared' (owned.set index (call, own')) ∧
      ∀ other entry, other ≠ index → owned[other]? = some entry →
        view shared' entry.2 = view shared entry.2
  drop : ∀ {shared : Shared} {owned : List (Call × Own)} {index : Nat} {call : Call} {own : Own},
    invariant shared owned → owned[index]? = some (call, own) →
    selection.Rests (contract call) (post call) own (view shared own) →
    gone call (machine.abandon own) ∧
      invariant (machine.release shared own) (owned.set index (call, machine.abandon own)) ∧
      ∀ other entry, other ≠ index → owned[other]? = some entry →
        view (machine.release shared own) entry.2 = view shared entry.2

/-- What holds of one call: what is left of it meets its contract from its own view, and
once it was dropped it is gone. -/
def Task.Holds (contract : Call → Contract Op Answer State) (view : Shared → Own → State)
    (post : Call → α → State → Prop) (gone : Call → Own → Prop) (shared : Shared)
    (task : Task Op Answer Own Call α) : Prop :=
  match task.program with
  | some program =>
    (contract task.call).Meets program (post task.call) (view shared task.own)
  | none => gone task.call task.own

/-- A call whose view did not change. -/
theorem Task.Holds.kept {shared shared' : Shared} {task : Task Op Answer Own Call α}
    (holds : task.Holds contract view post gone shared)
    (same : view shared' task.own = view shared task.own) :
    task.Holds contract view post gone shared' := by
  unfold Task.Holds at holds ⊢
  cases running : task.program with
  | some program =>
    simp only [running] at holds ⊢
    rw [same]
    exact holds
  | none =>
    simp only [running] at holds ⊢
    exact holds

/-- What holds of a configuration under a discipline. -/
structure SelectedSound (contract : Call → Contract Op Answer State) (view : Shared → Own → State)
    (invariant : Shared → List (Call × Own) → Prop) (post : Call → α → State → Prop)
    (gone : Call → Own → Prop) (config : Config Op Answer Shared Own Call α) : Prop where
  invariant : invariant config.shared config.owned
  holds : ∀ task ∈ config.tasks, task.Holds contract view post gone config.shared

/-- One call moved to `task'`, and no other call's view changed. -/
theorem SelectedSound.moved {index : Nat} {task' : Task Op Answer Own Call α} {shared' : Shared}
    (sound : SelectedSound contract view invariant post gone config)
    (kept : invariant shared' (config.owned.set index (task'.call, task'.own)))
    (holds : task'.Holds contract view post gone shared')
    (others : ∀ other entry, other ≠ index → config.owned[other]? = some entry →
      view shared' entry.2 = view config.shared entry.2) :
    SelectedSound contract view invariant post gone
      ⟨shared', config.tasks.set index task'⟩ := by
  constructor
  · rw [owned_set]
    exact kept
  · intro task member
    obtain ⟨other, found⟩ := List.mem_iff_getElem?.mp member
    by_cases same : other = index
    · subst same
      have bound : other < config.tasks.length := by
        have := (List.getElem?_eq_some_iff.mp found).1
        simpa using this
      rw [List.getElem?_set_self bound] at found
      cases found
      exact holds
    · rw [List.getElem?_set_ne (Ne.symm same)] at found
      exact (sound.holds task (List.mem_of_getElem? found)).kept
        (others other _ same (owned_of_task found))

theorem SelectedSound.step
    (discipline : SelectedDiscipline machine selection contract view fresh invariant post gone)
    (codes : ∀ call, (contract call).Meets (code call) (post call) fresh)
    (sound : SelectedSound contract view invariant post gone config)
    (step : SelectedStep machine code selection config config') :
    SelectedSound contract view invariant post gone config' := by
  cases step with
  | spawn call =>
    constructor
    · simpa [Config.owned] using discipline.spawn call sound.invariant
    · intro task member
      cases List.mem_append.mp member with
      | inl old => exact sound.holds task old
      | inr new =>
        rw [List.mem_singleton.mp new]
        have meets := codes call
        rw [← discipline.idle config.shared] at meets
        exact meets
  | @act index task op resume answer shared' own' present asks exec selected =>
    have holds := sound.holds task (List.mem_of_getElem? present)
    rw [Task.Holds, asks] at holds
    obtain ⟨permitted, continues⟩ := holds
    obtain ⟨stepped, invariant', others⟩ :=
      discipline.act sound.invariant (owned_of_task present) permitted exec selected
    exact sound.moved invariant'
      (continues answer _ stepped) others
  | @drop index task program present running rests =>
    have holds := sound.holds task (List.mem_of_getElem? present)
    rw [Task.Holds, running] at holds
    have resting : selection.Rests (contract task.call) (post task.call) task.own
        (view config.shared task.own) := by
      cases program with
      | done result => exact .inr ⟨result, holds⟩
      | ask op resume => exact .inl ⟨op, holds.1, rests op resume rfl⟩
    obtain ⟨left, invariant', others⟩ :=
      discipline.drop sound.invariant (owned_of_task present) resting
    exact sound.moved invariant' left others

/-- Sequential contracts survive every run under the selection. -/
theorem SelectedReachable.sound
    (discipline : SelectedDiscipline machine selection contract view fresh invariant post gone)
    (codes : ∀ call, (contract call).Meets (code call) (post call) fresh) {shared : Shared}
    (initially : invariant shared [])
    (reachable : SelectedReachable machine code selection shared config) :
    SelectedSound contract view invariant post gone config := by
  induction reachable with
  | refl =>
    refine ⟨initially, ?_⟩
    intro task member
    cases member
  | tail _ step ih => exact ih.step discipline codes step

end Soundness

end Nausicaa.Interaction
