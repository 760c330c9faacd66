import Mathlib.Data.List.Basic
import Mathlib.Logic.Relation
import Nausicaa.Interaction.Program

/-! # Concurrent programs over one shared state

Any number of calls run side by side, each a `Program`; one step executes the
operation at the head of one of them, starts a new call, or drops a call where
it stands.  Besides the shared state every task has an `own` part: the resources
that are released with it.

`Discipline` is the ownership argument that makes sequential reasoning sound
here.  Every task sees the shared state through a view, and a permitted step of
one task leaves the views of all others as they were.  Under a discipline, a
program that meets its contract on its own still meets it in any interleaving
(`Reachable.sound`).
-/

namespace Nausicaa.Interaction

variable {Op : Type} {Answer : Op → Type} {Shared Own Call α State : Type}

/-- How operations act on the shared state and on what the issuing task owns. -/
structure Machine (Op : Type) (Answer : Op → Type) (Shared Own : Type) where
  idle : Own
  exec : Shared → Own → (op : Op) → Answer op → Shared → Own → Prop
  release : Shared → Own → Shared
  abandon : Own → Own

/-- One call; `program` is what is left to run, and `none` once it was dropped. -/
structure Task (Op : Type) (Answer : Op → Type) (Own Call α : Type) where
  call : Call
  program : Option (Program Op Answer α)
  own : Own

structure Config (Op : Type) (Answer : Op → Type) (Shared Own Call α : Type) where
  shared : Shared
  tasks : List (Task Op Answer Own Call α)

namespace Config

/-- What the calls own, dropped ones included. -/
def owned (config : Config Op Answer Shared Own Call α) : List (Call × Own) :=
  config.tasks.map fun task => (task.call, task.own)

/-- The first configuration: a shared state and no calls. -/
def start (shared : Shared) : Config Op Answer Shared Own Call α := ⟨shared, []⟩

end Config

inductive Step (machine : Machine Op Answer Shared Own) (code : Call → Program Op Answer α) :
    Config Op Answer Shared Own Call α → Config Op Answer Shared Own Call α → Prop
  | spawn (config : Config Op Answer Shared Own Call α) (call : Call) :
      Step machine code config
        { config with tasks := config.tasks ++ [⟨call, some (code call), machine.idle⟩] }
  | act {config : Config Op Answer Shared Own Call α} {index : Nat}
      {task : Task Op Answer Own Call α} {op : Op}
      {resume : Answer op → Program Op Answer α} {answer : Answer op}
      {shared' : Shared} {own' : Own}
      (present : config.tasks[index]? = some task)
      (asks : task.program = some (.ask op resume))
      (exec : machine.exec config.shared task.own op answer shared' own') :
      Step machine code config
        ⟨shared', config.tasks.set index ⟨task.call, some (resume answer), own'⟩⟩
  | drop {config : Config Op Answer Shared Own Call α} {index : Nat}
      {task : Task Op Answer Own Call α} (present : config.tasks[index]? = some task) :
      Step machine code config
        ⟨machine.release config.shared task.own,
          config.tasks.set index ⟨task.call, none, machine.abandon task.own⟩⟩

/-- Everything an interleaving can reach from `shared` with no calls running. -/
def Reachable (machine : Machine Op Answer Shared Own) (code : Call → Program Op Answer α)
    (shared : Shared) (config : Config Op Answer Shared Own Call α) : Prop :=
  Relation.ReflTransGen (Step machine code) (Config.start shared) config

theorem Reachable.trans {machine : Machine Op Answer Shared Own}
    {code : Call → Program Op Answer α} {shared : Shared}
    {config config' : Config Op Answer Shared Own Call α}
    (reachable : Reachable machine code shared config)
    (steps : Relation.ReflTransGen (Step machine code) config config') :
    Reachable machine code shared config' :=
  Relation.ReflTransGen.trans reachable steps

namespace Machine

/-- The machine with only those answers that `condition` lets through. -/
def restrict (machine : Machine Op Answer Shared Own)
    (condition : Shared → (op : Op) → Answer op → Prop) : Machine Op Answer Shared Own :=
  { machine with
    exec := fun shared own op answer shared' own' =>
      machine.exec shared own op answer shared' own' ∧ condition shared op answer }

end Machine

/-- A condition that every answer meets restricts nothing. -/
theorem Reachable.restrict {machine : Machine Op Answer Shared Own}
    {code : Call → Program Op Answer α} {shared : Shared}
    {config : Config Op Answer Shared Own Call α}
    {condition : Shared → (op : Op) → Answer op → Prop}
    (always : ∀ shared op answer, condition shared op answer)
    (reachable : Reachable machine code shared config) :
    Reachable (machine.restrict condition) code shared config := by
  induction reachable with
  | refl => exact Relation.ReflTransGen.refl
  | tail _ step ih =>
    refine ih.tail ?_
    cases step with
    | spawn call => exact Step.spawn _ call
    | act present asks exec => exact Step.act present asks ⟨exec, always _ _ _⟩
    | drop present =>
      have dropped : Step (machine.restrict condition) code _ _ := Step.drop present
      exact dropped

/-- A step with fewer answers is a step. -/
theorem Step.of_restrict {machine : Machine Op Answer Shared Own}
    {code : Call → Program Op Answer α} {config config' : Config Op Answer Shared Own Call α}
    {condition : Shared → (op : Op) → Answer op → Prop}
    (step : Step (machine.restrict condition) code config config') :
    Step machine code config config' := by
  cases step with
  | spawn call => exact Step.spawn _ call
  | act present asks exec => exact Step.act present asks exec.1
  | drop present =>
    have dropped : Step machine code _ _ := Step.drop present
    exact dropped

/-- A run with fewer answers is a run. -/
theorem Reachable.of_restrict {machine : Machine Op Answer Shared Own}
    {code : Call → Program Op Answer α} {shared : Shared}
    {config : Config Op Answer Shared Own Call α}
    {condition : Shared → (op : Op) → Answer op → Prop}
    (reachable : Reachable (machine.restrict condition) code shared config) :
    Reachable machine code shared config := by
  induction reachable with
  | refl => exact Relation.ReflTransGen.refl
  | tail _ step ih => exact ih.tail step.of_restrict

/-- A call that nothing interrupts, served by a handler whose answers the machine allows. -/
theorem steps_of_run {machine : Machine Op Answer Shared Own} {code : Call → Program Op Answer α}
    {handle : Shared → (op : Op) → Option (Answer op) × Shared}
    (allowed : ∀ shared own op answer shared', handle shared op = (some answer, shared') →
      ∃ own', machine.exec shared own op answer shared' own')
    {config : Config Op Answer Shared Own Call α} {index : Nat} {call : Call}
    {program : Program Op Answer α} {own : Own} {result : α} {shared' : Shared}
    (present : config.tasks[index]? = some ⟨call, some program, own⟩)
    (ran : program.run handle config.shared = (some result, shared')) :
    ∃ config' own', Relation.ReflTransGen (Step machine code) config config' ∧
      config'.shared = shared' ∧ config'.tasks.length = config.tasks.length ∧
      config'.tasks[index]? = some ⟨call, some (.done result), own'⟩ := by
  induction program generalizing config own with
  | done result' =>
    cases ran
    exact ⟨config, own, .refl, rfl, rfl, present⟩
  | ask op resume ih =>
    rw [Program.run] at ran
    split at ran
    next => cases ran
    next answer between served =>
      obtain ⟨own', exec⟩ := allowed _ own _ _ _ served
      have bound := (List.getElem?_eq_some_iff.mp present).1
      have step : Step machine code config
          ⟨between, config.tasks.set index ⟨call, some (resume answer), own'⟩⟩ :=
        .act present rfl exec
      have placed : (Config.mk between
          (config.tasks.set index ⟨call, some (resume answer), own'⟩)).tasks[index]? =
            some ⟨call, some (resume answer), own'⟩ := List.getElem?_set_self bound
      obtain ⟨config', own'', steps, shared, length, done⟩ := ih answer placed ran
      exact ⟨config', own'', .head step steps, shared, length.trans List.length_set, done⟩

/-- The ownership argument: `invariant` relates the shared state to what the
calls own, and permitted steps keep it without disturbing another call's view. -/
structure Discipline (machine : Machine Op Answer Shared Own)
    (contract : Call → Contract Op Answer State) (view : Shared → Own → State) (fresh : State)
    (invariant : Shared → List (Call × Own) → Prop) : Prop where
  idle : ∀ shared, view shared machine.idle = fresh
  spawn : ∀ {shared owned} (call : Call), invariant shared owned →
    invariant shared (owned ++ [(call, machine.idle)])
  act : ∀ {shared : Shared} {owned : List (Call × Own)} {index : Nat} {call : Call} {own : Own}
    {op : Op} {answer : Answer op} {shared' : Shared} {own' : Own},
    invariant shared owned → owned[index]? = some (call, own) →
    (contract call).permit (view shared own) op → machine.exec shared own op answer shared' own' →
    (contract call).step (view shared own) op answer (view shared' own') ∧
      invariant shared' (owned.set index (call, own')) ∧
      ∀ other entry, other ≠ index → owned[other]? = some entry →
        view shared' entry.2 = view shared entry.2
  drop : ∀ {shared : Shared} {owned : List (Call × Own)} {index : Nat} {call : Call} {own : Own},
    invariant shared owned → owned[index]? = some (call, own) →
    invariant (machine.release shared own) (owned.set index (call, machine.abandon own)) ∧
      ∀ other entry, other ≠ index → owned[other]? = some entry →
        view (machine.release shared own) entry.2 = view shared entry.2

section Soundness

variable {machine : Machine Op Answer Shared Own} {code : Call → Program Op Answer α}
variable {contract : Call → Contract Op Answer State} {view : Shared → Own → State}
variable {fresh : State} {invariant : Shared → List (Call × Own) → Prop}
variable {post : Call → α → State → Prop}
variable {config config' : Config Op Answer Shared Own Call α}

theorem owned_of_task {index : Nat} {task : Task Op Answer Own Call α}
    (present : config.tasks[index]? = some task) :
    config.owned[index]? = some (task.call, task.own) := by
  simp [Config.owned, present]

theorem owned_set (index : Nat) (task : Task Op Answer Own Call α) (shared' : Shared) :
    (Config.mk shared' (config.tasks.set index task)).owned =
      config.owned.set index (task.call, task.own) := by
  simp [Config.owned, List.map_set]

/-- What holds of a configuration under a discipline: the invariant, every running
call still meets its contract from its own view, and every dropped call has let go. -/
structure Sound (machine : Machine Op Answer Shared Own)
    (contract : Call → Contract Op Answer State) (view : Shared → Own → State)
    (invariant : Shared → List (Call × Own) → Prop) (post : Call → α → State → Prop)
    (config : Config Op Answer Shared Own Call α) : Prop where
  invariant : invariant config.shared config.owned
  meets : ∀ (index : Nat) (task : Task Op Answer Own Call α) (program : Program Op Answer α),
    config.tasks[index]? = some task → task.program = some program →
    (contract task.call).Meets program (post task.call) (view config.shared task.own)
  dropped : ∀ (index : Nat) (task : Task Op Answer Own Call α),
    config.tasks[index]? = some task → task.program = none →
    ∃ own, task.own = machine.abandon own

theorem Sound.step (discipline : Discipline machine contract view fresh invariant)
    (codes : ∀ call, (contract call).Meets (code call) (post call) fresh)
    (sound : Sound machine contract view invariant post config)
    (step : Step machine code config config') :
    Sound machine contract view invariant post config' := by
  cases step with
  | spawn call =>
    have placed : ∀ (index : Nat) (task : Task Op Answer Own Call α),
        (config.tasks ++ [⟨call, some (code call), machine.idle⟩])[index]? = some task →
        config.tasks[index]? = some task ∨ task = ⟨call, some (code call), machine.idle⟩ := by
      intro index task present
      cases Nat.lt_or_ge index config.tasks.length with
      | inl old =>
        rw [List.getElem?_append_left old] at present
        exact .inl present
      | inr new =>
        rw [List.getElem?_append_right new] at present
        exact .inr (by simpa using List.mem_of_getElem? present)
    refine ⟨?_, ?_, ?_⟩
    · simpa [Config.owned] using discipline.spawn call sound.invariant
    · intro index task program present running
      cases placed index task present with
      | inl old => exact sound.meets index task program old running
      | inr new =>
        subst new
        cases running
        rw [discipline.idle]
        exact codes call
    · intro index task present stopped
      cases placed index task present with
      | inl old => exact sound.dropped index task old stopped
      | inr new => subst new; cases stopped
  | @act index task op resume answer shared' own' present asks exec =>
    obtain ⟨permitted, continues⟩ := sound.meets index task _ present asks
    obtain ⟨stepped, invariant', others⟩ :=
      discipline.act sound.invariant (owned_of_task present) permitted exec
    have bound := (List.getElem?_eq_some_iff.mp present).1
    refine ⟨by rw [owned_set]; exact invariant', ?_, ?_⟩
    · intro other task' program present' running
      by_cases same : other = index
      · subst same
        simp only [List.getElem?_set_self bound, Option.some.injEq] at present'
        subst present'
        simp only [Option.some.injEq] at running
        subst running
        exact continues answer _ stepped
      · rw [List.getElem?_set_ne (Ne.symm same)] at present'
        rw [others other (task'.call, task'.own) same (owned_of_task present')]
        exact sound.meets other task' program present' running
    · intro other task' present' stopped
      by_cases same : other = index
      · subst same
        simp only [List.getElem?_set_self bound, Option.some.injEq] at present'
        subst present'
        cases stopped
      · rw [List.getElem?_set_ne (Ne.symm same)] at present'
        exact sound.dropped other task' present' stopped
  | @drop index task present =>
    obtain ⟨invariant', others⟩ := discipline.drop sound.invariant (owned_of_task present)
    have bound := (List.getElem?_eq_some_iff.mp present).1
    refine ⟨by rw [owned_set]; exact invariant', ?_, ?_⟩
    · intro other task' program present' running
      by_cases same : other = index
      · subst same
        simp only [List.getElem?_set_self bound, Option.some.injEq] at present'
        subst present'
        cases running
      · rw [List.getElem?_set_ne (Ne.symm same)] at present'
        rw [others other (task'.call, task'.own) same (owned_of_task present')]
        exact sound.meets other task' program present' running
    · intro other task' present' stopped
      by_cases same : other = index
      · subst same
        simp only [List.getElem?_set_self bound, Option.some.injEq] at present'
        subst present'
        exact ⟨task.own, rfl⟩
      · rw [List.getElem?_set_ne (Ne.symm same)] at present'
        exact sound.dropped other task' present' stopped

/-- Sequential contracts survive every interleaving that keeps the discipline. -/
theorem Reachable.sound (discipline : Discipline machine contract view fresh invariant)
    (codes : ∀ call, (contract call).Meets (code call) (post call) fresh) {shared : Shared}
    (initially : invariant shared []) (reachable : Reachable machine code shared config) :
    Sound machine contract view invariant post config := by
  induction reachable with
  | refl =>
    refine ⟨initially, ?_, ?_⟩
    · intro index task program present
      simp [Config.start] at present
    · intro index task present
      simp [Config.start] at present
  | tail _ step ih => exact ih.step discipline codes step

/-- A property of the shared state holds throughout when permitted operations
and drops keep it. -/
theorem Reachable.shared_invariant
    (discipline : Discipline machine contract view fresh invariant)
    (codes : ∀ call, (contract call).Meets (code call) (post call) fresh) {shared : Shared}
    (initially : invariant shared []) {property : Shared → Prop} (holds : property shared)
    (acted : ∀ {shared : Shared} {owned : List (Call × Own)} {index : Nat} {call : Call}
      {own : Own} {op : Op} {answer : Answer op} {shared' : Shared} {own' : Own},
      invariant shared owned → owned[index]? = some (call, own) → property shared →
      (contract call).permit (view shared own) op →
      machine.exec shared own op answer shared' own' → property shared')
    (dropped : ∀ shared own, property shared → property (machine.release shared own))
    (reachable : Reachable machine code shared config) : property config.shared := by
  induction reachable with
  | refl => exact holds
  | tail reached step ih =>
    have sound := Reachable.sound discipline codes initially reached
    cases step with
    | spawn call => exact ih
    | act present asks exec =>
      exact acted sound.invariant (owned_of_task present) ih
        (sound.meets _ _ _ present asks).1 exec
    | drop present => exact dropped _ _ ih

/-- What code asks when it is answered as a run does, it asks in every configuration of the run. -/
theorem Reachable.asks_when {contract : Contract Op Answer Unit} {post : α → Unit → Prop}
    {shared : Shared}
    (answered : ∀ {config : Config Op Answer Shared Own Call α} {index : Nat}
      {task : Task Op Answer Own Call α} {op : Op} {resume : Answer op → Program Op Answer α}
      {answer : Answer op} {shared' : Shared} {own' : Own},
      Reachable machine code shared config → config.tasks[index]? = some task →
      task.program = some (.ask op resume) →
      machine.exec config.shared task.own op answer shared' own' → contract.step () op answer ())
    (codes : ∀ call, contract.Meets (code call) post ())
    (reachable : Reachable machine code shared config) :
    ∀ task ∈ config.tasks, ∀ program, task.program = some program →
      contract.Meets program post () := by
  induction reachable with
  | refl =>
    intro task member
    cases member
  | tail reached step ih =>
    intro task member program running
    cases step with
    | spawn call =>
      cases List.mem_append.mp member with
      | inl old => exact ih task old program running
      | inr new =>
        rw [List.mem_singleton.mp new] at running
        cases running
        exact codes call
    | @act index task' op resume answer shared' own' present asks exec =>
      cases List.mem_or_eq_of_mem_set member with
      | inl other => exact ih task other program running
      | inr acted =>
        subst acted
        cases running
        have step := answered reached present asks exec
        exact (ih task' (List.mem_of_getElem? present) _ asks).2 answer () step
    | @drop index task' present =>
      cases List.mem_or_eq_of_mem_set member with
      | inl other => exact ih task other program running
      | inr dropped =>
        subst dropped
        cases running

/-- What code asks whatever it is answered, it asks in every interleaving. -/
theorem Reachable.asks {contract : Contract Op Answer Unit} {post : α → Unit → Prop}
    (any : ∀ op answer, contract.step () op answer ())
    (codes : ∀ call, contract.Meets (code call) post ()) {shared : Shared}
    (reachable : Reachable machine code shared config) :
    ∀ task ∈ config.tasks, ∀ program, task.program = some program →
      contract.Meets program post () :=
  reachable.asks_when (fun _ _ _ _ => any _ _) codes

end Soundness

end Nausicaa.Interaction
