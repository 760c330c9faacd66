import Mathlib.Order.Basic

/-! # Programs that ask their surroundings

A `Program` is sequential code seen from outside: a tree of operations whose
answers come from the surroundings.  Nothing is assumed about an answer until a
`Contract` says what it can be, so one program can be read against a store, a
scheduler or an adversary.

`Contract.Meets` is the weakest precondition of a program: every operation it
issues is permitted where it is issued, and every result satisfies the
postcondition, whatever the answers the contract allows.
-/

namespace Nausicaa.Interaction

/-- Code over the operations `Op`, where `Answer op` is what `op` gives back. -/
inductive Program (Op : Type) (Answer : Op → Type) (α : Type) where
  | done (result : α)
  | ask (op : Op) (resume : Answer op → Program Op Answer α)

namespace Program

variable {Op : Type} {Answer : Op → Type} {α β : Type}

def bind : Program Op Answer α → (α → Program Op Answer β) → Program Op Answer β
  | .done result, next => next result
  | .ask op resume, next => .ask op fun answer => (resume answer).bind next

instance : Monad (Program Op Answer) where
  pure := .done
  bind := bind

@[simp] theorem pure_eq (result : α) : (pure result : Program Op Answer α) = .done result := rfl

@[simp] theorem done_bind (result : α) (next : α → Program Op Answer β) :
    (Program.done result >>= next) = next result := rfl

@[simp] theorem ask_bind (op : Op) (resume : Answer op → Program Op Answer α)
    (next : α → Program Op Answer β) :
    (Program.ask op resume >>= next) = .ask op fun answer => resume answer >>= next := rfl

instance : LawfulMonad (Program Op Answer) := LawfulMonad.mk' _
  (by
    intro α program
    induction program with
    | done result => rfl
    | ask op resume ih => exact congrArg (Program.ask op) (funext ih))
  (by intro α β result next; rfl)
  (by
    intro α β γ program next last
    induction program with
    | done result => rfl
    | ask op resume ih => exact congrArg (Program.ask op) (funext ih))

/-- Run a program against a handler of its operations; an operation that gets no
answer is where the run is cut. -/
def run {State : Type} (handle : State → (op : Op) → Option (Answer op) × State) :
    Program Op Answer α → State → Option α × State
  | .done result, state => (some result, state)
  | .ask op resume, state =>
    match handle state op with
    | (none, state') => (none, state')
    | (some answer, state') => (resume answer).run handle state'

theorem run_bind {State : Type} (handle : State → (op : Op) → Option (Answer op) × State)
    (program : Program Op Answer α) (next : α → Program Op Answer β) (state : State) :
    (program >>= next).run handle state =
      match program.run handle state with
      | (none, state') => (none, state')
      | (some result, state') => (next result).run handle state' := by
  induction program generalizing state with
  | done result => rfl
  | ask op resume ih =>
    rw [ask_bind, run, run]
    cases handle state op with
    | mk answer state' =>
      cases answer with
      | none => rfl
      | some answer => exact ih answer state'

/-- Run a program against surroundings that answer every operation. -/
def eval {State : Type} (serve : State → (op : Op) → Answer op × State) :
    Program Op Answer α → State → α × State
  | .done result, state => (result, state)
  | .ask op resume, state => (resume (serve state op).1).eval serve (serve state op).2

end Program

/-- Code that may stop early with an error, as `?` does. -/
abbrev Fallible (Op : Type) (Answer : Op → Type) (ε : Type) :=
  ExceptT ε (Program Op Answer)

/-- Issue one operation and hand back its answer. -/
def request {Op : Type} {Answer : Op → Type} {ε : Type} (op : Op) :
    Fallible Op Answer ε (Answer op) :=
  ExceptT.mk (.ask op fun answer => .done (.ok answer))

/-- Run `code` and hand back how it ended, error or not. -/
def outcome {Op : Type} {Answer : Op → Type} {ε ε' α : Type} (code : Fallible Op Answer ε α) :
    Fallible Op Answer ε' (Except ε α) :=
  ExceptT.lift code.run

/-- Wrap the errors of `code`, as `?` does through `From`. -/
def mapError {Op : Type} {Answer : Op → Type} {ε ε' α : Type} (wrap : ε → ε')
    (code : Fallible Op Answer ε α) : Fallible Op Answer ε' α := do
  match ← outcome code with
  | .ok value => pure value
  | .error error => throw (wrap error)

/-- What a state permits the code to ask, and how an answer may change the state. -/
structure Contract (Op : Type) (Answer : Op → Type) (State : Type) where
  permit : State → Op → Prop
  step : State → (op : Op) → Answer op → State → Prop

namespace Contract

variable {Op : Type} {Answer : Op → Type} {State α β ε : Type}
variable (contract : Contract Op Answer State)

def Meets : Program Op Answer α → (α → State → Prop) → State → Prop
  | .done result, post, state => post result state
  | .ask op resume, post, state =>
    contract.permit state op ∧
      ∀ answer state', contract.step state op answer state' → Meets (resume answer) post state'

variable {contract}

theorem Meets.mono {program : Program Op Answer α} {post post' : α → State → Prop}
    {state : State} (meets : contract.Meets program post state)
    (weaken : ∀ result state, post result state → post' result state) :
    contract.Meets program post' state := by
  induction program generalizing state with
  | done result => exact weaken _ _ meets
  | ask op resume ih =>
    refine ⟨meets.1, ?_⟩
    intro answer state' step
    exact ih answer (meets.2 answer state' step)

theorem Meets.bind {program : Program Op Answer α} {next : α → Program Op Answer β}
    {post : β → State → Prop} {state : State}
    (meets : contract.Meets program (fun result => contract.Meets (next result) post) state) :
    contract.Meets (program >>= next) post state := by
  induction program generalizing state with
  | done result => exact meets
  | ask op resume ih =>
    refine ⟨meets.1, ?_⟩
    intro answer state' step
    exact ih answer (meets.2 answer state' step)

/-- Surroundings that answer as the contract allows. -/
theorem Meets.eval {serve : State → (op : Op) → Answer op × State} {program : Program Op Answer α}
    {post : α → State → Prop} {state : State} (meets : contract.Meets program post state)
    (allowed : ∀ state op, contract.step state op (serve state op).1 (serve state op).2) :
    post (program.eval serve state).1 (program.eval serve state).2 := by
  induction program generalizing state with
  | done result => exact meets
  | ask op resume ih => exact ih _ (meets.2 _ _ (allowed state op))

/-- Surroundings that answer as the contract allows, until they give no answer. -/
theorem Meets.run {handle : State → (op : Op) → Option (Answer op) × State}
    {program : Program Op Answer α} {post : α → State → Prop} {state state' : State} {result : α}
    (meets : contract.Meets program post state)
    (allowed : ∀ state op answer, (handle state op).1 = some answer →
      contract.step state op answer (handle state op).2)
    (ran : program.run handle state = (some result, state')) : post result state' := by
  induction program generalizing state with
  | done result' =>
    cases ran
    exact meets
  | ask op resume ih =>
    rw [Program.run] at ran
    have step := allowed state op
    revert ran step
    cases handle state op with
    | mk answer middle =>
      cases answer with
      | none =>
        intro ran
        cases ran
      | some answer =>
        intro ran step
        exact ih answer (meets.2 answer middle (step answer rfl)) ran

/-- Surroundings that permit everything and may answer anything. -/
def anything : Contract Op Answer Unit where
  permit _ _ := True
  step _ _ _ _ := True

/-- In these surroundings the program can end with this result, in this state. -/
inductive Ends (contract : Contract Op Answer State) :
    Program Op Answer α → State → α → State → Prop where
  | done (result : α) (state : State) : Ends contract (.done result) state result state
  | ask {op : Op} {resume : Answer op → Program Op Answer α} {state state' state'' : State}
      {result : α} (answer : Answer op) (step : contract.step state op answer state')
      (ends : Ends contract (resume answer) state' result state'') :
      Ends contract (.ask op resume) state result state''

theorem Meets.ends {program : Program Op Answer α} {post : α → State → Prop}
    {state state' : State} {result : α} (meets : contract.Meets program post state)
    (ends : contract.Ends program state result state') : post result state' := by
  induction ends with
  | done result state => exact meets
  | ask answer step _ ih => exact ih (meets.2 answer _ step)

/-- Where each answer is one that the contract allows, a run is one way to end. -/
theorem Ends.eval {serve : State → (op : Op) → Answer op × State}
    (allowed : ∀ state op, contract.step state op (serve state op).1 (serve state op).2)
    (program : Program Op Answer α) (state : State) :
    contract.Ends program state (program.eval serve state).1 (program.eval serve state).2 := by
  induction program generalizing state with
  | done result => exact .done result state
  | ask op resume ih => exact .ask _ (allowed state op) (ih _ _)

variable (contract)

/-- `Meets` for code that may fail: one postcondition for each way out. -/
def Tries (code : Fallible Op Answer ε α) (ok : α → State → Prop) (failed : ε → State → Prop)
    (state : State) : Prop :=
  contract.Meets code.run
    (fun result state' => match result with
      | .ok value => ok value state'
      | .error error => failed error state') state

variable {contract}
variable {ok ok' : α → State → Prop} {failed failed' : ε → State → Prop} {state : State}

theorem Tries.pure {value : α} (holds : ok value state) :
    contract.Tries (Pure.pure value : Fallible Op Answer ε α) ok failed state := holds

theorem Tries.throw {error : ε} (holds : failed error state) :
    contract.Tries (MonadExcept.throw error : Fallible Op Answer ε α) ok failed state := holds

theorem Tries.request {op : Op} {ok : Answer op → State → Prop}
    (permitted : contract.permit state op)
    (answered : ∀ answer state', contract.step state op answer state' → ok answer state') :
    contract.Tries (Interaction.request op) ok failed state := ⟨permitted, answered⟩

theorem Tries.mono {code : Fallible Op Answer ε α} (tries : contract.Tries code ok failed state)
    (weaken : ∀ value state, ok value state → ok' value state)
    (weakenFailed : ∀ error state, failed error state → failed' error state) :
    contract.Tries code ok' failed' state := by
  apply Meets.mono tries
  intro result state' holds
  cases result with
  | ok value => exact weaken _ _ holds
  | error error => exact weakenFailed _ _ holds

theorem Tries.bind {code : Fallible Op Answer ε α} {next : α → Fallible Op Answer ε β}
    {ok : β → State → Prop}
    (tries : contract.Tries code (fun value => contract.Tries (next value) ok failed)
      failed state) :
    contract.Tries (code >>= next) ok failed state := by
  apply Meets.bind
  apply Meets.mono tries
  intro result state' holds
  cases result with
  | ok value => exact holds
  | error error => exact holds

theorem Tries.outcome {ε' : Type} {code : Fallible Op Answer ε α}
    {ok : Except ε α → State → Prop} {failed : ε' → State → Prop}
    (tries : contract.Tries code (fun value => ok (.ok value))
      (fun error => ok (.error error)) state) :
    contract.Tries (Interaction.outcome code) ok failed state := by
  apply Meets.bind
  apply Meets.mono tries
  intro result state' holds
  cases result with
  | ok value => exact holds
  | error error => exact holds

theorem Tries.mapError {ε' : Type} {code : Fallible Op Answer ε α} {wrap : ε → ε'}
    {failed : ε' → State → Prop}
    (tries : contract.Tries code ok (fun error => failed (wrap error)) state) :
    contract.Tries (Interaction.mapError wrap code) ok failed state := by
  apply Tries.bind
  apply Tries.outcome
  apply Tries.mono tries
  · intro value state' holds
    exact Tries.pure holds
  · intro error state' holds
    exact Tries.throw holds

variable (contract)

/-- Code that ends with this result, whatever the answers are. -/
def Returns (code : Fallible Op Answer ε α) (result : Except ε α) (state : State) : Prop :=
  contract.Tries code (fun value _ => result = .ok value) (fun error _ => result = .error error)
    state

variable {contract}

/-- Where everything is permitted, only the result matters. -/
theorem Meets.permissive {program : Program Op Answer α} {post : α → State → Prop} {state : State}
    (permits : ∀ state op, contract.permit state op) (holds : ∀ result state, post result state) :
    contract.Meets program post state := by
  induction program generalizing state with
  | done result => exact holds result state
  | ask op resume ih => exact ⟨permits state op, fun answer _ _ => ih answer⟩

/-- A contract that permits what two others do and answers as both of them allow. -/
theorem Meets.both {first second both : Contract Op Answer State}
    {program : Program Op Answer α} {post post' : α → State → Prop} {state : State}
    (permits : ∀ state op, first.permit state op → second.permit state op → both.permit state op)
    (steps : ∀ state op answer state', both.step state op answer state' →
      first.step state op answer state' ∧ second.step state op answer state')
    (meets : first.Meets program post state) (meets' : second.Meets program post' state) :
    both.Meets program (fun result state => post result state ∧ post' result state) state := by
  induction program generalizing state with
  | done result => exact ⟨meets, meets'⟩
  | ask op resume ih =>
    constructor
    · exact permits state op meets.1 meets'.1
    · intro answer state' step
      obtain ⟨step, step'⟩ := steps state op answer state' step
      exact ih answer (meets.2 answer state' step) (meets'.2 answer state' step')

/-! ### Invariants of code -/

variable (contract)

/-- Code that keeps an invariant, whichever way it ends. -/
def Keeps (invariant : State → Prop) (code : Fallible Op Answer ε α) : Prop :=
  ∀ state, invariant state →
    contract.Tries code (fun _ => invariant) (fun _ => invariant) state

variable {contract}
variable {invariant : State → Prop}

theorem Keeps.pure (value : α) :
    contract.Keeps invariant (Pure.pure value : Fallible Op Answer ε α) := by
  intro state holds
  exact Tries.pure holds

theorem Keeps.throw (error : ε) :
    contract.Keeps invariant (MonadExcept.throw error : Fallible Op Answer ε α) := by
  intro state holds
  exact Tries.throw holds

theorem Keeps.bind {code : Fallible Op Answer ε α} {next : α → Fallible Op Answer ε β}
    (keeps : contract.Keeps invariant code)
    (continues : ∀ value, contract.Keeps invariant (next value)) :
    contract.Keeps invariant (code >>= next) := by
  intro state holds
  apply Tries.bind
  apply Tries.mono (keeps state holds)
  · intro value state' holds'
    exact continues value state' holds'
  · intro error state' holds'
    exact holds'

theorem Keeps.request {op : Op} (permits : ∀ state, invariant state → contract.permit state op)
    (kept : ∀ state answer state', invariant state → contract.step state op answer state' →
      invariant state') :
    contract.Keeps invariant (Interaction.request op : Fallible Op Answer ε (Answer op)) := by
  intro state holds
  apply Tries.request (permits state holds)
  intro answer state' step
  exact kept state answer state' holds step

theorem Keeps.mapError {ε' : Type} {code : Fallible Op Answer ε α} {wrap : ε → ε'}
    (keeps : contract.Keeps invariant code) :
    contract.Keeps invariant (Interaction.mapError wrap code) := by
  intro state holds
  exact Tries.mapError (keeps state holds)

theorem Keeps.outcome {ε' : Type} {code : Fallible Op Answer ε α}
    (keeps : contract.Keeps invariant code) :
    contract.Keeps invariant (Interaction.outcome code : Fallible Op Answer ε' (Except ε α)) := by
  intro state holds
  exact Tries.outcome (keeps state holds)

/-! ### Invariants of code that goes on -/

variable (contract)

/-- Code that keeps an invariant when it goes on, and says how it stopped when not. -/
def Carries (invariant : State → Prop) (failed : ε → State → Prop)
    (code : Fallible Op Answer ε α) : Prop :=
  ∀ state, invariant state → contract.Tries code (fun _ => invariant) failed state

variable {contract}

theorem Carries.pure (value : α) :
    contract.Carries invariant failed (Pure.pure value : Fallible Op Answer ε α) := by
  intro state holds
  exact Tries.pure holds

theorem Carries.throw {error : ε} (stops : ∀ state, invariant state → failed error state) :
    contract.Carries invariant failed (MonadExcept.throw error : Fallible Op Answer ε α) := by
  intro state holds
  exact Tries.throw (stops state holds)

theorem Carries.bind {code : Fallible Op Answer ε α} {next : α → Fallible Op Answer ε β}
    (carries : contract.Carries invariant failed code)
    (continues : ∀ value, contract.Carries invariant failed (next value)) :
    contract.Carries invariant failed (code >>= next) := by
  intro state holds
  apply Tries.bind
  apply Tries.mono (carries state holds)
  · intro value state' holds'
    exact continues value state' holds'
  · intro error state' holds'
    exact holds'

/-- What follows code that carries an invariant may end in its own way. -/
theorem Carries.then_tries {code : Fallible Op Answer ε α} {next : α → Fallible Op Answer ε β}
    {ok : β → State → Prop} (carries : contract.Carries invariant failed code)
    (continues : ∀ value state', invariant state' → contract.Tries (next value) ok failed state')
    (holds : invariant state) : contract.Tries (code >>= next) ok failed state := by
  apply Tries.bind
  apply Tries.mono (carries state holds)
  · intro value state' holds'
    exact continues value state' holds'
  · intro error state' holds'
    exact holds'

end Contract

end Nausicaa.Interaction
