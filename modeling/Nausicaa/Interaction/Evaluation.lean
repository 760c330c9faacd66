import Nausicaa.Interaction.Program

/-! # Evaluation

Code that may fail, on surroundings that answer every operation: one rule for each way to go on. -/

namespace Nausicaa.Interaction

variable {Op : Type} {Answer : Op → Type} {State ε ε' α β : Type}
variable (serve : State → (op : Op) → Answer op × State)

theorem Program.eval_bind (program : Program Op Answer α) (next : α → Program Op Answer β)
    (state : State) : (program >>= next).eval serve state =
      (next (program.eval serve state).1).eval serve (program.eval serve state).2 := by
  induction program generalizing state with
  | done result => rfl
  | ask op resume ih => exact ih _ _

/-- How the code ends, and the state that it leaves. -/
def evaluate (code : Fallible Op Answer ε α) (state : State) : Except ε α × State :=
  code.run.eval serve state

variable {serve} {state state' : State}

@[simp] theorem evaluate_pure (value : α) :
    evaluate serve (pure value : Fallible Op Answer ε α) state = (.ok value, state) := rfl

@[simp] theorem evaluate_throw (error : ε) :
    evaluate serve (throw error : Fallible Op Answer ε α) state = (.error error, state) := rfl

@[simp] theorem evaluate_request (op : Op) :
    evaluate serve (request op : Fallible Op Answer ε (Answer op)) state =
      (.ok (serve state op).1, (serve state op).2) := rfl

theorem evaluate_bind_eq (code : Fallible Op Answer ε α) (next : α → Fallible Op Answer ε β) :
    evaluate serve (code >>= next) state =
      match evaluate serve code state with
      | (.ok value, state') => evaluate serve (next value) state'
      | (.error error, state') => (.error error, state') := by
  show Program.eval serve (ExceptT.run code >>= ExceptT.bindCont next) state = _
  rw [Program.eval_bind]
  unfold evaluate
  cases ExceptT.run code |>.eval serve state with
  | mk result state' =>
    cases result with
    | ok value => rfl
    | error error => rfl

theorem evaluate_bind {code : Fallible Op Answer ε α} {value : α}
    (ran : evaluate serve code state = (.ok value, state')) (next : α → Fallible Op Answer ε β) :
    evaluate serve (code >>= next) state = evaluate serve (next value) state' := by
  rw [evaluate_bind_eq, ran]

theorem evaluate_stop {code : Fallible Op Answer ε α} {error : ε}
    (ran : evaluate serve code state = (.error error, state'))
    (next : α → Fallible Op Answer ε β) :
    evaluate serve (code >>= next) state = (.error error, state') := by
  rw [evaluate_bind_eq, ran]

/-- What was run before something that ended well. -/
theorem evaluate_bind_ok {code : Fallible Op Answer ε α} {next : α → Fallible Op Answer ε β}
    {value : β} (ran : (evaluate serve (code >>= next) state).1 = .ok value) :
    ∃ middle state', evaluate serve code state = (.ok middle, state') ∧
      (evaluate serve (next middle) state').1 = .ok value := by
  rw [evaluate_bind_eq] at ran
  cases first : evaluate serve code state with
  | mk result state' =>
    rw [first] at ran
    cases result with
    | ok middle => exact ⟨middle, state', rfl, ran⟩
    | error error => cases ran

theorem evaluate_mapError {code : Fallible Op Answer ε α} {result : Except ε α} (wrap : ε → ε')
    (ran : evaluate serve code state = (result, state')) :
    evaluate serve (mapError wrap code) state = (result.mapError wrap, state') := by
  have lifted : evaluate serve (outcome code : Fallible Op Answer ε' (Except ε α)) state =
      (.ok result, state') := by
    show Program.eval serve (ExceptT.run code >>= fun result => Program.done (Except.ok result))
      state = _
    rw [Program.eval_bind, show Program.eval serve (ExceptT.run code) state = (result, state') from ran]
    rfl
  rw [mapError, evaluate_bind lifted]
  cases result with
  | ok value => rfl
  | error error => rfl

end Nausicaa.Interaction
