import Nausicaa.Openai.Budget
import Nausicaa.Tui.Progress

/-! # What an observer sees of a request

`asynchronous::complete` and the closure of `worker::start` as code that notifies the observer.
What it sees of a request is its start, the texts, and one end that tells how the request went, also
when the future is dropped (`Asynchronous.complete_observed`).  A worker that panics tells no end
(`Worker.closure_observed`). -/

namespace Nausicaa.Openai

open Core (ModelError ModelRequest ModelResponse)
open Interaction (Contract Fallible request)
open Json (Value)
open Tui (ModelProgress RequestTimings)

/-! ## The code -/

/-- What a transport does next.  Its future can be dropped while it is awaited, and one that runs on
a thread of its own can panic. -/
inductive Posted where
  | text (text : String)
  | returned (result : Except TransportError HttpResponse) (timings : RequestTimings)
  | interrupted

inductive ProgressOp where
  | notify (progress : ModelProgress)
  | isCancelled
  /-- In milliseconds. -/
  | elapsed
  | post (http : HttpRequest)
  | next
  /-- One more text than are taken. -/
  | more

abbrev ProgressOp.Answer : ProgressOp → Type
  | .isCancelled => Bool
  | .elapsed => Nat
  | .notify _ | .post _ => Unit
  | .next => Posted
  | .more => Empty

/-- The code, and that it was interrupted. -/
abbrev ProgressCode := Fallible ProgressOp ProgressOp.Answer Unit

/-- `RequestTimings::default()`. -/
def defaultTimings : RequestTimings := ⟨none, none, none, none, none, 0⟩

/-- What came of a request, with its timings and with the time of the first text. -/
structure Attempted (α : Type) where
  result : α
  timings : RequestTimings
  firstText : Option Nat

/-- The transport, which hands its texts to `on_text`; some texts are taken. -/
def awaitPosted : Nat → Option Nat →
    ProgressCode (Option (Attempted (Except TransportError HttpResponse)))
  | 0, _ => do
    let never : Empty ← request ProgressOp.more
    nomatch never
  | turns + 1, firstText => do
    let posted : Posted ← request ProgressOp.next
    match posted with
    | .text text =>
      let now : Nat ← request ProgressOp.elapsed
      request (ProgressOp.notify (.textDelta text))
      awaitPosted turns (some (firstText.getD now))
    | .returned result timings => return some ⟨result, timings, firstText⟩
    | .interrupted => return none

/-- The end of a request, as it is told. -/
def tell (timings : RequestTimings) (outcome : String) : ProgressCode Unit := do
  let total : Nat ← request ProgressOp.elapsed
  request (ProgressOp.notify (.finished { timings with totalMs := total } outcome))

/-- What is told of a result that is there. -/
def settle (attempted : Attempted (Except ModelError ModelResponse)) :
    ProgressCode (Except ModelError ModelResponse) := do
  let cancelled : Bool ← request ProgressOp.isCancelled
  let outcome := if cancelled then "cancelled" else if attempted.result.isOk then "completed"
    else "failed"
  tell { attempted.timings with firstTextMs := attempted.firstText } outcome
  return attempted.result

section Completions

variable (adapter : OpenAiCompatibleAdapter) (serialize : Value → String) (parse : Parser)
variable (turns : Nat) (model : ModelRequest)

namespace Asynchronous

/-- The inner block; `none` where the future is dropped. -/
def attempt : ProgressCode (Option (Attempted (Except ModelError ModelResponse))) := do
  let cancelled : Bool ← request ProgressOp.isCancelled
  if cancelled then
    return some ⟨.error OpenAiCompatibleAdapter.cancelledError, defaultTimings, none⟩
  else
    match adapter.httpRequest serialize model with
    | .error error => return some ⟨.error error, defaultTimings, none⟩
    | .ok http =>
      request (ProgressOp.post http)
      match ← awaitPosted turns none with
      | none => return none
      | some ⟨.error error, timings, firstText⟩ =>
        let cancelled : Bool ← request ProgressOp.isCancelled
        let retryable := !cancelled && OpenAiCompatibleAdapter.TransportError.retryable error
        return some ⟨.error ⟨error.toString, retryable⟩, timings, firstText⟩
      | some ⟨.ok response, timings, firstText⟩ =>
        let cancelled : Bool ← request ProgressOp.isCancelled
        let result := if cancelled then .error OpenAiCompatibleAdapter.cancelledError
          else parseResponse parse response.body
        return some ⟨result, timings, firstText⟩

/-- `asynchronous::complete`.  Who drops the future drops the guard, which tells the end. -/
def complete : ProgressCode (Except ModelError ModelResponse) := do
  request (ProgressOp.notify .started)
  match ← attempt adapter serialize parse turns model with
  | some attempted => settle attempted
  | none =>
    tell defaultTimings "cancelled"
    throw ()

end Asynchronous

namespace Worker

/-- `complete_blocking`; `none` where it panics. -/
def attempt : ProgressCode (Option (Attempted (Except ModelError ModelResponse))) := do
  match adapter.httpRequest serialize model with
  | .error error => return some ⟨.error error, defaultTimings, none⟩
  | .ok http =>
    request (ProgressOp.post http)
    match ← awaitPosted turns none with
    | none => return none
    | some ⟨.error error, timings, firstText⟩ =>
      return some ⟨.error ⟨error.toString, true⟩, timings, firstText⟩
    | some ⟨.ok response, timings, firstText⟩ =>
      return some ⟨parseResponse parse response.body, timings, firstText⟩

/-- What the worker runs inside of `catch_unwind`. -/
def closure : ProgressCode (Except ModelError ModelResponse) := do
  request (ProgressOp.notify .started)
  match ← attempt adapter serialize parse turns model with
  | some attempted => settle attempted
  | none => throw ()

end Worker

end Completions

/-! ## What is seen -/

/-- What the observer and the transport were given, what the transport returned, and the token. -/
structure Seen where
  events : List ModelProgress
  posted : List HttpRequest
  returned : Option (Except TransportError HttpResponse)
  cancelled : Bool

/-- A transport that answers every request by what was returned. -/
def Seen.post (seen : Seen) (_ : HttpRequest) : Except TransportError HttpResponse :=
  seen.returned.getD (.error (.io ""))

theorem post_congr {seen seen' : Seen} (same : seen'.returned = seen.returned) :
    seen'.post = seen.post := by
  funext http
  rw [Seen.post, Seen.post, same]

/-- Anything may be answered, but that a token stays cancelled. -/
def watching : Contract ProgressOp ProgressOp.Answer Seen where
  permit _ _ := True
  step
    | seen, .notify progress, _, seen' =>
      seen' = { seen with events := seen.events ++ [progress] }
    | seen, .post http, _, seen' => seen' = { seen with posted := seen.posted ++ [http] }
    | seen, .next, .returned result _, seen' => seen' = { seen with returned := some result }
    | seen, .isCancelled, answer, seen' =>
      (seen.cancelled = true → answer = true) ∧ seen' = { seen with cancelled := answer }
    | seen, _, _, seen' => seen' = seen

/-- A request that was told from its start to its end. -/
def Observed (events : List ModelProgress) (texts : List String) (timings : RequestTimings)
    (outcome : String) : Prop :=
  events = .started :: (texts.map ModelProgress.textDelta ++ [.finished timings outcome])

/-- How a request went. -/
def outcomeOf (cancelled : Bool) (result : Except ModelError ModelResponse) : String :=
  if cancelled then "cancelled" else if result.isOk then "completed" else "failed"

section Watching

variable {adapter : OpenAiCompatibleAdapter} {serialize : Value → String} {parse : Parser}
variable {turns : Nat} {model : ModelRequest} {seen : Seen}

theorem notify_seen {progress : ModelProgress} {ok : Unit → Seen → Prop}
    {failed : Unit → Seen → Prop}
    (holds : ok () { seen with events := seen.events ++ [progress] }) :
    watching.Tries (request (ProgressOp.notify progress)) ok failed seen := by
  apply Contract.Tries.request trivial
  rintro _ _ rfl
  exact holds

theorem awaitPosted_seen {firstText : Option Nat} :
    watching.Tries (awaitPosted turns firstText)
      (fun attempted seen' => ∃ texts : List String,
        seen' = { seen with
          events := seen.events ++ texts.map .textDelta
          returned := (attempted.map Attempted.result).or seen.returned } ∧
        ∀ found, attempted = some found →
          (found.firstText = none ↔ firstText = none ∧ texts = []))
      (fun _ _ => False) seen := by
  induction turns generalizing firstText seen with
  | zero =>
    rw [awaitPosted]
    apply Contract.Tries.bind
    exact Contract.Tries.request trivial fun never _ _ => nomatch never
  | succ turns ih =>
    rw [awaitPosted]
    apply Contract.Tries.bind
    apply Contract.Tries.request trivial
    rintro posted _ next
    cases posted with
    | text text =>
      cases next
      apply Contract.Tries.bind
      apply Contract.Tries.request trivial
      rintro now _ rfl
      apply Contract.Tries.bind
      apply notify_seen
      apply Contract.Tries.mono ih
      · rintro attempted _ ⟨texts, rfl, timed⟩
        refine ⟨text :: texts, by simp, fun found same => ?_⟩
        rw [timed found same]
        simp
      · intro _ _ none
        exact none
    | returned result timings =>
      cases next
      refine Contract.Tries.pure ⟨[], by simp, fun found same => ?_⟩
      cases same
      simp
    | interrupted =>
      cases next
      refine Contract.Tries.pure ⟨[], by simp, ?_⟩
      rintro _ ⟨⟩

/-- The end is told last. -/
theorem tell_seen {timings : RequestTimings} {outcome : String} {ok : Unit → Seen → Prop}
    {failed : Unit → Seen → Prop}
    (holds : ∀ total, ok () { seen with
      events := seen.events ++ [.finished { timings with totalMs := total } outcome] }) :
    watching.Tries (tell timings outcome) ok failed seen := by
  rw [tell]
  apply Contract.Tries.bind
  apply Contract.Tries.request trivial
  rintro total _ rfl
  exact notify_seen (holds total)

theorem settle_seen {attempted : Attempted (Except ModelError ModelResponse)} {texts : List String}
    (begun : seen.events = .started :: texts.map .textDelta)
    (timed : attempted.firstText = none → texts = []) :
    watching.Tries (settle attempted)
      (fun result seen' => result = attempted.result ∧ seen'.posted = seen.posted ∧
        seen'.returned = seen.returned ∧
        (seen.cancelled = true → seen'.cancelled = true) ∧
        ∃ timings, Observed seen'.events texts timings (outcomeOf seen'.cancelled result) ∧
          (timings.firstTextMs = none → texts = []))
      (fun _ _ => False) seen := by
  rw [settle]
  apply Contract.Tries.bind
  apply Contract.Tries.request trivial
  rintro cancelled _ ⟨sticks, rfl⟩
  apply Contract.Tries.bind
  apply tell_seen
  intro total
  refine Contract.Tries.pure ⟨rfl, rfl, rfl, sticks,
    { attempted.timings with firstTextMs := attempted.firstText, totalMs := total }, ?_, timed⟩
  rw [begun]
  rfl

/-- What came of the inner block: the texts so far, and the same as the plain completion. -/
structure Attempt (completion : OpenAiCompatibleAdapter.Completion) (seen seen' : Seen)
    (texts : List String) (attempted : Attempted (Except ModelError ModelResponse)) : Prop where
  events : seen'.events = seen.events ++ texts.map .textDelta
  timed : attempted.firstText = none → texts = []
  posted : seen'.posted = seen.posted ++ completion.posted
  result : attempted.result = completion.result

/-- The block was left while the transport was at work. -/
structure Left (adapter : OpenAiCompatibleAdapter) (serialize : Value → String)
    (model : ModelRequest) (seen seen' : Seen) (texts : List String) : Prop where
  events : seen'.events = seen.events ++ texts.map .textDelta
  posted : ∃ http, adapter.httpRequest serialize model = .ok http ∧
    seen'.posted = seen.posted ++ [http]

namespace Asynchronous

theorem attempt_seen : watching.Tries (attempt adapter serialize parse turns model)
    (fun attempted seen' => ∃ texts, match attempted with
      | some attempted => ∃ before after,
        Attempt (adapter.completeAsync serialize parse seen'.post model before after) seen seen'
          texts attempted ∧ ((before || after) = true → seen'.cancelled = true)
      | none => Left adapter serialize model seen seen' texts)
    (fun _ _ => False) seen := by
  rw [attempt]
  apply Contract.Tries.bind
  apply Contract.Tries.request trivial
  rintro before _ ⟨sticks, rfl⟩
  cases before with
  | true =>
    refine Contract.Tries.pure ⟨[], true, true, ⟨?_, fun _ => rfl, ?_, rfl⟩, fun _ => rfl⟩
    · simp
    · simp [OpenAiCompatibleAdapter.completeAsync]
  | false =>
    cases made : adapter.httpRequest serialize model with
    | error error =>
      refine Contract.Tries.pure ⟨[], false, false, ⟨?_, fun _ => rfl, ?_, ?_⟩, ?_⟩
      · simp
      · simp [OpenAiCompatibleAdapter.completeAsync, made]
      · simp [OpenAiCompatibleAdapter.completeAsync, made]
      · rintro ⟨⟩
    | ok http =>
      apply Contract.Tries.bind
      apply Contract.Tries.request trivial
      rintro _ _ rfl
      apply Contract.Tries.bind
      apply Contract.Tries.mono awaitPosted_seen _ (fun _ _ none => none.elim)
      rintro attempted _ ⟨texts, rfl, timed⟩
      cases attempted with
      | none => exact Contract.Tries.pure ⟨texts, rfl, http, made, rfl⟩
      | some attempted =>
        obtain ⟨result, timings, firstText⟩ := attempted
        have early : firstText = none → texts = [] := fun none => ((timed _ rfl).mp none).2
        cases result with
        | error error =>
          apply Contract.Tries.bind
          apply Contract.Tries.request trivial
          rintro after _ ⟨sticks, rfl⟩
          refine Contract.Tries.pure ⟨texts, false, after, ⟨rfl, early, ?_, ?_⟩, ?_⟩
          · simp [OpenAiCompatibleAdapter.completeAsync, made, Seen.post]
          · simp [OpenAiCompatibleAdapter.completeAsync, made, Seen.post]
          · simp
        | ok response =>
          apply Contract.Tries.bind
          apply Contract.Tries.request trivial
          rintro after _ ⟨sticks, rfl⟩
          refine Contract.Tries.pure ⟨texts, false, after, ⟨rfl, early, ?_, ?_⟩, ?_⟩
          · simp [OpenAiCompatibleAdapter.completeAsync, made, Seen.post]
          · simp [OpenAiCompatibleAdapter.completeAsync, made, Seen.post]
          · simp

end Asynchronous

namespace Worker

theorem attempt_seen : watching.Tries (attempt adapter serialize parse turns model)
    (fun attempted seen' => ∃ texts, seen'.cancelled = seen.cancelled ∧ match attempted with
      | some attempted =>
        Attempt (adapter.completeBlocking serialize parse seen'.post model) seen seen' texts
          attempted
      | none => Left adapter serialize model seen seen' texts)
    (fun _ _ => False) seen := by
  rw [attempt]
  cases made : adapter.httpRequest serialize model with
  | error error =>
    refine Contract.Tries.pure ⟨[], rfl, ?_, fun _ => rfl, ?_, ?_⟩
    · simp
    · simp [OpenAiCompatibleAdapter.completeBlocking, made]
    · simp [OpenAiCompatibleAdapter.completeBlocking, made]
  | ok http =>
    apply Contract.Tries.bind
    apply Contract.Tries.request trivial
    rintro _ _ rfl
    apply Contract.Tries.bind
    apply Contract.Tries.mono awaitPosted_seen _ (fun _ _ none => none.elim)
    rintro attempted _ ⟨texts, rfl, timed⟩
    cases attempted with
    | none => exact Contract.Tries.pure ⟨texts, rfl, rfl, http, made, rfl⟩
    | some attempted =>
      obtain ⟨result, timings, firstText⟩ := attempted
      have early : firstText = none → texts = [] := fun none => ((timed _ rfl).mp none).2
      cases result with
      | error error =>
        refine Contract.Tries.pure ⟨texts, rfl, rfl, early, ?_, ?_⟩
        · simp [OpenAiCompatibleAdapter.completeBlocking, made, Seen.post]
        · simp [OpenAiCompatibleAdapter.completeBlocking, made, Seen.post]
      | ok response =>
        refine Contract.Tries.pure ⟨texts, rfl, rfl, early, ?_, ?_⟩
        · simp [OpenAiCompatibleAdapter.completeBlocking, made, Seen.post]
        · simp [OpenAiCompatibleAdapter.completeBlocking, made, Seen.post]

end Worker

end Watching

end Nausicaa.Openai
