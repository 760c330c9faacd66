import Mathlib.Algebra.Group.Nat.Defs
import Nausicaa.Openai.Request
import Nausicaa.Openai.Response

/-! # The request budget

`with_request_budget` of `lib.rs`, and the two ways to the transport: `complete_blocking` and
`asynchronous::complete`.  What a transport is handed has been counted, and its count and its cap on
the output fit the context window; everything else is refused without a retry (`request_budget`). -/

namespace Nausicaa.Openai

open Core
open Json (Value)
open Json.Value (asNat ofMap)
open Std (TreeMap)

structure HttpResponse where
  status : Nat
  body : Value

def TransportError.toString : TransportError → String
  | .io message => "HTTP transport I/O error: " ++ message
  | .protocol message => "HTTP transport protocol error: " ++ message
  | .http status body => s!"HTTP endpoint returned status {status}: " ++ body

namespace OpenAiCompatibleAdapter

variable (adapter : OpenAiCompatibleAdapter) (serialize : Value → String)

/-! ## From the budget to the transport -/

def withRequestBudget (budget : RequestBudget) (counter : RequestTokenCounter) :
    Except ModelError OpenAiCompatibleAdapter :=
  if refused : budget.reservedOutputTokens = 0 ∨
      budget.reservedOutputTokens ≥ budget.contextWindowTokens then
    .error ⟨"request budget needs positive input capacity and output reservation", false⟩
  else
    .ok { adapter with
      requestBudget := some (⟨budget, by
        simp only [not_or, ge_iff_le, Nat.not_le] at refused
        exact ⟨Nat.pos_of_ne_zero refused.1, refused.2⟩⟩, counter) }

/-- What a transport was handed, and what came of it. -/
structure Completion where
  posted : List HttpRequest
  result : Except ModelError ModelResponse

section Completions

variable (parse : Parser) (post : HttpRequest → Except TransportError HttpResponse)
variable (request : ModelRequest)

def completeBlocking : Completion :=
  match adapter.httpRequest serialize request with
  | .error error => ⟨[], .error error⟩
  | .ok http =>
    match post http with
    | .error error => ⟨[http], .error ⟨error.toString, true⟩⟩
    | .ok response => ⟨[http], parseResponse parse response.body⟩

def cancelledError : ModelError := ⟨(TransportError.io "request cancelled").toString, false⟩

def TransportError.retryable : TransportError → Bool
  | .io _ => true
  | .http status _ => status == 429 || status ≥ 500
  | .protocol _ => false

/-- `asynchronous::complete`, with the readings of the cancellation before and after the request. -/
def completeAsync (before after : Bool) : Completion :=
  if before then
    ⟨[], .error cancelledError⟩
  else
    match adapter.httpRequest serialize request with
    | .error error => ⟨[], .error error⟩
    | .ok http =>
      match post http with
      | .error error =>
        ⟨[http], .error ⟨error.toString, !after && TransportError.retryable error⟩⟩
      | .ok response =>
        ⟨[http], if after then .error cancelledError else parseResponse parse response.body⟩

end Completions

end OpenAiCompatibleAdapter

/-! ## Bodies within a budget -/

/-- The two members that cap the output, in either order. -/
def AreCaps (key other : String) : Prop :=
  key = "max_tokens" ∧ other = "max_completion_tokens" ∨
    key = "max_completion_tokens" ∧ other = "max_tokens"

/-- The body has one cap on the output, and with it the input fits the window. -/
def WithinBudget (budget : RequestBudget) (counter : RequestTokenCounter) (body : Value) : Prop :=
  ∃ key other cap input, AreCaps key other ∧ body.get key = some (.number (.posInt cap)) ∧
    body.get other = none ∧ 1 ≤ cap ∧ cap ≤ budget.reservedOutputTokens ∧
    counter body = .ok input ∧ input + cap ≤ budget.contextWindowTokens

section Budget

variable {adapter budgeted : OpenAiCompatibleAdapter} {serialize : Value → String}
variable {budget : RequestBudget} {counter counter' : RequestTokenCounter} {request : ModelRequest}
variable {body body' : TreeMap String Value} {error : ModelError} {key other : String}

open OpenAiCompatibleAdapter

/-- The request takes the caps from the extensions. -/
theorem caps_kept (caps : AreCaps key other) :
    (adapter.streamingBody (adapter.requestBody serialize request))[key]? =
      adapter.config.extraBody[key]? := by
  unfold streamingBody requestBody
  obtain ⟨rfl, _⟩ | ⟨rfl, _⟩ := caps <;> by_cases streaming : adapter.streaming = true <;>
    by_cases nothing : request.tools.isEmpty = true <;>
      simp [streaming, nothing, TreeMap.getElem?_insert, TreeMap.getElem?_erase]

theorem countInput_input (counted : countInput budget counter body = .ok body') :
    body' = body ∧ ∃ input, counter (ofMap body) = .ok input ∧
      input ≤ budget.contextWindowTokens - budget.reservedOutputTokens := by
  refine ⟨countInput_ok counted, ?_⟩
  unfold countInput at counted
  split at counted
  · cases counted
  next input shown =>
    dsimp only at counted
    split at counted
    · cases counted
    next fits => exact ⟨input, shown, Nat.le_of_not_gt fits⟩

theorem countInput_error (refused : countInput budget counter body = .error error) :
    error.retryable = false := by
  unfold countInput at refused
  split at refused
  · cases refused
    rfl
  · dsimp only at refused
    split at refused
    · cases refused
      rfl
    · cases refused

/-- The counter is asked about this body and no other value. -/
theorem countInput_congr (counted : countInput budget counter body = .ok body')
    (same : counter' (ofMap body') = counter (ofMap body')) :
    countInput budget counter' body = .ok body' := by
  rw [countInput_ok counted] at same
  unfold countInput at counted ⊢
  rw [same]
  exact counted

theorem asNat_some {value : Value} {number : Nat} (read : asNat value = some number) :
    value = .number (.posInt number) := by
  cases value with
  | number value =>
    cases value with
    | posInt value =>
      cases read
      rfl
    | _ => cases read
  | _ => cases read

theorem caps_of_or {cap : Value} (conflict : ¬ (body["max_completion_tokens"]?.isSome &&
      body["max_tokens"]?.isSome) = true)
    (found : body["max_completion_tokens"]?.or body["max_tokens"]? = some cap) :
    ∃ key other, AreCaps key other ∧ body[key]? = some cap ∧ body[other]? = none := by
  cases modern : body["max_completion_tokens"]? with
  | some cap' =>
    rw [modern] at conflict found
    cases found
    refine ⟨_, _, .inr ⟨rfl, rfl⟩, modern, ?_⟩
    cases legacy : body["max_tokens"]? with
    | none => rfl
    | some _ => simp [legacy] at conflict
  | none =>
    rw [modern, Option.none_or] at found
    exact ⟨_, _, .inl ⟨rfl, rfl⟩, found, modern⟩

/-- A body that keeps a budget, from a body of the configuration. -/
structure Keeps (budget : RequestBudget) (counter : RequestTokenCounter)
    (body body' : TreeMap String Value) (key other : String) (cap input : Nat) : Prop where
  caps : AreCaps key other
  present : body'[key]? = some (.number (.posInt cap))
  absent : body'[other]? = none
  positive : 1 ≤ cap
  reserved : cap ≤ budget.reservedOutputTokens
  counted : counter (ofMap body') = .ok input
  fits : input ≤ budget.contextWindowTokens - budget.reservedOutputTokens
  unset : body["max_tokens"]? = none → body["max_completion_tokens"]? = none →
    key = "max_completion_tokens" ∧ cap = budget.reservedOutputTokens

theorem budgetedBody_keeps {budget : { budget : RequestBudget // budget.Accepted }}
    (installed : adapter.requestBudget = some (budget, counter))
    (made : adapter.budgetedBody body = .ok body') :
    ∃ key other cap input, Keeps budget.val counter body body' key other cap input := by
  unfold budgetedBody at made
  rw [installed] at made
  dsimp only at made
  split at made
  next => cases made
  next conflict =>
    split at made
    next value found =>
      split at made
      next bounded =>
        obtain ⟨rfl, input, counted, fits⟩ := countInput_input made
        obtain ⟨key, other, caps, present, absent⟩ := caps_of_or conflict found
        obtain ⟨cap, read, bounds⟩ := (Option.any_eq_true _ _).mp bounded
        obtain ⟨positive, reserved⟩ := of_decide_eq_true bounds
        refine ⟨key, other, cap, input, caps, ?_, absent, positive, reserved, counted, fits, ?_⟩
        · rw [present, asNat_some read]
        · intro legacy modern
          rw [legacy, modern] at found
          cases found
      next => cases made
    next none =>
      obtain ⟨rfl, input, counted, fits⟩ := countInput_input made
      obtain ⟨modern, legacy⟩ := Option.or_eq_none_iff.mp none
      refine ⟨_, _, budget.val.reservedOutputTokens, input, .inr ⟨rfl, rfl⟩, ?_, ?_,
        budget.property.1, Nat.le_refl _, counted, fits, fun _ _ => ⟨rfl, rfl⟩⟩
      · simp
      · simp [TreeMap.getElem?_insert, legacy]

theorem budgetedBody_error {budget : { budget : RequestBudget // budget.Accepted }}
    (installed : adapter.requestBudget = some (budget, counter))
    (refused : adapter.budgetedBody body = .error error) : error.retryable = false := by
  unfold budgetedBody at refused
  rw [installed] at refused
  dsimp only at refused
  split at refused
  next =>
    cases refused
    rfl
  next =>
    split at refused
    next =>
      split at refused
      next => exact countInput_error refused
      next =>
        cases refused
        rfl
    next => exact countInput_error refused

/-- The counter is asked about the body that is made, and about no other value. -/
theorem budgetedBody_congr {budget : { budget : RequestBudget // budget.Accepted }}
    (installed : adapter.requestBudget = some (budget, counter))
    (made : adapter.budgetedBody body = .ok body')
    (same : counter' (ofMap body') = counter (ofMap body')) :
    { adapter with requestBudget := some (budget, counter') }.budgetedBody body = .ok body' := by
  unfold budgetedBody at made ⊢
  rw [installed] at made
  dsimp only at made ⊢
  split at made
  next => cases made
  next conflict =>
    rw [if_neg conflict]
    split at made
    next value found =>
      split at made
      next bounded =>
        rw [if_pos bounded]
        exact countInput_congr made same
      next => cases made
    next => exact countInput_congr made same

/-! ## What is sent -/

/-- The request keeps the budget, and nothing but it was counted and handed to the transport. -/
structure Sends (budgeted : OpenAiCompatibleAdapter) (serialize : Value → String)
    (budget : RequestBudget) (counter : RequestTokenCounter) (request : ModelRequest)
    (http : HttpRequest) : Prop where
  within : WithinBudget budget counter http.body
  unset : budgeted.config.extraBody["max_tokens"]? = none →
    budgeted.config.extraBody["max_completion_tokens"]? = none →
    http.body.get "max_completion_tokens" =
      some (.number (.posInt budget.reservedOutputTokens))
  counted : ∀ (counter' : RequestTokenCounter) (budgeted' : OpenAiCompatibleAdapter),
    counter' http.body = counter http.body →
    budgeted.withRequestBudget budget counter' = .ok budgeted' →
    budgeted'.httpRequest serialize request = .ok http
  blocking : ∀ parse post,
    (budgeted.completeBlocking serialize parse post request).posted = [http]
  async : ∀ parse post after,
    (budgeted.completeAsync serialize parse post request false after).posted = [http]

/-- The request is refused for good before the transport is called. -/
structure Refuses (budgeted : OpenAiCompatibleAdapter) (serialize : Value → String)
    (request : ModelRequest) (error : ModelError) : Prop where
  final : error.retryable = false
  blocking : ∀ parse post,
    budgeted.completeBlocking serialize parse post request = ⟨[], .error error⟩
  async : ∀ parse post after,
    budgeted.completeAsync serialize parse post request false after = ⟨[], .error error⟩

theorem installed_budget (installed : adapter.withRequestBudget budget counter = .ok budgeted) :
    ∃ accepted, budgeted = { adapter with requestBudget := some (⟨budget, accepted⟩, counter) } := by
  unfold withRequestBudget at installed
  split at installed
  next => cases installed
  next =>
    cases installed
    exact ⟨_, rfl⟩

theorem withRequestBudget_accepted (accepted : budget.Accepted) :
    adapter.withRequestBudget budget counter =
      .ok { adapter with requestBudget := some (⟨budget, accepted⟩, counter) } := by
  unfold withRequestBudget
  rw [dif_neg]
  have := accepted.1
  have := accepted.2
  omega

/-- The requests that are handed over where one is made. -/
def made : Except ModelError HttpRequest → List HttpRequest
  | .ok http => [http]
  | .error _ => []

theorem completeBlocking_posted (parse : Parser)
    (post : HttpRequest → Except TransportError HttpResponse) :
    (adapter.completeBlocking serialize parse post request).posted =
      made (adapter.httpRequest serialize request) := by
  unfold completeBlocking
  cases adapter.httpRequest serialize request with
  | error error => rfl
  | ok http =>
    dsimp only
    cases post http <;> rfl

theorem completeAsync_posted (parse : Parser)
    (post : HttpRequest → Except TransportError HttpResponse) (before after : Bool) :
    (adapter.completeAsync serialize parse post request before after).posted =
      if before then [] else made (adapter.httpRequest serialize request) := by
  unfold completeAsync
  cases before with
  | true => rfl
  | false =>
    cases adapter.httpRequest serialize request with
    | error error => rfl
    | ok http =>
      dsimp only
      cases post http <;> rfl

theorem httpRequest_sends (installed : adapter.withRequestBudget budget counter = .ok budgeted)
    {http : HttpRequest} (sent : budgeted.httpRequest serialize request = .ok http) :
    Sends budgeted serialize budget counter request http := by
  obtain ⟨accepted, same⟩ := installed_budget installed
  have known : budgeted.requestBudget = some (⟨budget, accepted⟩, counter) := by rw [same]
  have made := sent
  unfold httpRequest at made
  obtain ⟨body, made, shown⟩ := Fallible.bind_ok.mp made
  obtain ⟨key, other, cap, input, keeps⟩ := budgetedBody_keeps known made
  have contents : http.body = ofMap body := by
    cases shown
    rfl
  have window := accepted.2
  have fits : input ≤ budget.contextWindowTokens - budget.reservedOutputTokens := keeps.fits
  have reserved : cap ≤ budget.reservedOutputTokens := keeps.reserved
  refine ⟨⟨key, other, cap, input, keeps.caps, ?_, ?_, keeps.positive, reserved, ?_, ?_⟩, ?_, ?_,
    ?_, ?_⟩
  · rw [contents, Value.get_ofMap, keeps.present]
  · rw [contents, Value.get_ofMap, keeps.absent]
  · rw [contents, keeps.counted]
  · omega
  · intro legacy modern
    rw [← caps_kept (.inl ⟨rfl, rfl⟩)] at legacy
    rw [← caps_kept (.inr ⟨rfl, rfl⟩)] at modern
    obtain ⟨rfl, rfl⟩ := keeps.unset legacy modern
    rw [contents, Value.get_ofMap, keeps.present]
  · intro counter' budgeted' agrees installed'
    rw [withRequestBudget_accepted accepted] at installed'
    cases installed'
    rw [contents] at agrees
    unfold httpRequest
    refine Fallible.bind_ok.mpr ⟨body, ?_, shown⟩
    exact budgetedBody_congr known made agrees
  · intro parse post
    rw [completeBlocking_posted, sent]
    rfl
  · intro parse post after
    rw [completeAsync_posted, sent]
    rfl

theorem httpRequest_refuses (installed : adapter.withRequestBudget budget counter = .ok budgeted)
    (refused : budgeted.httpRequest serialize request = .error error) :
    Refuses budgeted serialize request error := by
  obtain ⟨accepted, same⟩ := installed_budget installed
  have known : budgeted.requestBudget = some (⟨budget, accepted⟩, counter) := by rw [same]
  refine ⟨?_, ?_, ?_⟩
  · unfold httpRequest at refused
    cases made : budgeted.budgetedBody
        (budgeted.streamingBody (budgeted.requestBody serialize request)) with
    | ok body =>
      rw [made] at refused
      cases refused
    | error error' =>
      rw [made] at refused
      cases refused
      exact budgetedBody_error known made
  · intro parse post
    unfold completeBlocking
    rw [refused]
  · intro parse post after
    simp only [completeAsync, refused, Bool.false_eq_true, ↓reduceIte]

/-! ## A sample -/

namespace Sample

def unbudgeted : OpenAiCompatibleAdapter where
  streaming := false
  config := ⟨"https://example.test", "model", none, none, 120, ∅⟩
  requestBudget := none

/-- Every body is ninety tokens long. -/
def ninety : RequestTokenCounter := fun _ => .ok 90

def hundred : RequestBudget := ⟨100, 10⟩

def exactly : OpenAiCompatibleAdapter :=
  { unbudgeted with requestBudget := some (⟨hundred, by decide, by decide⟩, ninety) }

def hello : ModelRequest := ⟨⟨"thread_1"⟩, ⟨"turn_1"⟩, 0, ⟨[], [.user "hello"]⟩, []⟩

end Sample

/-! ## Results -/

/-- Where a budget was installed, a request that is made fits it and is what was counted, and every
other one is refused for good before the transport is called.  The subtraction does not wrap. -/
theorem request_budget (installed : adapter.withRequestBudget budget counter = .ok budgeted)
    (bounded : budget.contextWindowTokens < 2 ^ 64) :
    (∀ http, budgeted.httpRequest serialize request = .ok http →
      Sends budgeted serialize budget counter request http) ∧
    (∀ error, budgeted.httpRequest serialize request = .error error →
      Refuses budgeted serialize request error) ∧
    (∀ parse post before after, ∀ http ∈
        (budgeted.completeAsync serialize parse post request before after).posted,
      budgeted.httpRequest serialize request = .ok http) ∧
    (UInt64.ofNat budget.contextWindowTokens -
        UInt64.ofNat budget.reservedOutputTokens).toNat + budget.reservedOutputTokens =
      budget.contextWindowTokens := by
  refine ⟨fun http => httpRequest_sends installed, fun error => httpRequest_refuses installed, ?_, ?_⟩
  · intro parse post before after http posted
    rw [completeAsync_posted] at posted
    cases before with
    | true => cases posted
    | false =>
      cases sent : budgeted.httpRequest serialize request with
      | error error =>
        rw [sent] at posted
        cases posted
      | ok http' =>
        rw [sent] at posted
        rw [List.mem_singleton.mp posted]
  · obtain ⟨⟨_, less⟩, _⟩ := installed_budget installed
    have window : (UInt64.ofNat budget.contextWindowTokens).toNat = budget.contextWindowTokens :=
      UInt64.toNat_ofNat_of_lt' bounded
    have reserved : (UInt64.ofNat budget.reservedOutputTokens).toNat =
        budget.reservedOutputTokens := UInt64.toNat_ofNat_of_lt' (Nat.lt_trans less bounded)
    have ordered : UInt64.ofNat budget.reservedOutputTokens ≤
        UInt64.ofNat budget.contextWindowTokens := by
      rw [UInt64.le_iff_toNat_le, window, reserved]
      exact Nat.le_of_lt less
    rw [UInt64.toNat_sub_of_le _ _ ordered, window, reserved]
    exact Nat.sub_add_cancel (Nat.le_of_lt less)

/-- Ninety tokens and a cap of ten fit a window of a hundred. -/
theorem request_budget_boundary : ∃ http,
    Sample.exactly.httpRequest (fun _ => "") Sample.hello = .ok http ∧
      WithinBudget Sample.hundred Sample.ninety http.body ∧
      http.body.get "max_completion_tokens" = some (.number (.posInt 10)) := by
  have installed : Sample.unbudgeted.withRequestBudget Sample.hundred Sample.ninety =
      .ok Sample.exactly := rfl
  obtain ⟨sends, _⟩ : (∀ http, Sample.exactly.httpRequest (fun _ => "") Sample.hello = .ok http →
      Sends Sample.exactly (fun _ => "") Sample.hundred Sample.ninety Sample.hello http) ∧ _ :=
    request_budget installed (by decide)
  have made : (Sample.exactly.httpRequest (fun _ => "") Sample.hello).toBool = true := by decide
  cases sent : Sample.exactly.httpRequest (fun _ => "") Sample.hello with
  | error error =>
    rw [sent] at made
    cases made
  | ok http => exact ⟨http, rfl, (sends http sent).within, (sends http sent).unset rfl rfl⟩

end Budget

end Nausicaa.Openai
