import Nausicaa.Core.Delegation
import Nausicaa.Interaction.Fallible
import Nausicaa.Store.Serde

/-! # Requests

`request_body` and `http_request` of `lib.rs`: the HTTP request that the adapter makes of
a model request, and which tools the model sees in it.  `serialize` is what
`serde_json::to_string` makes of a value. -/

namespace Nausicaa.Openai

open Core
open Json (Value)
open Json.Value (asNat ofMap)
open Std (TreeMap)

structure OpenAiConfig where
  endpoint : String
  model : String
  apiKey : Option String
  organization : Option String
  timeoutSeconds : Nat
  extraBody : TreeMap String Value

/-- Input and reserved output must fit this model's context window. -/
structure RequestBudget where
  contextWindowTokens : Nat
  reservedOutputTokens : Nat

/-- The budgets that `with_request_budget` takes. -/
def RequestBudget.Accepted (budget : RequestBudget) : Prop :=
  0 < budget.reservedOutputTokens ∧ budget.reservedOutputTokens < budget.contextWindowTokens

/-- The trait `RequestTokenCounter`. -/
abbrev RequestTokenCounter := Value → Except ModelError Nat

/-- The adapter without its transport. -/
structure OpenAiCompatibleAdapter where
  streaming : Bool
  config : OpenAiConfig
  requestBudget : Option ({ budget : RequestBudget // budget.Accepted } × RequestTokenCounter)

structure HttpRequest where
  url : String
  headers : TreeMap String String
  body : Value
  timeoutSeconds : Nat

/-! ## Messages and tools -/

def promptMessage (segment : PromptSegment) : Value := .object [
  ("content", .string ("[" ++ segment.name ++ "]\n" ++ segment.text)),
  ("role", .string "system")]

section Messages

variable (serialize : Value → String)

def callMessage (call : ToolCall) : Value := .object [
  ("function", .object [
    ("arguments", .string (serialize call.arguments)),
    ("name", .string call.name)]),
  ("id", .string call.id.value),
  ("type", .string "function")]

def transcriptMessage : TranscriptMessage → Value
  | .user content => .object [("content", .string content), ("role", .string "user")]
  | .assistant content toolCalls => .object ([
    ("content", .string content),
    ("role", .string "assistant")] ++
    if toolCalls.isEmpty then []
    else [("tool_calls", .array (toolCalls.map (callMessage serialize)))])
  | .tool receipt => .object [
    ("content", .string (serialize receipt.toJson)),
    ("role", .string "tool"),
    ("tool_call_id", .string receipt.callId.value)]

end Messages

def toolSchema (tool : ToolDefinition) : Value := .object [
  ("function", .object [
    ("description", .string tool.description),
    ("name", .string tool.name),
    ("parameters", tool.inputSchema)]),
  ("type", .string "function")]

namespace OpenAiCompatibleAdapter

variable (adapter : OpenAiCompatibleAdapter) (serialize : Value → String)

/-! ## The body -/

def requestBody (request : ModelRequest) : TreeMap String Value :=
  let messages := request.context.prompt.map promptMessage ++
    request.context.messages.map (transcriptMessage serialize)
  let tools := request.tools.map toolSchema
  -- Provider extensions cannot restore schemas removed by core policy.
  let body := ((adapter.config.extraBody.erase "tools").erase "functions").erase "function_call"
  let body := if tools.isEmpty then body.erase "tool_choice" else body
  let body := body.insert "model" (.string adapter.config.model)
  let body := body.insert "messages" (.array messages)
  if tools.isEmpty then body else body.insert "tools" (.array tools)

def streamingBody (body : TreeMap String Value) : TreeMap String Value :=
  let body := (body.erase "stream").erase "stream_options"
  if adapter.streaming then
    (body.insert "stream" (.bool true)).insert "stream_options"
      (.object [("include_usage", .bool true)])
  else body

/-- The count of the final body against the budget. -/
def countInput (budget : RequestBudget) (counter : RequestTokenCounter)
    (body : TreeMap String Value) : Except ModelError (TreeMap String Value) :=
  match counter (ofMap body) with
  | .error error => .error ⟨error.message, false⟩
  | .ok input =>
    let maximum := budget.contextWindowTokens - budget.reservedOutputTokens
    if input > maximum then
      .error ⟨s!"final request exceeds input token budget ({input} > {maximum}); " ++
        "compact context or reduce tool schemas", false⟩
    else .ok body

def budgetedBody (body : TreeMap String Value) : Except ModelError (TreeMap String Value) :=
  match adapter.requestBudget with
  | none => .ok body
  | some (budget, counter) =>
    let modern := body["max_completion_tokens"]?
    let legacy := body["max_tokens"]?
    if modern.isSome && legacy.isSome then
      .error ⟨"request budget rejects conflicting output token caps", false⟩
    else
      match modern.or legacy with
      | some cap =>
        if (asNat cap).any fun value => 0 < value ∧ value ≤ budget.val.reservedOutputTokens then
          countInput budget.val counter body
        else
          .error ⟨"output token cap must be positive and within the reservation", false⟩
      | none =>
        countInput budget.val counter (body.insert "max_completion_tokens"
          (.number (.posInt budget.val.reservedOutputTokens)))

def headers : TreeMap String String :=
  let headers := (∅ : TreeMap String String).insert "Content-Type" "application/json"
  let headers := match adapter.config.apiKey with
    | some apiKey => headers.insert "Authorization" ("Bearer " ++ apiKey)
    | none => headers
  match adapter.config.organization with
  | some organization => headers.insert "OpenAI-Organization" organization
  | none => headers

def httpRequest (request : ModelRequest) : Except ModelError HttpRequest := do
  let body ← adapter.budgetedBody (adapter.streamingBody (adapter.requestBody serialize request))
  return {
    url := adapter.config.endpoint
    headers := adapter.headers
    body := ofMap body
    timeoutSeconds := adapter.config.timeoutSeconds }

end OpenAiCompatibleAdapter

/-! ## Tools in the body -/

/-- The members of a body that decide which tools the model sees. -/
def IsToolMember (key : String) : Prop :=
  key = "tools" ∨ key = "functions" ∨ key = "function_call" ∨ key = "tool_choice"

/-- The body shows exactly these tools, and chooses none where there are none. -/
structure ShowsTools (body : Value) (definitions : List ToolDefinition) : Prop where
  tools : body.get "tools" =
    if definitions.isEmpty then none else some (.array (definitions.map toolSchema))
  functions : body.get "functions" = none
  functionCall : body.get "function_call" = none
  toolChoice : definitions.isEmpty = true → body.get "tool_choice" = none

section Body

variable {adapter : OpenAiCompatibleAdapter} {serialize : Value → String}
variable {request : ModelRequest} {body body' : TreeMap String Value} {key : String}

theorem requestBody_shows :
    ShowsTools (ofMap (adapter.requestBody serialize request)) request.tools := by
  unfold OpenAiCompatibleAdapter.requestBody
  by_cases nothing : request.tools.isEmpty = true
  · constructor <;> simp [nothing]
  · constructor <;> simp [nothing]

theorem streamingBody_get (tool : IsToolMember key) :
    (adapter.streamingBody body)[key]? = body[key]? := by
  unfold OpenAiCompatibleAdapter.streamingBody
  obtain rfl | rfl | rfl | rfl := tool <;>
    by_cases streaming : adapter.streaming = true <;>
      simp [streaming, TreeMap.getElem?_insert, TreeMap.getElem?_erase]

theorem countInput_ok {budget : RequestBudget} {counter : RequestTokenCounter}
    (counted : OpenAiCompatibleAdapter.countInput budget counter body = .ok body') :
    body' = body := by
  unfold OpenAiCompatibleAdapter.countInput at counted
  split at counted
  · cases counted
  · dsimp only at counted
    split at counted
    · cases counted
    · cases counted
      rfl

/-- The budget adds nothing but a cap on the output. -/
theorem budgetedBody_get (budgeted : adapter.budgetedBody body = .ok body')
    (tool : IsToolMember key) : body'[key]? = body[key]? := by
  unfold OpenAiCompatibleAdapter.budgetedBody at budgeted
  split at budgeted
  · cases budgeted
    rfl
  · dsimp only at budgeted
    split at budgeted
    · cases budgeted
    · split at budgeted
      · split at budgeted
        · rw [countInput_ok budgeted]
        · cases budgeted
      · rw [countInput_ok budgeted]
        obtain rfl | rfl | rfl | rfl := tool <;> simp [TreeMap.getElem?_insert]

/-- Whatever the configuration adds, the tools of a request are those of the turn. -/
theorem httpRequest_shows {http : HttpRequest}
    (sent : adapter.httpRequest serialize request = .ok http) :
    ShowsTools http.body request.tools := by
  unfold OpenAiCompatibleAdapter.httpRequest at sent
  obtain ⟨body, budgeted, same⟩ := Fallible.bind_ok.mp sent
  cases same
  have shows : ShowsTools (ofMap (adapter.requestBody serialize request)) request.tools :=
    requestBody_shows
  have kept : ∀ key, IsToolMember key →
      (ofMap body).get key = (ofMap (adapter.requestBody serialize request)).get key := by
    intro key tool
    rw [Value.get_ofMap, Value.get_ofMap, budgetedBody_get budgeted tool, streamingBody_get tool]
  constructor
  · rw [kept _ (.inl rfl)]
    exact shows.tools
  · rw [kept _ (.inr (.inl rfl))]
    exact shows.functions
  · rw [kept _ (.inr (.inr (.inl rfl)))]
    exact shows.functionCall
  · rw [kept _ (.inr (.inr (.inr rfl)))]
    exact shows.toolChoice

end Body

/-! ## From the policy to the wire -/

/-- In a run of a runtime behind a chain of projections: every request that is sent shows
exactly the authorized tools, only calls of those tools are prepared, and no projection
grants more than an earlier one. -/
structure ToolsAuthorized (rt : AgentRuntime) (chain : List CapabilityProjection)
    (config : RuntimeConfiguration) : Prop where
  sent : ∀ task ∈ config.tasks, ∀ request control resume,
    task.program = some (.ask (.completeControlled request control) resume) →
    ∀ (adapter : OpenAiCompatibleAdapter) (serialize : Value → String) (http : HttpRequest),
      adapter.httpRequest serialize request = .ok http →
      ∃ definitions, Authorized.Definitions rt chain definitions ∧ ShowsTools http.body definitions
  prepared : ∀ task ∈ config.tasks, ∀ tool call context resume,
    task.program = some (.ask (.prepare tool call context) resume) →
    Authorizes rt chain call.name ∧
      (rt.tools.tools[call.name]?).map RegisteredTool.implementation = some tool
  restricts : (chain ++ [rt.capabilities]).Pairwise Restricts

/-- Whatever the registry, the policy, the chain of delegation and the extensions of the
provider are, in every run. -/
theorem tools_authorized {rt : AgentRuntime} {chain : List CapabilityProjection} {world : World}
    {config : RuntimeConfiguration} (running : Running rt world config)
    (delegated : chain.IsChain Delegates) (parent : rt.parentCapabilities = chain.getLast?) :
    ToolsAuthorized rt chain config where
  sent := by
    intro task member request control resume asks adapter serialize http sent
    have shown : request.tools = rt.tools.definitionsFor rt.capabilities.visibleNames :=
      running.projected member asks
    refine ⟨request.tools, ?_, httpRequest_shows sent⟩
    rw [shown]
    exact definitions_authorized delegated parent
  prepared := by
    intro task member tool call context resume asks
    obtain ⟨registered, granted⟩ := running.projected member asks
    exact ⟨((capabilities_granted delegated parent).mp granted).2, registered⟩
  restricts := by
    apply List.isChain_iff_pairwise.mp
    apply List.IsChain.append (delegated.imp fun _ _ delegates => delegates.restricts)
      (List.isChain_singleton _)
    intro last isLast current isCurrent
    cases isCurrent
    rw [Option.mem_def] at isLast
    rw [isLast] at parent
    unfold AgentRuntime.capabilities
    rw [parent]
    exact Delegates.restricts ⟨_, _, _, rfl⟩

namespace Sample

def context : PolicyContext := ⟨none, none, none, none⟩

def parent : CapabilityProjection :=
  projectCapabilities ["read", "write"] (fun _ _ => .allow) context none

def child : CapabilityProjection :=
  projectCapabilities ["write"] (fun _ _ => .ask) context (some parent)

/-- A runtime two delegations away from the first. -/
def runtime : AgentRuntime := { Core.Sample.runtime .allow with parentCapabilities := some child }

/-- The model is asked. -/
def asking : RuntimeConfiguration :=
  (Schedule.play runtime (Core.Sample.around (.ok ())) (Core.Sample.turn 13)
    (Interaction.Config.start World.empty)).getD (Interaction.Config.start World.empty)

end Sample

theorem tools_authorized_asking :
    (∃ task ∈ Sample.asking.tasks, ∃ request control resume,
      task.program = some (.ask (.completeControlled request control) resume) ∧
        request.tools.map ToolDefinition.name = ["write"]) ∧
      ToolsAuthorized Sample.runtime [Sample.parent, Sample.child] Sample.asking := by
  have played : Schedule.play Sample.runtime (Core.Sample.around (.ok ())) (Core.Sample.turn 13)
      (Interaction.Config.start World.empty) = some Sample.asking := by rfl
  have runs : RunsFrom Sample.runtime False World.empty Sample.asking :=
    Schedule.play_runs False.elim played
  have delegated : [Sample.parent, Sample.child].IsChain Delegates :=
    List.IsChain.cons_cons ⟨_, _, _, rfl⟩ (List.isChain_singleton _)
  constructor
  · obtain ⟨task, present, request, control, resume, asks, shown⟩ : ∃ task,
        Sample.asking.tasks[1]? = some task ∧ ∃ request control resume,
          task.program = some (.ask (.completeControlled request control) resume) ∧
            request.tools.map ToolDefinition.name = ["write"] :=
      ⟨_, rfl, _, _, _, rfl, rfl⟩
    exact ⟨task, List.mem_of_getElem? present, request, control, resume, asks, shown⟩
  · exact tools_authorized runs.running delegated rfl

end Nausicaa.Openai
