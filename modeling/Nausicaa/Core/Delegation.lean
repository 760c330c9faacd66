import Mathlib.Data.List.Chain
import Nausicaa.Core.Asking

/-! # Delegated capabilities

A chain of projections, each computed from the one before it, never grants more along the
way, and what a turn shows and prepares is what every link of the chain grants.
-/

namespace Nausicaa.Core

open Interaction (Contract Reachable)
open Interaction.Contract (Keeps Meets Tries)

/-- The child's projection was computed from the parent's, for some tools and policy. -/
def Delegates (parent child : CapabilityProjection) : Prop :=
  ∃ toolNames policy context, child = projectCapabilities toolNames policy context (some parent)

/-- No name is granted more than before. -/
def Restricts (parent child : CapabilityProjection) : Prop :=
  ∀ name, child.access name ≤ parent.access name

/-- The policy of the runtime and every projection it was delegated through grant the
name. -/
def Authorizes (rt : AgentRuntime) (chain : List CapabilityProjection) (name : String) : Prop :=
  rt.policy name rt.policyContext ≠ .deny ∧
    ∀ projection ∈ chain, projection.access name ≠ .deny

/-- The definitions a turn may show: those of the registered tools that are authorized,
each once and in the order of their names. -/
structure Authorized.Definitions (rt : AgentRuntime) (chain : List CapabilityProjection)
    (definitions : List ToolDefinition) : Prop where
  exact : ∀ definition, definition ∈ definitions ↔ Authorizes rt chain definition.name ∧
    (rt.tools.tools[definition.name]?).map RegisteredTool.definition = some definition
  ordered : definitions.Pairwise fun first second => compare first.name second.name = .lt

section Chain

variable {rt : AgentRuntime} {chain : List CapabilityProjection} {name : String}

theorem Delegates.restricts {parent child : CapabilityProjection}
    (delegates : Delegates parent child) : Restricts parent child := by
  obtain ⟨toolNames, policy, context, rfl⟩ := delegates
  exact access_projectCapabilities_le policy context toolNames parent

theorem Restricts.trans {first second third : CapabilityProjection}
    (early : Restricts first second) (late : Restricts second third) : Restricts first third :=
  fun name => (late name).trans (early name)

instance : Trans Restricts Restricts Restricts := ⟨Restricts.trans⟩

/-- Along a chain access never increases. -/
theorem chain_restricts (delegated : chain.IsChain Delegates) : chain.Pairwise Restricts :=
  List.isChain_iff_pairwise.mp (delegated.imp fun _ _ delegates => delegates.restricts)

/-- What the last projection of a chain grants, all of them grant. -/
theorem granted_iff_last (delegated : chain.IsChain Delegates) {last : CapabilityProjection}
    (isLast : chain.getLast? = some last) :
    last.access name ≠ .deny ↔ ∀ projection ∈ chain, projection.access name ≠ .deny := by
  constructor
  · intro granted projection member denied
    obtain ⟨before, rfl⟩ := List.getLast?_eq_some_iff.mp isLast
    have restricts := chain_restricts delegated
    rw [List.pairwise_append] at restricts
    have restricted : last.access name ≤ projection.access name := by
      cases List.mem_append.mp member with
      | inl earlier => exact restricts.2.2 projection earlier last List.mem_cons_self name
      | inr same => rw [List.mem_singleton.mp same]
    rw [denied] at restricted
    apply granted
    cases granted' : last.access name with
    | deny => rfl
    | ask => rw [granted'] at restricted; exact absurd restricted (by decide)
    | allow => rw [granted'] at restricted; exact absurd restricted (by decide)
  · intro granted
    exact granted last (List.mem_of_getLast? isLast)

/-- The effective access of a turn grants what its policy and the whole chain grant. -/
theorem effectiveAccess_granted (delegated : chain.IsChain Delegates)
    (parent : rt.parentCapabilities = chain.getLast?) :
    effectiveAccess rt.policy rt.policyContext rt.parentCapabilities name ≠ .deny ↔
      Authorizes rt chain name := by
  unfold effectiveAccess Authorizes
  cases last : chain.getLast? with
  | none =>
    rw [List.getLast?_eq_none_iff] at last
    simp [parent, last]
  | some projection =>
    rw [parent, last, ← granted_iff_last delegated last]
    simp only [ne_eq, Access.restrict_eq_deny, not_or]

theorem capabilities_granted (delegated : chain.IsChain Delegates)
    (parent : rt.parentCapabilities = chain.getLast?) :
    rt.capabilities.access name ≠ .deny ↔ name ∈ rt.tools.names ∧ Authorizes rt chain name := by
  unfold AgentRuntime.capabilities
  rw [access_projectCapabilities]
  by_cases registered : name ∈ rt.tools.names
  · simp only [registered, if_true, true_and]
    exact effectiveAccess_granted delegated parent
  · simp [registered]

/-- What a turn shows is what it is authorized to show. -/
theorem definitions_authorized (delegated : chain.IsChain Delegates)
    (parent : rt.parentCapabilities = chain.getLast?) :
    Authorized.Definitions rt chain (rt.tools.definitionsFor rt.capabilities.visibleNames) where
  exact definition := by
    rw [ToolRegistry.mem_definitionsFor, CapabilityProjection.mem_visibleNames,
      capabilities_granted delegated parent]
    constructor
    · intro shown
      exact ⟨shown.1.2, shown.2⟩
    · intro authorized
      refine ⟨⟨?_, authorized.1⟩, authorized.2⟩
      obtain ⟨registered, present, _⟩ := Option.map_eq_some_iff.mp authorized.2
      rw [ToolRegistry.names, Std.TreeMap.mem_keys]
      exact Std.TreeMap.mem_iff_isSome_getElem?.mpr (by simp [present])
  ordered := ToolRegistry.definitionsFor_sorted CapabilityProjection.visibleNames_sorted

end Chain

/-! ## What a runtime asks -/

/-- Models are shown the projected tools, and calls are prepared only of tools that are
registered and not denied. -/
def Operation.Projected (rt : AgentRuntime) : Operation → Prop
  | .completeControlled request _ =>
    request.tools = rt.tools.definitionsFor rt.capabilities.visibleNames
  | .prepare tool call _ =>
    rt.tools.get call.name = some tool ∧ rt.capabilities.access call.name ≠ .deny
  | _ => True

/-- Whatever a runtime is answered, it asks nothing else. -/
def projecting (rt : AgentRuntime) : Contract Operation Answer Unit where
  permit _ op := op.Projected rt
  step _ _ _ _ := True

section Asking

variable {rt : AgentRuntime} {ε α : Type} {threadId : ThreadId} {turnId : Option TurnId}
variable {event : RuntimeEvent}

/-- Code that asks nothing but what is projected. -/
abbrev Projects (rt : AgentRuntime) (code : Attempt ε α) : Prop :=
  (projecting rt).Keeps (fun _ => True) code

theorem projects_perform (op : Operation) (projected : op.Projected rt) :
    Projects rt (perform op : Attempt ε (Answer op)) := by
  intro state _
  exact Tries.request projected fun _ _ _ => trivial

theorem projecting_plain : Plainly (projecting rt) (fun _ => True) where
  permits op plain _ _ := by
    cases op with
    | completeControlled _ _ | prepare _ _ _ => exact plain.elim
    | _ => trivial
  keeps _ _ _ _ _ _ _ := trivial

theorem projects_append : Projects rt (rt.append threadId turnId event) := projecting_plain.append

/-- A turn that was set up as `run_turn` does. -/
theorem projects_turnLoop {turn : Turn} {remaining iteration : Nat}
    {transcript : List TranscriptMessage} {seen : Std.TreeSet CallId}
    (capabilities : turn.capabilities = rt.capabilities)
    (tools : turn.visibleTools = rt.tools.definitionsFor rt.capabilities.visibleNames) :
    Projects rt (rt.turnLoop turn remaining iteration transcript seen) := by
  have rules : TurnRules (projecting rt) rt turn (fun _ => True) (fun _ _ => True) := by
    apply TurnRules.of_keeps
    · intro op seam follows
      apply projects_perform
      cases op with
      | completeControlled request control => exact Eq.trans follows tools
      | prepare tool call context => exact ⟨follows.1, capabilities ▸ follows.2⟩
      | _ => trivial
    · intro event
      exact projects_append
  exact rules.turnLoop fun _ => projects_append

theorem projects_code (call : Call) :
    (projecting rt).Meets (call.code rt) (fun _ _ => True) () := by
  have projects : Projects rt (call.attempt rt) := by
    apply projecting_plain.attempt
    intro turn remaining iteration transcript seen capabilities tools
    exact projects_turnLoop capabilities tools
  exact Meets.mono (projects () trivial) fun _ _ _ => trivial

end Asking

/-- In every run a runtime asks only what is projected. -/
theorem Running.projected {rt : AgentRuntime} {world : World} {config : RuntimeConfiguration}
    {task : RuntimeTask} {op : Operation}
    {resume : Answer op → Interaction.Program Operation Answer (Except RuntimeError Reply)}
    (running : Running rt world config) (member : task ∈ config.tasks)
    (asks : task.program = some (.ask op resume)) : op.Projected rt :=
  (Reachable.asks (fun _ _ => trivial) projects_code running task member _ asks).1

end Nausicaa.Core
