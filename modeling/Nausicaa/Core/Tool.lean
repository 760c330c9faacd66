import Nausicaa.Core.Protocol

/-! # Tools and their registry

`tool.rs`.  A `Tool` is a handle: what its methods answer is up to the
surroundings, see `Operation`. -/

namespace Nausicaa.Core

/-! ## Blank text

`trim` removes the characters with the Unicode property `White_Space`. -/

def isWhitespace (c : Char) : Bool :=
  (0x09 ≤ c.toNat && c.toNat ≤ 0x0D) || c.toNat == 0x20 || c.toNat == 0x85 || c.toNat == 0xA0 ||
  c.toNat == 0x1680 || (0x2000 ≤ c.toNat && c.toNat ≤ 0x200A) || c.toNat == 0x2028 ||
  c.toNat == 0x2029 || c.toNat == 0x202F || c.toNat == 0x205F || c.toNat == 0x3000

/-- `text.trim().is_empty()`. -/
def isBlank (text : String) : Bool := text.toList.all isWhitespace

/-! ## Tools -/

/-- A shared `dyn Tool`, known by its identity. -/
structure Tool where
  handle : Nat
  deriving DecidableEq, Repr

/-- Cooperative cancellation shared by the control plane and running tools. -/
structure CancellationToken where
  handle : Nat
  deriving DecidableEq, Repr

structure ToolExecutionContext where
  threadId : ThreadId
  turnId : TurnId
  workspace : Option String
  cancellation : CancellationToken
  metadata : Std.TreeMap String String

structure ToolOutput where
  value : Json.Value
  deriving DecidableEq

inductive ToolError where
  | outcomeUnknown (reason : String)
  | invalidArguments (reason : String)
  | execution (reason : String)
  | executorUnavailable (reason : String)
  | cancelled
  deriving DecidableEq, Repr

namespace ToolError

def toString : ToolError → String
  | .outcomeUnknown reason => s!"tool outcome is unknown: {reason}"
  | .invalidArguments reason => s!"invalid tool arguments: {reason}"
  | .execution reason => s!"tool execution failed: {reason}"
  | .executorUnavailable reason => s!"tool executor is unavailable: {reason}"
  | .cancelled => "tool execution was cancelled"

end ToolError

/-! ## Registry -/

inductive RegistryError where
  | emptyName
  | duplicate (name : String)
  deriving DecidableEq, Repr

structure RegisteredTool where
  definition : ToolDefinition
  implementation : Tool
  deriving DecidableEq

/-- Tools by the name of the definition they were registered with. -/
structure ToolRegistry where
  tools : Std.TreeMap String RegisteredTool
  named : ∀ (name : String) (registered : RegisteredTool),
    tools[name]? = some registered → registered.definition.name = name

namespace ToolRegistry

def new : ToolRegistry := ⟨∅, by simp⟩

/-- `register_arc`, with the definition that `tool.definition()` answered. -/
def registerArc (registry : ToolRegistry) (definition : ToolDefinition) (tool : Tool) :
    Except RegistryError ToolRegistry :=
  if isBlank definition.name then
    .error .emptyName
  else if registry.tools.contains definition.name then
    .error (.duplicate definition.name)
  else
    .ok {
      tools := registry.tools.insert definition.name ⟨definition, tool⟩
      named := by
        intro name registered found
        rw [Std.TreeMap.getElem?_insert] at found
        split at found
        · rename_i same
          cases found
          exact Std.LawfulEqCmp.eq_of_compare same
        · exact registry.named name registered found }

def get (registry : ToolRegistry) (name : String) : Option Tool :=
  (registry.tools[name]?).map RegisteredTool.implementation

def names (registry : ToolRegistry) : List String := registry.tools.keys

def definitionsFor (registry : ToolRegistry) (names : List String) : List ToolDefinition :=
  names.filterMap fun name => (registry.tools[name]?).map RegisteredTool.definition

theorem mem_names_of_get {registry : ToolRegistry} {name : String} {tool : Tool}
    (found : registry.get name = some tool) : name ∈ registry.names := by
  obtain ⟨registered, entry, _⟩ := Option.map_eq_some_iff.mp found
  rw [names, Std.TreeMap.mem_keys]
  exact Std.TreeMap.mem_iff_isSome_getElem?.mpr (by simp [entry])

/-- The definitions for some names are those registered under one of them. -/
theorem mem_definitionsFor {registry : ToolRegistry} {names : List String}
    {definition : ToolDefinition} : definition ∈ registry.definitionsFor names ↔
      definition.name ∈ names ∧
        (registry.tools[definition.name]?).map RegisteredTool.definition = some definition := by
  unfold definitionsFor
  rw [List.mem_filterMap]
  constructor
  · intro found
    obtain ⟨name, member, entry⟩ := found
    obtain ⟨registered, present, same⟩ := Option.map_eq_some_iff.mp entry
    have named := registry.named name registered present
    rw [same] at named
    subst named
    exact ⟨member, entry⟩
  · intro found
    exact ⟨definition.name, found.1, found.2⟩

/-- Definitions for names in order are in the order of their names. -/
theorem definitionsFor_sorted {registry : ToolRegistry} {names : List String}
    (sorted : names.Pairwise fun first second => compare first second = .lt) :
    (registry.definitionsFor names).Pairwise fun first second =>
      compare first.name second.name = .lt := by
  unfold definitionsFor
  rw [List.pairwise_filterMap]
  apply sorted.imp
  intro first second before definition found definition' found'
  obtain ⟨registered, present, rfl⟩ := Option.map_eq_some_iff.mp found
  obtain ⟨registered', present', rfl⟩ := Option.map_eq_some_iff.mp found'
  rw [registry.named _ _ present, registry.named _ _ present']
  exact before

end ToolRegistry

end Nausicaa.Core
