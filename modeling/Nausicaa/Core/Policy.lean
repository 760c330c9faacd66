import Mathlib.Order.Lattice
import Mathlib.Order.Defs.LinearOrder
import Nausicaa.Core.Protocol

/-! # Tool policy and capability projection

`policy.rs`: the access a policy grants to a tool, and the projection computed
once per turn by intersecting the policy with a parent's projection. -/

namespace Nausicaa.Core

inductive Access where
  | deny | ask | allow
  deriving DecidableEq, Repr

namespace Access

/-- The derived order of the enumeration: `deny < ask < allow`. -/
def rank : Access → Nat
  | .deny => 0
  | .ask => 1
  | .allow => 2

theorem rank_injective : Function.Injective rank := by
  intro a b same
  cases a <;> cases b <;> simp_all [rank]

instance : LinearOrder Access := LinearOrder.lift' rank rank_injective

/-- The stricter of two grants. -/
def restrict (self other : Access) : Access := min self other

@[simp] theorem restrict_allow (access : Access) : access.restrict .allow = access := by
  cases access <;> decide

theorem restrict_eq_deny {self other : Access} :
    self.restrict other = .deny ↔ self = .deny ∨ other = .deny := by
  cases self <;> cases other <;> decide

end Access

structure PolicyContext where
  principal : Option String
  channel : Option String
  agent : Option String
  sandbox : Option String
  deriving DecidableEq, Repr

/-- The trait `ToolPolicy`: what a policy grants to a tool name in a context. -/
abbrev ToolPolicy := String → PolicyContext → Access

/-- The declarative policy: unmentioned tools get the default. -/
structure CapabilityPolicy where
  default : Access
  tools : Std.TreeMap String Access

namespace CapabilityPolicy

def denyByDefault : CapabilityPolicy := ⟨.deny, ∅⟩

def grant (policy : CapabilityPolicy) (toolName : String) (access : Access) : CapabilityPolicy :=
  { policy with tools := policy.tools.insert toolName access }

def access (policy : CapabilityPolicy) : ToolPolicy := fun toolName _ =>
  policy.tools.getD toolName policy.default

end CapabilityPolicy

/-- The concrete per-run projection; names without an entry are denied. -/
structure CapabilityProjection where
  entries : Std.TreeMap String Access

namespace CapabilityProjection

def access (projection : CapabilityProjection) (toolName : String) : Access :=
  projection.entries.getD toolName .deny

def visibleNames (projection : CapabilityProjection) : List String :=
  (projection.entries.toList.filter fun entry => entry.2 ≠ .deny).map Prod.fst

end CapabilityProjection

section Visible

variable {projection : CapabilityProjection} {name : String}

/-- The names that are shown are those that are not denied. -/
theorem CapabilityProjection.mem_visibleNames :
    name ∈ projection.visibleNames ↔ projection.access name ≠ .deny := by
  unfold visibleNames CapabilityProjection.access
  rw [Std.TreeMap.getD_eq_getD_getElem?]
  constructor
  · intro member
    obtain ⟨⟨name', granted⟩, kept, same⟩ := List.mem_map.mp member
    obtain ⟨entry, notDenied⟩ := List.mem_filter.mp kept
    cases same
    rw [Std.TreeMap.mem_toList_iff_getElem?_eq_some] at entry
    rw [entry]
    simpa using notDenied
  · intro granted
    cases entry : projection.entries[name]? with
    | none => simp [entry] at granted
    | some access =>
      apply List.mem_map.mpr
      refine ⟨(name, access), List.mem_filter.mpr ⟨?_, ?_⟩, rfl⟩
      · exact Std.TreeMap.mem_toList_iff_getElem?_eq_some.mpr entry
      · simpa [entry] using granted

theorem CapabilityProjection.visibleNames_sorted :
    projection.visibleNames.Pairwise fun first second => compare first second = .lt := by
  unfold visibleNames
  rw [List.pairwise_map]
  exact Std.TreeMap.ordered_keys_toList.sublist List.filter_sublist

end Visible

/-- What a policy grants to a name once a parent's projection has restricted it. -/
def effectiveAccess (policy : ToolPolicy) (context : PolicyContext)
    (parent : Option CapabilityProjection) (name : String) : Access :=
  match parent with
  | none => policy name context
  | some parent => (policy name context).restrict (parent.access name)

/-- `project_capabilities`: collect the effective access of every tool name. -/
def projectCapabilities (toolNames : List String) (policy : ToolPolicy) (context : PolicyContext)
    (parent : Option CapabilityProjection) : CapabilityProjection where
  entries := toolNames.foldl
    (fun entries name => entries.insert name (effectiveAccess policy context parent name)) ∅

section Projection

variable (policy : ToolPolicy) (context : PolicyContext) (parent : Option CapabilityProjection)

theorem getD_collect (toolNames : List String) (entries : Std.TreeMap String Access)
    (name : String) :
    (toolNames.foldl (fun entries name =>
        entries.insert name (effectiveAccess policy context parent name)) entries).getD name .deny =
      if name ∈ toolNames then effectiveAccess policy context parent name
      else entries.getD name .deny := by
  induction toolNames generalizing entries with
  | nil => simp
  | cons head tail ih =>
    rw [List.foldl_cons, ih, Std.TreeMap.getD_insert]
    by_cases inTail : name ∈ tail
    · simp [inTail]
    · by_cases same : head = name
      · simp [same]
      · have different : compare head name ≠ .eq := by simpa using same
        simp [inTail, different, Ne.symm same]

/-- The projection grants a registered name its effective access and denies every
other name. -/
theorem access_projectCapabilities (toolNames : List String) (name : String) :
    (projectCapabilities toolNames policy context parent).access name =
      if name ∈ toolNames then effectiveAccess policy context parent name else .deny := by
  have collected := getD_collect policy context parent toolNames ∅ name
  simpa [projectCapabilities, CapabilityProjection.access] using collected

/-- A child's projection grants no name more than its parent's does. -/
theorem access_projectCapabilities_le (toolNames : List String) (parent : CapabilityProjection)
    (name : String) :
    (projectCapabilities toolNames policy context (some parent)).access name ≤
      parent.access name := by
  rw [access_projectCapabilities]
  split
  · exact min_le_right _ _
  · exact Nat.zero_le _

end Projection

end Nausicaa.Core
