import Nausicaa.Core.Contract

/-! # Ownership of threads

Why a call can be read on its own.  The guard of a thread is held by at most one
call, the thread ids being created are nobody's, and only the holder of a thread
appends to its log; so what one call does never changes what another one sees.
-/

namespace Nausicaa.Core

open Interaction (Built Discipline Machine)

/-- The observations of a call, each orderly where it was made. -/
def OrderlyHistory (call : Call) (history : List Observation) : Prop :=
  Built (fun before observation => Orderly call before observation.1) history

/-- What the calls own is theirs alone, and what they saw is still there. -/
structure Owned (world : World) (owned : List (Call × Own)) : Prop where
  active : ∀ threadId, threadId ∈ world.active ↔
    ∃ entry ∈ owned, entry.2.held = .guard threadId
  exclusive : ∀ (index other : Nat) (entry entry' : Call × Own), owned[index]? = some entry →
    owned[other]? = some entry' → entry.2.held ≠ .nothing → entry.2.held = entry'.2.held →
    index = other
  fresh : ∀ entry ∈ owned, ∀ threadId, entry.2.held = .fresh threadId →
    threadId ∈ world.issued ∧ world.log threadId = []
  guarded : ∀ entry ∈ owned, ∀ threadId, entry.2.held = .guard threadId →
    world.log threadId ≠ []
  loaded : ∀ entry ∈ owned, ∀ threadId events,
    (⟨.loadThread threadId, .ok events⟩ : Observation) ∈ entry.2.history →
      events <+: world.log threadId
  orderly : ∀ entry ∈ owned, OrderlyHistory entry.1 entry.2.history

/-- What one call may do to the world and to what it owns. -/
structure Moved (world : World) (owned : List (Call × Own)) (call : Call) (own : Own)
    (world' : World) (own' : Own) : Prop where
  grows : ∀ threadId, world.log threadId <+: world'.log threadId
  issued : world.issued ⊆ world'.issued
  untouched : ∀ threadId, own.held ≠ .fresh threadId → own.held ≠ .guard threadId →
    world'.log threadId = world.log threadId
  active : ∀ threadId, threadId ∈ world'.active ↔
    own'.held = .guard threadId ∨ (threadId ∈ world.active ∧ own.held ≠ .guard threadId)
  exclusive : own'.held = own.held ∨ own'.held = .nothing ∨
    ∀ entry ∈ owned, entry.2.held ≠ own'.held
  fresh : ∀ threadId, own'.held = .fresh threadId →
    threadId ∈ world'.issued ∧ world'.log threadId = []
  guarded : ∀ threadId, own'.held = .guard threadId → world'.log threadId ≠ []
  loaded : ∀ threadId events, (⟨.loadThread threadId, .ok events⟩ : Observation) ∈ own'.history →
    events <+: world'.log threadId
  orderly : OrderlyHistory call own'.history

section Moves

variable {world world' : World} {owned : List (Call × Own)} {index : Nat} {call : Call}
variable {own own' : Own}

theorem mem_set {entry last : Call × Own} (present : owned[index]? = some last)
    (entry' : Call × Own) : entry' ∈ owned.set index entry ↔
      entry' = entry ∨ ∃ other, other ≠ index ∧ owned[other]? = some entry' := by
  have bound := (List.getElem?_eq_some_iff.mp present).1
  rw [List.mem_iff_getElem?]
  constructor
  · intro ⟨other, found⟩
    by_cases same : other = index
    · subst same
      rw [List.getElem?_set_self bound] at found
      exact .inl (Option.some.inj found).symm
    · rw [List.getElem?_set_ne (Ne.symm same)] at found
      exact .inr ⟨other, same, found⟩
  · intro either
    cases either with
    | inl same => exact ⟨index, by rw [List.getElem?_set_self bound, same]⟩
    | inr elsewhere =>
      obtain ⟨other, different, found⟩ := elsewhere
      exact ⟨other, by rw [List.getElem?_set_ne (Ne.symm different)]; exact found⟩

/-- Another call's thread is not the one a move may touch. -/
theorem Owned.apart (ownership : Owned world owned) (present : owned[index]? = some (call, own))
    {other : Nat} {entry : Call × Own} (different : other ≠ index)
    (found : owned[other]? = some entry) (threadId : ThreadId)
    (holds : entry.2.held = .fresh threadId ∨ entry.2.held = .guard threadId) :
    own.held ≠ .fresh threadId ∧ own.held ≠ .guard threadId := by
  have mine := List.mem_of_getElem? present
  have theirs := List.mem_of_getElem? found
  have distinct : own.held ≠ .nothing → own.held ≠ entry.2.held := by
    intro something same
    exact different (ownership.exclusive index other _ _ present found something same).symm
  constructor <;> intro held <;> cases holds with
  | inl fresh =>
    first
    | exact distinct (by simp [held]) (held.trans fresh.symm)
    | exact ownership.guarded _ mine _ held (ownership.fresh _ theirs _ fresh).2
  | inr guard =>
    first
    | exact distinct (by simp [held]) (held.trans guard.symm)
    | exact ownership.guarded _ theirs _ guard (ownership.fresh _ mine _ held).2

/-- A move keeps ownership and leaves the views of all other calls as they were. -/
theorem Owned.moved (ownership : Owned world owned) (present : owned[index]? = some (call, own))
    (moved : Moved world owned call own world' own') :
    Owned world' (owned.set index (call, own')) ∧
      ∀ other entry, other ≠ index → owned[other]? = some entry →
        world'.view entry.2 = world.view entry.2 := by
  have log_other : ∀ (other : Nat) (entry : Call × Own) (threadId : ThreadId), other ≠ index →
      owned[other]? = some entry →
      entry.2.held = .fresh threadId ∨ entry.2.held = .guard threadId →
      world'.log threadId = world.log threadId := by
    intro other entry threadId different found holds
    have apart := ownership.apart present different found threadId holds
    exact moved.untouched threadId apart.1 apart.2
  refine ⟨⟨?_, ?_, ?_, ?_, ?_, ?_⟩, ?_⟩
  · intro threadId
    rw [moved.active, ownership.active]
    constructor
    · intro either
      cases either with
      | inl mine => exact ⟨_, (mem_set present _).mpr (.inl rfl), mine⟩
      | inr theirs =>
        obtain ⟨⟨entry, member, guard⟩, notMine⟩ := theirs
        obtain ⟨other, found⟩ := List.mem_iff_getElem?.mp member
        have different : other ≠ index := by
          intro same
          subst same
          cases present.symm.trans found
          exact notMine guard
        exact ⟨entry, (mem_set present _).mpr (.inr ⟨other, different, found⟩), guard⟩
    · intro ⟨entry, member, guard⟩
      cases (mem_set present _).mp member with
      | inl mine => exact .inl (by rw [mine] at guard; exact guard)
      | inr theirs =>
        obtain ⟨other, different, found⟩ := theirs
        exact .inr ⟨⟨entry, List.mem_of_getElem? found, guard⟩,
          (ownership.apart present different found threadId (.inr guard)).2⟩
  · -- Two holders of one thing: only the mover can have changed what it holds.
    have mine : ∀ (other : Nat) (entry : Call × Own), other ≠ index →
        owned[other]? = some entry → own'.held ≠ .nothing → own'.held ≠ entry.2.held := by
      intro other entry different found something same
      cases moved.exclusive with
      | inl kept =>
        have := ownership.exclusive index other _ _ present found (kept ▸ something)
          (kept ▸ same)
        exact different this.symm
      | inr either =>
        cases either with
        | inl released => exact something released
        | inr unique => exact unique _ (List.mem_of_getElem? found) same.symm
    have bound := (List.getElem?_eq_some_iff.mp present).1
    intro i j entry entry' first second something same
    by_cases firstMine : i = index <;> by_cases secondMine : j = index
    · exact firstMine.trans secondMine.symm
    · subst firstMine
      rw [List.getElem?_set_self bound] at first
      rw [List.getElem?_set_ne (Ne.symm secondMine)] at second
      cases first
      exact absurd same (mine j entry' secondMine second something)
    · subst secondMine
      rw [List.getElem?_set_self bound] at second
      rw [List.getElem?_set_ne (Ne.symm firstMine)] at first
      cases second
      exact absurd same.symm (mine i entry firstMine first (same ▸ something))
    · rw [List.getElem?_set_ne (Ne.symm firstMine)] at first
      rw [List.getElem?_set_ne (Ne.symm secondMine)] at second
      exact ownership.exclusive i j entry entry' first second something same
  · intro entry member threadId held
    cases (mem_set present _).mp member with
    | inl mine => subst mine; exact moved.fresh threadId held
    | inr theirs =>
      obtain ⟨other, different, found⟩ := theirs
      have fresh := ownership.fresh entry (List.mem_of_getElem? found) threadId held
      rw [log_other other entry threadId different found (.inl held)]
      exact ⟨moved.issued fresh.1, fresh.2⟩
  · intro entry member threadId held
    cases (mem_set present _).mp member with
    | inl mine => subst mine; exact moved.guarded threadId held
    | inr theirs =>
      obtain ⟨other, different, found⟩ := theirs
      rw [log_other other entry threadId different found (.inr held)]
      exact ownership.guarded entry (List.mem_of_getElem? found) threadId held
  · intro entry member threadId events load
    cases (mem_set present _).mp member with
    | inl mine => subst mine; exact moved.loaded threadId events load
    | inr theirs =>
      obtain ⟨other, _, found⟩ := theirs
      exact (ownership.loaded entry (List.mem_of_getElem? found) threadId events load).trans
        (moved.grows threadId)
  · intro entry member
    cases (mem_set present _).mp member with
    | inl mine => subst mine; exact moved.orderly
    | inr theirs =>
      obtain ⟨other, _, found⟩ := theirs
      exact ownership.orderly entry (List.mem_of_getElem? found)
  · intro other entry different found
    cases held : entry.2.held with
    | nothing => simp [World.view, held]
    | fresh threadId => simp [World.view, held]
    | guard threadId =>
      simp [World.view, held, log_other other entry threadId different found (.inr held)]

/-- An answer that changes nothing but the history. -/
theorem Owned.observed (ownership : Owned world owned) (present : owned[index]? = some (call, own))
    {op : Operation} {answer : Answer op} (orderly : Orderly call own.history op)
    (loads : ∀ threadId events, (⟨op, answer⟩ : Observation) = ⟨.loadThread threadId, .ok events⟩ →
      events <+: world.log threadId) :
    Moved world owned call own world (own.observe op answer) where
  grows _ := List.prefix_refl _
  issued _ member := member
  untouched _ _ _ := rfl
  active threadId := by
    rw [ownership.active]
    constructor
    · intro ⟨entry, member, guard⟩
      by_cases mine : own.held = .guard threadId
      · exact .inl mine
      · exact .inr ⟨⟨entry, member, guard⟩, mine⟩
    · intro either
      cases either with
      | inl mine => exact ⟨_, List.mem_of_getElem? present, mine⟩
      | inr theirs => exact theirs.1
  exclusive := .inl rfl
  fresh threadId held := ownership.fresh _ (List.mem_of_getElem? present) threadId held
  guarded threadId held := ownership.guarded _ (List.mem_of_getElem? present) threadId held
  loaded threadId events member := by
    cases List.mem_append.mp member with
    | inl earlier =>
      exact ownership.loaded _ (List.mem_of_getElem? present) threadId events earlier
    | inr last => exact loads threadId events (List.mem_singleton.mp last).symm
  orderly := (ownership.orderly _ (List.mem_of_getElem? present)).snoc orderly

end Moves

section Discipline

variable {rt : AgentRuntime} {strict : Prop}
variable {world world' : World} {owned : List (Call × Own)} {index : Nat} {call : Call}
variable {own own' : Own} {op : Operation} {answer : Answer op}

theorem view_observe (world : World) (own : Own) (op : Operation) (answer : Answer op) :
    world.view (own.observe op answer) = (world.view own).extend [] [⟨op, answer⟩] := by
  simp [World.view, Own.observe, Local.extend]

/-- One operation from the caller's side, and what it did to the world. -/
structure Acted (rt : AgentRuntime) (strict : Prop) (world : World) (owned : List (Call × Own))
    (call : Call) (own : Own) (op : Operation) (answer : Answer op) (world' : World) (own' : Own) :
    Prop where
  step : (contract rt strict call).step (world.view own) op answer (world'.view own')
  moved : Moved world owned call own world' own'

/-- Seams that leave the runtime's state alone. -/
theorem acted_seam (ownership : Owned world owned) (present : owned[index]? = some (call, own))
    (orderly : Orderly call own.history op)
    (loads : ∀ threadId events, (⟨op, answer⟩ : Observation) = ⟨.loadThread threadId, .ok events⟩ →
      events <+: world.log threadId)
    (unchanged : effect strict (world.view own) op answer (world.view own)) :
    Acted rt strict world owned call own op answer world (own.observe op answer) :=
  ⟨⟨_, unchanged, view_observe world own op answer⟩,
    ownership.observed present orderly loads⟩

theorem acted_newThreadId {threadId : ThreadId} (ownership : Owned world owned)
    (present : owned[index]? = some (call, own)) (orderly : Orderly call own.history .newThreadId)
    (idle : own.held = .nothing) (unissued : threadId ∉ world.issued)
    (unused : world.log threadId = []) :
    Acted rt strict world owned call own .newThreadId threadId
      { world with issued := insert threadId world.issued }
      (Own.observe { own with held := .fresh threadId } .newThreadId threadId) where
  step := ⟨_, rfl, view_observe _ _ _ _⟩
  moved := {
    grows := fun _ => List.prefix_refl _
    issued := Finset.subset_insert _ _
    untouched := fun _ _ _ => rfl
    active := by
      intro threadId'
      simp [Own.observe, idle]
    exclusive := by
      refine .inr (.inr ?_)
      intro entry member same
      exact unissued (ownership.fresh entry member threadId same).1
    fresh := by
      intro threadId' same
      cases same
      exact ⟨Finset.mem_insert_self _ _, unused⟩
    guarded := by
      intro threadId' held
      cases held
    loaded := by
      intro threadId' events member
      have earlier : (⟨.loadThread threadId', .ok events⟩ : Observation) ∈ own.history := by
        simpa [Own.observe] using member
      exact ownership.loaded _ (List.mem_of_getElem? present) threadId' events earlier
    orderly := (ownership.orderly _ (List.mem_of_getElem? present)).snoc orderly }

/-- An append by the holder of the thread, or the first one to a new thread. -/
theorem acted_append {threadId : ThreadId} {turnId : Option TurnId} {event : RuntimeEvent}
    {envelope : EventEnvelope} (ownership : Owned world owned)
    (present : owned[index]? = some (call, own))
    (orderly : Orderly call own.history (.storeAppend threadId turnId event))
    (holds : own.held = .guard threadId ∨ own.held = .fresh threadId)
    (stamped : envelope.threadId = threadId ∧ envelope.turnId = turnId ∧ envelope.event = event) :
    Acted rt strict world owned call own (.storeAppend threadId turnId event) (.ok envelope)
      (world.push envelope)
      (Own.observe (if own.held = .fresh threadId then { own with held := .nothing } else own)
        (.storeAppend threadId turnId event) (.ok envelope)) := by
  have member := List.mem_of_getElem? present
  have grows : ∀ threadId', world.log threadId' <+: (world.push envelope).log threadId' := by
    intro threadId'
    rw [log_push]
    exact List.prefix_append _ _
  have loaded : ∀ threadId' events,
      (⟨.loadThread threadId', .ok events⟩ : Observation) ∈ own.history →
      events <+: (world.push envelope).log threadId' := by
    intro threadId' events load
    exact (ownership.loaded _ member threadId' events load).trans (grows threadId')
  have untouched : ∀ threadId', own.held ≠ .fresh threadId' → own.held ≠ .guard threadId' →
      (world.push envelope).log threadId' = world.log threadId' := by
    intro threadId' notFresh notGuard
    have other : ¬ envelope.threadId = threadId' := by
      rw [stamped.1]
      intro same
      subst same
      cases holds with
      | inl guard => exact notGuard guard
      | inr fresh => exact notFresh fresh
    simp [other]
  cases holds with
  | inl guard =>
    have notFresh : ¬ own.held = .fresh threadId := by simp [guard]
    rw [if_neg notFresh]
    refine ⟨⟨_, ⟨stamped, fun _ => ?_, fun held => absurd held notFresh⟩, view_observe _ _ _ _⟩, ?_⟩
    · simp [World.view, guard, stamped.1]
    · have unchanged : Moved world owned call own world
          (own.observe (.storeAppend threadId turnId event) (.ok envelope)) :=
        ownership.observed present orderly (by simp)
      exact {
        grows := grows
        issued := fun _ member => member
        untouched := untouched
        active := unchanged.active
        exclusive := unchanged.exclusive
        fresh := fun threadId' held => by
          have : own.held = .fresh threadId' := held
          simp [guard] at this
        guarded := fun threadId' held => by
          rw [log_push]
          exact List.append_ne_nil_of_left_ne_nil (ownership.guarded _ member threadId' held) _
        loaded := fun threadId' events load => loaded threadId' events (by
          simpa [Own.observe] using load)
        orderly := unchanged.orderly }
  | inr fresh =>
    rw [if_pos fresh]
    refine ⟨⟨_, ⟨stamped, fun held => ?_, fun _ => rfl⟩, view_observe _ _ _ _⟩, ?_⟩
    · simp [World.view, fresh] at held
    · exact {
        grows := grows
        issued := fun _ member => member
        untouched := untouched
        active := by
          intro threadId'
          simp [Own.observe, fresh, World.push]
        exclusive := .inr (.inl rfl)
        fresh := fun threadId' held => by cases held
        guarded := fun threadId' held => by cases held
        loaded := fun threadId' events load => loaded threadId' events (by
          simpa [Own.observe] using load)
        orderly := (ownership.orderly _ member).snoc orderly }

theorem acted_insert {threadId : ThreadId} (ownership : Owned world owned)
    (present : owned[index]? = some (call, own))
    (orderly : Orderly call own.history (.activeInsert threadId)) (idle : own.held = .nothing)
    (existing : world.log threadId ≠ []) (inactive : threadId ∉ world.active) :
    Acted rt strict world owned call own (.activeInsert threadId) (.ok true)
      { world with active := insert threadId world.active }
      (Own.observe { own with held := .guard threadId } (.activeInsert threadId) (.ok true)) where
  step := ⟨_, ⟨_, rfl⟩, view_observe _ _ _ _⟩
  moved := {
    grows := fun _ => List.prefix_refl _
    issued := fun _ member => member
    untouched := fun _ _ _ => rfl
    active := by
      intro threadId'
      simp [Own.observe, idle, eq_comm]
    exclusive := by
      refine .inr (.inr ?_)
      intro entry member same
      exact inactive ((ownership.active threadId).mpr ⟨entry, member, same⟩)
    fresh := by
      intro threadId' held
      cases held
    guarded := by
      intro threadId' held
      cases held
      exact existing
    loaded := by
      intro threadId' events member
      have earlier : (⟨.loadThread threadId', .ok events⟩ : Observation) ∈ own.history := by
        simpa [Own.observe] using member
      exact ownership.loaded _ (List.mem_of_getElem? present) threadId' events earlier
    orderly := (ownership.orderly _ (List.mem_of_getElem? present)).snoc orderly }

/-- Letting go of a guard, by `ActiveThread::drop` or with the whole call. -/
theorem moved_release {threadId : ThreadId} (ownership : Owned world owned)
    (present : owned[index]? = some (call, own)) (guard : own.held = .guard threadId)
    (released : own'.held = .nothing)
    (loads : ∀ threadId events, (⟨.loadThread threadId, .ok events⟩ : Observation) ∈ own'.history →
      (⟨.loadThread threadId, .ok events⟩ : Observation) ∈ own.history)
    (orderly : OrderlyHistory call own'.history) :
    Moved world owned call own { world with active := world.active.erase threadId } own' where
  grows _ := List.prefix_refl _
  issued _ member := member
  untouched _ _ _ := rfl
  active threadId' := by
    rw [Finset.mem_erase]
    simp [released, guard, eq_comm, and_comm]
  exclusive := .inr (.inl released)
  fresh threadId' held := by simp [released] at held
  guarded threadId' held := by simp [released] at held
  loaded threadId' events member :=
    ownership.loaded _ (List.mem_of_getElem? present) threadId' events (loads _ _ member)
  orderly := orderly

/-- A permitted operation does what the contract says and moves nobody else's things. -/
theorem acted (ownership : Owned world owned) (present : owned[index]? = some (call, own))
    (permitted : (contract rt strict call).permit (world.view own) op)
    (exec : (runtimeMachine strict).exec world own op answer world' own') :
    Acted rt strict world owned call own op answer world' own' := by
  obtain ⟨⟨proposed, after, performed, rfl⟩, closing⟩ := exec
  obtain ⟨orderly, asks⟩ := permitted
  have seam : after = own → world' = world →
      (∀ threadId events, (⟨op, answer⟩ : Observation) = ⟨.loadThread threadId, .ok events⟩ →
        events <+: world.log threadId) →
      effect strict (world.view own) op answer (world.view own) →
      Acted rt strict world owned call own op answer world' (after.observe op answer) := by
    intro sameOwn sameWorld loads unchanged
    subst sameOwn sameWorld
    exact acted_seam ownership present orderly loads unchanged
  cases op with
  | newThreadId =>
    simp only [World.perform] at performed
    split at performed
    next used => cases performed
    next new =>
      cases performed
      rw [not_or, not_not] at new
      exact acted_newThreadId ownership present orderly asks new.1 new.2
  | storeAppend threadId turnId event =>
    cases proposed with
    | error error =>
      cases performed
      exact seam rfl rfl (by simp) rfl
    | ok stamp =>
      cases performed
      refine acted_append ownership present orderly ?_ ⟨rfl, rfl, rfl⟩
      cases turnId with
      | none => exact .inr asks.1
      | some turnId => exact .inl asks.1
  | loadThread threadId =>
    cases proposed with
    | error error =>
      cases performed
      exact seam rfl rfl (by simp) rfl
    | ok events =>
      cases performed
      refine seam rfl rfl ?_ ⟨rfl, ?_⟩
      · intro threadId' events same
        cases same
        exact List.prefix_refl _
      · intro guard
        have guard : own.held = .guard threadId := guard
        simp [World.view, guard]
  | activeInsert threadId =>
    obtain ⟨idle, events, load, nonempty⟩ := asks
    simp only [World.perform] at performed
    split at performed
    next active =>
      cases performed
      exact seam rfl rfl (by simp) rfl
    next inactive =>
      cases performed
      refine acted_insert ownership present orderly idle ?_ inactive
      have seen := ownership.loaded _ (List.mem_of_getElem? present) threadId events load
      exact fun empty => nonempty (List.prefix_nil.mp (empty ▸ seen))
  | activeRemove threadId =>
    have guard : own.held = .guard threadId := asks
    cases performed
    refine ⟨⟨_, rfl, ?_⟩, ?_⟩
    · simp [World.view, Own.observe, Local.extend, guard]
    · exact moved_release ownership present guard rfl
        (by simp [Own.observe])
        ((ownership.orderly _ (List.mem_of_getElem? present)).snoc orderly)
  | afterTool hook context receipt =>
    have guard : own.held = .guard context.threadId := asks
    cases performed
    refine seam rfl rfl (by simp) ⟨rfl, ?_⟩
    intro isStrict
    have closes := closing isStrict
    cases answer with
    | ok => trivial
    | error reason => simpa [ClosingRejection, World.view, guard] using closes
  | isCancelled _ | compile _ | beforeModel _ _ _ | beforeTool _ _ _ | completeControlled _ _
  | prepare _ _ _ | requestApproval _ | execute _ _ _ | onEvent _ _ =>
    cases performed
    exact seam rfl rfl (by simp) rfl

/-- A dropped call takes nothing but its own guard with it. -/
theorem moved_drop (ownership : Owned world owned) (present : owned[index]? = some (call, own)) :
    Moved world owned call own ((runtimeMachine strict).release world own)
      ((runtimeMachine strict).abandon own) := by
  have orderly := ownership.orderly _ (List.mem_of_getElem? present)
  cases held : own.held with
  | guard threadId =>
    have released : (runtimeMachine strict).release world own =
        { world with active := world.active.erase threadId } := by
      simp [runtimeMachine, Machine.restrict, machine, held]
    rw [released]
    exact moved_release ownership present held rfl (fun _ _ member => member) orderly
  | nothing | fresh threadId =>
    have released : (runtimeMachine strict).release world own = world := by
      simp [runtimeMachine, Machine.restrict, machine, held]
    rw [released]
    exact {
      grows := fun _ => List.prefix_refl _
      issued := fun _ member => member
      untouched := fun _ _ _ => rfl
      active := by
        intro threadId'
        simp [runtimeMachine, Machine.restrict, machine, held]
      exclusive := .inr (.inl rfl)
      fresh := fun threadId' held' => by cases held'
      guarded := fun threadId' held' => by cases held'
      loaded := ownership.loaded _ (List.mem_of_getElem? present)
      orderly := orderly }

variable (rt strict)

/-- Threads are owned, so calls can be read one at a time. -/
theorem discipline : Discipline (runtimeMachine strict) (contract rt strict) World.view Local.idle
    Owned where
  idle _ := rfl
  spawn := by
    intro world owned call ownership
    have entries : ∀ entry ∈ owned ++ [(call, (runtimeMachine strict).idle)],
        entry ∈ owned ∨ entry = (call, machine.idle) := by
      intro entry member
      cases List.mem_append.mp member with
      | inl old => exact .inl old
      | inr new => exact .inr (List.mem_singleton.mp new)
    have positions : ∀ (position : Nat) (entry : Call × Own),
        (owned ++ [(call, (runtimeMachine strict).idle)])[position]? = some entry →
        owned[position]? = some entry ∨ entry.2.held = .nothing := by
      intro position entry found
      cases Nat.lt_or_ge position owned.length with
      | inl old =>
        rw [List.getElem?_append_left old] at found
        exact .inl found
      | inr new =>
        rw [List.getElem?_append_right new] at found
        have last := List.mem_singleton.mp (List.mem_of_getElem? found)
        exact .inr (by rw [last]; rfl)
    refine ⟨?_, ?_, ?_, ?_, ?_, ?_⟩
    · intro threadId
      rw [ownership.active]
      constructor
      · intro ⟨entry, member, guard⟩
        exact ⟨entry, List.mem_append_left _ member, guard⟩
      · intro ⟨entry, member, guard⟩
        cases entries entry member with
        | inl old => exact ⟨entry, old, guard⟩
        | inr new => subst new; cases guard
    · intro i j entry entry' first second something same
      cases positions i entry first with
      | inr nothing => exact absurd nothing something
      | inl first =>
        cases positions j entry' second with
        | inr nothing => exact absurd (same.trans nothing) something
        | inl second => exact ownership.exclusive i j entry entry' first second something same
    · intro entry member threadId held
      cases entries entry member with
      | inl old => exact ownership.fresh entry old threadId held
      | inr new => subst new; cases held
    · intro entry member threadId held
      cases entries entry member with
      | inl old => exact ownership.guarded entry old threadId held
      | inr new => subst new; cases held
    · intro entry member threadId events load
      cases entries entry member with
      | inl old => exact ownership.loaded entry old threadId events load
      | inr new => subst new; cases load
    · intro entry member
      cases entries entry member with
      | inl old => exact ownership.orderly entry old
      | inr new => subst new; exact Built.nil
  act := by
    intro world owned index call own op answer world' own' ownership present permitted exec
    have acts := acted ownership present permitted exec
    exact ⟨acts.step, ownership.moved present acts.moved⟩
  drop := by
    intro world owned index call own ownership present
    exact ownership.moved present (moved_drop ownership present)

/-- Nothing is owned before the first call. -/
theorem owned_nil {world : World} (idle : world.active = ∅) : Owned world [] where
  active threadId := by simp [idle]
  exclusive _ _ _ _ found := by simp at found
  fresh _ member := by simp at member
  guarded _ member := by simp at member
  loaded _ member := by simp at member
  orderly _ member := by simp at member

end Discipline

end Nausicaa.Core
