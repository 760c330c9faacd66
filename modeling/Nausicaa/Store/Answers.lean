import Nausicaa.Core.World
import Nausicaa.Store.Sessions

/-! # The JSONL store behind the runtime

Every run of appends and loads on a `JsonlEventStore`, failing appends included, is a run of
the store in the runtime's shared state (`serve_refines`): what holds whatever the shared
state answers holds on this store. -/

namespace Nausicaa.Store

open Nausicaa.Core

namespace JsonlEventStore

inductive Request where
  | append (entry : Append) (fault : Option Fault)
  | loadThread (threadId : ThreadId)

namespace Request

def operation : Request → Operation
  | .append entry _ => .storeAppend entry.threadId entry.turnId entry.event
  | .loadThread threadId => .loadThread threadId

/-- The answer of the store, and the store and disk behind it. -/
def serve (codec : Codec) (store : JsonlEventStore) (disk : Disk) :
    (request : Request) → Answer request.operation × JsonlEventStore × Disk
  | .append entry fault => store.append codec disk entry fault
  | .loadThread threadId => (.ok (store.loadThread threadId), store, disk)

end Request

/-- Requests in order, with what was answered. -/
def serve (codec : Codec) (store : JsonlEventStore) (disk : Disk) :
    List Request → List Observation × JsonlEventStore × Disk
  | [] => ([], store, disk)
  | request :: requests =>
    let (answer, store, disk) := request.serve codec store disk
    let (observations, store, disk) := serve codec store disk requests
    (⟨request.operation, answer⟩ :: observations, store, disk)

/-- The shared state can give these answers, one after the other. -/
inductive Answers : World → Own → List Observation → World → Own → Prop
  | nil (world : World) (own : Own) : Answers world own [] world own
  | cons {world world' world'' : World} {own own' own'' : Own} {op : Operation}
      {answer : Answer op} {observations : List Observation}
      (first : machine.exec world own op answer world' own')
      (rest : Answers world' own' observations world'' own'') :
      Answers world own (⟨op, answer⟩ :: observations) world'' own''

/-- The store holds the events of the shared state and numbers them alike. -/
structure Represents (store : JsonlEventStore) (world : World) : Prop where
  events : store.events = world.events
  nextSequence : store.nextSequence = world.nextSequence

section Serving

variable {codec : Codec} {store : JsonlEventStore} {disk : Disk} {world : World} {own : Own}

theorem Represents.log (represents : store.Represents world) (threadId : ThreadId) :
    store.loadThread threadId = world.log threadId := by
  rw [loadThread, World.log, represents.events]

theorem Represents.append (represents : store.Represents world) (entry : Append)
    (fault : Option Fault) :
    ∃ world' own', machine.exec world own (.storeAppend entry.threadId entry.turnId entry.event)
        (store.append codec disk entry fault).1 world' own' ∧
      (store.append codec disk entry fault).2.1.Represents world' := by
  cases failed : store.writeFailed with
  | true =>
    simp only [JsonlEventStore.append, failed, if_true]
    exact ⟨world, _, ⟨.error _, own, rfl, rfl⟩, represents⟩
  | false =>
    cases fault with
    | some fault =>
      simp only [JsonlEventStore.append, failed, Bool.false_eq_true, if_false]
      exact ⟨world, _, ⟨.error _, own, rfl, rfl⟩, represents.events, represents.nextSequence⟩
    | none =>
      simp only [JsonlEventStore.append, failed, Bool.false_eq_true, if_false]
      -- The shared state stamps the event with the number it has in common with the store.
      have performed : world.perform own
          (.storeAppend entry.threadId entry.turnId entry.event)
          (.ok (entry.envelope store.nextSequence)) =
          some (.ok (entry.envelope store.nextSequence),
            world.push (entry.envelope store.nextSequence),
            if own.held = .fresh entry.threadId then { own with held := .nothing } else own) := by
        rw [represents.nextSequence]
        rfl
      have events : store.events ++ [entry.envelope store.nextSequence] =
          world.events ++ [entry.envelope store.nextSequence] := by
        rw [represents.events]
      exact ⟨_, _, ⟨_, _, performed, rfl⟩, events, congrArg (· + 1) represents.nextSequence⟩

theorem Represents.request (represents : store.Represents world) (request : Request) :
    ∃ world' own', machine.exec world own request.operation (request.serve codec store disk).1
        world' own' ∧
      (request.serve codec store disk).2.1.Represents world' := by
  cases request with
  | append entry fault => exact represents.append entry fault
  | loadThread threadId =>
    refine ⟨world, _, ⟨.ok [], own, ?_, rfl⟩, represents⟩
    rw [Request.serve, represents.log threadId]
    rfl

/-- The shared state can answer like the store for as long as it is used. -/
theorem serve_refines (represents : store.Represents world) (requests : List Request) :
    ∃ world' own', Answers world own (serve codec store disk requests).1 world' own' ∧
      (serve codec store disk requests).2.1.Represents world' := by
  induction requests generalizing store disk world own with
  | nil => exact ⟨world, own, Answers.nil world own, represents⟩
  | cons request requests ih =>
    obtain ⟨middle, own', answered, represents'⟩ := represents.request request
    obtain ⟨world', own'', rest, represents''⟩ := ih represents'
    exact ⟨world', own'', Answers.cons answered rest, represents''⟩

end Serving

end JsonlEventStore

end Nausicaa.Store
