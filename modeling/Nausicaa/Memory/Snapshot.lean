import Nausicaa.Cache.Fifo
import Nausicaa.Core.Operation
import Nausicaa.Interaction.Fallible
import Nausicaa.Memory.Store

/-! # Memory snapshots

`MemoryContextCompiler` of the memory crate.  It means to freeze what it recalled on the
first compile of a turn, in a cache that forgets the oldest of its turns. -/

namespace Nausicaa.Memory

open Core (CompiledContext ContextError ContextInput PromptSegment ThreadId TranscriptMessage TurnId)
open Cache (Fifo Keeps recent)
open Fallible (bind_ok)

/-! ## The compiler -/

abbrev SnapshotKey := ThreadId × TurnId

instance : Ord SnapshotKey := lexOrd

abbrev SnapshotCache := Fifo SnapshotKey (List MemoryRecord)

structure MemoryContextCompiler (State : Type) where
  store : MemoryStore State
  recallLimit : Nat
  maximumSnapshots : Nat

variable {State : Type}

namespace MemoryContextCompiler

def new (store : MemoryStore State) : MemoryContextCompiler State where
  store := store
  recallLimit := 8
  maximumSnapshots := 128

def withRecallLimit (limit : Nat) (self : MemoryContextCompiler State) :
    MemoryContextCompiler State :=
  { self with recallLimit := limit }

end MemoryContextCompiler

/-- What the user said last. -/
def query (transcript : List TranscriptMessage) : String :=
  (transcript.reverse.findSome? fun message =>
    match message with
    | .user content => some content
    | _ => none).getD ""

/-- The segment that is added for recalled memory. -/
def advisory (memories : List MemoryRecord) : List PromptSegment :=
  if memories.isEmpty then []
  else
    let text := "\n".intercalate (memories.map fun memory => "- [" ++ memory.id ++ "] " ++ memory.text)
    [{ layer := .memory
       name := "advisory-memory-snapshot"
       text := "Advisory recalled memory; this is context, not policy or authority:\n" ++ text }]

section Compile

variable (unicode : Unicode) (self : MemoryContextCompiler State)

/-- What happens under the lock on the snapshots. -/
def memories (input : ContextInput) (stored : State) (snapshots : SnapshotCache) :
    Except ContextError (List MemoryRecord) × SnapshotCache :=
  match snapshots.entries[(input.threadId, input.turnId)]? with
  | some existing => (.ok existing, snapshots)
  | none =>
    match self.store.recall unicode (query input.transcript) self.recallLimit stored with
    | .error error => (.error (.read error.toString), snapshots)
    | .ok recalled =>
      (.ok recalled, snapshots.push self.maximumSnapshots (input.threadId, input.turnId) recalled)

/-- `compile`, where `inner` is what the inner compiler answers. -/
def compile (input : ContextInput) (inner : Except ContextError CompiledContext) (stored : State)
    (snapshots : SnapshotCache) : Except ContextError CompiledContext × SnapshotCache :=
  let found := memories unicode self input stored snapshots
  (do
    let memories ← found.1
    let compiled ← inner
    return { compiled with prompt := compiled.prompt ++ advisory memories }, found.2)

end Compile

/-! ## Runs -/

/-- A call on the compiler or on its store.  Calls of `compile` overlap only outside the lock,
where nothing is shared. -/
inductive Call where
  | upsert (record : MemoryRecord)
  | forget (id : String)
  | compile (input : ContextInput) (inner : Except ContextError CompiledContext)

/-- A call of `compile` that was made, with what was stored at the time. -/
structure Compilation (State : Type) where
  input : ContextInput
  inner : Except ContextError CompiledContext
  stored : State
  result : Except ContextError CompiledContext

def Compilation.key (self : Compilation State) : SnapshotKey :=
  (self.input.threadId, self.input.turnId)

structure Running (State : Type) where
  stored : State
  snapshots : SnapshotCache
  compilations : List (Compilation State)

section Run

variable (unicode : Unicode) (self : MemoryContextCompiler State)

def step (running : Running State) : Call → Running State
  | .upsert record => { running with stored := (self.store.upsert record running.stored).2 }
  | .forget id => { running with stored := (self.store.forget id running.stored).2 }
  | .compile input inner =>
    let compiled := compile unicode self input inner running.stored running.snapshots
    { running with
      snapshots := compiled.2
      compilations := running.compilations ++
        [{ input := input, inner := inner, stored := running.stored, result := compiled.1 }] }

/-- The calls made on a new compiler. -/
def run (stored : State) (calls : List Call) : Running State :=
  calls.foldl (step unicode self) { stored := stored, snapshots := .empty, compilations := [] }

/-! ## Frozen memory -/

/-- What would be recalled for a compilation at its time. -/
def recallAt (compilation : Compilation State) : Except MemoryError (List MemoryRecord) :=
  self.store.recall unicode (query compilation.input.transcript) self.recallLimit compilation.stored

/-- The recall made at the first compilation of a turn, where a recall that fails is none. -/
def firstRecall (key : SnapshotKey) (compilations : List (Compilation State)) :
    Option (List MemoryRecord) :=
  compilations.findSome? fun compilation =>
    if compilation.key = key then (recallAt unicode self compilation).toOption else none

/-- Every compilation that succeeds adds the first recall of its turn. -/
def Frozen (compilations : List (Compilation State)) : Prop :=
  ∀ compilation ∈ compilations, ∀ context, compilation.result = .ok context →
    ∃ compiled memories, compilation.inner = .ok compiled ∧
      firstRecall unicode self compilation.key compilations = some memories ∧
      context = { compiled with prompt := compiled.prompt ++ advisory memories }

/-- The first recalls, in the order of their turns. -/
def firstRecalls (compilations : List (Compilation State)) :
    List (SnapshotKey × List MemoryRecord) :=
  compilations.foldl (fun log compilation =>
    match recallAt unicode self compilation with
    | .ok recalled =>
      if compilation.key ∈ log.map Prod.fst then log else log ++ [(compilation.key, recalled)]
    | .error _ => log) []

/-- The turns in the order in which something was first recalled for them. -/
def turns (compilations : List (Compilation State)) : List SnapshotKey :=
  (firstRecalls unicode self compilations).map Prod.fst

/-- Every compilation of a turn that was compiled before finds it among the last turns that
were compiled for the first time. -/
def StaysRecent (compilations : List (Compilation State)) : Prop :=
  ∀ before compilation after, compilations = before ++ compilation :: after →
    compilation.key ∈ turns unicode self before →
    compilation.key ∈ recent self.maximumSnapshots (turns unicode self before)

end Run

/-! ## What a compilation adds -/

section Steps

variable {unicode : Unicode} {self : MemoryContextCompiler State}
variable {compilations : List (Compilation State)} {compilation : Compilation State}
variable {key : SnapshotKey} {recalled : List MemoryRecord}

theorem firstRecalls_concat (unicode : Unicode) (self : MemoryContextCompiler State)
    (compilations : List (Compilation State))
    (compilation : Compilation State) :
    firstRecalls unicode self (compilations ++ [compilation]) =
      match recallAt unicode self compilation with
      | .ok recalled =>
        if compilation.key ∈ turns unicode self compilations then
          firstRecalls unicode self compilations
        else firstRecalls unicode self compilations ++ [(compilation.key, recalled)]
      | .error _ => firstRecalls unicode self compilations := by
  rw [firstRecalls, List.foldl_append]
  rfl

theorem mem_turns : key ∈ turns unicode self compilations ↔
    ∃ recalled, (key, recalled) ∈ firstRecalls unicode self compilations := by
  simp [turns]

/-- Each turn is recalled for the first time once. -/
theorem turns_nodup (unicode : Unicode) (self : MemoryContextCompiler State)
    (compilations : List (Compilation State)) :
    (turns unicode self compilations).Nodup := by
  induction compilations using List.reverseRecOn with
  | nil => exact List.nodup_nil
  | append_singleton compilations compilation ih =>
    rw [turns, firstRecalls_concat]
    cases recallAt unicode self compilation with
    | error error => exact ih
    | ok recalled =>
      by_cases known : compilation.key ∈ turns unicode self compilations
      · simp only [known, if_true]
        exact ih
      · simp only [known, if_false, List.map_append]
        exact List.Nodup.append ih (List.nodup_singleton _) (by simpa [turns] using known)

theorem firstRecall_concat (compilations : List (Compilation State))
    (compilation : Compilation State) :
    firstRecall unicode self key (compilations ++ [compilation]) =
      (firstRecall unicode self key compilations).or
        (if compilation.key = key then (recallAt unicode self compilation).toOption else none) := by
  rw [firstRecall, List.findSome?_append]
  rw [List.findSome?_cons, List.findSome?_nil]
  cases (if compilation.key = key then (recallAt unicode self compilation).toOption else none) <;> rfl

theorem firstRecalls_known (known : compilation.key ∈ turns unicode self compilations) :
    firstRecalls unicode self (compilations ++ [compilation]) =
      firstRecalls unicode self compilations := by
  rw [firstRecalls_concat]
  cases recallAt unicode self compilation with
  | error error => rfl
  | ok recalled => exact if_pos known

/-- The log of the first recalls holds the first recall of every turn. -/
theorem firstRecall_iff (key : SnapshotKey) (recalled : List MemoryRecord) :
    firstRecall unicode self key compilations = some recalled ↔
      (key, recalled) ∈ firstRecalls unicode self compilations := by
  induction compilations using List.reverseRecOn generalizing key recalled with
  | nil => simp [firstRecall, firstRecalls]
  | append_singleton compilations compilation ih =>
    rw [firstRecall_concat, firstRecalls_concat]
    cases recallAt unicode self compilation with
    | error error => simpa [Except.toOption] using ih key recalled
    | ok found =>
      by_cases known : compilation.key ∈ turns unicode self compilations
      · simp only [known, if_true]
        obtain ⟨first, member⟩ := mem_turns.mp known
        by_cases same : compilation.key = key
        · subst same
          have recorded := (ih _ _).mpr member
          rw [← ih, recorded, Option.some_or]
        · simpa [same] using ih key recalled
      · simp only [known, if_false, List.mem_append, List.mem_singleton, Prod.mk.injEq]
        by_cases same : compilation.key = key
        · subst same
          have nothing : firstRecall unicode self compilation.key compilations = none := by
            cases recorded : firstRecall unicode self compilation.key compilations with
            | none => rfl
            | some first => exact absurd (mem_turns.mpr ⟨first, (ih _ _).mp recorded⟩) known
          have absent : (compilation.key, recalled) ∉ firstRecalls unicode self compilations :=
            fun member => known (mem_turns.mpr ⟨recalled, member⟩)
          simp [nothing, absent, Except.toOption, eq_comm]
        · simpa [same, Ne.symm same] using ih key recalled

/-- What was recalled for a turn first stays so. -/
theorem firstRecall_stays {more : List (Compilation State)}
    (recorded : firstRecall unicode self key compilations = some recalled) :
    firstRecall unicode self key (compilations ++ more) = some recalled := by
  rw [firstRecall, List.findSome?_append]
  rw [firstRecall] at recorded
  rw [recorded, Option.some_or]

theorem StaysRecent.of_concat
    (stays : StaysRecent unicode self (compilations ++ [compilation])) :
    StaysRecent unicode self compilations := by
  intro before earlier after split
  exact stays before earlier (after ++ [compilation]) (by rw [split]; simp)

/-- The cache holds the first recalls of the last turns. -/
def Caches (unicode : Unicode) (self : MemoryContextCompiler State)
    (compilations : List (Compilation State)) (snapshots : SnapshotCache) : Prop :=
  Keeps self.maximumSnapshots (firstRecalls unicode self compilations) snapshots

section Memories

variable {snapshots : SnapshotCache}

/-- For a turn that is recent or new the first recall is found, and stays in the cache. -/
theorem memories_recent (caches : Caches unicode self compilations snapshots)
    (stays : compilation.key ∈ turns unicode self compilations →
      compilation.key ∈ recent self.maximumSnapshots (turns unicode self compilations)) :
    (∀ recalled, (memories unicode self compilation.input compilation.stored snapshots).1 =
        .ok recalled →
      firstRecall unicode self compilation.key (compilations ++ [compilation]) = some recalled) ∧
    Caches unicode self (compilations ++ [compilation])
      (memories unicode self compilation.input compilation.stored snapshots).2 := by
  by_cases known : compilation.key ∈ turns unicode self compilations
  · obtain ⟨first, member⟩ := mem_turns.mp known
    have found := caches.get_of_mem (turns_nodup unicode self compilations) member (stays known)
    have same : memories unicode self compilation.input compilation.stored snapshots =
        (.ok first, snapshots) := by
      rw [Compilation.key] at found
      rw [memories, found]
    rw [same]
    constructor
    · intro recalled same
      cases same
      exact firstRecall_stays ((firstRecall_iff _ _).mpr member)
    · unfold Caches
      rw [firstRecalls_known known]
      exact caches
  · have missing := caches.get_none fun member => known (Cache.mem_of_mem_recent member)
    have added := firstRecalls_concat unicode self compilations compilation
    rw [Compilation.key] at missing
    unfold memories Caches
    rw [missing]
    cases answered : recallAt unicode self compilation with
    | error error =>
      -- A recall that fails leaves nothing behind.
      rw [answered] at added
      rw [recallAt] at answered
      rw [added, answered]
      constructor
      · intro recalled same
        cases same
      · exact caches
    | ok recalled =>
      rw [answered] at added
      simp only [known, if_false] at added
      rw [recallAt] at answered
      rw [added, answered]
      constructor
      · intro recalled' same
        cases same
        rw [firstRecall_iff, added]
        exact List.mem_append_right _ List.mem_cons_self
      · apply caches.push
        have distinct := turns_nodup unicode self (compilations ++ [compilation])
        rw [turns, added] at distinct
        exact distinct

/-- For a turn that is recent no more there is a new recall. -/
theorem memories_old (caches : Caches unicode self compilations snapshots)
    (old : compilation.key ∉ recent self.maximumSnapshots (turns unicode self compilations)) :
    (memories unicode self compilation.input compilation.stored snapshots).1 =
      (recallAt unicode self compilation).mapError fun error => .read error.toString := by
  have missing := caches.get_none old
  rw [Compilation.key] at missing
  rw [memories, missing, recallAt]
  cases self.store.recall unicode (query compilation.input.transcript) self.recallLimit
    compilation.stored <;> rfl

end Memories

theorem compile_ok {input : ContextInput} {inner : Except ContextError CompiledContext}
    {stored : State} {snapshots : SnapshotCache} {context : CompiledContext}
    (succeeded : (compile unicode self input inner stored snapshots).1 = .ok context) :
    ∃ recalled compiled, (memories unicode self input stored snapshots).1 = .ok recalled ∧
      inner = .ok compiled ∧
      context = { compiled with prompt := compiled.prompt ++ advisory recalled } := by
  obtain ⟨recalled, found, rest⟩ := bind_ok.mp succeeded
  obtain ⟨compiled, answered, same⟩ := bind_ok.mp rest
  cases same
  exact ⟨recalled, compiled, found, answered, rfl⟩

theorem Frozen.concat (frozen : Frozen unicode self compilations)
    (adds : ∀ context, compilation.result = .ok context → ∃ compiled memories,
      compilation.inner = .ok compiled ∧
      firstRecall unicode self compilation.key (compilations ++ [compilation]) = some memories ∧
      context = { compiled with prompt := compiled.prompt ++ advisory memories }) :
    Frozen unicode self (compilations ++ [compilation]) := by
  intro earlier member context succeeded
  rw [List.mem_append, List.mem_singleton] at member
  cases member with
  | inl earlier' =>
    obtain ⟨compiled, memories, answered, recorded, same⟩ := frozen earlier earlier' context succeeded
    exact ⟨compiled, memories, answered, firstRecall_stays recorded, same⟩
  | inr last =>
    subst last
    exact adds context succeeded

end Steps

/-! ## Whole runs -/

section Runs

/-- What every call preserves while the turns stay recent. -/
structure Freezes (unicode : Unicode) (compiler : MemoryContextCompiler State)
    (running : Running State) : Prop where
  caches : Caches unicode compiler running.compilations running.snapshots
  frozen : Frozen unicode compiler running.compilations

variable {unicode : Unicode} {self : MemoryContextCompiler State}
variable {running : Running State} {call : Call}

theorem Freezes.step (freezes : Freezes unicode self running)
    (stays : StaysRecent unicode self (step unicode self running call).compilations) :
    Freezes unicode self (step unicode self running call) := by
  cases call with
  | upsert record => exact ⟨freezes.caches, freezes.frozen⟩
  | forget id => exact ⟨freezes.caches, freezes.frozen⟩
  | compile input inner =>
    obtain ⟨found, caches⟩ := memories_recent freezes.caches (stays running.compilations _ [] rfl)
    constructor
    · exact caches
    · apply freezes.frozen.concat
      intro context succeeded
      obtain ⟨recalled, compiled, first, answered, same⟩ := compile_ok succeeded
      exact ⟨compiled, recalled, answered, found recalled first, same⟩

theorem StaysRecent.of_step
    (stays : StaysRecent unicode self (Memory.step unicode self running call).compilations) :
    StaysRecent unicode self running.compilations := by
  cases call with
  | upsert record => exact stays
  | forget id => exact stays
  | compile input inner => exact stays.of_concat

theorem run_freezes (stored : State) (calls : List Call)
    (stays : StaysRecent unicode self (run unicode self stored calls).compilations) :
    Freezes unicode self (run unicode self stored calls) := by
  induction calls using List.reverseRecOn with
  | nil => exact ⟨Keeps.empty, by intro compilation member; cases member⟩
  | append_singleton calls call ih =>
    rw [run, List.foldl_append] at stays ⊢
    exact (ih stays.of_step).step stays

theorem firstRecalls_grows (compilations more : List (Compilation State)) :
    firstRecalls unicode self compilations <+: firstRecalls unicode self (compilations ++ more) := by
  induction more using List.reverseRecOn with
  | nil => simp
  | append_singleton more compilation ih =>
    rw [← List.append_assoc, firstRecalls_concat]
    apply ih.trans
    cases recallAt unicode self compilation with
    | error error => exact List.prefix_refl _
    | ok recalled =>
      dsimp only
      split
      · exact List.prefix_refl _
      · exact List.prefix_append _ _

/-- Where there are no more turns than snapshots all of them stay recent. -/
theorem staysRecent_of_few {compilations : List (Compilation State)}
    (few : (turns unicode self compilations).length ≤ self.maximumSnapshots) :
    StaysRecent unicode self compilations := by
  intro before compilation after split known
  have shorter : (turns unicode self before).length ≤ (turns unicode self compilations).length := by
    rw [split]
    exact ((firstRecalls_grows before _).map Prod.fst).length_le
  rw [Cache.recent_of_le (shorter.trans few)]
  exact known

end Runs

/-- While each turn is compiled among the last turns that were compiled for the first time, its
recalled memory is frozen. -/
theorem memory_frozen (unicode : Unicode) (self : MemoryContextCompiler State) (stored : State)
    (calls : List Call)
    (stays : StaysRecent unicode self (run unicode self stored calls).compilations) :
    Frozen unicode self (run unicode self stored calls).compilations :=
  (run_freezes stored calls stays).frozen

/-! ## A thawed turn -/

namespace Sample

def unicode : Unicode where
  isAlphanumeric := Char.isAlphanum
  isWhitespace := Char.isWhitespace
  toLowercase := id

def compiler : MemoryContextCompiler InMemoryState := .new inMemoryStore

def record : MemoryRecord where
  id := "memory_1"
  text := "rust"
  tags := ∅
  source := none
  createdAtUnixMs := 0
  updatedAtUnixMs := 0

/-- A compile in the turn of this number. -/
def compile (turn : Nat) : Call :=
  .compile { threadId := ⟨"t"⟩, turnId := ⟨toString turn⟩, transcript := [.user "rust"] }
    (.ok { prompt := [], messages := [] })

/-- A turn is compiled before and after a write. -/
def interrupted : Running InMemoryState :=
  run unicode compiler ∅ [compile 0, .upsert record, compile 0]

/-- The same with the first compiles of 128 other turns between them. -/
def crowded : Running InMemoryState :=
  run unicode compiler ∅
    (compile 0 :: (List.range' 1 128).map compile ++ [.upsert record, compile 0])

end Sample

theorem memory_frozen_interrupted :
    Frozen Sample.unicode Sample.compiler Sample.interrupted.compilations :=
  memory_frozen _ _ _ _ (staysRecent_of_few (by decide))

/-- The last compile of the crowded run adds a segment, though nothing was recalled for its turn
at first. -/
theorem memory_thawed : ¬ Frozen Sample.unicode Sample.compiler Sample.crowded.compilations := by
  have thaws : ((firstRecall Sample.unicode Sample.compiler (⟨"t"⟩, ⟨"0"⟩)
        Sample.crowded.compilations).any List.isEmpty &&
      Sample.crowded.compilations.getLast?.any fun compilation =>
        decide (compilation.key = (⟨"t"⟩, ⟨"0"⟩)) &&
        compilation.inner.toOption.any (fun compiled => compiled.prompt.isEmpty) &&
        compilation.result.toOption.any fun context => !context.prompt.isEmpty) = true := by
    decide +kernel
  intro frozen
  rw [Bool.and_eq_true, Option.any_eq_true, Option.any_eq_true] at thaws
  obtain ⟨⟨first, recorded, empty⟩, compilation, last, holds⟩ := thaws
  rw [Bool.and_eq_true, Bool.and_eq_true, decide_eq_true_eq] at holds
  obtain ⟨⟨key, nothing⟩, something⟩ := holds
  cases result : compilation.result with
  | error error =>
    rw [result] at something
    cases something
  | ok context =>
    obtain ⟨compiled, memories, answered, recorded', same⟩ :=
      frozen compilation (List.mem_of_getLast? last) context result
    rw [key, recorded] at recorded'
    cases recorded'
    rw [answered] at nothing
    rw [result, same, advisory, if_pos empty] at something
    simp only [Except.toOption, Option.any_some, List.append_nil] at nothing something
    rw [nothing] at something
    cases something

end Nausicaa.Memory
