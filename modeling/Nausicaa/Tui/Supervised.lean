import Nausicaa.Core.Delivered
import Nausicaa.Core.Schedule
import Nausicaa.Tui.Approvals

/-! # A runtime under a terminal

The approval provider of a runtime is the one of the terminal: a request is sent, and the call waits
until the terminal has answered it or is gone.  Runtime and terminal take their steps in any order.
A tool whose policy asks is executed only behind a key for approval, pressed while its own request was
asked about, and no key approves two of them (`Supervised.executions_pressed`). -/

namespace Nausicaa.Tui

open Core (AgentRuntime Answer ApprovalDecision ApprovalError ApprovalRequest Call EventEnvelope
  Observation Operation Reply Running RuntimeConfiguration RuntimeError RuntimeTask ThreadId World
  machine)
open Interaction (Program)
open Json (Value)

/-! ## The code -/

/-- The calls of a runtime, and the terminal with all that happened to it.  A call that waits is known by
its place among the calls, and its request by its place among the requests. -/
structure Supervised where
  config : RuntimeConfiguration
  moments : List Moment
  waiting : List (Nat × Nat)
  /-- The places of the answers: the call, where in its history, and the request. -/
  answered : List ((Nat × Nat) × Nat)

namespace Supervised

/-- How many requests were sent. -/
def sent (state : Supervised) : Nat := (state.moments.filterMap Moment.request).length

/-- A call is answered. -/
def resume (state : Supervised) (config : RuntimeConfiguration) (index number : Nat)
    (task : RuntimeTask) : Supervised :=
  { state with
    config
    waiting := state.waiting.erase (index, number)
    answered := state.answered ++ [((index, task.own.history.length), number)] }

section Steps

variable (rt : AgentRuntime) (display : Value → String) (maximumLogs : Nat) (threadId : ThreadId)

def session (state : Supervised) : Session := Session.run display maximumLogs threadId state.moments

/-- Everything but the answers to requests. -/
def others : World → (op : Operation) → Answer op → Prop
  | _, .requestApproval _, _ => False
  | _, _, _ => True

inductive Step : Supervised → Supervised → Prop
  | runtime {state : Supervised} {config : RuntimeConfiguration}
      (step : Interaction.Step (machine.restrict others) (Call.code rt) state.config config) :
      Step state { state with config }
  | terminal {state : Supervised} (moment : Moment) (silent : moment.request = none) :
      Step state { state with moments := state.moments ++ [moment] }
  | send {state : Supervised} {index : Nat} {task : RuntimeTask} {request : ApprovalRequest}
      {resume : Except ApprovalError ApprovalDecision →
        Program Operation Answer (Except RuntimeError Reply)}
      (present : state.config.tasks[index]? = some task)
      (asks : task.program = some (.ask (.requestApproval request) resume))
      (first : ∀ entry ∈ state.waiting, entry.1 ≠ index) :
      Step state { state with
        moments := state.moments ++ [.act (.approval request)]
        waiting := state.waiting ++ [(index, state.sent)] }
  /-- The terminal has answered. -/
  | decided {state : Supervised} {index number : Nat} {task : RuntimeTask}
      {request request' : ApprovalRequest} {decision : ApprovalDecision}
      {resume : Except ApprovalError ApprovalDecision →
        Program Operation Answer (Except RuntimeError Reply)}
      {shared : World} {own : Core.Own}
      (present : state.config.tasks[index]? = some task)
      (asks : task.program = some (.ask (.requestApproval request) resume))
      (waits : (index, number) ∈ state.waiting)
      (answers : (state.session display maximumLogs threadId).terminal.state.decisions[number]? =
        some (request', decision))
      (exec : machine.exec state.config.shared task.own (.requestApproval request) (.ok decision)
        shared own) :
      Step state (state.resume
        ⟨shared, state.config.tasks.set index ⟨task.call, some (resume (.ok decision)), own⟩⟩
        index number task)
  /-- The terminal is gone, before or behind the request. -/
  | closed {state : Supervised} {index number : Nat} {task : RuntimeTask}
      {request : ApprovalRequest} {error : ApprovalError}
      {resume : Except ApprovalError ApprovalDecision →
        Program Operation Answer (Except RuntimeError Reply)}
      {shared : World} {own : Core.Own}
      (present : state.config.tasks[index]? = some task)
      (asks : task.program = some (.ask (.requestApproval request) resume))
      (waits : (index, number) ∈ state.waiting)
      (gone : (state.session display maximumLogs threadId).gone = true)
      (undecided : (state.session display maximumLogs threadId).terminal.state.decisions[number]? =
        none)
      (message : error = ⟨"TUI approval channel was closed"⟩ ∨
        error = ⟨"TUI approval response was dropped"⟩)
      (exec : machine.exec state.config.shared task.own (.requestApproval request) (.error error)
        shared own) :
      Step state (state.resume
        ⟨shared, state.config.tasks.set index ⟨task.call, some (resume (.error error)), own⟩⟩
        index number task)

/-- A store with its events, no calls, and the terminal as it starts. -/
def start (world : World) : Supervised := ⟨.start world, [], [], []⟩

def Reaches (world : World) (state : Supervised) : Prop :=
  Relation.ReflTransGen (Step rt display maximumLogs threadId) (start world) state

end Steps

/-! ## What is promised -/

/-- The place of an answer, in the history of a call, that approves. -/
def Approves (state : Supervised) (place : Nat × Nat) (request : ApprovalRequest)
    (action : Core.CanonicalAction) : Prop :=
  ∃ task, state.config.tasks[place.1]? = some task ∧
    task.own.history[place.2]? = some ⟨.requestApproval request, .ok (.approved action)⟩

/-- The place of an execution that was answered, or of the one that a call is at. -/
def Executes (state : Supervised) (place : Nat × Nat) (prepared : Core.PreparedToolCall) : Prop :=
  ∃ task tool context, state.config.tasks[place.1]? = some task ∧
    ((∃ answer, task.own.history[place.2]? = some ⟨.execute tool prepared context, answer⟩) ∨
      place.2 = task.own.history.length ∧
        ∃ resume, task.program = some (.ask (.execute tool prepared context) resume))

/-- Every approval has a key for itself, and every execution of a tool that needs one an approval for
itself: no other execution stands between them. -/
structure Pressed (rt : AgentRuntime) (display : Value → String) (maximumLogs : Nat)
    (threadId : ThreadId) (state : Supervised) (press : Nat × Nat → Nat) : Prop where
  pressed : ∀ place request action, state.Approves place request action →
    Session.ApprovedBy display maximumLogs threadId state.moments (press place) request action
  once : ∀ place place' request request' action action', state.Approves place request action →
    state.Approves place' request' action' → press place = press place' → place = place'
  executed : ∀ place prepared, state.Executes place prepared →
    Core.effectiveAccess rt.policy rt.policyContext rt.parentCapabilities
      prepared.action.toolName = .ask →
    ∃ position request, position < place.2 ∧
      state.Approves (place.1, position) request prepared.action ∧
      request.callId = prepared.callId ∧ request.action = prepared.action ∧
      ∀ between prepared', position < between → between < place.2 →
        ¬ state.Executes (place.1, between) prepared'

/-! ## What a step keeps -/

/-- The requests that were sent. -/
def requests (state : Supervised) : List ApprovalRequest := state.moments.filterMap Moment.request

/-- If this is the answer to a request, the terminal gave it. -/
def Gave (session : Session) (answered : List ((Nat × Nat) × Nat)) (place : Nat × Nat)
    (observation : Observation) : Prop :=
  ∀ request decision, observation = ⟨.requestApproval request, .ok decision⟩ →
    ∃ number, (place, number) ∈ answered ∧
      session.terminal.state.decisions[number]? = some (request, decision)

def AllGave (session : Session) (answered : List ((Nat × Nat) × Nat)) (tasks : List RuntimeTask) :
    Prop :=
  ∀ index task position observation, tasks[index]? = some task →
    task.own.history[position]? = some observation →
    Gave session answered (index, position) observation

/-- The invariant. -/
structure Sound (session : Session) (state : Supervised) : Prop where
  /-- A call waits for one request. -/
  single : (state.waiting.map Prod.fst).Nodup
  pending : ∀ entry ∈ state.waiting, ∃ (task : RuntimeTask) (request : ApprovalRequest),
    state.config.tasks[entry.1]? = some task ∧ state.requests[entry.2]? = some request ∧
    ∀ op resume, task.program = some (.ask op resume) → op = .requestApproval request
  /-- A request is waited for once, or answered once. -/
  numbers : (state.waiting.map Prod.snd ++ state.answered.map Prod.snd).Nodup
  below : ∀ entry ∈ state.answered, entry.2 < state.sent
  gave : AllGave session state.answered state.config.tasks

section Invariant

variable {rt : AgentRuntime} {display : Value → String} {maximumLogs : Nat} {threadId : ThreadId}
variable {state state' : Supervised} {world : World}

theorem reaches_running (reaches : Reaches rt display maximumLogs threadId world state) :
    Running rt world state.config := by
  induction reaches with
  | refl => exact .refl
  | tail _ step ih =>
    cases step with
    | runtime step => exact ih.tail step.of_restrict
    | terminal | send => exact ih
    | decided present asks _ _ exec | closed present asks _ _ _ _ exec =>
      exact ih.tail (.act present asks exec)

/-- Steps of the terminal add to what it gave. -/
theorem Gave.mono {session session' : Session} {answered answered' : List ((Nat × Nat) × Nat)}
    {place : Nat × Nat} {observation : Observation} (gave : Gave session answered place observation)
    (kept : answered ⊆ answered')
    (grows : session.terminal.state.decisions <+: session'.terminal.state.decisions) :
    Gave session' answered' place observation := by
  intro request decision same
  obtain ⟨number, member, entry⟩ := gave request decision same
  obtain ⟨more, whole⟩ := grows
  refine ⟨number, kept member, ?_⟩
  rw [← whole, List.getElem?_append_left (List.getElem?_eq_some_iff.mp entry).1, entry]

variable {session : Session} {answered : List ((Nat × Nat) × Nat)} {tasks : List RuntimeTask}

/-- One more observation of one call. -/
theorem AllGave.set {index : Nat} {task task' : RuntimeTask} {observation : Observation}
    (gave : AllGave session answered tasks) (present : tasks[index]? = some task)
    (history : task'.own.history = task.own.history ++ [observation])
    (last : Gave session answered (index, task.own.history.length) observation) :
    AllGave session answered (tasks.set index task') := by
  intro index' task'' position observation' found seen
  by_cases same : index' = index
  · subst same
    rw [List.getElem?_set_self (List.getElem?_eq_some_iff.mp present).1] at found
    cases found
    rw [history, List.getElem?_append] at seen
    split at seen
    next early => exact gave _ _ _ _ present seen
    next late =>
      obtain ⟨small, rfl⟩ := List.getElem?_eq_some_iff.mp seen
      rw [List.length_singleton] at small
      have place : position = task.own.history.length := by omega
      subst place
      simpa using last
  · rw [List.getElem?_set_ne (Ne.symm same)] at found
    exact gave _ _ _ _ found seen

/-- No more observations of one call. -/
theorem AllGave.set_same {index : Nat} {task task' : RuntimeTask}
    (gave : AllGave session answered tasks) (present : tasks[index]? = some task)
    (history : task'.own.history = task.own.history) :
    AllGave session answered (tasks.set index task') := by
  intro index' task'' position observation' found seen
  by_cases same : index' = index
  · subst same
    rw [List.getElem?_set_self (List.getElem?_eq_some_iff.mp present).1] at found
    cases found
    rw [history] at seen
    exact gave _ _ _ _ present seen
  · rw [List.getElem?_set_ne (Ne.symm same)] at found
    exact gave _ _ _ _ found seen

theorem Sound.runtime {config : RuntimeConfiguration} (sound : Sound session state)
    (step : Interaction.Step (machine.restrict others) (Call.code rt) state.config config) :
    Sound session { state with config } := by
  cases step with
  | spawn call =>
    refine ⟨sound.single, ?_, sound.numbers, sound.below, ?_⟩
    · intro entry member
      obtain ⟨task, request, present, rest⟩ := sound.pending entry member
      refine ⟨task, request, ?_, rest⟩
      rw [List.getElem?_append_left (List.getElem?_eq_some_iff.mp present).1, present]
    · intro index task position observation found seen
      rw [List.getElem?_append] at found
      split at found
      next => exact sound.gave _ _ _ _ found seen
      next =>
        rw [List.getElem?_singleton] at found
        split at found
        next =>
          cases found
          cases seen
        next => cases found
  | @act index task op resume answer shared own present asks exec =>
    refine ⟨sound.single, ?_, sound.numbers, sound.below,
      AllGave.set sound.gave present (Core.exec_history exec.1) ?_⟩
    · intro entry member
      obtain ⟨task', request, present', sent, stays⟩ := sound.pending entry member
      refine ⟨task', request, ?_, sent, stays⟩
      -- A call that waits takes no other step.
      have other : entry.1 ≠ index := by
        intro same
        rw [same] at present'
        cases present.symm.trans present'
        cases stays _ _ asks
        exact exec.2
      rw [List.getElem?_set_ne (Ne.symm other), present']
    · intro request decision same
      cases same
      exact exec.2.elim
  | @drop index task present =>
    refine ⟨sound.single, ?_, sound.numbers, sound.below,
      AllGave.set_same sound.gave present rfl⟩
    intro entry member
    obtain ⟨task', request, present', sent, stays⟩ := sound.pending entry member
    by_cases same : entry.1 = index
    · refine ⟨⟨task.call, none, machine.abandon task.own⟩, request, ?_, sent, ?_⟩
      · rw [same]
        exact List.getElem?_set_self (List.getElem?_eq_some_iff.mp present).1
      · rintro _ _ ⟨⟩
    · refine ⟨task', request, ?_, sent, stays⟩
      rw [List.getElem?_set_ne (Ne.symm same), present']

/-- The terminal goes on, and requests may be sent. -/
theorem Sound.moment {session' : Session} (sound : Sound session state) (moment : Moment)
    (grows : session.terminal.state.decisions <+: session'.terminal.state.decisions) :
    Sound session' { state with moments := state.moments ++ [moment] } := by
  have added : state.requests <+:
      requests { state with moments := state.moments ++ [moment] } := by
    rw [requests, requests, List.filterMap_append]
    exact List.prefix_append _ _
  refine ⟨sound.single, ?_, sound.numbers, ?_, ?_⟩
  · intro entry member
    obtain ⟨task, request, present, sent, stays⟩ := sound.pending entry member
    obtain ⟨more, whole⟩ := added
    refine ⟨task, request, present, ?_, stays⟩
    rw [← whole, List.getElem?_append_left (List.getElem?_eq_some_iff.mp sent).1, sent]
  · intro entry member
    exact (sound.below entry member).trans_le added.length_le
  · intro index task position observation present seen
    exact (sound.gave _ _ _ _ present seen).mono (List.Subset.refl _) grows

/-- A request is sent, and its call begins to wait. -/
theorem Sound.send {session' : Session} {index : Nat} {task : RuntimeTask}
    {request : ApprovalRequest}
    {resume : Except ApprovalError ApprovalDecision →
      Program Operation Answer (Except RuntimeError Reply)}
    (sound : Sound session state) (present : state.config.tasks[index]? = some task)
    (asks : task.program = some (.ask (.requestApproval request) resume))
    (first : ∀ entry ∈ state.waiting, entry.1 ≠ index)
    (grows : session.terminal.state.decisions <+: session'.terminal.state.decisions) :
    Sound session' { state with
      moments := state.moments ++ [.act (.approval request)]
      waiting := state.waiting ++ [(index, state.sent)] } := by
  have kept := sound.moment (.act (.approval request)) grows
  have early : ∀ number ∈ state.waiting.map Prod.snd ++ state.answered.map Prod.snd,
      number ≠ state.sent := by
    intro number member
    apply Nat.ne_of_lt
    obtain waits | answered := List.mem_append.mp member
    · obtain ⟨entry, there, rfl⟩ := List.mem_map.mp waits
      obtain ⟨_, _, _, sent, _⟩ := sound.pending entry there
      exact (List.getElem?_eq_some_iff.mp sent).1
    · obtain ⟨entry, there, rfl⟩ := List.mem_map.mp answered
      exact sound.below entry there
  refine ⟨?_, ?_, ?_, kept.below, kept.gave⟩
  · rw [List.map_append, List.map_singleton, List.nodup_append]
    refine ⟨sound.single, List.nodup_singleton _, ?_⟩
    intro other member last alone same
    obtain ⟨entry, there, rfl⟩ := List.mem_map.mp member
    exact first entry there (same.trans (List.mem_singleton.mp alone))
  · intro entry member
    obtain old | new := List.mem_append.mp member
    · exact kept.pending entry old
    · rw [List.mem_singleton] at new
      subst new
      refine ⟨task, request, present, ?_, ?_⟩
      · simp [requests, sent, List.filterMap_append, Moment.request]
      · intro op resume' asks'
        cases asks.symm.trans asks'
        rfl
  · rw [List.map_append, List.map_singleton, List.append_assoc, List.singleton_append,
      List.nodup_middle, List.nodup_cons]
    exact ⟨fun member => early _ member rfl, sound.numbers⟩

/-- A call that was answered waits no more. -/
theorem Sound.resume {index number : Nat} {task : RuntimeTask} {request : ApprovalRequest}
    {answer : Except ApprovalError ApprovalDecision} {program : Program Operation Answer
      (Except RuntimeError Reply)} {shared : World} {own : Core.Own}
    (sound : Sound session state) (present : state.config.tasks[index]? = some task)
    (waits : (index, number) ∈ state.waiting)
    (history : own.history = task.own.history ++ [⟨.requestApproval request, answer⟩])
    (given : ∀ decision, answer = .ok decision →
      session.terminal.state.decisions[number]? = some (request, decision)) :
    Sound session (state.resume
      ⟨shared, state.config.tasks.set index ⟨task.call, some program, own⟩⟩ index number task) := by
  have once : state.waiting.Nodup := .of_map _ sound.single
  refine ⟨sound.single.sublist (List.erase_sublist.map _), ?_, ?_, ?_, ?_⟩
  · intro entry member
    obtain ⟨other, there⟩ := once.mem_erase_iff.mp member
    obtain ⟨task', request', present', rest⟩ := sound.pending entry there
    refine ⟨task', request', ?_, rest⟩
    have apart : entry.1 ≠ index := by
      intro same
      exact other (List.inj_on_of_nodup_map sound.single there waits same)
    rw [Supervised.resume, List.getElem?_set_ne (Ne.symm apart), present']
  · have moved : (state.waiting.map Prod.snd).Perm
        (number :: (state.waiting.erase (index, number)).map Prod.snd) :=
      (List.perm_cons_erase waits).map Prod.snd
    have numbers := (moved.append_right (state.answered.map Prod.snd)).nodup_iff.mp sound.numbers
    rw [Supervised.resume, List.map_append, List.map_singleton, ← List.append_assoc,
      List.nodup_middle, List.append_nil]
    exact numbers
  · intro entry member
    obtain old | new := List.mem_append.mp member
    · exact sound.below entry old
    · rw [List.mem_singleton] at new
      subst new
      obtain ⟨_, _, _, sent, _⟩ := sound.pending _ waits
      exact (List.getElem?_eq_some_iff.mp sent).1
  · have gave : AllGave session (state.answered ++ [((index, task.own.history.length), number)])
        state.config.tasks := by
      intro index' task' position observation found seen
      exact (sound.gave _ _ _ _ found seen).mono (List.subset_append_left _ _)
        (List.prefix_refl _)
    apply gave.set present history
    intro request' decision same
    cases same
    exact ⟨number, by simp, given decision rfl⟩

end Invariant

section Runs

variable {rt : AgentRuntime} {display : Value → String} {maximumLogs : Nat} {threadId : ThreadId}
variable {state state' : Supervised} {world : World}

theorem reaches_sound (reaches : Reaches rt display maximumLogs threadId world state) :
    state.Sound (state.session display maximumLogs threadId) := by
  induction reaches with
  | refl =>
    refine ⟨List.nodup_nil, ?_, List.nodup_nil, ?_, ?_⟩
    · rintro _ ⟨⟩
    · rintro _ ⟨⟩
    · rintro _ _ _ _ ⟨⟩
  | tail _ step sound =>
    cases step with
    | runtime step => exact sound.runtime step
    | terminal moment silent => exact sound.moment moment (Session.run_extends _ _ _ _ _)
    | send present asks first => exact sound.send present asks first (Session.run_extends _ _ _ _ _)
    | @decided index number task request request' decision resume shared own present asks waits
        answers exec =>
      apply sound.resume present waits (Core.exec_history exec)
      intro decision' same
      cases same
      obtain ⟨task', asked, present', sent, stays⟩ := sound.pending _ waits
      cases present.symm.trans present'
      cases stays _ _ asks
      have first := Session.run_decided _ _ _ _ answers
      cases sent.symm.trans first
      exact answers
    | closed present asks waits gone undecided message exec =>
      apply sound.resume present waits (Core.exec_history exec)
      rintro _ ⟨⟩

/-- An approval in front of a place of a history, with no execution in between. -/
def Behind (history : List Observation) (position : Nat) (prepared : Core.PreparedToolCall) : Prop :=
  ∃ earlier request, earlier < position ∧
    history[earlier]? = some ⟨.requestApproval request, .ok (.approved prepared.action)⟩ ∧
    request.callId = prepared.callId ∧ request.action = prepared.action ∧
    ∀ between observation, earlier < between → between < position →
      history[between]? = some observation → ¬ Core.IsExecution observation

/-- What a call is about to execute was approved before. -/
theorem behind_asks {events : List EventEnvelope} {nextSequence : Nat} {issued : Finset ThreadId}
    {config : RuntimeConfiguration} {index : Nat} {task : RuntimeTask} {tool : Core.Tool}
    {prepared : Core.PreparedToolCall} {context : Core.ToolExecutionContext}
    {resume : Except Core.ToolError Core.ToolOutput →
      Program Operation Answer (Except RuntimeError Reply)}
    (running : Running rt (World.opened events nextSequence issued) config)
    (present : config.tasks[index]? = some task)
    (asks : task.program = some (.ask (.execute tool prepared context) resume))
    (needs : Core.effectiveAccess rt.policy rt.policyContext rt.parentCapabilities
      prepared.action.toolName = .ask) :
    Behind task.own.history task.own.history.length prepared := by
  obtain ⟨_, guard, toolCall, since, authorized⟩ := running.runsFrom.permitted rfl present asks
  obtain ⟨before, history⟩ := authorized.answered
  obtain ⟨entries, logged, approved⟩ := authorized.logged
  rw [authorized.sameName] at needs
  obtain ⟨request, _, sameId, sameAction, member, _⟩ := approved needs
  obtain ⟨place, found⟩ := List.mem_iff_getElem?.mp member
  have bound := (List.getElem?_eq_some_iff.mp found).1
  have history : task.own.history =
      before ++ (⟨.prepare tool toolCall context, .ok prepared⟩ :: since) := history
  have behind : ∀ number, task.own.history[before.length + (number + 1)]? = since[number]? := by
    intro number
    rw [history, List.getElem?_append_right (by omega), Nat.add_sub_cancel_left,
      List.getElem?_cons_succ]
  refine ⟨before.length + (place + 1), request, ?_, (behind place).trans found,
    sameId.trans authorized.sameId.symm, sameAction, ?_⟩
  · rw [history, List.length_append, List.length_cons]
    omega
  · intro between observation late early seen
    obtain ⟨number, rfl⟩ : ∃ number, between = before.length + (number + 1) :=
      ⟨between - before.length - 1, by omega⟩
    rw [behind] at seen
    exact authorized.first observation (List.mem_of_getElem? seen)

theorem Behind.mono {history more : List Observation} {position : Nat}
    {prepared : Core.PreparedToolCall} (behind : Behind history position prepared)
    (inside : position ≤ history.length) : Behind (history ++ more) position prepared := by
  obtain ⟨earlier, request, before, approved, sameId, sameAction, none⟩ := behind
  refine ⟨earlier, request, before, ?_, sameId, sameAction, ?_⟩
  · rw [List.getElem?_append_left (by omega), approved]
  · intro between observation late early seen
    rw [List.getElem?_append_left (by omega)] at seen
    exact none between observation late early seen

/-- The executions in the histories were approved before. -/
def AllBehind (rt : AgentRuntime) (tasks : List RuntimeTask) : Prop :=
  ∀ task ∈ tasks, ∀ position tool prepared context answer,
    task.own.history[position]? = some ⟨.execute tool prepared context, answer⟩ →
    Core.effectiveAccess rt.policy rt.policyContext rt.parentCapabilities
      prepared.action.toolName = .ask →
    Behind task.own.history position prepared

theorem running_behind {events : List EventEnvelope} {nextSequence : Nat}
    {issued : Finset ThreadId} {config : RuntimeConfiguration}
    (running : Running rt (World.opened events nextSequence issued) config) :
    AllBehind rt config.tasks := by
  induction running with
  | refl => rintro _ ⟨⟩
  | @tail middle last before step ih =>
    cases step with
    | spawn call =>
      intro task member position tool prepared context answer seen
      obtain old | new := List.mem_append.mp member
      · exact ih task old position tool prepared context answer seen
      · rw [List.mem_singleton] at new
        subst new
        cases seen
    | @act index task op resume reply shared own present asks exec =>
      intro task' member position tool prepared context answer seen needs
      obtain ⟨place, found⟩ := List.mem_iff_getElem?.mp member
      by_cases same : place = index
      · subst same
        rw [List.getElem?_set_self (List.getElem?_eq_some_iff.mp present).1] at found
        cases found
        have history := Core.exec_history exec
        dsimp only at seen ⊢
        rw [history] at seen ⊢
        rw [List.getElem?_append] at seen
        split at seen
        next early =>
          exact (ih task (List.mem_of_getElem? present) _ _ _ _ _ seen needs).mono
            (Nat.le_of_lt early)
        next late =>
          rw [List.getElem?_singleton] at seen
          split at seen
          next here =>
            cases seen
            have last : position = task.own.history.length := by omega
            subst last
            exact (behind_asks before present asks needs).mono (Nat.le_refl _)
          next => cases seen
      · rw [List.getElem?_set_ne (Ne.symm same)] at found
        exact ih task' (List.mem_of_getElem? found) _ _ _ _ _ seen needs
    | @drop index task present =>
      intro task' member position tool prepared context answer seen needs
      obtain ⟨place, found⟩ := List.mem_iff_getElem?.mp member
      by_cases same : place = index
      · subst same
        rw [List.getElem?_set_self (List.getElem?_eq_some_iff.mp present).1] at found
        cases found
        exact ih task (List.mem_of_getElem? present) _ _ _ _ _ seen needs
      · rw [List.getElem?_set_ne (Ne.symm same)] at found
        exact ih task' (List.mem_of_getElem? found) _ _ _ _ _ seen needs

end Runs

/-! ## Schedules -/

/-- The next thing that happens in a run. -/
inductive Move where
  | runtime (move : Core.Move)
  | terminal (moment : Moment)
  | send (index : Nat)
  | decided (index : Nat)

namespace Schedule

variable (rt : AgentRuntime) (around : Core.Surroundings) (display : Value → String)
variable (maximumLogs : Nat) (threadId : ThreadId)

/-- The call is at a request. -/
def waits (state : Supervised) : Core.Move → Bool
  | .act index =>
    match state.config.tasks[index]? with
    | some ⟨_, some (.ask (.requestApproval _) _), _⟩ => true
    | _ => false
  | _ => false

def step (state : Supervised) : Move → Option Supervised
  | .runtime move =>
    if waits state move then none
    else (Core.Schedule.step rt around state.config move).map fun config => { state with config }
  | .terminal moment =>
    if moment.request.isNone then some { state with moments := state.moments ++ [moment] } else none
  | .send index =>
    match state.config.tasks[index]? with
    | some ⟨_, some (.ask (.requestApproval request) _), _⟩ =>
      if state.waiting.all (·.1 ≠ index) then
        some { state with
          moments := state.moments ++ [.act (.approval request)]
          waiting := state.waiting ++ [(index, state.sent)] }
      else none
    | _ => none
  | .decided index =>
    match state.config.tasks[index]?, state.waiting.find? (·.1 = index) with
    | some ⟨call, some (.ask (.requestApproval request) resume), own⟩, some (_, number) =>
      match (state.session display maximumLogs threadId).terminal.state.decisions[number]? with
      | some (_, decision) =>
        let answered : RuntimeTask := ⟨call, some (resume (.ok decision)),
          own.observe (.requestApproval request) (.ok decision)⟩
        some (state.resume
          ⟨state.config.shared, state.config.tasks.set index answered⟩ index number
          ⟨call, some (.ask (.requestApproval request) resume), own⟩)
      | none => none
    | _, _ => none

def play : List Move → Supervised → Option Supervised
  | [], state => some state
  | move :: moves, state => (step rt around display maximumLogs threadId state move).bind (play moves)

variable {rt around display maximumLogs threadId} {state state' : Supervised} {world : World}

theorem runtime_sound {move : Core.Move} {config : RuntimeConfiguration}
    (other : waits state move = false)
    (moved : Core.Schedule.step rt around state.config move = some config) :
    Interaction.Step (machine.restrict others) (Call.code rt) state.config config := by
  cases move with
  | call call =>
    cases moved
    exact .spawn state.config call
  | act index =>
    simp only [Core.Schedule.step] at moved
    split at moved
    next call op resume own present =>
      split at moved
      next answer world after performed =>
        cases moved
        refine .act present rfl ⟨⟨_, _, performed, rfl⟩, ?_⟩
        cases op with
        | requestApproval request => simp [waits, present] at other
        | _ => trivial
      next => cases moved
    next => cases moved
  | drop index =>
    simp only [Core.Schedule.step] at moved
    split at moved
    next task present =>
      cases moved
      have dropped : Interaction.Step (machine.restrict others) (Call.code rt) state.config _ :=
        .drop present
      exact dropped
    next => cases moved

theorem step_sound {move : Move}
    (moved : step rt around display maximumLogs threadId state move = some state') :
    Step rt display maximumLogs threadId state state' := by
  cases move with
  | runtime move =>
    rw [step] at moved
    split at moved
    next => cases moved
    next other =>
      obtain ⟨config, ran, rfl⟩ := Option.map_eq_some_iff.mp moved
      exact .runtime (runtime_sound (by simpa using other) ran)
  | terminal moment =>
    rw [step] at moved
    split at moved
    next silent =>
      cases moved
      exact .terminal moment (Option.isNone_iff_eq_none.mp silent)
    next => cases moved
  | send index =>
    simp only [step] at moved
    split at moved
    next call request resume own present =>
      split at moved
      next first =>
        cases moved
        exact .send present rfl (by simpa using first)
      next => cases moved
    next => cases moved
  | decided index =>
    simp only [step] at moved
    split at moved
    next call request resume own other number present waits =>
      split at moved
      next request' decision answers =>
        cases moved
        have same : other = index := by simpa using List.find?_some waits
        subst same
        exact .decided present rfl (List.mem_of_find?_eq_some waits) answers ⟨_, _, rfl, rfl⟩
      next => cases moved
    next => cases moved

theorem play_steps {moves : List Move}
    (played : play rt around display maximumLogs threadId moves state = some state') :
    Relation.ReflTransGen (Step rt display maximumLogs threadId) state state' := by
  induction moves generalizing state with
  | nil =>
    cases played
    exact .refl
  | cons move moves ih =>
    obtain ⟨next, moved, rest⟩ := Option.bind_eq_some_iff.mp played
    exact .head (step_sound moved) (ih rest)

end Schedule

section Promise

variable {rt : AgentRuntime} {display : Value → String} {maximumLogs : Nat} {threadId : ThreadId}
variable {state : Supervised}

/-- Whatever the order of the steps, executions need approvals, approvals need keys, and neither is
used twice. -/
theorem executions_pressed {events : List EventEnvelope} {nextSequence : Nat}
    {issued : Finset ThreadId}
    (reaches : Reaches rt display maximumLogs threadId (World.opened events nextSequence issued)
      state) : ∃ press, Pressed rt display maximumLogs threadId state press := by
  have sound := reaches_sound reaches
  have running := reaches_running reaches
  -- The key of an approval is the one that gave the answer of its request.
  have traced : ∀ place, ∃ number, ∀ request action, state.Approves place request action →
      (place, number) ∈ state.answered ∧
        (state.session display maximumLogs threadId).terminal.state.decisions[number]? =
          some (request, .approved action) := by
    intro place
    by_cases approval : ∃ request action, state.Approves place request action
    · obtain ⟨request, action, task, present, seen⟩ := approval
      obtain ⟨number, member, entry⟩ := sound.gave _ _ _ _ present seen request _ rfl
      refine ⟨number, fun request' action' approves => ?_⟩
      obtain ⟨task', present', seen'⟩ := approves
      cases present.symm.trans present'
      cases seen.symm.trans seen'
      exact ⟨member, entry⟩
    · exact ⟨0, fun request action approves => absurd ⟨request, action, approves⟩ approval⟩
  obtain ⟨press, presses⟩ := Classical.skolem.mp traced
  refine ⟨press, ?_, ?_, ?_⟩
  · intro place request action approves
    exact Session.run_approved _ _ _ _ (presses place request action approves).2
  · intro place place' request request' action action' approves approves' same
    have numbers : (state.answered.map Prod.snd).Nodup := (List.nodup_append.mp sound.numbers).2.1
    have entry := (presses _ _ _ approves).1
    have entry' := (presses _ _ _ approves').1
    exact congrArg Prod.fst (List.inj_on_of_nodup_map numbers entry entry' same)
  · intro place prepared executes needs
    obtain ⟨task, tool, context, present, execution⟩ := executes
    have behind : Behind task.own.history place.2 prepared := by
      obtain ⟨answer, seen⟩ | ⟨here, resume, asks⟩ := execution
      · exact running_behind running task (List.mem_of_getElem? present) _ _ _ _ _ seen needs
      · rw [here]
        exact behind_asks running present asks needs
    have inside : place.2 ≤ task.own.history.length := by
      obtain ⟨answer, seen⟩ | ⟨here, _⟩ := execution
      · exact Nat.le_of_lt (List.getElem?_eq_some_iff.mp seen).1
      · exact Nat.le_of_eq here
    obtain ⟨earlier, request, before, approved, sameId, sameAction, none⟩ := behind
    refine ⟨earlier, request, before, ⟨task, present, approved⟩, sameId, sameAction, ?_⟩
    intro between prepared' late early executes'
    obtain ⟨task', tool', context', present', execution'⟩ := executes'
    cases present.symm.trans present'
    obtain ⟨answer, seen⟩ | ⟨here, _⟩ := execution'
    · exact none between _ late early seen trivial
    · dsimp only at here
      omega

end Promise

namespace Sample

/-- The first call of a turn is sent, asked about, approved, and about to be executed. -/
def moves : List Move :=
  (Core.Sample.turn 21).map Move.runtime ++ ([.send 1] : List Move) ++
    List.replicate 4 (Move.terminal (.act (.loop none))) ++
    ([.terminal (.act (.loop (some (.char 'y')))), .decided 1, .runtime (.act 1),
      .runtime (.act 1)] : List Move)

def played : Option Supervised :=
  Schedule.play (Core.Sample.runtime .ask) (Core.Sample.around (.ok ())) (fun _ => "") 10
    Core.Sample.threadId moves (start World.empty)

def approved : Supervised := played.getD (start World.empty)

theorem approved_reaches : Reaches (Core.Sample.runtime .ask) (fun _ => "") 10 Core.Sample.threadId
    (World.opened [] 0 ∅) approved := by
  have some : played.isSome = true := rfl
  obtain ⟨state, found⟩ := Option.isSome_iff_exists.mp some
  have same : approved = state := by simp [approved, found]
  rw [same]
  exact Schedule.play_steps found

end Sample

theorem executions_pressed_first :
    Sample.approved.Executes (1, 24) (Core.Sample.prepare Core.Sample.first) ∧
    ∃ press, Pressed (Core.Sample.runtime .ask) (fun _ => "") 10 Core.Sample.threadId
      Sample.approved press :=
  ⟨⟨_, _, _, rfl, .inr ⟨rfl, _, rfl⟩⟩, executions_pressed Sample.approved_reaches⟩

end Supervised

end Nausicaa.Tui
