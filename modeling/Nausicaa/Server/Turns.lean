import Nausicaa.Core.TurnResult

/-! # The turns of the app server

`app-server/src/lib.rs`.  `turn/start` enters a turn as running and runs it on a thread
of its own, which enters its result when it is over; `turn/status` reads the entry.  Any
other user of the runtime may act in between.  `turn/cancel` sets the token of a turn,
whose readings are answers of the runtime's surroundings.
-/

namespace Nausicaa.Server

open Core
open Interaction (Step)
open Std (TreeMap)

inductive TurnRunState where
  | running
  | completed (content : String)
  | failed (error : String)
  | cancelled
  deriving DecidableEq, Repr

structure TurnControl where
  threadId : ThreadId
  cancellation : CancellationToken
  state : TurnRunState

/-- What a background thread enters for the result of its turn. -/
def TurnRunState.ofResult : Except RuntimeError TurnOutcome → TurnRunState
  | .ok outcome => .completed outcome.content
  | .error (.cancelled _) => .cancelled
  | .error error => .failed error.toString

/-- The server: the runtime with all its calls, the entries of the turns, and the
background threads, each by the place of its call and its turn. -/
structure AppServer where
  runtime : RuntimeConfiguration
  turns : TreeMap TurnId TurnControl
  background : List (Nat × TurnId)

namespace AppServer

variable (rt : AgentRuntime) (server : AppServer)

/-- `AppServer::new` on a runtime over a store. -/
def new (world : World) : AppServer := ⟨Interaction.Config.start world, ∅, []⟩

def startTurn (threadId : ThreadId) (turnId : TurnId) (input : String)
    (cancellation : CancellationToken) : AppServer :=
  let call : Call := .runTurn threadId turnId input cancellation
  { runtime := { server.runtime with
      tasks := server.runtime.tasks ++ [⟨call, some (call.code rt), machine.idle⟩] }
    turns := server.turns.insert turnId ⟨threadId, cancellation, .running⟩
    background := server.background ++ [(server.runtime.tasks.length, turnId)] }

/-- The end of a background thread, which no longer finds an entry that is gone. -/
def finishTurn (place : Nat) (turnId : TurnId) (result : Except RuntimeError TurnOutcome) :
    AppServer :=
  { server with
    turns := match server.turns[turnId]? with
      | some control => server.turns.insert turnId { control with state := .ofResult result }
      | none => server.turns
    background := server.background.erase (place, turnId) }

/-- The state that `turn/status` reports. -/
def turnStatus (turnId : TurnId) : Option TurnRunState :=
  server.turns[turnId]?.map TurnControl.state

end AppServer

/-- What happens next: an operation, call or drop of the runtime, a turn that is started
under a new id on a thread that exists, or a background thread that finds its turn over. -/
inductive ServerStep (rt : AgentRuntime) : AppServer → AppServer → Prop
  | runtime {server : AppServer} {config : RuntimeConfiguration}
      (step : Step machine (Call.code rt) server.runtime config) :
      ServerStep rt server { server with runtime := config }
  | start {server : AppServer} {threadId : ThreadId} {turnId : TurnId} {input : String}
      {cancellation : CancellationToken}
      (exist : (server.runtime.shared.log threadId).any
        fun envelope => envelope.event = .threadStarted)
      (new : turnId ∉ server.turns) :
      ServerStep rt server (server.startTurn rt threadId turnId input cancellation)
  | finish {server : AppServer} {place : Nat} {turnId : TurnId} {task : RuntimeTask}
      {result : Except RuntimeError TurnOutcome}
      (running : (place, turnId) ∈ server.background)
      (present : server.runtime.tasks[place]? = some task)
      (done : task.program = some (.done (result.map .outcome))) :
      ServerStep rt server (server.finishTurn place turnId result)

/-- The servers that can be reached over a store. -/
def Served (rt : AgentRuntime) (world : World) (server : AppServer) : Prop :=
  Relation.ReflTransGen (ServerStep rt) (AppServer.new world) server

/-! ## What is reported -/

/-- The log of the thread once ended with these events of the turn, and nothing before
them ends the turn. -/
def EndedWith (world : World) (threadId : ThreadId) (turnId : TurnId)
    (events : List RuntimeEvent) : Prop :=
  ∃ log before, log <+: world.log threadId ∧
    turnLog log = before ++ events.map (fun event => (turnId, event)) ∧ ¬ Ended before turnId

/-- What an entry reports is how its turn ended. -/
def Reported (world : World) (turnId : TurnId) (control : TurnControl) : Prop :=
  match control.state with
  | .completed content => ∃ usage, EndedWith world control.threadId turnId
      [.assistantMessage content [] .endTurn usage, .turnCompleted content]
  | .cancelled => EndedWith world control.threadId turnId [.turnCancelled]
  | .running | .failed _ => True

/-- The terminal event that an entry reports. -/
def TurnRunState.Matches : TurnRunState → RuntimeEvent → Prop
  | .completed content, event => event = .turnCompleted content
  | .cancelled, event => event = .turnCancelled
  | .running, _ | .failed _, _ => True

/-- Results and reports agree with the logs.  Where the logs the server started from are
those of earlier runs, what is reported is the only way the turn ended. -/
structure TurnsAgree (world : World) (server : AppServer) : Prop where
  returned : ∀ task ∈ server.runtime.tasks, ∀ threadId turnId input token result,
    task.call = .runTurn threadId turnId input token → task.program = some (.done result) →
    ∃ result', result = result'.map .outcome ∧ Agrees threadId turnId token task.own result'
  left : ∀ task ∈ server.runtime.tasks, ∀ threadId log,
    task.own.left = some (threadId, log) → log <+: server.runtime.shared.log threadId
  reported : ∀ turnId control, server.turns[turnId]? = some control →
    Reported server.runtime.shared turnId control
  terminal : Lawful False world → ∀ turnId control, server.turns[turnId]? = some control →
    ∀ event, (turnId, event) ∈ turnLog (server.runtime.shared.log control.threadId) →
      event.IsTerminal → control.state.Matches event

section Served

variable {rt : AgentRuntime} {world world' : World} {server server' : AppServer}
variable {turnId : TurnId} {control : TurnControl} {threadId : ThreadId}

/-- What was reported stays true, because logs only grow. -/
theorem Reported.grows (reported : Reported world turnId control)
    (grows : ∀ threadId, world.log threadId <+: world'.log threadId) :
    Reported world' turnId control := by
  have ended : ∀ events, EndedWith world control.threadId turnId events →
      EndedWith world' control.threadId turnId events := by
    intro events ended
    obtain ⟨log, before, start, split, unended⟩ := ended
    exact ⟨log, before, start.trans (grows _), split, unended⟩
  unfold Reported at reported ⊢
  split
  next content state =>
    rw [state] at reported
    obtain ⟨usage, reported⟩ := reported
    exact ⟨usage, ended _ reported⟩
  next state =>
    rw [state] at reported
    exact ended _ reported
  next => trivial
  next => trivial

/-- Logs only grow. -/
theorem step_log {config config' : RuntimeConfiguration}
    (step : Step machine (Call.code rt) config config') (threadId : ThreadId) :
    config.shared.log threadId <+: config'.shared.log threadId := by
  cases step with
  | spawn call => exact List.prefix_refl _
  | act present asks exec => exact exec_log_prefix exec threadId
  | drop present =>
    rw [World.log, World.log, release_events]

/-- A call keeps its place. -/
theorem step_call {config config' : RuntimeConfiguration} {place : Nat} {call : Call}
    (step : Step machine (Call.code rt) config config')
    (placed : config.tasks[place]?.map Interaction.Task.call = some call) :
    config'.tasks[place]?.map Interaction.Task.call = some call := by
  obtain ⟨task, present, rfl⟩ := Option.map_eq_some_iff.mp placed
  have bound := (List.getElem?_eq_some_iff.mp present).1
  cases step with
  | spawn call =>
    rw [List.getElem?_append_left bound, present]
    rfl
  | @act index task' op resume answer world own present' asks exec =>
    by_cases same : place = index
    · subst same
      rw [List.getElem?_set_self bound]
      cases present.symm.trans present'
      rfl
    · rw [List.getElem?_set_ne (Ne.symm same), present]
      rfl
  | @drop index task' present' =>
    by_cases same : place = index
    · subst same
      rw [List.getElem?_set_self bound]
      cases present.symm.trans present'
      rfl
    · rw [List.getElem?_set_ne (Ne.symm same), present]
      rfl

/-- A result is entered as what the log says. -/
theorem reported_result {own : Own} {result : Except RuntimeError TurnOutcome}
    {token : CancellationToken} (agrees : Agrees control.threadId turnId token own result)
    (left : ∀ threadId log, own.left = some (threadId, log) → log <+: world.log threadId) :
    Reported world turnId { control with state := .ofResult result } := by
  have ended : ∀ events, LeftWith control.threadId turnId events own →
      EndedWith world control.threadId turnId events := by
    intro events leftWith
    obtain ⟨log, before, letGo, _, split, unended⟩ := leftWith
    exact ⟨log, before, left _ _ letGo, split, unended⟩
  cases result with
  | ok outcome =>
    obtain ⟨_, ⟨usage, leftWith⟩, _⟩ := agrees
    exact ⟨usage, ended _ leftWith⟩
  | error error =>
    cases error with
    | cancelled turnId' => exact ended _ agrees.2
    | _ => trivial

/-- What holds of a server at every moment: its calls are a run of the runtime, every
background thread runs the turn of its entry, and every entry reports the truth. -/
structure Tracked (rt : AgentRuntime) (world : World) (server : AppServer) : Prop where
  running : Running rt world server.runtime
  background : ∀ place turnId, (place, turnId) ∈ server.background →
    ∃ control input, server.turns[turnId]? = some control ∧
      server.runtime.tasks[place]?.map Interaction.Task.call =
        some (.runTurn control.threadId turnId input control.cancellation)
  reported : ∀ turnId control, server.turns[turnId]? = some control →
    Reported server.runtime.shared turnId control

theorem Tracked.new (world : World) : Tracked rt world (AppServer.new world) where
  running := Relation.ReflTransGen.refl
  background _ _ member := by cases member
  reported turnId control entered := by
    simp [AppServer.new] at entered

theorem Tracked.step (tracked : Tracked rt world server) (idle : world.active = ∅)
    (step : ServerStep rt server server') : Tracked rt world server' := by
  cases step with
  | runtime step =>
    constructor
    · exact tracked.running.tail step
    · intro place turnId member
      obtain ⟨control, input, entered, called⟩ := tracked.background place turnId member
      exact ⟨control, input, entered, step_call step called⟩
    · intro turnId control entered
      exact (tracked.reported turnId control entered).grows (step_log step)
  | @start threadId turnId input cancellation exist new =>
    let call : Call := .runTurn threadId turnId input cancellation
    have spawned : Step machine (Call.code rt) server.runtime _ := Step.spawn _ call
    constructor
    · exact tracked.running.tail spawned
    · intro place turnId' member
      cases List.mem_append.mp member with
      | inl earlier =>
        obtain ⟨control, input', entered, called⟩ := tracked.background place turnId' earlier
        refine ⟨control, input', ?_, step_call spawned called⟩
        -- The id is new, so the entry is another turn's.
        have other : turnId ≠ turnId' := by
          intro same
          subst same
          rw [TreeMap.getElem?_eq_none new] at entered
          cases entered
        simpa [AppServer.startTurn, TreeMap.getElem?_insert, other] using entered
      | inr last =>
        cases List.mem_singleton.mp last
        exact ⟨⟨threadId, cancellation, .running⟩, input, by simp [AppServer.startTurn],
          by simp [AppServer.startTurn]⟩
    · intro turnId' control entered
      by_cases same : turnId = turnId'
      · subst same
        have isNew : control = ⟨threadId, cancellation, .running⟩ := by
          simpa [AppServer.startTurn, eq_comm] using entered
        subst isNew
        trivial
      · have before : server.turns[turnId']? = some control := by
          simpa [AppServer.startTurn, TreeMap.getElem?_insert, same] using entered
        exact tracked.reported turnId' control before
  | @finish place turnId task result running present done =>
    obtain ⟨control, input, entered, called⟩ := tracked.background place turnId running
    have finished : (server.finishTurn place turnId result).turns =
        server.turns.insert turnId { control with state := .ofResult result } := by
      simp [AppServer.finishTurn, entered]
    constructor
    · exact tracked.running
    · intro place' turnId' member
      obtain ⟨control', input', entered', called'⟩ :=
        tracked.background place' turnId' (List.mem_of_mem_erase member)
      by_cases same : turnId = turnId'
      · subst same
        cases entered.symm.trans entered'
        exact ⟨{ control with state := .ofResult result }, input', by simp [finished], called'⟩
      · refine ⟨control', input', ?_, called'⟩
        simpa [finished, TreeMap.getElem?_insert, same] using entered'
    · intro turnId' control' entered'
      by_cases same : turnId = turnId'
      · subst same
        have isNew : control' = { control with state := .ofResult result } := by
          simpa [finished, eq_comm] using entered'
        subst isNew
        rw [present] at called
        obtain ⟨result', wrapped, agrees⟩ :=
          tracked.running.concluded idle present done _ _ _ _ (Option.some.inj called)
        have same : result = result' := by
          cases result with
          | ok outcome =>
            cases result' with
            | ok outcome' => cases wrapped; rfl
            | error error => cases wrapped
          | error error =>
            cases result' with
            | ok outcome' => cases wrapped
            | error error' => cases wrapped; rfl
        subst same
        exact reported_result agrees fun threadId log left =>
          tracked.running.runsFrom.left_prefix present left
      · have before : server.turns[turnId']? = some control' := by
          simpa [finished, TreeMap.getElem?_insert, same] using entered'
        exact tracked.reported turnId' control' before

theorem Served.tracked (served : Served rt world server) (idle : world.active = ∅) :
    Tracked rt world server := by
  induction served with
  | refl => exact Tracked.new world
  | tail _ step ih => exact ih.step idle step

/-- In a conforming log a turn has one terminal event. -/
theorem EndedWith.terminal (before : List RuntimeEvent) {last event : RuntimeEvent}
    (ended : EndedWith world threadId turnId (before ++ [last])) (terminal : last.IsTerminal)
    (conforms : Conforms (turnLog (world.log threadId)))
    (logged : (turnId, event) ∈ turnLog (world.log threadId)) (terminal' : event.IsTerminal) :
    event = last := by
  obtain ⟨log, earlier, ⟨later, whole⟩, split, _⟩ := ended
  have lastLogged : (turnId, last) ∈ turnLog (world.log threadId) := by
    rw [← whole, turnLog_append, split]
    simp
  exact conforms.terminal_unique logged lastLogged terminal' terminal

/-- Whatever the store held before, whatever the surroundings answer, wherever the store
fails, and whoever else uses the runtime: results and reports agree with the logs. -/
theorem turns_agree {events : List EventEnvelope} {nextSequence : Nat} {issued : Finset ThreadId}
    (served : Served rt (World.opened events nextSequence issued) server) :
    TurnsAgree (World.opened events nextSequence issued) server where
  returned := by
    intro task member threadId turnId input token result called done
    obtain ⟨place, present⟩ := List.mem_iff_getElem?.mp member
    exact (served.tracked rfl).running.concluded rfl present done _ _ _ _ called
  left := by
    intro task member threadId log left
    obtain ⟨place, present⟩ := List.mem_iff_getElem?.mp member
    exact (served.tracked rfl).running.runsFrom.left_prefix present left
  reported := (served.tracked rfl).reported
  terminal := by
    intro lawful turnId control entered event logged terminal
    have tracked := served.tracked rfl
    have conforms := (tracked.running.runsFrom.lawful rfl lawful).conforms control.threadId
    have reported := tracked.reported turnId control entered
    unfold Reported at reported
    unfold TurnRunState.Matches
    split
    next content state =>
      rw [state] at reported
      obtain ⟨usage, ended⟩ := reported
      exact EndedWith.terminal [_] ended trivial conforms logged terminal
    next state =>
      rw [state] at reported
      exact EndedWith.terminal [] reported trivial conforms logged terminal
    next => trivial
    next => trivial

end Served

/-! ## A small server -/

namespace Sample

open Core.Sample (threadId turnId around)

def runtime : AgentRuntime := Core.Sample.runtime .ask

/-- A thread is started, and then a turn on it. -/
def started : AppServer :=
  ({ AppServer.new World.empty with
    runtime := Core.Sample.after .ask (.ok ()) [.call .startThread, .act 0, .act 0] }).startTurn
      runtime threadId turnId "hello" ⟨0⟩

/-- The turn is over. -/
def served : AppServer :=
  { started with
    runtime := (Schedule.play runtime (around (.ok ())) (List.replicate 48 (.act 1))
      started.runtime).getD started.runtime }

def completed : AppServer :=
  served.finishTurn 1 turnId (.ok ⟨threadId, turnId, "done", 2⟩)

theorem runtime_steps {server : AppServer} {config : RuntimeConfiguration}
    (steps : Relation.ReflTransGen (Step machine (Call.code runtime)) server.runtime config) :
    Relation.ReflTransGen (ServerStep runtime) server { server with runtime := config } := by
  induction steps with
  | refl => exact Relation.ReflTransGen.refl
  | tail _ step ih => exact ih.tail (ServerStep.runtime step)

theorem served_completed : Served runtime (World.opened [] 0 ∅) completed := by
  let opened : AppServer := { AppServer.new World.empty with
    runtime := Core.Sample.after .ask (.ok ()) [.call .startThread, .act 0, .act 0] }
  have opening : Served runtime World.empty opened :=
    runtime_steps (Core.Sample.after_runs .ask (.ok ()) _ False.elim rfl).running
  have starting : ServerStep runtime opened started := ServerStep.start (by rfl) (by decide)
  have played : Schedule.play runtime (around (.ok ())) (List.replicate 48 (.act 1))
      started.runtime = some served.runtime := by rfl
  have steps : Relation.ReflTransGen (Step (runtimeMachine False) (Call.code runtime))
      started.runtime served.runtime := Schedule.play_steps False.elim played
  have serving : Relation.ReflTransGen (ServerStep runtime) started served :=
    runtime_steps (Relation.ReflTransGen.mono (fun _ _ step => Step.of_restrict step) _ _ steps)
  have finishing : ServerStep runtime served completed :=
    ServerStep.finish (by decide) (by rfl) (by rfl)
  exact ((opening.tail starting).trans serving).tail finishing

end Sample

/-- A turn that is started on the server, and completes. -/
theorem turns_agree_completed : ∃ server : AppServer,
    server.turnStatus Core.Sample.turnId = some (.completed "done") ∧
      TurnsAgree (World.opened [] 0 ∅) server :=
  ⟨Sample.completed, by rfl, turns_agree Sample.served_completed⟩

end Nausicaa.Server
