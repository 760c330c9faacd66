import Nausicaa.Executor.Supervision
import Nausicaa.Posix.Tree

/-! # Commands in a sandbox

What `bwrap` makes of the arguments of `BubblewrapRunner`: whatever the paths and the command are, the
workspace is all of the host that is mounted to be written, and the command starts inside it
(`BubblewrapRunner.Confines`).  Both runners supervise what they spawn
(`ProcessRunner.tries_runControlled`). -/

namespace Nausicaa.Executor

open Core (CancellationToken)
open Interaction (Contract request)
open Posix (IoError Path Place)

/-! ## The arguments of `bwrap` -/

inductive Mount where
  | readOnly (source target : String)
  | writable (source target : String)
  | proc (target : String)
  | dev (target : String)
  | tmpfs (target : String)

/-- What `bwrap` is asked for, with the mounts in their order, where later ones cover earlier ones. -/
structure Sandbox where
  diesWithParent : Bool
  newSession : Bool
  unsharesAll : Bool
  sharesNetwork : Bool
  mounts : List Mount
  directory : Option String
  command : List String

namespace Sandbox

def bare : Sandbox := ⟨false, false, false, false, [], none, []⟩

def mount (sandbox : Sandbox) (mount : Mount) : Sandbox :=
  { sandbox with mounts := sandbox.mounts ++ [mount] }

/-- Options up to the command, as `bwrap` reads them: each takes as many arguments as it has. -/
def read (sandbox : Sandbox) : List String → Sandbox
  | "--die-with-parent" :: args => { sandbox with diesWithParent := true }.read args
  | "--new-session" :: args => { sandbox with newSession := true }.read args
  | "--unshare-all" :: args => { sandbox with unsharesAll := true }.read args
  | "--share-net" :: args => { sandbox with sharesNetwork := true }.read args
  | "--ro-bind" :: source :: target :: args => (sandbox.mount (.readOnly source target)).read args
  | "--bind" :: source :: target :: args => (sandbox.mount (.writable source target)).read args
  | "--proc" :: target :: args => (sandbox.mount (.proc target)).read args
  | "--dev" :: target :: args => (sandbox.mount (.dev target)).read args
  | "--tmpfs" :: target :: args => (sandbox.mount (.tmpfs target)).read args
  | "--chdir" :: directory :: args => { sandbox with directory := some directory }.read args
  -- The first argument that is no option begins the command.
  | command => { sandbox with command }

def binds (paths : List String) : List String := paths.flatMap fun path => ["--ro-bind", path, path]

theorem read_binds (sandbox : Sandbox) (paths args : List String) :
    sandbox.read (binds paths ++ args) = { sandbox with
      mounts := sandbox.mounts ++ paths.map fun path => Mount.readOnly path path }.read args := by
  induction paths generalizing sandbox with
  | nil => simp [binds]
  | cons path paths ih =>
    have step : sandbox.read (binds (path :: paths) ++ args) =
        (sandbox.mount (.readOnly path path)).read (binds paths ++ args) := rfl
    rw [step, ih]
    simp [mount]

end Sandbox

namespace BubblewrapRunner

variable {runner : BubblewrapRunner} {processRequest : ProcessRequest} {command : Command}
variable {allowed : Command → Prop} {limit : Nat} {told : Supervision}

/-- The command is confined: it can write the workspace and file systems of its own, sees nothing but
directories of the system and what it was configured with, and starts inside the workspace. -/
structure Confines (runner : BubblewrapRunner) (processRequest : ProcessRequest) (command : Command) :
    Prop where
  program : command.program = runner.binary
  envClear : command.envClear = true
  sandboxed : ∃ (system : List String) (additional : List Place) (cwd : Place),
    system.Sublist ["/usr", "/bin", "/lib", "/lib64"] ∧
    additional.length = runner.additionalReadOnlyBinds.length ∧
    runner.workspace <:+ cwd ∧ Sandbox.bare.read command.args = {
      diesWithParent := true
      newSession := true
      unsharesAll := true
      sharesNetwork := runner.allowNetwork
      mounts := ((system ++ additional.map fun place => (Path.ofPlace place).text).map
        fun path => Mount.readOnly path path) ++ [.proc "/proc", .dev "/dev", .tmpfs "/tmp",
          .writable (Path.ofPlace runner.workspace).text (Path.ofPlace runner.workspace).text]
      directory := some (Path.ofPlace cwd).text
      command := ["/bin/sh", "-lc", processRequest.command] }

theorem tries_systemBinds (paths : List String) :
    (supervising allowed limit).Tries (systemBinds paths)
      (fun binds told => told = .idle ∧ ∃ found, found.Sublist paths ∧ binds = Sandbox.binds found)
      (fun _ _ => False) .idle := by
  induction paths with
  | nil => exact Contract.Tries.pure ⟨rfl, [], .slnil, rfl⟩
  | cons path paths ih =>
    have free : Supervision.idle.Permits allowed limit (.pathExists (Path.parse path)) := trivial
    apply tries_tell free
    intro present _
    apply Contract.Tries.bind
    apply Contract.Tries.mono ih
    case weakenFailed => exact fun _ _ => False.elim
    rintro _ _ ⟨rfl, found, part, rfl⟩
    apply Contract.Tries.pure
    -- A directory that the host lacks is left out, and the order of the others stays.
    cases present with
    | true => exact ⟨rfl, path :: found, part.cons_cons path, rfl⟩
    | false => exact ⟨rfl, found, part.cons path, rfl⟩

theorem tries_readOnlyBinds (paths : List Path) :
    (supervising allowed limit).Tries (readOnlyBinds paths)
      (fun binds told => told = .idle ∧ ∃ places : List Place, places.length = paths.length ∧
        binds = Sandbox.binds (places.map fun place => (Path.ofPlace place).text))
      (fun _ told => told = .idle) .idle := by
  induction paths with
  | nil => exact Contract.Tries.pure ⟨rfl, [], rfl, rfl⟩
  | cons path paths ih =>
    have free : Supervision.idle.Permits allowed limit (.canonicalize path) := trivial
    apply tries_tell free
    intro result _
    apply Contract.Tries.bind
    cases result with
    -- A path that was configured and cannot be resolved fails the call before anything is spawned.
    | error error => exact Contract.Tries.throw rfl
    | ok place =>
      apply Contract.Tries.pure
      apply Contract.Tries.bind
      apply Contract.Tries.mono ih
      case weakenFailed => exact fun _ _ idle => idle
      rintro _ _ ⟨rfl, places, same, rfl⟩
      exact Contract.Tries.pure ⟨rfl, place :: places, congrArg (· + 1) same, rfl⟩

/-- The arguments of a command that the runner makes. -/
theorem read_arguments (runner : BubblewrapRunner) (system additional : List String) (cwd : String)
    (command : String) :
    let workspace := (Path.ofPlace runner.workspace).text
    Sandbox.bare.read (["--die-with-parent", "--new-session", "--unshare-all"] ++
      (if runner.allowNetwork then ["--share-net"] else []) ++ Sandbox.binds system ++
      Sandbox.binds additional ++
      ["--proc", "/proc", "--dev", "/dev", "--tmpfs", "/tmp", "--bind", workspace, workspace,
        "--chdir", cwd, "/bin/sh", "-lc", command]) = {
      diesWithParent := true
      newSession := true
      unsharesAll := true
      sharesNetwork := runner.allowNetwork
      mounts := ((system ++ additional).map fun path => Mount.readOnly path path) ++
        [.proc "/proc", .dev "/dev", .tmpfs "/tmp", .writable workspace workspace]
      directory := some cwd
      command := ["/bin/sh", "-lc", command] } := by
  intro workspace
  -- What stands before the binds depends on the network alone.
  have begins (rest : List String) : Sandbox.bare.read (["--die-with-parent", "--new-session",
      "--unshare-all"] ++ (if runner.allowNetwork then ["--share-net"] else []) ++ rest) =
      Sandbox.read ⟨true, true, true, runner.allowNetwork, [], none, []⟩ rest := by
    cases runner.allowNetwork with
    | false => rfl
    | true => rfl
  simp only [List.append_assoc] at begins ⊢
  rw [begins, Sandbox.read_binds, Sandbox.read_binds, List.map_append, List.nil_append]
  simp only [Sandbox.read, Sandbox.mount, List.append_assoc, List.cons_append, List.nil_append]
  rfl

end BubblewrapRunner

/-! ## Runners -/

/-- The command that a runner spawns for a request. -/
def ProcessRunner.Spawns (processRequest : ProcessRequest) (command : Command) : ProcessRunner → Prop
  | .localProcess _ => command =
    ⟨"/bin/sh", ["-lc", processRequest.command], some processRequest.workingDirectory, false⟩
  | .bubblewrap runner => runner.Confines processRequest command

def ProcessRunner.maximum : ProcessRunner → Nat
  | .localProcess runner => runner.maximumOutputBytes
  | .bubblewrap runner => runner.maximumOutputBytes

section Runners

variable {allowed : Command → Prop} {limit : Nat} {token : CancellationToken}

theorem BubblewrapRunner.tries_runControlled (runner : BubblewrapRunner)
    (lossy : List UInt8 → String) (turns : Nat) {processRequest : ProcessRequest}
    (spawns : ∀ command, runner.Confines processRequest command → allowed command)
    (enough : turnLimit (max processRequest.timeoutMs 1 * 1000000) ≤ limit) :
    (supervising allowed limit).Tries (runner.runControlled lossy turns processRequest token)
      (fun output => Reports lossy runner.maximumOutputBytes output) (fun _ => Settled) .idle := by
  have never : Settled Supervision.idle := .never rfl
  apply tries_notCancelled_supervised
  case stops => exact never
  have free : Supervision.idle.Permits allowed limit
    (.canonicalize processRequest.workingDirectory) := trivial
  apply tries_tell free
  intro result _
  apply Contract.Tries.bind
  cases result with
  | error error => exact Contract.Tries.throw never
  | ok cwd =>
    apply Contract.Tries.pure
    apply Contract.Tries.bind
    apply tries_ensure
    case fails => exact fun _ => never
    -- The resolved directory is within the workspace, so a symbolic link cannot lead out of it.
    intro inside
    apply Contract.Tries.bind
    apply Contract.Tries.mono (tries_systemBinds _)
    case weakenFailed => exact fun _ _ => False.elim
    rintro _ _ ⟨rfl, system, part, rfl⟩
    apply Contract.Tries.bind
    apply Contract.Tries.mono (tries_readOnlyBinds runner.additionalReadOnlyBinds)
    case weakenFailed =>
      rintro _ _ rfl
      exact never
    rintro _ _ ⟨rfl, places, same, rfl⟩
    apply tries_runCommand_supervised lossy turns _ _ _ enough
    apply spawns
    exact ⟨rfl, rfl, system, places, cwd, part, same, Posix.startsWith_ofPlace.mp inside,
      runner.read_arguments system _ _ _⟩

/-- Either runner supervises the one command that it spawns. -/
theorem ProcessRunner.tries_runControlled (runner : ProcessRunner) (lossy : List UInt8 → String)
    (turns : Nat) {processRequest : ProcessRequest}
    (spawns : ∀ command, runner.Spawns processRequest command → allowed command)
    (enough : turnLimit (max processRequest.timeoutMs 1 * 1000000) ≤ limit) :
    (supervising allowed limit).Tries
      (runner.runControlled lossy turns processRequest token)
      (fun output => Reports lossy runner.maximum output) (fun _ => Settled) .idle := by
  cases runner with
  | bubblewrap runner =>
    exact runner.tries_runControlled lossy turns spawns enough
  | localProcess runner =>
    apply tries_notCancelled_supervised
    case stops => exact .never rfl
    exact tries_runCommand_supervised lossy turns _ _ (spawns _ rfl) enough

end Runners

end Nausicaa.Executor
