import Nausicaa.Executor.WriteFile
import Nausicaa.Posix.Walk

/-! # The file system behind the tool

`Host.serve` answers every operation by what is in the tree, and `Host.Answers` also lets any of them
fail, a write after some of its bytes. -/

namespace Nausicaa.Executor

open Interaction (Contract)
open Posix (IoError Node Path Place Tree)

/-- The tree, and the places where a directory was made or a file was opened. -/
structure Host where
  tree : Tree
  touched : List Place

namespace Host

/-- A directory is made, or a file opened that is empty from then on. -/
def withNew (host : Host) (place : Place) (node : Node) : Host :=
  ⟨host.tree.put place node, place :: host.touched⟩

def withBytes (host : Host) (file : Place) (bytes : List UInt8) : Host :=
  { host with tree := host.tree.put file (.file (host.tree.content file ++ bytes)) }

def serve (host : Host) : (op : FileOp) → op.Answer × Host
  | .isCancelled _ => (false, host)
  | .pathExists path => (host.tree.pathExists path, host)
  | .isDirectory path => (host.tree.isDirectory path, host)
  | .canonicalize path => (host.tree.canonicalize path, host)
  | .createDirectory path =>
    match host.tree.vacancy path with
    | .ok entry => (.ok (), host.withNew entry .directory)
    | .error error => (.error error, host)
  | .openFile path =>
    match host.tree.writable path with
    | .ok file => (.ok file, host.withNew file (.file []))
    | .error error => (.error error, host)
  | .writeAll file bytes => (.ok (), host.withBytes file bytes)
  | .syncData _ => (.ok (), host)

/-- What an operation may answer and do where any of them can fail. -/
def Answers (host : Host) : (op : FileOp) → op.Answer → Host → Prop
  | .isCancelled _, _, host' => host' = host
  | .pathExists path, present, host' => host' = host ∧ (present = true → host.tree.pathExists path = true)
  | .isDirectory path, present, host' =>
    host' = host ∧ (present = true → host.tree.isDirectory path = true)
  | .canonicalize path, result, host' =>
    host' = host ∧ ∀ place, result = .ok place → host.tree.canonicalize path = .ok place
  | .createDirectory path, .ok (), host' =>
    ∃ entry, host.tree.vacancy path = .ok entry ∧ host' = host.withNew entry .directory
  | .openFile path, .ok file, host' =>
    host.tree.writable path = .ok file ∧ host' = host.withNew file (.file [])
  | .writeAll file bytes, .ok (), host' => host' = host.withBytes file bytes
  | .writeAll file bytes, .error _, host' =>
    ∃ written, written <+: bytes ∧ host' = host.withBytes file written
  | .createDirectory _, .error _, host' | .openFile _, .error _, host' | .syncData _, _, host' =>
    host' = host

/-- What is answered by the tree is an answer among those that can be given. -/
theorem serve_answers (host : Host) (op : FileOp) :
    host.Answers op (host.serve op).1 (host.serve op).2 := by
  cases op with
  | createDirectory path =>
    rw [serve]
    cases found : host.tree.vacancy path with
    | ok entry => exact ⟨entry, found, rfl⟩
    | error error => rfl
  | openFile path =>
    rw [serve]
    cases found : host.tree.writable path with
    | ok file => exact ⟨found, rfl⟩
    | error error => rfl
  | canonicalize path => exact ⟨rfl, fun _ => id⟩
  | pathExists path => exact ⟨rfl, id⟩
  | isDirectory path => exact ⟨rfl, id⟩
  | isCancelled token => rfl
  | writeAll file bytes => rfl
  | syncData file => rfl

end Host

/-- The file system without faults. -/
def serving : Contract FileOp FileOp.Answer Host where
  permit _ _ := True
  step host op answer host' := host.serve op = (answer, host')

/-- The file system with faults. -/
def faulty : Contract FileOp FileOp.Answer Host where
  permit _ _ := True
  step := Host.Answers

end Nausicaa.Executor
