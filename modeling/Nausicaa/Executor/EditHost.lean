import Nausicaa.Executor.Editing
import Nausicaa.Executor.Checks
import Nausicaa.Interaction.Evaluation

/-! # The file system behind the editing tools

`EditHost.serve` answers every operation by what is in the tree, and `EditHost.Answers` also lets
any of them fail, a read or a write in the middle. -/

namespace Nausicaa.Executor

open Core (ToolError)
open Interaction (Contract evaluate request)
open Posix (IoError Path Place Tree)

/-- The tree, where the open file is read or written next, the files that were opened, each with
the path it was opened by, and those that were read or written. -/
structure EditHost where
  tree : Tree
  cursor : Nat
  opened : List (Path × Place)
  accessed : List Place

namespace EditHost

/-- Before the first operation of a call. -/
def start (tree : Tree) : EditHost := ⟨tree, 0, [], []⟩

def withOpen (host : EditHost) (path : Path) (file : Place) : EditHost :=
  { host with cursor := 0, opened := host.opened ++ [(path, file)] }

/-- What is left in the file, at most `limit` bytes. -/
def remaining (host : EditHost) (file : Place) (limit : Nat) : List UInt8 :=
  ((host.tree.content file).drop host.cursor).take limit

def withRead (host : EditHost) (file : Place) (count : Nat) : EditHost :=
  { host with cursor := host.cursor + count, accessed := host.accessed ++ [file] }

/-- Bytes over those from the cursor on. -/
def withWrite (host : EditHost) (file : Place) (bytes : List UInt8) : EditHost :=
  let content := host.tree.content file
  { host with
    tree := host.tree.put file (.file (content.takeD host.cursor 0 ++ bytes ++
      content.drop (host.cursor + bytes.length)))
    cursor := host.cursor + bytes.length
    accessed := host.accessed ++ [file] }

def withLength (host : EditHost) (file : Place) (length : Nat) : EditHost :=
  { host with
    tree := host.tree.put file (.file ((host.tree.content file).takeD length 0))
    accessed := host.accessed ++ [file] }

def serve (host : EditHost) : (op : EditOp) → op.Answer × EditHost
  | .isCancelled _ => (false, host)
  | .canonicalize path => (host.tree.canonicalize path, host)
  | .isFile path => (host.tree.isFile path, host)
  | .openFile path =>
    match host.tree.canonicalize path with
    | .ok file => (.ok file, host.withOpen path file)
    | .error error => (.error error, host)
  | .openEditable path =>
    match host.tree.editable path with
    | .ok file => (.ok file, host.withOpen path file)
    | .error error => (.error error, host)
  | .isRegular file => (.ok (host.tree.isRegular file), host)
  | .readToEnd file limit =>
    (.ok (host.remaining file limit), host.withRead file (host.remaining file limit).length)
  | .seekStart _ => (.ok (), { host with cursor := 0 })
  | .writeAll file bytes => (.ok (), host.withWrite file bytes)
  | .setLen file length => (.ok (), host.withLength file length)
  | .syncData _ => (.ok (), host)

/-- What an operation may answer and do where any of them can fail. -/
def Answers (host : EditHost) : (op : EditOp) → op.Answer → EditHost → Prop
  | .isCancelled _, _, host' => host' = host
  | .canonicalize path, result, host' =>
    host' = host ∧ ∀ place, result = .ok place → host.tree.canonicalize path = .ok place
  | .isFile path, present, host' =>
    host' = host ∧ (present = true → host.tree.isFile path = true)
  | .openFile path, .ok file, host' =>
    host.tree.canonicalize path = .ok file ∧ host' = host.withOpen path file
  | .openEditable path, .ok file, host' =>
    host.tree.editable path = .ok file ∧ host' = host.withOpen path file
  | .isRegular file, result, host' =>
    host' = host ∧ ∀ regular, result = .ok regular → host.tree.isRegular file = regular
  | .readToEnd file limit, .ok bytes, host' =>
    bytes = host.remaining file limit ∧ host' = host.withRead file bytes.length
  | .readToEnd file _, .error _, host' => ∃ count, host' = host.withRead file count
  | .seekStart _, .ok (), host' => host' = { host with cursor := 0 }
  | .writeAll file bytes, .ok (), host' => host' = host.withWrite file bytes
  | .writeAll file bytes, .error _, host' =>
    ∃ written, written <+: bytes ∧ host' = host.withWrite file written
  | .setLen file length, .ok (), host' => host' = host.withLength file length
  | .setLen file length, .error _, host' => host' = host ∨ host' = host.withLength file length
  | .openFile _, .error _, host' | .openEditable _, .error _, host'
  | .seekStart _, .error _, host' | .syncData _, _, host' => host' = host

theorem serve_answers (host : EditHost) (op : EditOp) :
    host.Answers op (host.serve op).1 (host.serve op).2 := by
  cases op with
  | isCancelled token => rfl
  | canonicalize path => exact ⟨rfl, fun _ found => found⟩
  | isFile path => exact ⟨rfl, fun found => found⟩
  | openFile path =>
    rw [serve]
    split
    next file found => exact ⟨found, rfl⟩
    next error failed => exact rfl
  | openEditable path =>
    rw [serve]
    split
    next file found => exact ⟨found, rfl⟩
    next error failed => exact rfl
  | isRegular file => exact ⟨rfl, fun regular found => Except.ok.inj found⟩
  | readToEnd file limit => exact ⟨rfl, rfl⟩
  | seekStart file => rfl
  | writeAll file bytes => rfl
  | setLen file length => rfl
  | syncData file => rfl

end EditHost

/-- The file system with faults. -/
def editing : Contract EditOp EditOp.Answer EditHost where
  permit _ _ := True
  step := EditHost.Answers

end Nausicaa.Executor
