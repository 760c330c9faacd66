import Nausicaa.Core.Protocol
import Nausicaa.Text.Trim

/-! # The memory store

Records, the trait `MemoryStore` with its recall, and the store in memory (`lib.rs` of the
memory crate).  What the standard library knows of Unicode is a parameter. -/

namespace Nausicaa.Memory

open Std (ExtTreeSet TreeMap TreeSet)
open Text (trim)

structure MemoryRecord where
  id : String
  text : String
  tags : ExtTreeSet String
  source : Option String
  createdAtUnixMs : Nat
  updatedAtUnixMs : Nat

inductive MemoryError where
  | io (message : String)
  | serialization (message : String)
  | corrupt (line : Nat) (message : String)
  | poisoned
  deriving DecidableEq, Repr

def MemoryError.toString : MemoryError → String
  | .io message => s!"memory I/O error: {message}"
  | .serialization message => s!"memory serialization error: {message}"
  | .corrupt line message => s!"corrupt memory event at line {line}: {message}"
  | .poisoned => "memory store lock was poisoned"

/-- The methods of the trait, each one step on what is stored. -/
structure MemoryStore (State : Type) where
  upsert : MemoryRecord → State → Except MemoryError Unit × State
  forget : String → State → Except MemoryError Bool × State
  list : State → Except MemoryError (List MemoryRecord)

/-- `char::is_alphanumeric`, `char::is_whitespace` and `str::to_lowercase`. -/
structure Unicode where
  isAlphanumeric : Char → Bool
  isWhitespace : Char → Bool
  toLowercase : String → String

/-! ## Recall -/

section Recall

variable (unicode : Unicode)

def tokens (text : String) : TreeSet String :=
  .ofList (((text.toList.splitOnP fun char => !unicode.isAlphanumeric char).filter
    fun token => !token.isEmpty).map fun token => unicode.toLowercase (String.ofList token))

/-- `text.contains(pattern)`. -/
def contains (text pattern : String) : Bool := decide (pattern.toList <:+: text.toList)

def overlap (queryTokens recordTokens : TreeSet String) : Nat :=
  queryTokens.toList.countP recordTokens.contains

def phraseBonus (query : String) (record : MemoryRecord) : Nat :=
  let phrase := trim unicode.isWhitespace query
  if !phrase.isEmpty &&
      contains (unicode.toLowercase record.text) (unicode.toLowercase phrase) then 4
  else 0

def score (query : String) (record : MemoryRecord) : Nat :=
  let recordTokens := tokens unicode (record.text ++ " " ++ " ".intercalate record.tags.toList)
  overlap (tokens unicode query) recordTokens + phraseBonus unicode query record

/-- The better score first, then the later update, then the smaller id. -/
def ranksBefore (left right : Nat × MemoryRecord) : Bool :=
  ((compare right.1 left.1).then
    ((compare right.2.updatedAtUnixMs left.2.updatedAtUnixMs).then
      (compare left.2.id right.2.id))) != .gt

def rank (query : String) (limit : Nat) (records : List MemoryRecord) : List MemoryRecord :=
  let scored := records.map fun record => (score unicode query record, record)
  let ranked := scored.filter fun entry => entry.1 > 0 || (tokens unicode query).isEmpty
  ((ranked.mergeSort ranksBefore).take limit).map Prod.snd

def MemoryStore.recall {State : Type} (self : MemoryStore State) (query : String) (limit : Nat)
    (stored : State) : Except MemoryError (List MemoryRecord) := do
  return rank unicode query limit (← self.list stored)

end Recall

/-! ## In memory -/

abbrev InMemoryState := TreeMap String MemoryRecord

/-- `InMemoryStore`. -/
def inMemoryStore : MemoryStore InMemoryState where
  upsert record records := (.ok (), records.insert record.id record)
  forget id records := (.ok (records.contains id), records.erase id)
  list records := .ok records.values

end Nausicaa.Memory
