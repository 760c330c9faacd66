import Nausicaa.Openai.Lines
import Nausicaa.Openai.Transport

/-! # Behind the body

Curl prints a line of numbers behind the body, and the decoder of a stream is given that line too.  It
takes it for the end of the stream (`push_printed`, `finish_text`).  The errors of the decoder are
errors of the protocol (`Decoder.push_protocol`). -/

namespace Nausicaa.Openai

open Fallible (bind_ok)
open Json (Value)
open Text (encode stripPrefix trimEnd)

/-! ## The errors of the decoder -/

/-- Only protocol errors. -/
def Protocol {α : Type} (result : Except TransportError α) : Prop :=
  ∀ failure, result = .error failure → ∃ message, failure = .protocol message

namespace Protocol

variable {α β : Type}

theorem ok (value : α) : Protocol (.ok value) := by
  rintro _ ⟨⟩

theorem error (message : String) : Protocol (Openai.error (α := α) message) := by
  rintro _ ⟨⟩
  exact ⟨message, rfl⟩

theorem bind {first : Except TransportError α} {next : α → Except TransportError β}
    (protocol : Protocol first) (continues : ∀ value, Protocol (next value)) :
    Protocol (first >>= next) := by
  intro failure failed
  cases ran : first with
  | error failure' =>
    rw [ran] at failed
    cases failed
    exact protocol _ ran
  | ok value =>
    rw [ran] at failed
    exact continues value failure failed

theorem foldlM {step : α → β → Except TransportError α} (steps : ∀ state item, Protocol (step state item))
    (items : List β) (state : α) : Protocol (items.foldlM step state) := by
  induction items generalizing state with
  | nil => exact ok state
  | cons item items ih =>
    rw [List.foldlM_cons]
    exact bind (steps state item) ih

end Protocol

theorem fragment_protocol (value : Value) (key message : String) :
    Protocol (fragment value key message) := by
  rw [fragment]
  split
  · exact .ok _
  · split
    · exact .ok _
    · exact .error _

theorem functionDelta_protocol (call : Value) : Protocol (functionDelta call) := by
  rw [functionDelta]
  split
  · exact .ok _
  · exact .bind (fragment_protocol _ _ _) fun _ => .bind (fragment_protocol _ _ _) fun _ => .ok _

namespace Decoder

variable {parse : Parser} (decoder : Decoder)

theorem call_protocol (value : Value) : Protocol (decoder.call value) := by
  have index : Protocol (toolIndex value) := by
    rw [toolIndex]
    split
    · exact .ok _
    · exact .error _
  have type : Protocol (checkType value) := by
    rw [checkType]
    split
    · exact .error _
    · exact .ok _
  exact .bind index fun _ => .bind (fragment_protocol _ _ _) fun _ => .bind type fun _ =>
    .bind (functionDelta_protocol _) fun _ => .ok _

theorem delta_protocol (value : Value) : Protocol (decoder.delta value) := by
  refine .bind (fragment_protocol _ _ _) fun content => ?_
  dsimp only
  split
  · exact .error _
  · split
    · exact .ok _
    · split
      · exact .error _
      · exact .foldlM call_protocol _ _

theorem choice_protocol (value : Value) : Protocol (decoder.choice value) := by
  rw [choice]
  split
  · exact .error _
  · split
    · exact .error _
    · refine .bind ?_ fun decoder => ?_
      · cases value.get "delta" with
        | none => exact .ok _
        | some delta => exact decoder.delta_protocol delta
      · rw [close]
        split
        · exact .ok _
        · split
          · exact .ok _
          · exact .error _

theorem event_protocol (data : String) : Protocol (decoder.event parse data) := by
  rw [event]
  split
  · split
    · exact .error _
    · exact .ok _
  · split
    · exact .error _
    · rw [frame]
      split
      · exact .error _
      · split
        · exact .error _
        · split
          · exact .error _
          · exact .foldlM choice_protocol _ _

theorem line_protocol (text : String) : Protocol (decoder.line parse text) := by
  rw [line]
  split
  · rw [dispatch]
    split
    · exact .ok _
    · exact event_protocol _ _
  · split
    · split
      · exact .error _
      · dsimp only
        split
        · exact .error _
        · exact .ok _
    · exact .ok _

theorem push_protocol (bytes : Bytes) : Protocol (decoder.push parse bytes) := by
  induction bytes generalizing decoder with
  | nil => exact .ok _
  | cons byte bytes ih =>
    rw [push]
    split
    · refine .bind ?_ ih
      rw [endLine]
      split
      · exact .error _
      · exact line_protocol _ _
    · split
      · exact .error _
      · exact ih _

end Decoder

/-! ## What stands behind a stream -/

namespace Decoder

variable {parse : Parser} {decoder decoder' : Decoder} {text : String}

theorem endLine_pending {message : String} (ran : decoder.endLine parse message = .ok decoder') :
    decoder'.pending = [] := by
  rw [endLine] at ran
  split at ran
  next => cases ran
  next => exact line_pending ran

theorem push_newline : decoder.push parse [newline] =
    decoder.endLine parse "stream contains invalid UTF-8" := by
  rw [push, if_pos rfl]
  cases decoder.endLine parse "stream contains invalid UTF-8" <;> rfl

/-- What is pending of a text is a text. -/
theorem push_pending {before : String} (holds : decoder.pending = encode before)
    (ran : decoder.push parse (encode text) = .ok decoder') :
    ∃ rest, decoder'.pending = encode rest := by
  rw [Text.encode_eq_flatMap] at ran
  -- One character after the other: a newline ends what is pending, any other joins it.
  generalize text.toList = chars at ran
  induction chars generalizing decoder before with
  | nil =>
    cases ran
    exact ⟨before, holds⟩
  | cons char chars ih =>
    rw [List.flatMap_cons] at ran
    by_cases ends : newline ∈ String.utf8EncodeChar char
    · have same : char = '\n' := Char.toNat_inj.mp (Text.mem_utf8EncodeChar (by decide) ends)
      rw [same, Text.utf8EncodeChar_ascii (by decide), push_append] at ran
      obtain ⟨next, first, ran⟩ := bind_ok.mp ran
      rw [show UInt8.ofNat '\n'.toNat = newline from rfl, push_newline] at first
      have fresh : next.pending = encode "" := endLine_pending first
      exact ih fresh ran
    · have joined : decoder.pending ++ String.utf8EncodeChar char =
          encode (before ++ String.singleton char) := by
        rw [Text.encode_append, holds, Text.encode_eq_flatMap (String.singleton char)]
        simp
      exact ih joined (push_open ends ran)

theorem endLine_text {rest : String} (holds : decoder.pending = encode rest) (message : String) :
    decoder.endLine parse message =
      line parse { decoder with pending := [] } (trimEnd '\r' rest) := by
  rw [endLine, holds, Text.decode_encode]

/-- A line that begins like this is no data. -/
theorem line_marker {rest : String} :
    decoder.line parse (trimEnd '\r' ("_" ++ rest)) = .ok decoder := by
  obtain ⟨more, shown⟩ : ∃ more, (trimEnd '\r' ("_" ++ rest)).toList = '_' :: more := by
    rw [trimEnd, String.toList_ofList]
    obtain ⟨tail, whole⟩ :=
      List.rdropWhile_prefix (fun char => decide (char = '\r')) ("_" ++ rest).toList
    cases kept : ("_" ++ rest).toList.rdropWhile (fun char => decide (char = '\r')) with
    | nil =>
      have gone := List.rdropWhile_eq_nil_iff.mp kept '_' (by simp)
      cases of_decide_eq_true gone
    | cons first more =>
      rw [kept, String.toList_append] at whole
      have same : first = '_' := (List.cons.inj whole).1
      exact ⟨more, by rw [same]⟩
  have filled : trimEnd '\r' ("_" ++ rest) ≠ "" := by
    intro empty
    rw [empty] at shown
    cases shown
  have other : stripPrefix "data:" (trimEnd '\r' ("_" ++ rest)) = none := by
    rw [stripPrefix, if_neg]
    rw [shown]
    rintro ⟨tail, whole⟩
    cases (List.cons.inj whole).1
  rw [line, if_neg filled, other]

theorem push_marker {marker : String} (fresh : decoder.pending = [])
    (clean : newline ∉ encode ("_" ++ marker)) (fits : (encode ("_" ++ marker)).length ≤ maxFrame) :
    decoder.push parse (encode ("_" ++ marker) ++ [newline]) = .ok decoder := by
  have small : (decoder.pending ++ encode ("_" ++ marker)).length ≤ maxFrame := by
    rwa [fresh, List.nil_append]
  rw [push_fits clean small, push_newline, fresh, List.nil_append, endLine_text rfl, line_marker,
    ← fresh]

/-- The end of a stream ends what is pending, as a newline behind it does. -/
theorem finish_newline {rest : String} (holds : decoder.pending = encode rest) :
    (do
      let decoder ← decoder.push parse [newline]
      decoder.finish parse) = decoder.finish parse := by
  have finished : ∀ {next : Decoder}, next.pending = [] → next.finish parse = (do
      let decoder ← next.dispatch parse
      decoder.complete) := by
    intro next fresh
    rw [finish, lastLine, if_pos fresh]
    rfl
  rw [push_newline, endLine_text holds]
  by_cases none : decoder.pending = []
  · -- The line that is added to is empty, so that it ends the event.
    have empty : rest = "" := Text.encode_inj (holds.symm.trans none)
    have same : { decoder with pending := [] } = decoder := by rw [← none]
    have blank : decoder.line parse (trimEnd '\r' "") = decoder.dispatch parse := rfl
    rw [empty, same, blank, finished none]
    cases ran : decoder.dispatch parse with
    | error => rfl
    | ok next =>
      obtain ⟨kept, empty⟩ := dispatch_pending ran
      have again : next.dispatch parse = .ok next := if_pos empty
      have ended := finished (kept.trans none)
      rw [again] at ended
      exact ended
  · rw [finish, lastLine, if_neg none, endLine_text holds]
    cases ran : line parse { decoder with pending := [] } (trimEnd '\r' rest) with
    | error => rfl
    | ok next =>
      have fresh : next.pending = [] := line_pending ran
      exact finished fresh

end Decoder

/-! ## The output of curl -/

/-- What curl tells about a transfer: the status and four times. -/
structure Metrics where
  status : Nat
  namelookup : String
  connect : String
  appconnect : String
  starttransfer : String

namespace Metrics

/-- The status has three digits or so, and there is no blank in a time. -/
structure Printed (metrics : Metrics) : Prop where
  status : metrics.status ≤ 65535
  namelookup : Text.IsWord Core.isWhitespace metrics.namelookup
  connect : Text.IsWord Core.isWhitespace metrics.connect
  appconnect : Text.IsWord Core.isWhitespace metrics.appconnect
  starttransfer : Text.IsWord Core.isWhitespace metrics.starttransfer

def numbers (metrics : Metrics) : String :=
  toString metrics.status ++ " " ++ metrics.namelookup ++ " " ++ metrics.connect ++ " " ++
    metrics.appconnect ++ " " ++ metrics.starttransfer

variable {metrics : Metrics}

theorem isWord_toString (value : Nat) : Text.IsWord Core.isWhitespace (toString value) := by
  have digits : (toString value).toList = Nat.toDigits 10 value := by
    rw [Nat.toString_eq_ofList_toDigits, String.toList_ofList]
  constructor
  · intro empty
    rw [empty] at digits
    exact Nat.toDigits_ne_nil digits.symm
  · intro char member
    rw [digits] at member
    have digit := Nat.isDigit_of_mem_toDigits (by decide) (by decide) member
    simp only [Char.isDigit, Bool.and_eq_true, decide_eq_true_eq, ge_iff_le] at digit
    have low : 48 ≤ char.toNat := UInt32.le_iff_toNat_le.mp digit.1
    have high : char.toNat ≤ 57 := UInt32.le_iff_toNat_le.mp digit.2
    rw [Core.isWhitespace]
    simp only [Bool.or_eq_false_iff, Bool.and_eq_false_iff, beq_eq_false_iff_ne, decide_eq_false_iff_not]
    omega

theorem words_numbers (printed : metrics.Printed) :
    Text.words Core.isWhitespace (metrics.numbers ++ "\n") =
      [toString metrics.status, metrics.namelookup, metrics.connect, metrics.appconnect,
        metrics.starttransfer] := by
  have blank : Core.isWhitespace ' ' = true := by decide
  have ends : Core.isWhitespace '\n' = true := by decide
  have word : ∀ {word : String}, Text.IsWord Core.isWhitespace word → ∀ rest,
      Text.words Core.isWhitespace (word ++ (" " ++ rest)) =
        word :: Text.words Core.isWhitespace rest := by
    intro word isWord rest
    rw [← String.append_assoc]
    exact Text.words_cons isWord blank rest
  have last : Text.words Core.isWhitespace (metrics.starttransfer ++ "\n") =
      [metrics.starttransfer] := by
    have ended := Text.words_cons printed.starttransfer ends ""
    rwa [String.append_empty, Text.words_empty] at ended
  simp only [numbers, String.append_assoc]
  rw [word (isWord_toString _), word printed.namelookup, word printed.connect,
    word printed.appconnect, last]

theorem numbers_clean (printed : metrics.Printed) : '\n' ∉ metrics.numbers.toList := by
  have word : ∀ {word : String}, Text.IsWord Core.isWhitespace word → '\n' ∉ word.toList := by
    intro word isWord member
    cases isWord.2 _ member
  have blank : '\n' ∉ " ".toList := by decide
  simp only [numbers, String.toList_append, List.mem_append, not_or]
  exact ⟨⟨⟨⟨⟨⟨⟨⟨word (isWord_toString _), blank⟩, word printed.namelookup⟩, blank⟩,
    word printed.connect⟩, blank⟩, word printed.appconnect⟩, blank⟩, word printed.starttransfer⟩

end Metrics

/-- What curl prints: the body, and behind a newline what `write-out` asks for. -/
def printed (turnId text : String) (metrics : Metrics) : String :=
  text ++ Curl.separator turnId ++ metrics.numbers ++ "\n"

section Printed

variable {turnId text : String} {metrics : Metrics}

theorem splitOutput_printed (clean : '\n' ∉ turnId.toList) (shown : metrics.Printed) :
    Curl.splitOutput turnId (encode (printed turnId text metrics)) = .ok (text, metrics.status) := by
  obtain ⟨more, begins, cleanMore, filled⟩ : ∃ more,
      (Curl.separator turnId).toList = '\n' :: more ∧ '\n' ∉ more ∧ more ≠ [] := by
    refine ⟨"__NAUSICAA_".toList ++ turnId.toList ++ "__ ".toList, ?_, ?_, ?_⟩
    · simp [Curl.separator]
    · simp [clean]
    · simp
  have clean' : '\n' ∉ more ++ metrics.numbers.toList := by
    rw [List.mem_append, not_or]
    exact ⟨cleanMore, Metrics.numbers_clean shown⟩
  -- The newline at the end begins no separator.
  have last : Text.splitLast ('\n' :: more) (more ++ (metrics.numbers.toList ++ ['\n'])) = none := by
    rw [← List.append_assoc]
    exact Text.splitLast_concat clean' filled
  have whole : (printed turnId text metrics).toList =
      text.toList ++ ('\n' :: more ++ (metrics.numbers.toList ++ ['\n'])) := by
    simp [printed, begins]
  have behind : String.ofList (metrics.numbers.toList ++ ['\n']) = metrics.numbers ++ "\n" := by
    rw [← String.toList_inj]
    simp
  rw [Curl.splitOutput, Text.decode_encode]
  dsimp only
  rw [whole, begins, Text.splitLast_append text.toList last]
  dsimp only
  rw [behind, Metrics.words_numbers shown]
  dsimp only [List.length_cons, List.length_nil, List.headD_cons]
  rw [if_neg (by decide), Text.parseUnsigned_toString shown.status, String.ofList_toList]

/-- The decoder reads no more of what curl prints than the body and a newline. -/
theorem push_printed (parse : Parser) (clean : '\n' ∉ turnId.toList) (shown : metrics.Printed)
    (fits : (encode (printed turnId "" metrics)).length ≤ maxFrame) :
    Decoder.push parse {} (encode (printed turnId text metrics)) =
      Decoder.push parse {} (encode text ++ [newline]) := by
  let marker := "_NAUSICAA_" ++ turnId ++ "__ " ++ metrics.numbers
  have ends : ∀ text, encode (printed turnId text metrics) =
      encode text ++ [newline] ++ (encode ("_" ++ marker) ++ [newline]) := by
    intro text
    have shown : printed turnId text metrics = text ++ "\n" ++ (("_" ++ marker) ++ "\n") := by
      rw [← String.toList_inj]
      simp [printed, Curl.separator, marker]
    rw [shown, Text.encode_append, Text.encode_append, Text.encode_append]
    rfl
  have clean' : newline ∉ encode ("_" ++ marker) := by
    intro member
    have there : '\n' ∈ ("_" ++ marker).toList := Text.mem_encode (by decide) member
    simp [marker, clean, Metrics.numbers_clean shown] at there
  have fits' : (encode ("_" ++ marker)).length ≤ maxFrame := by
    rw [ends] at fits
    simp only [List.length_append] at fits
    omega
  rw [ends, Decoder.push_append]
  cases ran : Decoder.push parse {} (encode text ++ [newline]) with
  | error => rfl
  | ok next =>
    rw [Decoder.push_append] at ran
    obtain ⟨last, _, ended⟩ := bind_ok.mp ran
    rw [Decoder.push_newline] at ended
    exact Decoder.push_marker (Decoder.endLine_pending ended) clean' fits'

theorem finish_text (parse : Parser) (text : String) :
    (do
      let decoder ← Decoder.push parse {} (encode text ++ [newline])
      decoder.finish parse) = decode parse [encode text] := by
  have nothing : ({} : Decoder).pending = encode "" := rfl
  have whole : decode parse [encode text] = (do
      let decoder ← Decoder.push parse {} (encode text)
      decoder.finish parse) := by
    rw [decode, Decoder.pushes_flatten, List.flatten_singleton]
  rw [whole, Decoder.push_append]
  cases ran : Decoder.push parse {} (encode text) with
  | error => rfl
  | ok decoder =>
    obtain ⟨rest, holds⟩ := Decoder.push_pending nothing ran
    exact Decoder.finish_newline holds

end Printed

end Nausicaa.Openai
