import Nausicaa.Jsonl.Lines
import Nausicaa.Openai.Request
import Nausicaa.Openai.Stream
import Nausicaa.Text.Escape

/-! # The configuration for curl

`curl_config_escape` of `lib.rs` and the configuration that `CurlTransport` of
`transport.rs` writes to the input of curl.  What is relied on in curl is a `CurlReader`. -/

namespace Nausicaa.Openai

open Jsonl (lines lines_terminated terminated terminated_append terminated_nil terminated_cons)
open Json (Value)
open Text (Undone escaped readQuoted readQuoted_escaped replace replaces replaces_eq)

/-! ## The code -/

def curlConfigEscape (value : String) : String :=
  replace '\n' "\\n" (replace '\r' "\\r" (replace '"' "\\\"" (replace '\\' "\\\\" value)))

/-- The hexadecimal digits of `{:x}`. -/
def hex (value : Nat) : String := String.ofList (Nat.toDigits 16 value)

/-- `TurnId::new()`, from the clock, the counter and the process. -/
def generatedTurnId (timestamp sequence process : Nat) : String :=
  "turn_" ++ hex timestamp ++ "_" ++ hex sequence ++ "_" ++ hex process

/-- A carriage return or a newline. -/
def breaksLine (text : String) : Bool := text.toList.any fun char => char = '\r' || char = '\n'

/-- The loop over the headers. -/
def pushHeaders : String → List (String × String) → Except TransportError String
  | config, [] => .ok config
  | config, (name, value) :: headers =>
    if breaksLine name || breaksLine value then
      .error (.protocol "HTTP headers cannot contain CR or LF")
    else
      pushHeaders (config ++ "header = \"" ++ curlConfigEscape (name ++ ": " ++ value) ++ "\"\n")
        headers

/-- The configuration that `post_json_controlled` writes for a request, or the error it
returns before it starts curl.  `turnId` marks the end of the output, `serialize` is what
the body is printed as. -/
def curlConfig (serialize : Value → String) (turnId : String) (request : HttpRequest) :
    Except TransportError String :=
  if !(request.url.startsWith "https://" || request.url.startsWith "http://") then
    .error (.protocol "only http:// and https:// endpoints are supported")
  else do
    let marker := "__NAUSICAA_" ++ turnId ++ "__"
    let config := "silent\nshow-error\nno-buffer\nrequest = \"POST\"\nproto = \"=http,https\"\n"
    let config := config ++ "url = \"" ++ curlConfigEscape request.url ++ "\"\nmax-time = \"" ++
      toString (max request.timeoutSeconds 1) ++ "\"\n"
    let config ← pushHeaders config request.headers.toList
    let config := config ++ "data-binary = \"" ++ curlConfigEscape (serialize request.body) ++ "\"\n"
    return config ++ "write-out = \"\\n" ++ marker ++ " %\x7bhttp_code\x7d %\x7btime_namelookup\x7d" ++
      " %\x7btime_connect\x7d %\x7btime_appconnect\x7d %\x7btime_starttransfer\x7d\\n\"\n"

/-! ## The reader -/

/-- An option of curl and its value. -/
structure Directive where
  name : String
  value : Option String
  deriving DecidableEq, Repr

/-- What an escaped character denotes in a double-quoted value. -/
def curlUnescape : Char → Char
  | 'n' => '\n'
  | 'r' => '\r'
  | 't' => '\t'
  | 'v' => '\x0b'
  | char => char

/-- The name of an option. -/
def IsName (name : String) : Prop := ∀ char ∈ name.toList, char.isAlpha = true ∨ char = '-'

instance (name : String) : Decidable (IsName name) :=
  List.decidableBAll _ name.toList

/-- How curl reads a line: a name alone is a flag, and a double-quoted value behind a name
ends at the first unescaped quote. -/
structure CurlReader where
  directive : List Char → Option Directive
  flag : ∀ name : String, IsName name → directive name.toList = some ⟨name, none⟩
  quoted : ∀ (name : String) (content value : List Char), IsName name →
    readQuoted curlUnescape content = some (value, []) →
    directive (name.toList ++ " = \"".toList ++ content) = some ⟨name, some (String.ofList value)⟩

/-- The directives of a configuration, one for each raw line. -/
def CurlReader.parse (reader : CurlReader) (config : String) : Option (List Directive) :=
  (lines '\n' config.toList).mapM fun line => reader.directive (line.filter (· ≠ '\n'))

/-- What the transport asks curl to print behind the response. -/
def writeOut (turnId : String) : String :=
  "__NAUSICAA_" ++ turnId ++ "__" ++ " %\x7bhttp_code\x7d %\x7btime_namelookup\x7d" ++
    " %\x7btime_connect\x7d %\x7btime_appconnect\x7d %\x7btime_starttransfer\x7d"

/-- What the transport means to tell curl. -/
def intended (serialize : Value → String) (turnId : String) (request : HttpRequest) :
    List Directive :=
  [⟨"silent", none⟩, ⟨"show-error", none⟩, ⟨"no-buffer", none⟩, ⟨"request", some "POST"⟩,
    ⟨"proto", some "=http,https"⟩, ⟨"url", some request.url⟩,
    ⟨"max-time", some (toString (max request.timeoutSeconds 1))⟩] ++
  request.headers.toList.map (fun header => ⟨"header", some (header.1 ++ ": " ++ header.2)⟩) ++
  [⟨"data-binary", some (serialize request.body)⟩,
    ⟨"write-out", some ("\n" ++ writeOut turnId ++ "\n")⟩]

/-! ## Lines -/

/-- A line that sets an option to a quoted text. -/
def quotedLine (name content : String) : List Char :=
  name.toList ++ " = \"".toList ++ (content.toList ++ ['"'])

section Escaping

variable {text : String} {char : Char}

def curlReplacements : List (Char × String) :=
  [('\\', "\\\\"), ('"', "\\\""), ('\r', "\\r"), ('\n', "\\n")]

theorem curlConfigEscape_toList (text : String) :
    (curlConfigEscape text).toList = text.toList.flatMap (escaped curlReplacements) :=
  replaces_eq curlReplacements text

/-- What the four replacements make of one character. -/
theorem escaped_cases (char : Char) :
    (char = '\\' ∧ escaped curlReplacements char = ['\\', '\\']) ∨
    (char = '"' ∧ escaped curlReplacements char = ['\\', '"']) ∨
    (char = '\r' ∧ escaped curlReplacements char = ['\\', 'r']) ∨
    (char = '\n' ∧ escaped curlReplacements char = ['\\', 'n']) ∨
    (char ≠ '\\' ∧ char ≠ '"' ∧ char ≠ '\r' ∧ char ≠ '\n' ∧
      escaped curlReplacements char = [char]) := by
  by_cases backslash : char = '\\'
  · subst backslash
    exact .inl ⟨rfl, by decide⟩
  by_cases quote : char = '"'
  · subst quote
    exact .inr (.inl ⟨rfl, by decide⟩)
  by_cases return_ : char = '\r'
  · subst return_
    exact .inr (.inr (.inl ⟨rfl, by decide⟩))
  by_cases newline : char = '\n'
  · subst newline
    exact .inr (.inr (.inr (.inl ⟨rfl, by decide⟩)))
  refine .inr (.inr (.inr (.inr ⟨backslash, quote, return_, newline, ?_⟩)))
  simp [escaped, replaces, curlReplacements, replace, backslash, quote, return_, newline]

theorem curlEscape_undone (char : Char) :
    Undone curlUnescape (escaped curlReplacements) char := by
  obtain ⟨rfl, same⟩ | ⟨rfl, same⟩ | ⟨rfl, same⟩ | ⟨rfl, same⟩ | ⟨backslash, quote, _, _, same⟩ :=
    escaped_cases char
  · exact .inr ⟨_, same, by decide⟩
  · exact .inr ⟨_, same, by decide⟩
  · exact .inr ⟨_, same, by decide⟩
  · exact .inr ⟨_, same, by decide⟩
  · exact .inl ⟨same, quote, backslash⟩

/-- An escaped text stays on its line. -/
theorem newline_not_mem_escape (text : String) : '\n' ∉ (curlConfigEscape text).toList := by
  rw [curlConfigEscape_toList, List.mem_flatMap]
  intro found
  obtain ⟨char, _, member⟩ := found
  obtain ⟨_, same⟩ | ⟨_, same⟩ | ⟨_, same⟩ | ⟨_, same⟩ | ⟨_, _, _, newline, same⟩ :=
    escaped_cases char
  · rw [same] at member; revert member; decide
  · rw [same] at member; revert member; decide
  · rw [same] at member; revert member; decide
  · rw [same] at member; revert member; decide
  · rw [same, List.mem_singleton] at member
    exact newline member.symm

/-- A text in which nothing has to be escaped. -/
def PlainText (text : String) : Prop :=
  ∀ char ∈ text.toList, char ≠ '\\' ∧ char ≠ '"' ∧ char ≠ '\r' ∧ char ≠ '\n'

instance (text : String) : Decidable (PlainText text) :=
  List.decidableBAll _ text.toList

theorem curlConfigEscape_plain (plain : PlainText text) : curlConfigEscape text = text := by
  rw [← String.toList_inj, curlConfigEscape_toList]
  unfold PlainText at plain
  generalize text.toList = chars at plain
  induction chars with
  | nil => rfl
  | cons char chars ih =>
    obtain ⟨backslash, quote, return_, newline⟩ := plain char List.mem_cons_self
    rw [List.flatMap_cons, ih fun other member => plain other (List.mem_cons_of_mem _ member)]
    obtain ⟨same, _⟩ | ⟨same, _⟩ | ⟨same, _⟩ | ⟨same, _⟩ | ⟨_, _, _, _, same⟩ := escaped_cases char
    · exact absurd same backslash
    · exact absurd same quote
    · exact absurd same return_
    · exact absurd same newline
    · rw [same]; rfl

theorem curlConfigEscape_append (first second : String) :
    curlConfigEscape (first ++ second) = curlConfigEscape first ++ curlConfigEscape second :=
  Text.replaces_append curlReplacements first second

end Escaping

/-! ## Parsing what was written -/

section Parsing

variable {reader : CurlReader} {serialize : Value → String} {turnId : String}
variable {request : HttpRequest} {config config' name value : String}
variable {headers : List (String × String)}

/-- A line that is read as a directive. -/
def Reads (reader : CurlReader) (line : List Char) (directive : Directive) : Prop :=
  '\n' ∉ line ∧ reader.directive line = some directive

theorem reads_flag (isName : IsName name) : Reads reader name.toList ⟨name, none⟩ := by
  refine ⟨?_, reader.flag name isName⟩
  intro member
  have letter := isName _ member
  revert letter
  decide

theorem reads_escaped (isName : IsName name) :
    Reads reader (quotedLine name (curlConfigEscape value)) ⟨name, some value⟩ := by
  constructor
  · unfold quotedLine
    rw [List.mem_append, List.mem_append, List.mem_append]
    intro member
    obtain (letter | separator) | text | quote := member
    · have letter := isName _ letter
      revert letter
      decide
    · revert separator
      decide
    · exact newline_not_mem_escape value text
    · revert quote
      decide
  · have read : readQuoted curlUnescape ((curlConfigEscape value).toList ++ ['"']) =
        some (value.toList, []) := by
      rw [curlConfigEscape_toList]
      exact readQuoted_escaped curlEscape_undone value.toList []
    have quoted := reader.quoted name _ _ isName read
    rwa [String.ofList_toList] at quoted

theorem reads_plain (isName : IsName name) (plain : PlainText value) :
    Reads reader (quotedLine name value) ⟨name, some value⟩ := by
  have read : Reads reader (quotedLine name (curlConfigEscape value)) ⟨name, some value⟩ :=
    reads_escaped isName
  rwa [curlConfigEscape_plain plain] at read

theorem reads_cons {line : List Char} {directive : Directive} {written : List (List Char)}
    {directives : List Directive} (read : Reads reader line directive)
    (rest : (lines '\n' (terminated '\n' written)).mapM
      (fun line => reader.directive (line.filter (· ≠ '\n'))) = some directives) :
    (lines '\n' (terminated '\n' (line :: written))).mapM
      (fun line => reader.directive (line.filter (· ≠ '\n'))) = some (directive :: directives) := by
  obtain ⟨clean, read⟩ := read
  have body : (line ++ ['\n']).filter (fun char => decide (char ≠ '\n')) = line := by
    rw [List.filter_append, List.filter_eq_self.mpr, List.filter_singleton]
    · simp
    · intro char member
      rw [decide_eq_true_eq]
      rintro rfl
      exact clean member
  rw [terminated_cons, Jsonl.lines_body clean, List.mapM_cons, body, read, rest]
  rfl

/-- A configuration of lines that are read as directives is read as these directives. -/
theorem parse_lines {written : List (List Char)} {directives : List Directive}
    (reads : List.Forall₂ (Reads reader) written directives)
    (text : config.toList = terminated '\n' written) : reader.parse config = some directives := by
  unfold CurlReader.parse
  rw [text]
  clear text
  induction reads with
  | nil => rfl
  | cons read _ ih => exact reads_cons read ih

/-- The line of a header. -/
def headerLine (header : String × String) : List Char :=
  quotedLine "header" (curlConfigEscape (header.1 ++ ": " ++ header.2))

/-- The loop appends one line for each header, unless one breaks its line. -/
theorem pushHeaders_cases (config : String) (headers : List (String × String)) :
    match pushHeaders config headers with
    | .ok config' => config'.toList = config.toList ++ terminated '\n' (headers.map headerLine)
    | .error _ => ∃ header ∈ headers, breaksLine header.1 = true ∨ breaksLine header.2 = true := by
  induction headers generalizing config with
  | nil => simp [pushHeaders]
  | cons header headers ih =>
    obtain ⟨name, value⟩ := header
    unfold pushHeaders
    by_cases breaks : breaksLine name || breaksLine value
    · rw [if_pos breaks]
      exact ⟨(name, value), List.mem_cons_self, by simpa using breaks⟩
    · rw [if_neg breaks]
      have later := ih (config ++ "header = \"" ++ curlConfigEscape (name ++ ": " ++ value) ++ "\"\n")
      cases pushed : pushHeaders _ headers with
      | ok config' =>
        rw [pushed] at later
        simp only at later ⊢
        rw [later]
        simp [headerLine, quotedLine, String.toList_append]
      | error error =>
        rw [pushed] at later
        obtain ⟨found, member, breaks⟩ := later
        exact ⟨found, List.mem_cons_of_mem _ member, breaks⟩

end Parsing

/-! ## Plain texts -/

section Plain

variable {first second : String}

theorem PlainText.append (plain : PlainText first) (rest : PlainText second) :
    PlainText (first ++ second) := by
  unfold PlainText
  rw [String.toList_append, List.forall_mem_append]
  exact ⟨plain, rest⟩

theorem digitChar_plain : ∀ digit < 16, digit.digitChar ≠ '\\' ∧ digit.digitChar ≠ '"' ∧
    digit.digitChar ≠ '\r' ∧ digit.digitChar ≠ '\n' := by
  decide

theorem toDigits_plain {base : Nat} (least : 1 < base) (most : base ≤ 16) (value : Nat) :
    PlainText (String.ofList (Nat.toDigits base value)) := by
  unfold PlainText
  rw [String.toList_ofList]
  induction value using Nat.strongRecOn with
  | _ value ih =>
    intro char member
    rw [Nat.toDigits_eq_if least] at member
    by_cases small : value < base
    · rw [if_pos small, List.mem_singleton] at member
      rw [member]
      exact digitChar_plain value (by omega)
    · rw [if_neg small, List.mem_append, List.mem_singleton] at member
      cases member with
      | inl leading => exact ih _ (Nat.div_lt_self (by omega) least) char leading
      | inr last =>
        have bound := Nat.mod_lt value (show base > 0 by omega)
        rw [last]
        exact digitChar_plain _ (by omega)

theorem hex_plain (value : Nat) : PlainText (hex value) := toDigits_plain (by decide) (by decide) value

theorem toString_plain (value : Nat) : PlainText (toString value) := by
  rw [Nat.toString_eq_ofList_toDigits]
  exact toDigits_plain (by decide) (by decide) value

theorem generatedTurnId_plain (timestamp sequence process : Nat) :
    PlainText (generatedTurnId timestamp sequence process) := by
  have start : PlainText "turn_" := by decide
  have separator : PlainText "_" := by decide
  exact (((start.append (hex_plain _)).append separator).append (hex_plain _)).append separator
    |>.append (hex_plain _)

end Plain

/-! ## The whole configuration -/

section Configuration

variable {turnId : String}

/-- The lines before the headers. -/
def leadingLines (request : HttpRequest) : List (List Char) :=
  ["silent".toList, "show-error".toList, "no-buffer".toList, quotedLine "request" "POST",
    quotedLine "proto" "=http,https", quotedLine "url" (curlConfigEscape request.url),
    quotedLine "max-time" (toString (max request.timeoutSeconds 1))]

/-- The lines behind the headers. -/
def trailingLines (serialize : Value → String) (turnId : String) (request : HttpRequest) :
    List (List Char) :=
  [quotedLine "data-binary" (curlConfigEscape (serialize request.body)),
    quotedLine "write-out" ("\\n" ++ writeOut turnId ++ "\\n")]

theorem writeOut_plain (plain : PlainText turnId) : PlainText (writeOut turnId) := by
  have start : PlainText "__NAUSICAA_" := by decide
  have stop : PlainText "__" := by decide
  have first : PlainText " %\x7bhttp_code\x7d %\x7btime_namelookup\x7d" := by decide
  have second : PlainText
      " %\x7btime_connect\x7d %\x7btime_appconnect\x7d %\x7btime_starttransfer\x7d" := by decide
  exact (((start.append plain).append stop).append first).append second

theorem writeOut_escaped (plain : PlainText turnId) :
    curlConfigEscape ("\n" ++ writeOut turnId ++ "\n") = "\\n" ++ writeOut turnId ++ "\\n" := by
  have newline : curlConfigEscape "\n" = "\\n" := by decide
  rw [curlConfigEscape_append, curlConfigEscape_append, newline,
    curlConfigEscape_plain (writeOut_plain plain)]

/-- Every line is read as the directive that is meant. -/
theorem reads_intended (reader : CurlReader) (serialize : Value → String) (request : HttpRequest)
    (plain : PlainText turnId) : List.Forall₂ (Reads reader)
      (leadingLines request ++ request.headers.toList.map headerLine ++
        trailingLines serialize turnId request)
      (intended serialize turnId request) := by
  have headers : ∀ headers : List (String × String), List.Forall₂ (Reads reader)
      (headers.map headerLine)
      (headers.map fun header => ⟨"header", some (header.1 ++ ": " ++ header.2)⟩) := by
    intro headers
    rw [List.forall₂_map_left_iff, List.forall₂_map_right_iff, List.forall₂_same]
    intro header _
    exact reads_escaped (by decide)
  have written : Reads reader
      (quotedLine "write-out" (curlConfigEscape ("\n" ++ writeOut turnId ++ "\n")))
      ⟨"write-out", some ("\n" ++ writeOut turnId ++ "\n")⟩ :=
    reads_escaped (by decide)
  rw [writeOut_escaped plain] at written
  apply List.rel_append
  · apply List.rel_append
    · exact .cons (reads_flag (by decide)) <| .cons (reads_flag (by decide)) <|
        .cons (reads_flag (by decide)) <| .cons (reads_plain (by decide) (by decide)) <|
        .cons (reads_plain (by decide) (by decide)) <| .cons (reads_escaped (by decide)) <|
        .cons (reads_plain (by decide) (toString_plain _)) .nil
    · exact headers _
  · exact .cons (reads_escaped (by decide)) (.cons written .nil)

/-- The configuration consists of these lines. -/
theorem curlConfig_cases (serialize : Value → String) (turnId : String) (request : HttpRequest) :
    match curlConfig serialize turnId request with
    | .ok config => config.toList = terminated '\n' (leadingLines request ++
        request.headers.toList.map headerLine ++ trailingLines serialize turnId request)
    | .error _ => (request.url.startsWith "https://" || request.url.startsWith "http://") = false ∨
        ∃ header ∈ request.headers.toList,
          breaksLine header.1 = true ∨ breaksLine header.2 = true := by
  by_cases supported : (request.url.startsWith "https://" || request.url.startsWith "http://") = true
  · obtain ⟨start, leading, same⟩ : ∃ start, start.toList = terminated '\n' (leadingLines request) ∧
        curlConfig serialize turnId request = (do
          let config ← pushHeaders start request.headers.toList
          return config ++ "data-binary = \"" ++ curlConfigEscape (serialize request.body) ++ "\"\n" ++
            "write-out = \"\\n" ++ ("__NAUSICAA_" ++ turnId ++ "__") ++
            " %\x7bhttp_code\x7d %\x7btime_namelookup\x7d" ++
            " %\x7btime_connect\x7d %\x7btime_appconnect\x7d %\x7btime_starttransfer\x7d\\n\"\n") := by
      unfold curlConfig
      rw [supported]
      refine ⟨_, ?_, rfl⟩
      simp [leadingLines, quotedLine, String.toList_append]
    have pushed := pushHeaders_cases start request.headers.toList
    rw [same]
    cases result : pushHeaders start request.headers.toList with
    | ok config =>
      rw [result] at pushed
      simp only [leading] at pushed
      simp [bind, Except.bind, pure, Except.pure, String.toList_append, pushed, trailingLines,
        quotedLine, writeOut, terminated_append]
    | error error =>
      rw [result] at pushed
      exact .inr pushed
  · rw [Bool.not_eq_true] at supported
    unfold curlConfig
    rw [supported]
    exact .inl rfl

/-- Whatever the request holds, curl reads the configuration as what the transport means. -/
theorem curl_config_read (reader : CurlReader) (serialize : Value → String)
    (timestamp sequence process : Nat) (request : HttpRequest) :
    match curlConfig serialize (generatedTurnId timestamp sequence process) request with
    | .ok config => reader.parse config =
        some (intended serialize (generatedTurnId timestamp sequence process) request)
    | .error _ => (request.url.startsWith "https://" || request.url.startsWith "http://") = false ∨
        ∃ header ∈ request.headers.toList,
          breaksLine header.1 = true ∨ breaksLine header.2 = true := by
  have lines := curlConfig_cases serialize (generatedTurnId timestamp sequence process) request
  cases result : curlConfig serialize (generatedTurnId timestamp sequence process) request with
  | ok config =>
    rw [result] at lines
    exact parse_lines (reads_intended reader serialize request
      (generatedTurnId_plain timestamp sequence process)) lines
  | error error =>
    rw [result] at lines
    exact lines

end Configuration

namespace Sample

/-- A reader that knows flags and double-quoted values only. -/
def readDirective (line : List Char) : Option Directive :=
  match line.dropWhile (· ≠ ' ') with
  | [] => some ⟨String.ofList line, none⟩
  | ' ' :: '=' :: ' ' :: '"' :: content =>
    match readQuoted curlUnescape content with
    | some (value, []) =>
      some ⟨String.ofList (line.takeWhile (· ≠ ' ')), some (String.ofList value)⟩
    | _ => none
  | _ => none

theorem no_blank {name : String} (isName : IsName name) : ∀ char ∈ name.toList, char ≠ ' ' := by
  intro char member blank
  have letter := isName char member
  rw [blank] at letter
  revert letter
  decide

/-- Such a reader. -/
def reader : CurlReader where
  directive := readDirective
  flag name isName := by
    have nothing : name.toList.dropWhile (· ≠ ' ') = [] := by
      rw [List.dropWhile_eq_nil_iff]
      intro char member
      simpa using no_blank isName char member
    rw [readDirective, nothing]
    simp
  quoted name content value isName read := by
    have clean : ∀ char ∈ name.toList, (decide (char ≠ ' ')) = true := by
      intro char member
      simpa using no_blank isName char member
    have separator : " = \"".toList = [' ', '=', ' ', '"'] := rfl
    rw [readDirective, List.append_assoc, separator, List.dropWhile_append_of_pos clean,
      List.takeWhile_append_of_pos clean]
    simp [read]

/-- A request that tries to add an option. -/
def injecting : HttpRequest where
  url := "https://a\"\nproxy = \"b"
  headers := .ofList [("x", "\\\"")] compare
  body := .null
  timeoutSeconds := 0

end Sample

theorem curl_config_read_injecting :
    ∃ config, curlConfig (fun _ => "\\\n\"") (generatedTurnId 1 2 3) Sample.injecting = .ok config ∧
      Sample.reader.parse config =
        some (intended (fun _ => "\\\n\"") (generatedTurnId 1 2 3) Sample.injecting) := by
  have read := curl_config_read Sample.reader (fun _ => "\\\n\"") 1 2 3 Sample.injecting
  cases result : curlConfig (fun _ => "\\\n\"") (generatedTurnId 1 2 3) Sample.injecting with
  | ok config =>
    rw [result] at read
    exact ⟨config, rfl, read⟩
  | error error =>
    rw [result] at read
    have clean : ¬ ((Sample.injecting.url.startsWith "https://" ||
          Sample.injecting.url.startsWith "http://") = false ∨
        ∃ header ∈ Sample.injecting.headers.toList,
          breaksLine header.1 = true ∨ breaksLine header.2 = true) := by
      decide +kernel
    exact absurd read clean

end Nausicaa.Openai
