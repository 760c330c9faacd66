import Nausicaa.Json.Display
import Nausicaa.Tui.State

/-! # What is drawn

`render` and `wrap_line` of `tui/src/lib.rs`.  Nothing that is printed for the log, the draft and an
approval controls the terminal, if and only if the prompt of the approval shows no control character
(`drawn_clean`): all other text is wrapped, and wrapping drops them (`wrapLine_wraps`). -/

namespace Nausicaa.Tui

open Core (ApprovalRequest)
open Json (Compact Value control_ne display_control isControl text_compact)

/-! ## Wrapping -/

/-- The loop of `wrap_line`, over the characters that are left. -/
def wrapChars (width : Nat) (current : List Char) : List Char → List String
  | [] => [String.ofList current]
  | char :: rest =>
    if char = '\n' then String.ofList current :: wrapChars width [] rest
    else if width ≤ current.length then String.ofList current :: wrapChars width [char] rest
    else wrapChars width (current ++ [char]) rest

def wrapLine (line : String) (width : Nat) : List String :=
  if width = 0 then [""]
  else wrapChars width [] (line.toList.filter fun char => !isControl char || char = '\n')

/-! ## Drawing -/

inductive Color where
  | cyan | yellow | darkGrey

inductive Command where
  | hideCursor
  | showCursor
  | moveTo (column row : Nat)
  | clearAll
  | foreground (color : Color)
  | resetColor
  | print (text : String)

namespace UiState

variable (display : Value → String) (state : UiState)

def wrapped (width : Nat) : List String :=
  let lines := state.logs.flatMap fun line => wrapLine line (width - 2)
  if state.draft = "" then lines
  else lines ++ wrapLine s!"draft (unvalidated): {state.draft}" (width - 2)

def drawLog (width height : Nat) : List Command :=
  let approvalHeight := if state.currentApproval.isSome then 4 else 0
  let logHeight := height - (4 + approvalHeight)
  let wrapped := state.wrapped width
  (wrapped.drop (wrapped.length - logHeight)).flatMap fun line => [.print line, .print "\r\n"]

def drawApproval : List Command :=
  match state.currentApproval with
  | some request =>
    [.foreground .yellow,
      .print "\r\nApproval required [y/n]\r\n",
      .print s!"tool: {request.action.toolName}\r\n",
      .print s!"action: {display request.action.arguments}\r\n",
      .resetColor]
  | none => []

/-- The log with the draft, and the prompt of the approval. -/
def drawBody (columns rows : Nat) : List Command :=
  state.drawLog (max columns 20) rows ++ state.drawApproval display

def statusLine (phaseSeconds turnSeconds : String) : String :=
  if state.running then
    let phase := if state.isCancelled then "cancelling" else state.phase
    s!"{phase} {phaseSeconds}s | turn {turnSeconds}s | Ctrl+C cancels"
  else "ready | Ctrl+C exits"

/-- `render` on a terminal of this size; the seconds are what the clocks show. -/
def render (title : String) (columns rows : Nat) (phaseSeconds turnSeconds : String) :
    List Command :=
  let header : List Command := [.hideCursor, .moveTo 0 0, .clearAll, .foreground .cyan,
    .print s!"{title}  [{state.threadId.value}]\r\n", .resetColor]
  let footer : List Command := [.moveTo 0 (rows - 2), .foreground .darkGrey,
    .print s!"status: {state.statusLine phaseSeconds turnSeconds}", .resetColor,
    .moveTo 0 (rows - 1), .print "> ", .print state.input, .showCursor]
  header ++ state.drawBody display columns rows ++ footer

end UiState

/-! ## What wrapping does -/

def NoControl (chars : List Char) : Prop := ∀ char ∈ chars, isControl char = false

instance (chars : List Char) : Decidable (NoControl chars) :=
  decidable_of_iff (chars.all fun char => !isControl char) (by simp [NoControl])

/-- The pieces of a line: none is too long, and together they are the line without its control
characters. -/
structure Wraps (line : String) (width : Nat) (pieces : List String) : Prop where
  short : ∀ piece ∈ pieces, piece.toList.length ≤ width
  whole : pieces.flatMap String.toList = line.toList.filter fun char => !isControl char

section Wrap

variable {width : Nat} {current chars : List Char}

theorem wrapChars_short (positive : 0 < width) (fits : current.length ≤ width) :
    ∀ piece ∈ wrapChars width current chars, piece.toList.length ≤ width := by
  induction chars generalizing current with
  | nil => simpa [wrapChars] using fits
  | cons char chars ih =>
    rw [wrapChars]
    split
    next => simpa using ⟨fits, ih (Nat.zero_le width)⟩
    next =>
      split
      next => simpa using ⟨fits, ih positive⟩
      next room => exact ih (by simp; omega)

theorem wrapChars_whole : (wrapChars width current chars).flatMap String.toList =
    current ++ chars.filter fun char => char ≠ '\n' := by
  induction chars generalizing current with
  | nil => simp [wrapChars]
  | cons char chars ih =>
    rw [wrapChars]
    split
    next newline => simp [ih, newline]
    next other =>
      split
      next => simp [ih, other]
      next => simp [ih, other]

theorem wrapLine_wraps (line : String) (positive : 0 < width) :
    Wraps line width (wrapLine line width) := by
  rw [wrapLine, if_neg (Nat.ne_of_gt positive)]
  constructor
  · exact wrapChars_short positive (Nat.zero_le width)
  · rw [wrapChars_whole, List.nil_append, List.filter_filter]
    apply List.filter_congr
    intro char _
    -- A newline is a control character.
    by_cases newline : char = '\n'
    · subst newline
      rfl
    · simp [newline]

theorem wrapChars_clean (clean : NoControl current)
    (newlines : ∀ char ∈ chars, char ≠ '\n' → isControl char = false) :
    ∀ piece ∈ wrapChars width current chars, NoControl piece.toList := by
  induction chars generalizing current with
  | nil => simpa [wrapChars] using clean
  | cons char chars ih =>
    have rest : ∀ char ∈ chars, char ≠ '\n' → isControl char = false :=
      fun other member => newlines other (List.mem_cons_of_mem char member)
    rw [wrapChars]
    split
    next => simpa using ⟨clean, ih (by simp [NoControl]) rest⟩
    next other =>
      have visible := newlines char List.mem_cons_self other
      split
      next => simpa using ⟨clean, ih (by simpa [NoControl] using visible) rest⟩
      next =>
        apply ih _ rest
        intro char' member
        obtain member | last := List.mem_append.mp member
        · exact clean char' member
        · rwa [List.mem_singleton.mp last]

theorem wrapLine_clean (line : String) (width : Nat) :
    ∀ piece ∈ wrapLine line width, NoControl piece.toList := by
  rw [wrapLine]
  split
  next => simp [NoControl]
  next =>
    apply wrapChars_clean
    · simp [NoControl]
    · intro char member other
      have kept := (List.mem_filter.mp member).2
      simpa [other] using kept

end Wrap

/-! ## What is printed -/

/-- A printed text has no control characters but a line break of the drawing around it. -/
def Clean (text : String) : Prop :=
  ∃ body, NoControl body ∧ (text.toList = body ∨ text.toList = body ++ ['\r', '\n'] ∨
    text.toList = '\r' :: '\n' :: body ++ ['\r', '\n'])

/-- The prompt of the approval shows no control character. -/
structure Harmless (request : ApprovalRequest) : Prop where
  tool : NoControl request.action.toolName.toList
  arguments : ∀ text ∈ request.action.arguments.strings, ∀ char ∈ text.toList,
    isControl char = true → char.toNat < 0x20

section Clean

variable {display : Value → String} {state : UiState}

theorem noControl_append {first second : List Char} :
    NoControl (first ++ second) ↔ NoControl first ∧ NoControl second := by
  simp only [NoControl, List.mem_append, or_imp, forall_and]

/-- A line of the drawing is clean if what it shows is. -/
theorem clean_line (label shown : String) (visible : NoControl label.toList) (filled : label ≠ "") :
    Clean (label ++ shown ++ "\r\n") ↔ NoControl shown.toList := by
  have same : (label ++ shown ++ "\r\n").toList = label.toList ++ shown.toList ++ ['\r', '\n'] := by
    rw [String.toList_append, String.toList_append]
    rfl
  constructor
  · rintro ⟨body, clean, whole | whole | whole⟩
    · have breaks := clean '\r' (by rw [← whole, same]; simp)
      cases breaks
    · rw [same] at whole
      rw [← List.append_cancel_right whole] at clean
      exact (noControl_append.mp clean).2
    · rw [same] at whole
      obtain ⟨first, rest, split⟩ :=
        List.exists_cons_of_ne_nil (mt String.toList_eq_nil_iff.mp filled)
      rw [split] at whole visible
      obtain ⟨rfl, _⟩ := List.cons.inj whole
      have breaks := visible '\r' List.mem_cons_self
      cases breaks
  · intro clean
    exact ⟨label.toList ++ shown.toList, noControl_append.mpr ⟨visible, clean⟩, .inr (.inl same)⟩

theorem noControl_display (compact : Compact display) (value : Value) :
    NoControl (display value).toList ↔ ∀ text ∈ value.strings, ∀ char ∈ text.toList,
      isControl char = true → char.toNat < 0x20 := by
  constructor
  · intro clean text member char inside control
    by_contra high
    have shown := clean char ((display_control compact control value).mpr
      ⟨Nat.le_of_not_lt high, text, member, inside⟩)
    rw [control] at shown
    cases shown
  · intro low char member
    by_contra control
    rw [Bool.not_eq_false] at control
    obtain ⟨high, text, inside, there⟩ := (display_control compact control value).mp member
    exact absurd (low text inside char there control) (Nat.not_lt.mpr high)

theorem drawLog_clean (width height : Nat) (text : String)
    (printed : .print text ∈ state.drawLog width height) : Clean text := by
  have wrapped : ∀ line ∈ state.wrapped width, NoControl line.toList := by
    intro line member
    rw [UiState.wrapped] at member
    have logged : line ∈ state.logs.flatMap (fun line => wrapLine line (width - 2)) →
        NoControl line.toList := by
      intro member
      obtain ⟨log, _, piece⟩ := List.mem_flatMap.mp member
      exact wrapLine_clean log _ line piece
    split at member
    next => exact logged member
    next =>
      obtain member | piece := List.mem_append.mp member
      · exact logged member
      · exact wrapLine_clean _ _ line piece
  obtain ⟨line, member, shown⟩ := List.mem_flatMap.mp printed
  have clean := wrapped line (List.mem_of_mem_drop member)
  obtain same | same : text = line ∨ text = "\r\n" := by simpa using shown
  · subst same
    exact ⟨text.toList, clean, .inl rfl⟩
  · subst same
    exact ⟨[], by simp [NoControl], .inr (.inl rfl)⟩

theorem drawApproval_clean (compact : Compact display) {request : ApprovalRequest}
    (current : state.currentApproval = some request) :
    (∀ text, .print text ∈ state.drawApproval display → Clean text) ↔ Harmless request := by
  have tool : Clean s!"tool: {request.action.toolName}\r\n" ↔
      NoControl request.action.toolName.toList :=
    clean_line "tool: " _ (by decide) (by decide)
  have arguments : Clean s!"action: {display request.action.arguments}\r\n" ↔
      NoControl (display request.action.arguments).toList :=
    clean_line "action: " _ (by decide) (by decide)
  have title : Clean "\r\nApproval required [y/n]\r\n" :=
    ⟨"Approval required [y/n]".toList, by decide, .inr (.inr rfl)⟩
  rw [noControl_display compact] at arguments
  rw [UiState.drawApproval, current]
  simp only [List.mem_cons, reduceCtorEq, Command.print.injEq, false_or, List.not_mem_nil, or_false]
  constructor
  · intro clean
    exact ⟨tool.mp (clean _ (.inr (.inl rfl))), arguments.mp (clean _ (.inr (.inr rfl)))⟩
  · rintro harmless text (rfl | rfl | rfl)
    · exact title
    · exact tool.mpr harmless.tool
    · exact arguments.mpr harmless.arguments

/-- What is drawn for the log, the draft and an approval has no control characters but the line
breaks of the drawing, and lines are wrapped as they should be, if and only if the prompt of the
approval shows no control character. -/
theorem drawn_clean {display : Value → String} (compact : Compact display) (state : UiState) :
    (∀ columns rows text, .print text ∈ state.drawBody display columns rows → Clean text) ∧
      (∀ line width, 0 < width → Wraps line width (wrapLine line width)) ↔
    ∀ request ∈ state.currentApproval, Harmless request := by
  constructor
  · rintro ⟨clean, _⟩ request current
    apply (drawApproval_clean compact current).mp
    intro text printed
    exact clean 0 0 text (List.mem_append_right _ printed)
  · intro harmless
    refine ⟨?_, fun line width positive => wrapLine_wraps line positive⟩
    intro columns rows text printed
    obtain printed | printed := List.mem_append.mp printed
    · exact drawLog_clean _ _ text printed
    · cases current : state.currentApproval with
      | none =>
        rw [UiState.drawApproval, current] at printed
        cases printed
      | some request =>
        exact (drawApproval_clean compact current).mpr (harmless request current) text printed

end Clean

/-! ## Two prompts -/

/-- A terminal that asks for the approval of a command. -/
def asking (command : String) : UiState :=
  { UiState.new ⟨"thread"⟩ with
    currentApproval := some {
      threadId := ⟨"thread"⟩
      turnId := ⟨"turn"⟩
      callId := ⟨"call"⟩
      action := {
        toolName := "shell"
        arguments := .object [("command", .string command), ("working_directory", .string "/work"),
          ("timeout_ms", .number (.posInt 30000))]
        effect := .workspaceWrite
        retrySafety := .unsafeRetry
        scope := some "/work" }
      reason := "write" } }

theorem drawn_clean_list :
    (∀ columns rows text, .print text ∈ (asking "ls").drawBody Value.text columns rows → Clean text) ∧
      ∀ line width, 0 < width → Wraps line width (wrapLine line width) := by
  refine (drawn_clean text_compact (asking "ls")).mpr ?_
  rintro request current
  obtain rfl := Option.some.inj current
  exact ⟨by decide, (noControl_display text_compact _).mp (by decide)⟩

/-- The model moves the cursor with U+009B. -/
theorem drawn_moves : ¬ ((∀ columns rows text,
      .print text ∈ (asking "\u009b1A").drawBody Value.text columns rows → Clean text) ∧
    ∀ line width, 0 < width → Wraps line width (wrapLine line width)) := by
  rintro ⟨clean, _⟩
  have harmless := (@drawApproval_clean _ (asking "\u009b1A") text_compact _ rfl).mp
    fun text printed => clean 0 0 text (List.mem_append_right _ printed)
  have low := harmless.arguments "\u009b1A" (by decide) '\u009b' (by decide) (by decide)
  exact absurd low (by decide)

end Nausicaa.Tui
