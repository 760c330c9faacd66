import Nausicaa.Text.Utf8

/-! # Parts of texts

What `str::from_utf8` tells about bytes that are not UTF-8: how far they are, and whether they
only lack the rest of a character. -/

namespace Nausicaa.Text

/-! ## Bytes -/

/-- What the first bytes of a sequence are. -/
inductive Utf8Start where
  | char (width : Nat)
  | incomplete
  | invalid (length : Nat)
  deriving DecidableEq, Repr

/-- The width of the character that a byte begins, `0` if it begins none. -/
def utf8Width (first : UInt8) : Nat :=
  if first.toNat < 0x80 then 1
  else if 0xC2 ≤ first.toNat ∧ first.toNat ≤ 0xDF then 2
  else if 0xE0 ≤ first.toNat ∧ first.toNat ≤ 0xEF then 3
  else if 0xF0 ≤ first.toNat ∧ first.toNat ≤ 0xF4 then 4
  else 0

/-- Whether the second byte of a character can follow the first. -/
def utf8Follows (first second : UInt8) : Bool :=
  let least := if first.toNat = 0xE0 then 0xA0 else if first.toNat = 0xF0 then 0x90 else 0x80
  let most := if first.toNat = 0xED then 0x9F else if first.toNat = 0xF4 then 0x8F else 0xBF
  decide (least ≤ second.toNat ∧ second.toNat ≤ most)

def isContinuation (byte : UInt8) : Bool := decide (0x80 ≤ byte.toNat ∧ byte.toNat ≤ 0xBF)

/-- The last bytes of a character of which `done` are read. -/
def utf8Trailing : Nat → Nat → List UInt8 → Utf8Start
  | 0, done, _ => .char done
  | _ + 1, _, [] => .incomplete
  | missing + 1, done, byte :: rest =>
    if isContinuation byte then utf8Trailing missing (done + 1) rest else .invalid done

def utf8Start (first : UInt8) (rest : List UInt8) : Utf8Start :=
  match utf8Width first with
  | 0 => .invalid 1
  | 1 => .char 1
  | missing + 2 =>
    match rest with
    | [] => .incomplete
    | second :: rest => if utf8Follows first second then utf8Trailing missing 2 rest else .invalid 1

structure Utf8Error where
  validUpTo : Nat
  errorLen : Option Nat
  deriving DecidableEq, Repr

def Utf8Error.toString (error : Utf8Error) : String :=
  let index := error.validUpTo
  match error.errorLen with
  | some length => s!"invalid utf-8 sequence of {length} bytes from index {index}"
  | none => s!"incomplete utf-8 byte sequence from index {index}"

/-- The first fault in the bytes, of which `valid` were read; no byte is read twice. -/
def utf8Fault : Nat → Nat → List UInt8 → Option Utf8Error
  | 0, _, _ | _ + 1, _, [] => none
  | fuel + 1, valid, first :: rest =>
    match utf8Start first rest with
    | .char width => utf8Fault fuel (valid + width) ((first :: rest).drop width)
    | .incomplete => some ⟨valid, none⟩
    | .invalid length => some ⟨valid, some length⟩

/-- `str::from_utf8`. -/
def fromUtf8 (bytes : List UInt8) : Except Utf8Error String :=
  match decode bytes with
  | some text => .ok text
  | none => .error ((utf8Fault bytes.length 0 bytes).getD ⟨0, none⟩)

theorem fromUtf8_ok {bytes : List UInt8} {text : String} (valid : fromUtf8 bytes = .ok text) :
    encode text = bytes := by
  rw [fromUtf8] at valid
  split at valid
  next text' decoded =>
    cases valid
    exact encode_of_decode decoded
  next => cases valid

@[simp] theorem fromUtf8_encode (text : String) : fromUtf8 (encode text) = .ok text := by
  rw [fromUtf8, decode_encode]

/-! ## How far the bytes are valid -/

section Valid

variable {first : UInt8} {rest bytes : List UInt8} {error : Utf8Error}

theorem utf8Trailing_char {missing count width : Nat}
    (complete : utf8Trailing missing count rest = .char width) :
    width = count + missing ∧ missing ≤ rest.length := by
  induction missing generalizing count rest with
  | zero =>
    cases complete
    exact ⟨rfl, Nat.zero_le _⟩
  | succ missing ih =>
    cases rest with
    | nil => cases complete
    | cons byte rest =>
      rw [utf8Trailing] at complete
      split at complete
      next =>
        obtain ⟨same, enough⟩ := ih complete
        rw [List.length_cons]
        omega
      next => cases complete

/-- A character is part of the bytes. -/
theorem utf8Start_width {width : Nat} (complete : utf8Start first rest = .char width) :
    0 < width ∧ width ≤ rest.length + 1 := by
  rw [utf8Start] at complete
  split at complete
  next => cases complete
  next =>
    cases complete
    omega
  next missing =>
    cases rest with
    | nil => cases complete
    | cons second rest =>
      dsimp only at complete
      split at complete
      next =>
        obtain ⟨same, enough⟩ := utf8Trailing_char complete
        rw [List.length_cons]
        omega
      next => cases complete

theorem utf8Fault_le {fuel valid : Nat} (fault : utf8Fault fuel valid bytes = some error) :
    error.validUpTo ≤ valid + bytes.length := by
  induction fuel generalizing valid bytes with
  | zero => cases fault
  | succ fuel ih =>
    cases bytes with
    | nil => cases fault
    | cons first rest =>
      rw [utf8Fault] at fault
      cases start : utf8Start first rest with
      | char width =>
        rw [start] at fault
        have later := ih fault
        have inside := (utf8Start_width start).2
        rw [List.length_drop, List.length_cons] at later
        rw [List.length_cons]
        omega
      | incomplete =>
        rw [start] at fault
        cases fault
        exact Nat.le_add_right _ _
      | invalid length =>
        rw [start] at fault
        cases fault
        exact Nat.le_add_right _ _

theorem fromUtf8_error (invalid : fromUtf8 bytes = .error error) :
    error.validUpTo ≤ bytes.length := by
  rw [fromUtf8] at invalid
  split at invalid
  next => cases invalid
  next =>
    cases invalid
    cases fault : utf8Fault bytes.length 0 bytes with
    | none => exact Nat.zero_le _
    | some error =>
      have far := utf8Fault_le fault
      rwa [Nat.zero_add] at far

end Valid

/-! ## Characters -/

section Characters

variable {first : UInt8} {rest bytes : List UInt8}

/-- The value of a character lies outside the surrogates. -/
theorem char_range (char : Char) : char.val.toNat < 0xD800 ∨
    0xDFFF < char.val.toNat ∧ char.val.toNat < 0x110000 := char.valid

theorem ofNat_toNat {value : Nat} (small : value < 256) : (UInt8.ofNat value).toNat = value := by
  rw [UInt8.toNat_ofNat']
  omega

theorem isContinuation_ofNat (value : Nat) :
    isContinuation (UInt8.ofNat (value % 0x40 + 0x80)) = true := by
  rw [isContinuation, ofNat_toNat (by omega)]
  exact decide_eq_true (by omega)

/-- The bytes of a character: its width is that of the first, the second can follow it, and the
others continue it. -/
theorem utf8EncodeChar_bytes (char : Char) : ∃ first more,
    String.utf8EncodeChar char = first :: more ∧ utf8Width first = more.length + 1 ∧
      ∀ second tail, more = second :: tail → utf8Follows first second = true ∧
        ∀ byte ∈ tail, isContinuation byte = true := by
  have range := char_range char
  simp only [String.utf8EncodeChar]
  by_cases one : char.val.toNat ≤ 0x7f
  · rw [if_pos one]
    refine ⟨_, _, rfl, ?_, ?_⟩
    · rw [utf8Width, ofNat_toNat (by omega), if_pos (by omega)]
      rfl
    · intro second tail none
      cases none
  · rw [if_neg one]
    by_cases two : char.val.toNat ≤ 0x7ff
    · rw [if_pos two]
      have lead : (UInt8.ofNat (char.val.toNat / 64 % 0x20 + 0xc0)).toNat =
          char.val.toNat / 64 + 0xc0 := by
        rw [ofNat_toNat (by omega)]
        omega
      refine ⟨_, _, rfl, ?_, ?_⟩
      · rw [utf8Width, lead, if_neg (by omega), if_pos (by omega)]
        rfl
      · intro second tail same
        cases same
        rw [utf8Follows, lead, ofNat_toNat (by omega), if_neg (by omega), if_neg (by omega),
          if_neg (by omega), if_neg (by omega)]
        exact ⟨decide_eq_true (by omega), by simp⟩
    · rw [if_neg two]
      by_cases three : char.val.toNat ≤ 0xffff
      · rw [if_pos three]
        have lead : (UInt8.ofNat (char.val.toNat / 4096 % 0x10 + 0xe0)).toNat =
            char.val.toNat / 4096 + 0xe0 := by
          rw [ofNat_toNat (by omega)]
          omega
        refine ⟨_, _, rfl, ?_, ?_⟩
        · rw [utf8Width, lead, if_neg (by omega), if_neg (by omega), if_pos (by omega)]
          rfl
        · intro second tail same
          cases same
          constructor
          · rw [utf8Follows, lead, ofNat_toNat (by omega)]
            apply decide_eq_true
            repeat' split
            all_goals omega
          · intro byte member
            rw [List.mem_singleton.mp member]
            exact isContinuation_ofNat _
      · rw [if_neg three]
        have lead : (UInt8.ofNat (char.val.toNat / 262144 % 0x08 + 0xf0)).toNat =
            char.val.toNat / 262144 + 0xf0 := by
          rw [ofNat_toNat (by omega)]
          omega
        refine ⟨_, _, rfl, ?_, ?_⟩
        · rw [utf8Width, lead, if_neg (by omega), if_neg (by omega), if_neg (by omega),
            if_pos (by omega)]
          rfl
        · intro second tail same
          cases same
          constructor
          · rw [utf8Follows, lead, ofNat_toNat (by omega)]
            apply decide_eq_true
            repeat' split
            all_goals omega
          · intro byte member
            simp only [List.mem_cons, List.not_mem_nil, or_false] at member
            obtain rfl | rfl := member
            · exact isContinuation_ofNat _
            · exact isContinuation_ofNat _

theorem utf8Trailing_whole {tail : List UInt8} (count : Nat)
    (continues : ∀ byte ∈ tail, isContinuation byte = true) :
    utf8Trailing tail.length count (tail ++ rest) = .char (count + tail.length) := by
  induction tail generalizing count with
  | nil => rfl
  | cons byte tail ih =>
    rw [List.length_cons, List.cons_append, utf8Trailing,
      if_pos (continues byte List.mem_cons_self),
      ih (count + 1) fun byte member => continues byte (List.mem_cons_of_mem _ member)]
    congr 1
    omega

theorem utf8Trailing_cut {tail : List UInt8} {missing : Nat} (count : Nat)
    (short : tail.length < missing) (continues : ∀ byte ∈ tail, isContinuation byte = true) :
    utf8Trailing missing count tail = .incomplete := by
  induction tail generalizing count missing with
  | nil =>
    cases missing with
    | zero => cases short
    | succ missing => rfl
  | cons byte tail ih =>
    cases missing with
    | zero => cases short
    | succ missing =>
      rw [utf8Trailing, if_pos (continues byte List.mem_cons_self)]
      apply ih (count + 1) (Nat.lt_of_succ_lt_succ short)
      intro byte member
      exact continues byte (List.mem_cons_of_mem _ member)

/-- A character is read as a whole. -/
theorem utf8Start_char (char : Char) (rest : List UInt8) : ∃ first more,
    String.utf8EncodeChar char = first :: more ∧
      utf8Start first (more ++ rest) = .char (more.length + 1) := by
  obtain ⟨first, more, bytes, width, follows⟩ := utf8EncodeChar_bytes char
  refine ⟨first, more, bytes, ?_⟩
  rw [utf8Start, width]
  cases more with
  | nil => rfl
  | cons second tail =>
    obtain ⟨second_follows, continues⟩ := follows second tail rfl
    simp only [List.length_cons, List.cons_append, second_follows, ↓reduceIte]
    rw [utf8Trailing_whole 2 continues]
    congr 1
    omega

/-- The first bytes of a character are not a character. -/
theorem utf8Start_cut {char : Char} {first : UInt8} {cut missing : List UInt8}
    (split : String.utf8EncodeChar char = first :: (cut ++ missing)) (some_missing : missing ≠ []) :
    utf8Start first cut = .incomplete := by
  obtain ⟨first', more, bytes, width, follows⟩ := utf8EncodeChar_bytes char
  rw [bytes] at split
  obtain ⟨rfl, rfl⟩ := List.cons.inj split
  rw [utf8Start, width]
  have short : 0 < missing.length := List.length_pos_of_ne_nil some_missing
  cases cut with
  | nil =>
    cases missing with
    | nil => exact absurd rfl some_missing
    | cons second tail => rfl
  | cons second cut =>
    obtain ⟨second_follows, continues⟩ := follows second (cut ++ missing) rfl
    simp only [List.cons_append, second_follows, ↓reduceIte]
    apply utf8Trailing_cut
    · rw [List.length_append]
      omega
    · intro byte member
      exact continues byte (List.mem_append_left _ member)

end Characters

/-! ## The first bytes of a text -/

section Cut

/-- The first bytes of characters are whole characters and a part of the next one. -/
theorem take_flatMap (chars : List Char) (limit : Nat) : ∃ whole rest cut,
    chars = whole ++ rest ∧ (chars.flatMap String.utf8EncodeChar).take limit =
      whole.flatMap String.utf8EncodeChar ++ cut ∧
    (rest = [] ∧ cut = [] ∨ ∃ char rest' missing, rest = char :: rest' ∧
      String.utf8EncodeChar char = cut ++ missing ∧ missing ≠ []) := by
  induction chars generalizing limit with
  | nil => exact ⟨[], [], [], rfl, by simp, .inl ⟨rfl, rfl⟩⟩
  | cons char chars ih =>
    rw [List.flatMap_cons, List.take_append]
    by_cases fits : (String.utf8EncodeChar char).length ≤ limit
    · obtain ⟨whole, rest, cut, split, taken, ends⟩ :=
        ih (limit - (String.utf8EncodeChar char).length)
      refine ⟨char :: whole, rest, cut, by rw [split, List.cons_append], ?_, ends⟩
      rw [List.take_of_length_le fits, taken, List.flatMap_cons, List.append_assoc]
    · refine ⟨[], char :: chars, (String.utf8EncodeChar char).take limit, rfl, ?_, .inr ?_⟩
      · rw [show limit - (String.utf8EncodeChar char).length = 0 by omega, List.take_zero,
          List.append_nil]
        rfl
      · refine ⟨char, chars, (String.utf8EncodeChar char).drop limit, rfl, ?_, ?_⟩
        · exact (List.take_append_drop _ _).symm
        · intro none
          exact fits (List.drop_eq_nil_iff.mp none)

/-- A cut character is found behind the characters before it. -/
theorem utf8Fault_cut {chars : List Char} {char : Char} {cut missing : List UInt8}
    (split : String.utf8EncodeChar char = cut ++ missing) (begun : cut ≠ [])
    (unfinished : missing ≠ []) {fuel : Nat} (enough : chars.length < fuel) (valid : Nat) :
    utf8Fault fuel valid (chars.flatMap String.utf8EncodeChar ++ cut) =
      some ⟨valid + (chars.flatMap String.utf8EncodeChar).length, none⟩ := by
  induction chars generalizing fuel valid with
  | nil =>
    cases fuel with
    | zero => cases enough
    | succ fuel =>
      cases cut with
      | nil => exact absurd rfl begun
      | cons first cut =>
        rw [List.flatMap_nil, List.nil_append, utf8Fault, utf8Start_cut split unfinished]
        rfl
  | cons char' chars ih =>
    cases fuel with
    | zero => cases enough
    | succ fuel =>
      obtain ⟨first, more, bytes, start⟩ :=
        utf8Start_char char' (chars.flatMap String.utf8EncodeChar ++ cut)
      rw [List.flatMap_cons, bytes, List.cons_append, List.cons_append, List.append_assoc,
        utf8Fault, start]
      dsimp only
      rw [List.drop_succ_cons, List.drop_left, ih (Nat.lt_of_succ_lt_succ enough)]
      simp only [List.length_cons, List.length_append]
      congr 2
      omega

theorem encode_ofList (chars : List Char) :
    encode (String.ofList chars) = chars.flatMap String.utf8EncodeChar := by
  rw [encode_eq_flatMap, String.toList_ofList]

theorem length_chars_le (chars : List Char) :
    chars.length ≤ (chars.flatMap String.utf8EncodeChar).length := by
  induction chars with
  | nil => exact Nat.le_refl 0
  | cons char chars ih =>
    have filled : 0 < (String.utf8EncodeChar char).length :=
      List.length_pos_of_ne_nil String.utf8EncodeChar_ne_nil
    rw [List.flatMap_cons, List.length_append, List.length_cons]
    omega

/-- Of two cuts one is not behind the other, or behind its next character. -/
theorem cut_le_or {whole rest before after : List Char} {char : Char}
    (same : before ++ after = whole ++ char :: rest) :
    (before.flatMap String.utf8EncodeChar).length ≤ (whole.flatMap String.utf8EncodeChar).length ∨
      (whole.flatMap String.utf8EncodeChar).length + (String.utf8EncodeChar char).length ≤
        (before.flatMap String.utf8EncodeChar).length := by
  obtain ⟨more, rfl, _⟩ | ⟨more, rfl, tail⟩ := List.append_eq_append_iff.mp same
  · left
    rw [List.flatMap_append, List.length_append]
    exact Nat.le_add_right _ _
  · cases more with
    | nil =>
      left
      exact Nat.le_of_eq (by rw [List.append_nil])
    | cons char' more =>
      obtain ⟨rfl, _⟩ := List.cons.inj tail
      right
      rw [List.flatMap_append, List.flatMap_cons, List.length_append, List.length_append]
      omega

/-- The first bytes of a text tell how far its characters are whole: four bytes hold one. -/
theorem fromUtf8_take (text : String) (limit : Nat) : ∃ before after : String,
    text = before ++ after ∧ (4 ≤ limit → text ≠ "" → before ≠ "") ∧
    encode before <+: (encode text).take limit ∧
    (∀ before' after', text = before' ++ after' → (encode before').length ≤ limit →
      (encode before').length ≤ (encode before).length) ∧
    (fromUtf8 ((encode text).take limit) = .ok before ∨
      fromUtf8 ((encode text).take limit) = .error ⟨(encode before).length, none⟩ ∧
        limit < (encode text).length) := by
  cases decoded : decode ((encode text).take limit) with
  | some before =>
    have shown := encode_of_decode decoded
    have whole : decode ((encode text).take limit ++ (encode text).drop limit) = some text := by
      rw [List.take_append_drop, decode_encode]
    obtain ⟨after, split⟩ := prefix_of_decode decoded whole
    refine ⟨before, String.ofList after, ?_, ?_, ?_, ?_, .inl ?_⟩
    · rw [← String.toList_inj, ← split]
      simp
    · intro room filled empty
      rw [empty, encode_empty] at shown
      obtain none | none := List.take_eq_nil_iff.mp shown.symm
      · omega
      · exact filled (encode_inj (none.trans encode_empty.symm))
    · exact ⟨[], by rw [shown, List.append_nil]⟩
    · rintro before' after' rfl room
      rw [shown, List.length_take, encode_append, List.length_append]
      omega
    · rw [fromUtf8, decoded]
  | none =>
    obtain ⟨whole, rest, cut, split, taken, ends⟩ := take_flatMap text.toList limit
    rw [← encode_eq_flatMap, ← encode_ofList] at taken
    have begun : cut ≠ [] := by
      intro none
      rw [none, List.append_nil] at taken
      rw [taken, decode_encode] at decoded
      cases decoded
    obtain ⟨_, none⟩ | ⟨char, rest', missing, rfl, bytes, unfinished⟩ := ends
    · exact absurd none begun
    · have short : limit < (encode text).length := by
        by_contra long
        rw [List.take_of_length_le (Nat.le_of_not_lt long), decode_encode] at decoded
        cases decoded
      refine ⟨String.ofList whole, String.ofList (char :: rest'), ?_, ?_, ?_, ?_, .inr ⟨?_, short⟩⟩
      · rw [← String.toList_inj, split]
        simp
      · intro room filled empty
        have none : whole = [] := by simpa using congrArg String.toList empty
        subst none
        -- Nothing is whole, so the first character is cut, but it has at most four bytes.
        have length := congrArg List.length taken
        have size := congrArg List.length bytes
        have most := Char.utf8Size_le_four char
        rw [String.length_utf8EncodeChar, List.length_append] at size
        rw [List.length_take] at length
        have missed : 0 < missing.length := List.length_pos_of_ne_nil unfinished
        simp only [String.ofList_nil, encode_empty, List.nil_append] at length
        omega
      · rw [taken]
        exact List.prefix_append _ _
      · rintro before' after' rfl room
        rw [String.toList_append] at split
        have length := congrArg List.length taken
        rw [List.length_take, List.length_append, encode_ofList] at length
        have size := congrArg List.length bytes
        have missed : 0 < missing.length := List.length_pos_of_ne_nil unfinished
        rw [List.length_append] at size
        rw [encode_eq_flatMap] at room
        rw [encode_eq_flatMap, encode_ofList]
        obtain within | behind := cut_le_or split
        · exact within
        · omega
      · rw [fromUtf8, decoded]
        dsimp only
        have enough : whole.length < ((encode text).take limit).length := by
          rw [taken, encode_ofList, List.length_append]
          have filled : 0 < cut.length := List.length_pos_of_ne_nil begun
          have few := length_chars_le whole
          omega
        rw [taken] at enough ⊢
        rw [encode_ofList, utf8Fault_cut bytes begun unfinished (by rwa [encode_ofList] at enough)]
        simp

end Cut

end Nausicaa.Text
