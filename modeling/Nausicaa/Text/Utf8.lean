import Mathlib.Data.List.Basic

/-! # UTF-8

Text as bytes and back, as `str::as_bytes` and `str::from_utf8` do.  Encoding is a homomorphism (`encode_append`), decoding is its inverse
(`decode_encode`), and an ASCII byte of an encoding is that character (`mem_encode`). -/

namespace Nausicaa.Text

def encode (text : String) : List UInt8 := text.toUTF8.data.toList

/-- `none` where the bytes are not UTF-8. -/
def decode (bytes : List UInt8) : Option String := String.fromUTF8? ⟨bytes.toArray⟩

@[simp] theorem encode_empty : encode "" = [] := rfl

theorem encode_append (left right : String) :
    encode (left ++ right) = encode left ++ encode right := by
  simp [encode]

@[simp] theorem decode_encode (text : String) : decode (encode text) = some text := by
  have valid : (ByteArray.mk (encode text).toArray).IsValidUTF8 := by
    simpa [encode] using text.isValidUTF8
  rw [decode, String.fromUTF8?, dif_pos valid]
  apply congrArg some
  rw [← String.toByteArray_inj]
  simp [encode, String.fromUTF8]

/-- Bytes that decode are the encoding of what they decode to. -/
theorem encode_of_decode {bytes : List UInt8} {text : String} (decoded : decode bytes = some text) :
    encode text = bytes := by
  rw [decode, String.fromUTF8?] at decoded
  split at decoded
  next valid =>
    cases decoded
    simp [encode, String.fromUTF8]
  next => cases decoded

theorem encode_inj {left right : String} (same : encode left = encode right) : left = right := by
  have decoded := decode_encode left
  rw [same, decode_encode] at decoded
  exact (Option.some.inj decoded).symm

theorem encode_eq_flatMap (text : String) :
    encode text = text.toList.flatMap String.utf8EncodeChar := by
  rw [encode, String.toUTF8_eq_toByteArray, ← String.utf8Encode_toList, List.utf8Encode]
  simp

theorem length_encode (text : String) : (encode text).length = text.utf8ByteSize := by
  rw [encode, Array.length_toList]
  rfl

theorem utf8ByteSize_le {left right : String} (begins : left.toList <+: right.toList) :
    left.utf8ByteSize ≤ right.utf8ByteSize := by
  obtain ⟨tail, split⟩ := begins
  have whole : right = left ++ String.ofList tail := by
    rw [← String.toList_inj, ← split]
    simp
  rw [whole, String.utf8ByteSize_append]
  exact Nat.le_add_right _ _

/-- The bytes behind a text are the text behind it. -/
theorem prefix_of_decode {left right : String} {bytes more : List UInt8}
    (first : decode bytes = some left) (whole : decode (bytes ++ more) = some right) :
    left.toList <+: right.toList := by
  apply List.isPrefix_of_utf8Encode_append_eq_utf8Encode ⟨more.toArray⟩
  have first := encode_of_decode first
  have whole := encode_of_decode whole
  rw [← first] at whole
  rw [String.utf8Encode_toList, String.utf8Encode_toList, ByteArray.ext_iff]
  apply Array.toList_inj.mp
  simpa [encode] using whole.symm

theorem high_byte {value : Nat} (atLeast : 0x80 ≤ value) (atMost : value < 0x100) :
    ¬ (UInt8.ofNat value).toNat < 0x80 := by
  rw [UInt8.toNat_ofNat']
  omega

/-- A byte below 0x80 encodes nothing but the character of its value. -/
theorem mem_utf8EncodeChar {byte : UInt8} {char : Char} (ascii : byte.toNat < 0x80)
    (member : byte ∈ String.utf8EncodeChar char) : char.toNat = byte.toNat := by
  simp only [String.utf8EncodeChar] at member
  split at member
  next small =>
    rw [List.mem_singleton.mp member, UInt8.toNat_ofNat']
    show char.val.toNat = char.val.toNat % 2 ^ 8
    omega
  -- In a longer encoding the first byte is at least 0xC0 and every other one at least 0x80.
  next =>
    split at member
    next =>
      simp only [List.mem_cons, List.not_mem_nil, or_false] at member
      obtain rfl | rfl := member
      · exact absurd ascii (high_byte (by omega) (by omega))
      · exact absurd ascii (high_byte (by omega) (by omega))
    next =>
      split at member
      next =>
        simp only [List.mem_cons, List.not_mem_nil, or_false] at member
        obtain rfl | rfl | rfl := member
        · exact absurd ascii (high_byte (by omega) (by omega))
        · exact absurd ascii (high_byte (by omega) (by omega))
        · exact absurd ascii (high_byte (by omega) (by omega))
      next =>
        simp only [List.mem_cons, List.not_mem_nil, or_false] at member
        obtain rfl | rfl | rfl | rfl := member
        · exact absurd ascii (high_byte (by omega) (by omega))
        · exact absurd ascii (high_byte (by omega) (by omega))
        · exact absurd ascii (high_byte (by omega) (by omega))
        · exact absurd ascii (high_byte (by omega) (by omega))

/-- An ASCII byte of an encoding is a character of the text. -/
theorem mem_encode {char : Char} {text : String} (ascii : char.toNat < 0x80)
    (member : UInt8.ofNat char.toNat ∈ encode text) : char ∈ text.toList := by
  rw [encode_eq_flatMap, List.mem_flatMap] at member
  obtain ⟨char', present, byte⟩ := member
  have value : (UInt8.ofNat char.toNat).toNat = char.toNat := by
    rw [UInt8.toNat_ofNat']
    omega
  have same := mem_utf8EncodeChar (by omega) byte
  rw [value] at same
  rwa [← Char.toNat_inj.mp same]

/-- An ASCII byte at the start of an encoding is the first character. -/
theorem head?_encode {char : Char} {text : String} {rest : List UInt8} (ascii : char.toNat < 0x80)
    (shown : encode text = UInt8.ofNat char.toNat :: rest) : text.toList.head? = some char := by
  have value : (UInt8.ofNat char.toNat).toNat = char.toNat := by
    rw [UInt8.toNat_ofNat']
    omega
  rw [encode_eq_flatMap] at shown
  cases chars : text.toList with
  | nil =>
    rw [chars] at shown
    cases shown
  | cons first chars' =>
    rw [chars, List.flatMap_cons] at shown
    have member : UInt8.ofNat char.toNat ∈ String.utf8EncodeChar first := by
      cases bytes : String.utf8EncodeChar first with
      | nil => exact absurd bytes String.utf8EncodeChar_ne_nil
      | cons byte bytes' =>
        rw [bytes, List.cons_append] at shown
        rw [(List.cons.inj shown).1]
        exact List.mem_cons_self
    have same := mem_utf8EncodeChar (by omega) member
    rw [value] at same
    rw [List.head?_cons, Char.toNat_inj.mp same]

theorem utf8EncodeChar_ascii {char : Char} (ascii : char.toNat < 0x80) :
    String.utf8EncodeChar char = [UInt8.ofNat char.toNat] := by
  have small : char.val.toNat ≤ 0x7F := Nat.le_of_lt_succ ascii
  simp only [String.utf8EncodeChar, small, ↓reduceIte]
  rfl

/-- An ASCII byte at the end of an encoding is the last character. -/
theorem encode_concat (char : Char) {text : String} {bytes : List UInt8}
    (ascii : char.toNat < 0x80) (shown : encode text = bytes ++ [UInt8.ofNat char.toNat]) :
    ∃ before, text = before ++ String.singleton char ∧ encode before = bytes := by
  have value : (UInt8.ofNat char.toNat).toNat = char.toNat := by
    rw [UInt8.toNat_ofNat']
    omega
  obtain empty | ⟨chars, last, split⟩ := List.eq_nil_or_concat text.toList
  · rw [encode_eq_flatMap, empty] at shown
    simp at shown
  · rw [List.concat_eq_append] at split
    have whole : text = String.ofList chars ++ String.singleton last := by
      rw [← String.toList_inj, split]
      simp
    have shown' : encode (String.ofList chars) ++ String.utf8EncodeChar last =
        bytes ++ [UInt8.ofNat char.toNat] := by
      rw [← shown, encode_eq_flatMap text, split, encode_eq_flatMap, String.toList_ofList]
      simp
    have member : UInt8.ofNat char.toNat ∈ String.utf8EncodeChar last := by
      have ends := congrArg List.getLast? shown'
      rw [List.getLast?_append_of_ne_nil _ String.utf8EncodeChar_ne_nil,
        List.getLast?_concat] at ends
      exact List.mem_of_getLast? ends
    have same := mem_utf8EncodeChar (by omega) member
    rw [value] at same
    rw [Char.toNat_inj.mp same] at whole shown'
    rw [utf8EncodeChar_ascii ascii] at shown'
    exact ⟨String.ofList chars, whole, (List.append_inj' shown' rfl).1⟩

end Nausicaa.Text
