import ManagedHeap.Proofs.Identity.Codec
import ManagedHeap.Proofs.Text.Ascii

/-!
# Hexadecimal text

Text of hexadecimal digits in either case and in pairs (`IsHexText`) spells
bytes, whose lower-case digits are the text in lower case; no other text spells
bytes (`isHexText_iff`).
-/

namespace ManagedHeap

/-- A hexadecimal digit of either case. -/
def IsHexDigit (character : Char) : Prop :=
  '0' ≤ character ∧ character ≤ '9' ∨ 'a' ≤ character ∧ character ≤ 'f' ∨
    'A' ≤ character ∧ character ≤ 'F'

instance (character : Char) : Decidable (IsHexDigit character) :=
  inferInstanceAs (Decidable (_ ∨ _))

/-- Hexadecimal digits in pairs. -/
def IsHexText (text : String) : Prop :=
  text.length % 2 = 0 ∧ ∀ character ∈ text.toList, IsHexDigit character

namespace Hex

open Identity (lowercase)
open Utf8 (IsAscii characterOf)

variable {digits bytes : List UInt8} {byte : UInt8} {text : String}

/-! ## Digits of either case -/

private theorem value?_lowercase (byte : UInt8) :
    value? (lowercase byte) = value? byte := by
  refine byte_below byte byte.toNat_lt ?_
  decide +kernel

private theorem digit_of_value? : (value? byte).isSome = true →
    ∃ value < 16, digit .lower value = lowercase byte := by
  have spelled : (value? byte).isSome = true →
      ∃ value : Fin 16, digit .lower (UInt8.ofNat value) = lowercase byte := by
    refine byte_below byte byte.toNat_lt ?_
    decide +kernel
  intro valid
  obtain ⟨value, isDigit⟩ := spelled valid
  refine ⟨UInt8.ofNat value, ?_, isDigit⟩
  have small := value.isLt
  simp only [UInt8.lt_iff_toNat_lt, UInt8.toNat_ofNat', UInt8.reduceToNat]
  omega

private theorem expand_map_lowercase (pending : Option UInt8)
    (digits : List UInt8) :
    Bytes.expand decodeStep pending (digits.map lowercase) =
      Bytes.expand decodeStep pending digits := by
  induction digits generalizing pending with
  | nil => rfl
  | cons head tail inductionHypothesis =>
    simp only [List.map_cons, Bytes.expand, decodeStep, value?_lowercase,
      inductionHypothesis]

/-- Digits in pairs spell the bytes whose lower-case digits they are, but for
their case. -/
theorem exists_decode_eq (valid : ∀ digit ∈ digits, (value? digit).isSome)
    (even : digits.length % 2 = 0) :
    ∃ bytes, decode digits = .ok bytes ∧
      encode .lower bytes = digits.map lowercase := by
  have lowered : ∀ written ∈ digits.map lowercase,
      ∃ value < 16, digit .lower value = written := by
    intro written member
    obtain ⟨original, inDigits, isWritten⟩ := List.mem_map.mp member
    rw [← isWritten]
    exact digit_of_value? (valid original inDigits)
  have loweredValid :
      ∀ digit ∈ digits.map lowercase, (value? digit).isSome := by
    intro written member
    obtain ⟨original, inDigits, isWritten⟩ := List.mem_map.mp member
    rw [← isWritten, value?_lowercase]
    exact valid original inDigits
  have loweredEven : (digits.map lowercase).length % 2 = 0 := by
    rwa [List.length_map]
  obtain ⟨bytes, spelled⟩ := exists_encode_eq _ lowered loweredEven
  have read : decode (encode .lower bytes) = .ok bytes := decode_encode bytes
  rw [spelled, decode, if_pos loweredEven,
    decodePairs_eq 0 loweredValid loweredEven, expand_map_lowercase,
    ← decodePairs_eq 0 valid even] at read
  refine ⟨bytes, ?_, spelled⟩
  rw [decode, if_pos even, read]

private theorem isSome_of_valueAt {position : Nat} {value : UInt8}
    (read : valueAt byte position = .ok value) : (value? byte).isSome := by
  rw [valueAt] at read
  cases known : value? byte with
  | none =>
    rw [known] at read
    cases read
  | some value => rfl

private theorem valid_of_decodePairs
    {position : Nat} (even : digits.length % 2 = 0)
    (read : decodePairs position digits = .ok bytes) :
    ∀ digit ∈ digits, (value? digit).isSome := by
  fun_induction decodePairs position digits generalizing bytes with
  | case1 position high low rest inductionHypothesis =>
    obtain ⟨highValue, readHigh, read⟩ := Except.bind_eq_ok_iff.mp read
    obtain ⟨lowValue, readLow, read⟩ := Except.bind_eq_ok_iff.mp read
    obtain ⟨tail, readRest, _⟩ := Except.bind_eq_ok_iff.mp read
    have restEven : rest.length % 2 = 0 := by
      simp only [List.length_cons] at even
      omega
    intro digit member
    rcases List.mem_cons.mp member with isHigh | member
    · exact isHigh ▸ isSome_of_valueAt readHigh
    · rcases List.mem_cons.mp member with isLow | inRest
      · exact isLow ▸ isSome_of_valueAt readLow
      · exact inductionHypothesis restEven readRest digit inRest
  | case2 digits position noPair =>
    intro digit member
    rcases digits with _ | ⟨high, _ | ⟨low, rest⟩⟩
    · cases member
    · cases even
    · exact absurd rfl (noPair high low rest)

private theorem valid_of_decode (read : decode digits = .ok bytes) :
    digits.length % 2 = 0 ∧ ∀ digit ∈ digits, (value? digit).isSome := by
  rw [decode] at read
  by_cases even : digits.length % 2 = 0
  · rw [if_pos even] at read
    exact ⟨even, valid_of_decodePairs even read⟩
  · rw [if_neg even] at read
    cases read

/-! ## Text -/

private theorem isAscii_of_valid
    (valid : ∀ digit ∈ digits, (value? digit).isSome) :
    IsAscii digits := by
  intro digit member
  have small : (value? digit).isSome = true → digit < 0x80 := by
    refine byte_below digit digit.toNat_lt ?_
    decide +kernel
  exact small (valid digit member)

theorem valid_encode (letters : LetterCase) (bytes : List UInt8) :
    ∀ digit ∈ encode letters bytes, (value? digit).isSome := by
  intro digit member
  obtain ⟨value, small, isDigit⟩ := exists_of_mem_encode member
  rw [← isDigit, value?_digit small]
  rfl

theorem isAscii_encode (letters : LetterCase) (bytes : List UInt8) :
    IsAscii (encode letters bytes) :=
  isAscii_of_valid (valid_encode letters bytes)

theorem isHexDigit_characterOf_iff :
    IsHexDigit (characterOf byte) ↔ (value? byte).isSome = true := by
  refine byte_below byte byte.toNat_lt ?_
  decide +kernel

theorem toLower_characterOf (ascii : byte < 0x80) :
    (characterOf byte).toLower = characterOf (lowercase byte) := by
  have below : byte.toNat < 128 := UInt8.lt_iff_toNat_lt.mp ascii
  refine byte_below byte below ?_
  decide +kernel

/-- A text of hexadecimal digits has one byte for each. -/
theorem encode_of_isHexText (hex : IsHexText text) :
    (Utf8.encode text).length = text.length ∧
      ∀ digit ∈ Utf8.encode text, (value? digit).isSome := by
  have isByte : ∀ character ∈ text.toList,
      characterOf (UInt8.ofNat character.toNat) = character := by
    intro character member
    have small : character.toNat < 256 := by
      rcases hex.2 character member with decimal | lower | upper
      · have bound : character.toNat ≤ 57 := decimal.2
        omega
      · have bound : character.toNat ≤ 102 := lower.2
        omega
      · have bound : character.toNat ≤ 70 := upper.2
        omega
    rw [characterOf, UInt8.toNat_ofNat', Nat.mod_eq_of_lt small,
      Char.ofNat_toNat]
  have valid : ∀ digit ∈ text.toList.map (fun character =>
      UInt8.ofNat character.toNat), (value? digit).isSome := by
    intro digit member
    obtain ⟨character, inText, isDigit⟩ := List.mem_map.mp member
    rw [← isDigit, ← isHexDigit_characterOf_iff, isByte character inText]
    exact hex.2 character inText
  have isText : Utf8.decode (text.toList.map fun character =>
      UInt8.ofNat character.toNat) = text := by
    apply String.toList_injective
    rw [Utf8.toList_decode (isAscii_of_valid valid), List.map_map]
    have restored := List.map_congr_left isByte
    rw [List.map_id'] at restored
    exact restored
  have encoded := Utf8.encode_decode (isAscii_of_valid valid)
  rw [isText] at encoded
  rw [encoded]
  exact ⟨by rw [List.length_map, String.length_toList], valid⟩

/-- The digits of a text spell bytes, whose lower-case digits are the text in
lower case. -/
theorem exists_bytes_of_isHexText (hex : IsHexText text) :
    ∃ bytes, decode (Utf8.encode text) = .ok bytes ∧
      Utf8.decode (encode .lower bytes) = text.toLower ∧
      2 * bytes.length = text.length := by
  obtain ⟨length, valid⟩ := encode_of_isHexText hex
  have even : (Utf8.encode text).length % 2 = 0 := by
    rw [length]
    exact hex.1
  obtain ⟨bytes, read, lowered⟩ := exists_decode_eq valid even
  have ascii := isAscii_of_valid valid
  refine ⟨bytes, read, ?_, ?_⟩
  · apply String.toList_injective
    have inLowerCase : text.toLower.toList = text.toList.map Char.toLower :=
      String.toList_map
    rw [Utf8.toList_decode (isAscii_encode .lower bytes), lowered, inLowerCase,
      Utf8.toList_eq_map_encode ascii, List.map_map, List.map_map]
    apply List.map_congr_left
    intro digit member
    exact (toLower_characterOf (ascii digit member)).symm
  · have pairs : (encode .lower bytes).length = 2 * bytes.length :=
      length_encode bytes
    rw [← pairs, lowered, List.length_map, length]

theorem isHexText_of_decode (read : decode (Utf8.encode text) = .ok bytes) :
    IsHexText text := by
  obtain ⟨even, valid⟩ := valid_of_decode read
  have ascii := isAscii_of_valid valid
  have isText := Utf8.toList_eq_map_encode ascii
  constructor
  · rw [← String.length_toList, isText, List.length_map]
    exact even
  · intro character member
    rw [isText] at member
    obtain ⟨digit, inDigits, isCharacter⟩ := List.mem_map.mp member
    rw [← isCharacter, isHexDigit_characterOf_iff]
    exact valid digit inDigits

theorem isHexText_decode_encode (letters : LetterCase) (bytes : List UInt8) :
    IsHexText (Utf8.decode (encode letters bytes)) := by
  apply isHexText_of_decode
  rw [Utf8.encode_decode (isAscii_encode letters bytes)]
  exact decode_encode bytes

end Hex

end ManagedHeap
