import Mathlib.Data.List.Basic
import ManagedHeap.Proofs.Hex
import ManagedHeap.Text.Utf8

/-!
# ASCII text

Text whose bytes are all below 128 has one byte for each character, so bytes
and text determine each other (`encode_decode`, `toList_eq_map_encode`).
-/

namespace ManagedHeap.Utf8

variable {bytes : List UInt8} {byte : UInt8} {character : Char} {text : String}

/-- All bytes are those of ASCII characters. -/
def IsAscii (bytes : List UInt8) : Prop :=
  ∀ byte ∈ bytes, byte < 0x80

/-- The character whose number is a byte. -/
def characterOf (byte : UInt8) : Char :=
  Char.ofNat byte.toNat

theorem isAscii_cons_iff :
    IsAscii (byte :: bytes) ↔ byte < 0x80 ∧ IsAscii bytes :=
  List.forall_mem_cons

theorem isAscii_append_iff {first second : List UInt8} :
    IsAscii (first ++ second) ↔ IsAscii first ∧ IsAscii second :=
  List.forall_mem_append

/-! ## One character -/

private theorem toNat_characterOf (byte : UInt8) :
    (characterOf byte).toNat = byte.toNat := by
  refine byte_below byte byte.toNat_lt ?_
  decide +kernel

private theorem characterOf_injective : Function.Injective characterOf := by
  intro left right same
  have numbers := congrArg Char.toNat same
  rw [toNat_characterOf, toNat_characterOf] at numbers
  exact UInt8.toNat_inj.mp numbers

private theorem utf8EncodeChar_characterOf (ascii : byte < 0x80) :
    String.utf8EncodeChar (characterOf byte) = [byte] := by
  have below : byte.toNat < 128 := UInt8.lt_iff_toNat_lt.mp ascii
  refine byte_below byte below ?_
  decide +kernel

private theorem not_ofNat_lt
    {number : Nat} (low : 128 ≤ number) (high : number < 256) :
    ¬UInt8.ofNat number < 0x80 := by
  simp only [UInt8.lt_iff_toNat_lt, UInt8.toNat_ofNat', UInt8.reduceToNat]
  omega

/-- A character outside ASCII has bytes from 128 on. -/
theorem exists_byte_of_isAscii
    (ascii : IsAscii (String.utf8EncodeChar character)) :
    ∃ byte < 0x80, characterOf byte = character := by
  rw [String.utf8EncodeChar.eq_def] at ascii
  dsimp only at ascii
  split at ascii
  · rename_i small
    refine ⟨UInt8.ofNat character.toNat, (isAscii_cons_iff.mp ascii).1, ?_⟩
    have number : (UInt8.ofNat character.toNat).toNat = character.toNat := by
      have bound : character.toNat ≤ 127 := small
      rw [UInt8.toNat_ofNat']
      omega
    rw [characterOf, number, Char.ofNat_toNat]
  · -- The lead byte of every longer form is 192 or more.
    split at ascii
    · have lead := (isAscii_cons_iff.mp ascii).1
      exact absurd lead (not_ofNat_lt (by omega) (by omega))
    · split at ascii
      · have lead := (isAscii_cons_iff.mp ascii).1
        exact absurd lead (not_ofNat_lt (by omega) (by omega))
      · have lead := (isAscii_cons_iff.mp ascii).1
        exact absurd lead (not_ofNat_lt (by omega) (by omega))

/-! ## Texts -/

private theorem decodeList_of_isAscii (ascii : IsAscii bytes) :
    decodeList bytes = bytes.map characterOf := by
  induction bytes with
  | nil => rw [decodeList, List.map_nil]
  | cons head tail inductionHypothesis =>
    have parts := isAscii_cons_iff.mp ascii
    rw [decodeList, if_pos parts.1, inductionHypothesis parts.2, List.map_cons]
    rfl

theorem toList_decode (ascii : IsAscii bytes) :
    (decode bytes).toList = bytes.map characterOf := by
  rw [decode, String.toList_ofList, decodeList_of_isAscii ascii]

theorem mem_decode_iff (ascii : IsAscii bytes) :
    characterOf byte ∈ (decode bytes).toList ↔ byte ∈ bytes := by
  rw [toList_decode ascii]
  exact List.mem_map_of_injective characterOf_injective

theorem encode_decode (ascii : IsAscii bytes) :
    encode (decode bytes) = bytes := by
  rw [encode, toList_decode ascii]
  induction bytes with
  | nil => rfl
  | cons head tail inductionHypothesis =>
    have parts := isAscii_cons_iff.mp ascii
    rw [List.map_cons, List.flatMap_cons, utf8EncodeChar_characterOf parts.1,
      inductionHypothesis parts.2]
    rfl

private theorem map_characterOf_flatMap {characters : List Char}
    (ascii : IsAscii (characters.flatMap String.utf8EncodeChar)) :
    (characters.flatMap String.utf8EncodeChar).map characterOf =
      characters := by
  induction characters with
  | nil => rfl
  | cons head tail inductionHypothesis =>
    rw [List.flatMap_cons, isAscii_append_iff] at ascii
    obtain ⟨byte, small, isHead⟩ := exists_byte_of_isAscii ascii.1
    rw [List.flatMap_cons, ← isHead, utf8EncodeChar_characterOf small,
      List.map_append, inductionHypothesis ascii.2]
    rfl

/-- The characters of an ASCII text are its bytes. -/
theorem toList_eq_map_encode (ascii : IsAscii (encode text)) :
    text.toList = (encode text).map characterOf :=
  (map_characterOf_flatMap ascii).symm

end ManagedHeap.Utf8
