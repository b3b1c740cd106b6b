import ManagedHeap.Proofs.Checksum.Polynomial
import ManagedHeap.Proofs.Identity.Codec

/-!
# Damaged identity texts

The checksum detects every error that is a burst of at most eight bits or has
an odd number of bits, wherever it falls in the payload and its checksum. A
digit holds four bits, so a replaced digit and two exchanged neighbours are
bursts: no such text is accepted (`decode_detects_errors`).
-/

namespace ManagedHeap.Identity

open Checksum

variable {text payload bytes before after : List UInt8}

/-! ## Bits of digits -/

/-- The four bits of a digit, the most significant one first. -/
def digitBits (digit : UInt8) : List Bool :=
  (byteBits ((Hex.value? digit).getD 0)).drop 4

private theorem length_flatMap_digitBits (digits : List UInt8) :
    (digits.flatMap digitBits).length = 4 * digits.length := by
  induction digits with
  | nil => rfl
  | cons head tail inductionHypothesis =>
    rw [List.flatMap_cons, List.length_append, inductionHypothesis,
      List.length_cons]
    simp only [digitBits, List.length_drop, length_byteBits]
    omega

private theorem byteBits_eq_halves (byte : UInt8) :
    byteBits byte =
      (byteBits (byte / 16)).drop 4 ++ (byteBits (byte % 16)).drop 4 := by
  have upper (place : Nat) :
      (byte.toNat / 16).testBit place = byte.toNat.testBit (place + 4) :=
    Nat.testBit_div_two_pow (n := 4) byte.toNat place
  have lower (place : Nat) :
      (byte.toNat % 16).testBit place =
        (decide (place < 4) && byte.toNat.testBit place) :=
    Nat.testBit_mod_two_pow byte.toNat 4 place
  simp [byteBits, List.range_succ, BitVec.getMsbD, BitVec.getLsbD, upper,
    lower, -Nat.testBit_zero]

private theorem bits_eq_flatMap_digitBits (bytes : List UInt8) :
    bits bytes = (Hex.encode .upper bytes).flatMap digitBits := by
  induction bytes with
  | nil => rfl
  | cons head tail inductionHypothesis =>
    obtain ⟨highSmall, lowSmall⟩ := Hex.halves_lt head
    rw [bits_cons, Hex.encode_cons, List.flatMap_cons, List.flatMap_cons,
      ← inductionHypothesis, digitBits, digitBits, Hex.value?_digit highSmall,
      Hex.value?_digit lowSmall, byteBits_eq_halves, List.append_assoc]
    rfl

/-- Digits of multiples of the generator do not differ in two neighbours
alone. -/
theorem eq_of_digits {left right written found : List UInt8}
    (leftDigits : Hex.encode .upper left = before ++ (written ++ after))
    (rightDigits : Hex.encode .upper right = before ++ (found ++ after))
    (sameLength : written.length = found.length) (short : written.length ≤ 2)
    (leftDivides : generator ∣ polynomialOf (bits left))
    (rightDivides : generator ∣ polynomialOf (bits right)) :
    written = found := by
  have leftBits := bits_eq_flatMap_digitBits left
  have rightBits := bits_eq_flatMap_digitBits right
  rw [leftDigits, List.flatMap_append, List.flatMap_append] at leftBits
  rw [rightDigits, List.flatMap_append, List.flatMap_append] at rightBits
  rw [leftBits] at leftDivides
  rw [rightBits] at rightDivides
  have sameWindow : written.flatMap digitBits = found.flatMap digitBits := by
    apply eq_of_generator_dvd_window _ _ leftDivides rightDivides
    · rw [length_flatMap_digitBits, length_flatMap_digitBits, sameLength]
    · rw [length_flatMap_digitBits]
      omega
  have sameBytes : left = right := by
    apply bits_injective
    rw [leftBits, rightBits, sameWindow]
  rw [sameBytes, rightDigits, List.append_cancel_left_eq,
    List.append_cancel_right_eq] at leftDigits
  exact leftDigits.symm

/-! ## Rejected texts -/

theorem generator_dvd_written (payload : List UInt8) :
    generator ∣ polynomialOf (bits (payload ++ [crc8 payload])) :=
  generator_dvd_iff.mpr rfl

/-- The digits of a byte sequence that is no multiple of the generator are
rejected. -/
theorem decode_eq_checksumMismatch
    (remains : ¬generator ∣ polynomialOf (bits bytes)) :
    decode (scheme ++ Hex.encode .upper bytes) = .error .checksumMismatch := by
  have nonempty : bytes ≠ [] := by
    rintro rfl
    exact remains (dvd_zero generator)
  obtain ⟨read, checksum, rfl⟩ :=
    bytes.eq_nil_or_concat.resolve_left nonempty
  rw [List.concat_eq_append] at remains ⊢
  have different : ¬crc8 read = checksum :=
    fun same => remains (generator_dvd_iff.mpr same)
  rw [decode_of_digits rfl rfl, if_neg different]

/-- An error that is no multiple of the generator is detected. -/
theorem decode_xor {error : List UInt8}
    (sameLength : error.length = payload.length + 1)
    (remains : ¬generator ∣ polynomialOf (bits error)) :
    decode (scheme ++ Hex.encode .upper
        (List.zipWith (· ^^^ ·) (payload ++ [crc8 payload]) error)) =
      .error .checksumMismatch := by
  have lengths : (payload ++ [crc8 payload]).length = error.length := by
    rw [List.length_append, List.length_singleton, sameLength]
  apply decode_eq_checksumMismatch
  rw [bits_xor lengths,
    polynomialOf_xor (by rw [length_bits, length_bits, lengths]),
    dvd_add_right (generator_dvd_written payload)]
  exact remains

/-- Other upper-case digits in the place of at most two neighbours are
detected. -/
theorem decode_of_replaced (written found : List UInt8)
    (digits : encode payload = scheme ++ (before ++ (written ++ after)))
    (upper : found.all isUppercaseHex = true)
    (sameLength : written.length = found.length)
    (short : written.length ≤ 2) (different : written ≠ found) :
    decode (scheme ++ (before ++ (found ++ after))) =
      .error .checksumMismatch := by
  rw [encode_eq, List.append_cancel_left_eq] at digits
  have allWritten := all_isUppercaseHex_encode (payload ++ [crc8 payload])
  have allFound : (before ++ (found ++ after)).all isUppercaseHex = true := by
    simp only [digits, List.all_append, Bool.and_eq_true] at allWritten
    simp only [List.all_append, allWritten, upper, Bool.and_self]
  have even : (before ++ (found ++ after)).length % 2 = 0 := by
    have length := congrArg List.length digits
    simp only [Hex.length_encode, List.length_append] at length ⊢
    omega
  obtain ⟨bytes, spelled⟩ := exists_encode_eq allFound even
  rw [← spelled]
  apply decode_eq_checksumMismatch
  intro divides
  exact different (eq_of_digits digits spelled sameLength short
    (generator_dvd_written payload) divides)

/-- Bursts of at most eight bits and errors of an odd number of bits are
detected; so are one replaced digit and two different neighbours that are
exchanged. -/
theorem decode_detects_errors :
    (∀ payload error : List UInt8, error.length = payload.length + 1 →
      (∃ byte ∈ error, byte ≠ 0) →
      IsBurst (bits error) ∨ Odd ((bits error).count true) →
      decode (scheme ++ Hex.encode .upper
          (List.zipWith (· ^^^ ·) (payload ++ [crc8 payload]) error)) =
        .error .checksumMismatch) ∧
    (∀ payload before after written found,
      encode payload = scheme ++ (before ++ written :: after) →
      isUppercaseHex found = true → written ≠ found →
      decode (scheme ++ (before ++ found :: after)) =
        .error .checksumMismatch) ∧
    ∀ payload before after first second,
      encode payload = scheme ++ (before ++ first :: second :: after) →
      first ≠ second →
      decode (scheme ++ (before ++ second :: first :: after)) =
        .error .checksumMismatch := by
  refine ⟨?errors, ?replaced, ?exchanged⟩
  case errors =>
    intro payload error sameLength nonzero detected
    obtain ⟨byte, member, set⟩ := nonzero
    apply decode_xor sameLength
    rcases detected with burst | odd
    · exact not_generator_dvd_of_isBurst (true_mem_bits member set) burst
    · exact not_generator_dvd_of_odd odd
  case replaced =>
    intro payload before after written found digits upper different
    apply decode_of_replaced [written] [found] digits
    · rw [List.all_cons, upper, List.all_nil, Bool.and_self]
    · rfl
    · exact Nat.le_succ 1
    · simpa using different
  case exchanged =>
    intro payload before after first second digits different
    have upper :
        isUppercaseHex first = true ∧ isUppercaseHex second = true := by
      have allWritten := all_isUppercaseHex_encode (payload ++ [crc8 payload])
      rw [encode_eq, List.append_cancel_left_eq] at digits
      simp only [digits, List.all_append, List.all_cons, Bool.and_eq_true]
        at allWritten
      exact ⟨allWritten.2.1, allWritten.2.2.1⟩
    apply decode_of_replaced [first, second] [second, first] digits
    · simp only [List.all_cons, upper, List.all_nil, Bool.and_self]
    · rfl
    · exact Nat.le_refl 2
    · intro same
      exact different (List.cons.inj same).1

/-- Damaged texts of the payload `AB CD`: a burst in two bytes, three bits far
from one another, another last digit, and two digits of different bytes
exchanged. -/
theorem damagedTexts_rejected :
    encode [0xab, 0xcd] =
      scheme ++ [0x41, 0x42, 0x43, 0x44, 0x45, 0x32] ∧
    decode (scheme ++ Hex.encode .upper [0xa4, 0x3d, 0xe2]) =
      .error .checksumMismatch ∧
    decode (scheme ++ Hex.encode .upper [0x2b, 0xcd, 0x63]) =
      .error .checksumMismatch ∧
    decode (scheme ++ [0x41, 0x42, 0x43, 0x44, 0x45, 0x33]) =
      .error .checksumMismatch ∧
    decode (scheme ++ [0x41, 0x43, 0x42, 0x44, 0x45, 0x32]) =
      .error .checksumMismatch := by
  obtain ⟨errors, replaced, exchanged⟩ := decode_detects_errors
  have checksum : crc8 [0xab, 0xcd] = 0xe2 := by decide +kernel
  have written : encode [0xab, 0xcd] =
      scheme ++ [0x41, 0x42, 0x43, 0x44, 0x45, 0x32] := by
    rw [encode_eq, checksum]
    rfl
  refine ⟨written, ?burst, ?far, ?replacement, ?exchange⟩
  case burst =>
    have within : ∀ place < 24,
        (bits [0x0f, 0xf0, 0x00])[place]? = some true →
          4 ≤ place ∧ place < 12 := by decide +kernel
    have burst : IsBurst (bits [0x0f, 0xf0, 0x00]) :=
      ⟨4, fun place set =>
        within place (List.getElem?_eq_some_iff.mp set).1 set⟩
    have rejected := errors [0xab, 0xcd] [0x0f, 0xf0, 0x00] rfl (by decide)
      (.inl burst)
    rw [checksum] at rejected
    exact rejected
  case far =>
    have odd : (bits [0x80, 0x00, 0x81]).count true = 3 := by decide +kernel
    have rejected := errors [0xab, 0xcd] [0x80, 0x00, 0x81] rfl (by decide)
      (.inr (odd ▸ by decide))
    rw [checksum] at rejected
    exact rejected
  case replacement =>
    exact replaced [0xab, 0xcd] [0x41, 0x42, 0x43, 0x44, 0x45] [] 0x32 0x33
      written (by decide) (by decide)
  case exchange =>
    exact exchanged [0xab, 0xcd] [0x41] [0x44, 0x45, 0x32] 0x42 0x43 written
      (by decide)

end ManagedHeap.Identity
