import ManagedHeap.Hex

/-!
# Written digits

Digits spell one byte sequence and each byte sequence has one spelling in each
case: what is written is read back (`decode_encode`), and digits of one case
are written by the bytes that they spell (`exists_encode_eq`).
-/

namespace ManagedHeap

/-- A property of all bytes below a bound, from its instances. -/
@[elab_as_elim]
theorem byte_below {motive : UInt8 → Prop} {bound : Nat} (byte : UInt8)
    (below : byte.toNat < bound)
    (instances : ∀ number : Fin bound, motive (UInt8.ofNat number)) :
    motive byte := by
  have atByte := instances ⟨byte.toNat, below⟩
  rwa [UInt8.ofNat_toNat] at atByte

namespace Hex

variable {letters : LetterCase} {high low value : UInt8} {bytes : List UInt8}

/-! ## One byte -/

theorem value?_digit (small : value < 16) :
    value? (digit letters value) = some value := by
  have below : value.toNat < 16 := UInt8.lt_iff_toNat_lt.mp small
  refine byte_below value below ?_
  cases letters <;> decide

theorem halves_lt (byte : UInt8) : byte / 16 < 16 ∧ byte % 16 < 16 := by
  have bound := byte.toNat_lt
  simp only [UInt8.lt_iff_toNat_lt, UInt8.toNat_div, UInt8.toNat_mod,
    UInt8.reduceToNat]
  omega

private theorem add_halves (byte : UInt8) :
    16 * (byte / 16) + byte % 16 = byte := by
  have bound := byte.toNat_lt
  rw [← UInt8.toNat_inj]
  simp only [UInt8.toNat_add, UInt8.toNat_mul, UInt8.toNat_div,
    UInt8.toNat_mod, UInt8.reduceToNat]
  omega

private theorem encodeByte_add (highSmall : high < 16) (lowSmall : low < 16) :
    encodeByte letters (16 * high + low) =
      [digit letters high, digit letters low] := by
  have halves :
      (16 * high + low) / 16 = high ∧ (16 * high + low) % 16 = low := by
    simp only [UInt8.lt_iff_toNat_lt, UInt8.reduceToNat] at highSmall lowSmall
    simp only [← UInt8.toNat_inj, UInt8.toNat_add, UInt8.toNat_mul,
      UInt8.toNat_div, UInt8.toNat_mod, UInt8.reduceToNat]
    omega
  rw [encodeByte, halves.1, halves.2]

/-! ## Byte sequences -/

theorem encode_cons (byte : UInt8) (bytes : List UInt8) :
    encode letters (byte :: bytes) =
      digit letters (byte / 16) :: digit letters (byte % 16) ::
        encode letters bytes := rfl

theorem encode_append (first second : List UInt8) :
    encode letters (first ++ second) =
      encode letters first ++ encode letters second :=
  List.flatMap_append

theorem length_encode (bytes : List UInt8) :
    (encode letters bytes).length = 2 * bytes.length := by
  induction bytes with
  | nil => rfl
  | cons head tail inductionHypothesis =>
    rw [encode_cons, List.length_cons, List.length_cons, inductionHypothesis,
      List.length_cons]
    omega

theorem exists_of_mem_encode {written : UInt8}
    (member : written ∈ encode letters bytes) :
    ∃ value < 16, digit letters value = written := by
  obtain ⟨byte, _, inByte⟩ := List.mem_flatMap.mp member
  obtain ⟨highSmall, lowSmall⟩ := halves_lt byte
  simp only [encodeByte, List.mem_cons, List.not_mem_nil, or_false] at inByte
  rcases inByte with rfl | rfl
  · exact ⟨_, highSmall, rfl⟩
  · exact ⟨_, lowSmall, rfl⟩

theorem decodePairs_encode (position : Nat) (bytes : List UInt8) :
    decodePairs position (encode letters bytes) = .ok bytes := by
  induction bytes generalizing position with
  | nil => rfl
  | cons head tail inductionHypothesis =>
    obtain ⟨highSmall, lowSmall⟩ := halves_lt head
    rw [encode_cons, decodePairs, valueAt, valueAt, value?_digit highSmall,
      value?_digit lowSmall, inductionHypothesis]
    exact congrArg (fun byte => Except.ok (byte :: tail)) (add_halves head)

/-- The digits of a byte sequence spell it. -/
theorem decode_encode (bytes : List UInt8) :
    decode (encode letters bytes) = .ok bytes := by
  rw [decode, if_pos (by rw [length_encode]; omega), decodePairs_encode]

/-- Two byte sequences have different digits. -/
theorem encode_injective : Function.Injective (encode letters) := by
  intro left right same
  have read : decode (encode letters left) = .ok left := decode_encode left
  rw [same, decode_encode] at read
  exact (Except.ok.inj read).symm

/-- Digits of one case in pairs are the digits of some byte sequence. -/
theorem exists_encode_eq : ∀ (digits : List UInt8),
    (∀ written ∈ digits, ∃ value < 16, digit letters value = written) →
    digits.length % 2 = 0 → ∃ bytes, encode letters bytes = digits
  | [], _, _ => ⟨[], rfl⟩
  | [_], _, even => by cases even
  | first :: second :: rest, valid, even => by
    obtain ⟨high, highSmall, rfl⟩ := valid first (by simp)
    obtain ⟨low, lowSmall, rfl⟩ := valid second (by simp)
    obtain ⟨bytes, rfl⟩ := exists_encode_eq rest
      (fun written member => valid written (by simp [member]))
      (by simp only [List.length_cons] at even; omega)
    refine ⟨(16 * high + low) :: bytes, ?_⟩
    show encodeByte letters (16 * high + low) ++ encode letters bytes = _
    rw [encodeByte_add highSmall lowSmall]
    rfl

end Hex

end ManagedHeap
