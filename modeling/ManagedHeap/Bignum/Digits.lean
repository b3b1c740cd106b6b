import ManagedHeap.Bytes.LittleEndian

/-!
# Digits

Digits of a bignum: 32-bit words, least significant first, each in four bytes,
low byte first.

Digits and bytes denote the same magnitude (`toNat_decode`), so a magnitude is
read from storage and written to it without its digits.
-/

namespace ManagedHeap.Digits

/-- One more than the greatest digit. -/
def radix : Nat := 2 ^ 32

def toNat (digits : List UInt32) : Nat :=
  Positional.ofDigits radix (digits.map UInt32.toNat)

/-! ## Bytes -/

/-- The digit of four bytes, low byte first. -/
def ofBytes (first second third fourth : UInt8) : UInt32 :=
  UInt32.ofNat
    (first.toNat + 2 ^ 8 * second.toNat + 2 ^ 16 * third.toNat +
      2 ^ 24 * fourth.toNat)

/-- The digits in some bytes; fewer than four bytes at the end hold none. -/
def decode : List UInt8 → List UInt32
  | first :: second :: third :: fourth :: rest =>
    ofBytes first second third fourth :: decode rest
  | _ => []

theorem toNat_ofBytes (first second third fourth : UInt8) :
    (ofBytes first second third fourth).toNat =
      first.toNat + 2 ^ 8 * second.toNat + 2 ^ 16 * third.toNat +
        2 ^ 24 * fourth.toNat := by
  have firstBound := first.toNat_lt
  have secondBound := second.toNat_lt
  have thirdBound := third.toNat_lt
  have fourthBound := fourth.toNat_lt
  exact UInt32.toNat_ofNat_of_lt' (by simp only [UInt32.size]; omega)

/-- The bytes of whole digits denote the magnitude of the digits. -/
theorem toNat_decode {values : List UInt8} (whole : values.length % 4 = 0) :
    toNat (decode values) = Bytes.numberOf values := by
  fun_induction decode values with
  | case1 first second third fourth rest inductionHypothesis =>
    have higher :=
      inductionHypothesis (by simp only [List.length_cons] at whole; omega)
    simp only [toNat, Bytes.numberOf, Positional.ofDigits, List.map_cons,
      List.foldr_cons, toNat_ofBytes] at higher ⊢
    rw [higher, radix]
    omega
  | case2 values noDigit =>
    rcases values with _
      | ⟨first, _ | ⟨second, _ | ⟨third, _ | ⟨fourth, rest⟩⟩⟩⟩
    · rfl
    · cases whole
    · cases whole
    · cases whole
    · exact absurd rfl (noDigit first second third fourth rest)

/-! ## The number of digits -/

/-- The number of digits of a magnitude, without leading zeros. -/
def count (magnitude : Nat) : Nat :=
  Positional.ceilDiv (Positional.bitLength magnitude) 32

theorem lt_radix_pow_count (magnitude : Nat) :
    magnitude < radix ^ count magnitude := by
  have covered : Positional.bitLength magnitude ≤ 32 * count magnitude := by
    simp only [count, Positional.ceilDiv]
    omega
  calc
    magnitude < 2 ^ Positional.bitLength magnitude :=
      Positional.lt_two_pow_bitLength magnitude
    _ ≤ 2 ^ (32 * count magnitude) := Nat.pow_le_pow_right (by omega) covered
    _ = radix ^ count magnitude := Nat.pow_mul ..

end ManagedHeap.Digits
