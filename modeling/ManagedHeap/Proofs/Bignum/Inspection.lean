import ManagedHeap.Bignum.Arithmetic
import ManagedHeap.Proofs.Bignum.Reading

/-!
# Inspecting bignums

Every inspection of a sound bignum answers a question about its integer: the
bits of the magnitude, its low words, its sign, how it compares, and its
numeral. Capacities and buffers do not enter.
-/

namespace ManagedHeap

namespace Positional

/-! ## Bit lengths -/

theorem two_pow_le_of_bitLength {number : Nat} (positive : number ≠ 0) :
    2 ^ (bitLength number - 1) ≤ number :=
  Digits.two_pow_bitLength_le positive

private theorem bitLength_pos {number : Nat} (positive : number ≠ 0) :
    0 < bitLength number := by
  rw [bitLength, if_neg positive]
  exact Nat.succ_pos _

theorem bitLength_le_iff {number width : Nat} :
    bitLength number ≤ width ↔ number < 2 ^ width := by
  constructor
  · intro short
    exact Nat.lt_of_lt_of_le (lt_two_pow_bitLength number)
      (Nat.pow_le_pow_right (by omega) short)
  · intro below
    by_cases zero : number = 0
    · simp [zero, bitLength]
    · have least := Nat.lt_of_le_of_lt (two_pow_le_of_bitLength zero) below
      have := (Nat.pow_lt_pow_iff_right (by omega)).mp least
      have := bitLength_pos zero
      omega

/-- The bits of a number are those below a place and those of what stands
above it. -/
theorem bitLength_add_mul {low top place : Nat} (below : low < 2 ^ place)
    (positive : top ≠ 0) :
    bitLength (low + 2 ^ place * top) = place + bitLength top := by
  have upper : bitLength (low + 2 ^ place * top) ≤ place + bitLength top := by
    rw [bitLength_le_iff, Nat.pow_add]
    have topBound := lt_two_pow_bitLength top
    calc
      low + 2 ^ place * top < 2 ^ place * (top + 1) := by
        rw [Nat.mul_succ]; omega
      _ ≤ 2 ^ place * 2 ^ bitLength top := Nat.mul_le_mul_left _ topBound
  have lower :
      ¬bitLength (low + 2 ^ place * top) ≤ place + bitLength top - 1 := by
    have topPositive := bitLength_pos positive
    rw [bitLength_le_iff, Nat.not_lt, Nat.add_sub_assoc topPositive,
      Nat.pow_add]
    calc
      2 ^ place * 2 ^ (bitLength top - 1) ≤ 2 ^ place * top :=
        Nat.mul_le_mul_left _ (two_pow_le_of_bitLength positive)
      _ ≤ low + 2 ^ place * top := Nat.le_add_left ..
  omega

end Positional

namespace Digits

theorem count_le_count {low high : Nat} (ordered : low ≤ high) :
    count low ≤ count high := by
  have bits : Positional.bitLength low ≤ Positional.bitLength high :=
    Positional.bitLength_le_iff.mpr
      (Nat.lt_of_le_of_lt ordered (Positional.lt_two_pow_bitLength high))
  simp only [count, Positional.ceilDiv]
  omega

private theorem compare_count_then (left right : Nat) :
    (compare (count left) (count right)).then
    (compare left right) = compare left right := by
  rcases Nat.lt_trichotomy left right with below | rfl | above
  · have counts := count_le_count (Nat.le_of_lt below)
    rw [Nat.compare_eq_lt.mpr below]
    rcases Nat.lt_or_eq_of_le counts with fewer | equal
    · rw [Nat.compare_eq_lt.mpr fewer]
      rfl
    · rw [Nat.compare_eq_eq.mpr equal]
      rfl
  · simp
  · have counts := count_le_count (Nat.le_of_lt above)
    rw [Nat.compare_eq_gt.mpr above]
    rcases Nat.lt_or_eq_of_le counts with fewer | equal
    · rw [Nat.compare_eq_gt.mpr fewer]
      rfl
    · rw [Nat.compare_eq_eq.mpr equal.symm]
      rfl

end Digits

namespace Bignum

variable {heap : Heap} {number left right : Bignum} {value x y : Int}

/-! ## Stored bytes -/

/-- The bytes in use of a sound bignum denote the magnitude of its integer. -/
theorem exists_storedBytes (sound : heap.SoundBignum number)
    (read : number.value heap = .ok value) :
    ∃ bytes, number.storedBytes heap = .ok bytes ∧
      bytes.size = digitBytes * number.used ∧
      Bytes.numberOf bytes.toList = value.natAbs ∧
      number.used = Digits.count value.natAbs := by
  obtain ⟨magnitude, readMagnitude, rfl⟩ := Except.map_eq_ok_iff.mp read
  obtain ⟨bytes, stored, rfl⟩ := Except.map_eq_ok_iff.mp readMagnitude
  have used := sound.used_eq read
  rw [Heap.natAbs_apply] at used ⊢
  exact ⟨bytes, stored, size_of_storedBytes stored, (Bytes.toNat_eq bytes).symm,
    used⟩

private theorem sign_eq_ofInt_of_value (sound : heap.SoundBignum number)
    (read : number.value heap = .ok value) :
    number.sign = Sign.ofInt value := by
  have used := sound.used_eq read
  obtain ⟨magnitude, readMagnitude, rfl⟩ := Except.map_eq_ok_iff.mp read
  rw [Heap.natAbs_apply] at used
  by_cases zero : magnitude = 0
  · have unused : number.used = 0 := by rw [used, zero, Digits.count_zero]
    rw [sound.zero_is_nonnegative unused, zero]
    rfl
  · cases number.sign with
    | nonnegative =>
      rw [Sign.ofInt, if_neg]
      simp only [Sign.apply]
      omega
    | negative =>
      rw [Sign.ofInt, if_pos]
      simp only [Sign.apply]
      omega

theorem isNegative_eq (sound : heap.SoundBignum number)
    (read : number.value heap = .ok value) :
    number.isNegative = decide (value < 0) := by
  rw [isNegative, sign_eq_ofInt_of_value sound read, Sign.ofInt]
  by_cases negative : value < 0
  · simp [negative]
  · rw [if_neg negative, decide_eq_false negative]
    rfl

/-! ## Bits and low words -/

theorem bitCount_eq (sound : heap.SoundBignum number)
    (read : number.value heap = .ok value) :
    number.bitCount heap = .ok (Positional.bitLength value.natAbs) := by
  obtain ⟨bytes, stored, size, magnitude, used⟩ := exists_storedBytes sound read
  rw [bitCount, stored]
  refine congrArg Except.ok ?_
  split
  · rename_i unused
    rw [Digits.count_eq_zero_iff.mp (used.symm.trans unused)]
    rfl
  · rename_i inUse
    have parts :=
      Bytes.numberOf_append (bytes.toList.take (digitBytes * (number.used - 1)))
      (bytes.toList.drop (digitBytes * (number.used - 1)))
    have lowLength :
        (bytes.toList.take (digitBytes * (number.used - 1))).length =
        digitBytes * (number.used - 1) := by
      rw [List.length_take, Bytes.length_toList, size]
      exact Nat.min_eq_left (Nat.mul_le_mul_left _ (Nat.sub_le ..))
    have whole :
        (bytes.slice (digitBytes * (number.used - 1)) digitBytes).toNat =
        Bytes.numberOf
          (bytes.toList.drop (digitBytes * (number.used - 1))) := by
      rw [Bytes.toNat_eq, Bytes.toList_slice, List.take_of_length_le]
      rw [List.length_drop, Bytes.length_toList, size]
      simp only [digitBytes]
      omega
    have place :
        256 ^ (digitBytes * (number.used - 1)) =
          2 ^ (digitBits * (number.used - 1)) := by
      rw [show (256 : Nat) = 2 ^ 8 from rfl, ← Nat.pow_mul, digitBytes,
        digitBits, ← Nat.mul_assoc]
    have below :=
      Bytes.numberOf_lt (bytes.toList.take (digitBytes * (number.used - 1)))
    rw [List.take_append_drop, magnitude, lowLength, place] at parts
    rw [lowLength, place] at below
    dsimp only
    rw [whole, parts, Positional.bitLength_add_mul below]
    intro zero
    have positive : value.natAbs ≠ 0 := by
      intro none
      rw [none, Digits.count_zero] at used
      exact inUse used
    have least := Digits.radix_pow_count_le positive
    rw [← used, Digits.radix, ← Nat.pow_mul] at least
    rw [zero, Nat.mul_zero, Nat.add_zero] at parts
    rw [← parts] at below
    exact absurd below (Nat.not_lt.mpr least)

private theorem toNat_take_of_storedBytes
    {bytes : Bytes} {magnitude : Nat} (count : Nat)
    (isMagnitude : Bytes.numberOf bytes.toList = magnitude) :
    (bytes.take count).toNat = magnitude % 256 ^ count := by
  rw [Bytes.toNat_eq, Bytes.toList_take, ← isMagnitude]
  by_cases short : bytes.toList.length ≤ count
  · rw [List.take_of_length_le short]
    refine (Nat.mod_eq_of_lt ?_).symm
    exact Nat.lt_of_lt_of_le (Bytes.numberOf_lt bytes.toList)
      (Nat.pow_le_pow_right (by omega) short)
  · have length : (bytes.toList.take count).length = count := by
      rw [List.length_take]
      omega
    have parts :=
      Bytes.numberOf_append (bytes.toList.take count) (bytes.toList.drop count)
    have below := Bytes.numberOf_lt (bytes.toList.take count)
    rw [length] at below parts
    rw [List.take_append_drop] at parts
    rw [parts, Nat.add_mul_mod_self_left, Nat.mod_eq_of_lt below]

theorem low32_eq (sound : heap.SoundBignum number)
    (read : number.value heap = .ok value) :
    number.low32 heap = .ok (UInt32.ofNat value.natAbs) := by
  obtain ⟨bytes, stored, _, magnitude, _⟩ := exists_storedBytes sound read
  rw [low32, stored]
  refine congrArg Except.ok (UInt32.toNat_inj.mp ?_)
  dsimp only
  rw [UInt32.toNat_ofNat', UInt32.toNat_ofNat',
    toNat_take_of_storedBytes 4 magnitude]
  exact Nat.mod_mod _ _

theorem low64_eq (sound : heap.SoundBignum number)
    (read : number.value heap = .ok value) :
    number.low64 heap = .ok (UInt64.ofNat value.natAbs) := by
  obtain ⟨bytes, stored, _, magnitude, _⟩ := exists_storedBytes sound read
  rw [low64, stored]
  refine congrArg Except.ok (UInt64.toNat_inj.mp ?_)
  dsimp only
  rw [UInt64.toNat_ofNat', UInt64.toNat_ofNat',
    toNat_take_of_storedBytes 8 magnitude]
  exact Nat.mod_mod _ _

/-! ## Comparison and numerals -/

private theorem compare_natAbs
    {low high : Nat} {x y : Int} (less : low < high ↔ x < y)
    (equal : low = high ↔ x = y) (greater : high < low ↔ y < x) :
    compare low high = compare x y := by
  rcases Nat.lt_trichotomy low high with below | same | above
  · rw [Nat.compare_eq_lt.mpr below, Int.compare_eq_lt.mpr (less.mp below)]
  · rw [Nat.compare_eq_eq.mpr same, Int.compare_eq_eq.mpr (equal.mp same)]
  · rw [Nat.compare_eq_gt.mpr above, Int.compare_eq_gt.mpr (greater.mp above)]

theorem order_eq (leftSound : heap.SoundBignum left)
    (rightSound : heap.SoundBignum right)
    (readLeft : left.value heap = .ok x)
    (readRight : right.value heap = .ok y) :
    left.order right heap = .ok (compare x y) := by
  have leftSign := sign_eq_ofInt_of_value leftSound readLeft
  have rightSign := sign_eq_ofInt_of_value rightSound readRight
  have leftUsed := leftSound.used_eq readLeft
  have rightUsed := rightSound.used_eq readRight
  have leftMagnitude : left.magnitude heap = .ok x.natAbs := by
    obtain ⟨magnitude, readMagnitude, rfl⟩ := Except.map_eq_ok_iff.mp readLeft
    rw [readMagnitude, Heap.natAbs_apply]
  have rightMagnitude : right.magnitude heap = .ok y.natAbs := by
    obtain ⟨magnitude, readMagnitude, rfl⟩ := Except.map_eq_ok_iff.mp readRight
    rw [readMagnitude, Heap.natAbs_apply]
  unfold order
  simp only [leftMagnitude, rightMagnitude, leftSign, rightSign, leftUsed,
    rightUsed, bind,
    Except.bind, Digits.compare_count_then]
  by_cases leftNegative : x < 0 <;> by_cases rightNegative : y < 0
  · have mirrored : (compare x.natAbs y.natAbs).swap = compare x y := by
      rw [Nat.compare_swap]
      exact compare_natAbs (by omega) (by omega) (by omega)
    simp [Sign.ofInt, leftNegative, rightNegative, mirrored, pure, Except.pure]
  · have below : compare x y = .lt := by
      rw [Int.compare_eq_lt]
      omega
    simp [Sign.ofInt, leftNegative, rightNegative, below]
  · have above : compare x y = .gt := by
      rw [Int.compare_eq_gt]
      omega
    simp [Sign.ofInt, leftNegative, rightNegative, above]
  · have same : compare x.natAbs y.natAbs = compare x y :=
      compare_natAbs (by omega) (by omega) (by omega)
    simp [Sign.ofInt, leftNegative, rightNegative, same, pure, Except.pure]

theorem toNumeral_eq {radix : Nat} (valid : Numeral.IsRadix radix)
    (read : number.value heap = .ok value) :
    number.toNumeral radix heap = .ok (Numeral.write radix value) := by
  rw [toNumeral, read, require, if_pos valid]
  rfl

end Bignum

end ManagedHeap
