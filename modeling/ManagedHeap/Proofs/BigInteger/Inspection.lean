import ManagedHeap.BigInteger.Narrowing
import ManagedHeap.Proofs.Bignum.Inspection

/-!
# Inspecting big integers

What the entry points that only read answer about a big integer, as functions
of its value. The wrapping conversions give the residue of the value, and the
checked ones the value itself exactly when it is in range.
-/

namespace ManagedHeap

/-! ## Machine integers -/

theorem uint32_ofInt_natCast (number : Nat) :
    UInt32.ofInt number = UInt32.ofNat number := by
  have residue : ((number : Int) % 2 ^ 32).toNat = number % 2 ^ 32 := by omega
  rw [UInt32.ofInt, residue]
  exact UInt32.toNat_inj.mp (by simp)

theorem uint64_ofInt_natCast (number : Nat) :
    UInt64.ofInt number = UInt64.ofNat number := by
  have residue : ((number : Int) % 2 ^ 64).toNat = number % 2 ^ 64 := by omega
  rw [UInt64.ofInt, residue]
  exact UInt64.toNat_inj.mp (by simp)

private theorem uint32_toInt32_ofNat (number : Nat) :
    (UInt32.ofNat number).toInt32 = Int32.ofInt number := by
  rw [Int32.ofInt_eq_ofNat]
  rfl

private theorem uint64_toInt64_ofNat (number : Nat) :
    (UInt64.ofNat number).toInt64 = Int64.ofInt number := by
  rw [Int64.ofInt_eq_ofNat]
  rfl

theorem uint32_toInt32_ofInt (value : Int) :
    (UInt32.ofInt value).toInt32 = Int32.ofInt value := by
  refine Int32.toBitVec.inj (BitVec.eq_of_toNat_eq ?_)
  simp [UInt32.ofInt]
  omega

theorem uint64_toInt64_ofInt (value : Int) :
    (UInt64.ofInt value).toInt64 = Int64.ofInt value := by
  refine Int64.toBitVec.inj (BitVec.eq_of_toNat_eq ?_)
  simp [UInt64.ofInt]
  omega

namespace BigInteger

variable {heap : Heap} {operand left right : Handle} {x y : Int}

/-! ## Sign, bits, order and numerals -/

theorem exists_bignum
    (regular : heap.Regular) (integer : heap.Integer operand x) :
    ∃ number, heap.bignum operand = .ok number ∧ heap.SoundBignum number ∧
      number.value heap = .ok x := by
  obtain ⟨number, found, read⟩ := integer
  exact ⟨number, Heap.bignum_eq_ok_iff.mpr found, regular.bignums found, read⟩

theorem isNegative_eq
    (regular : heap.Regular) (integer : heap.Integer operand x) :
    isNegative operand heap = .ok (decide (x < 0)) := by
  obtain ⟨number, found, sound, read⟩ := exists_bignum regular integer
  rw [isNegative, found, ← Bignum.isNegative_eq sound read]
  rfl

theorem bitCount_eq
    (regular : heap.Regular) (integer : heap.Integer operand x) :
    bitCount operand heap = .ok (Positional.bitLength x.natAbs) := by
  obtain ⟨number, found, sound, read⟩ := exists_bignum regular integer
  rw [bitCount, found]
  exact Bignum.bitCount_eq sound read

/-- The bits of fewer than `2 ^ 27` digits are counted in 32 bits. -/
theorem exists_bitCount_lt (regular : heap.Regular)
    (integer : heap.Integer operand x) {number : Bignum}
    (found : heap.objects.find? operand.address = some (.bigInteger number))
    (few : number.used < 2 ^ 27) :
    ∃ bits < 2 ^ 32, bitCount operand heap = .ok bits := by
  have used := (regular.bignums found).used_eq (integer.value_of_found found)
  have counted := bitCount_eq regular integer
  simp only [used, Digits.count, Positional.ceilDiv] at few
  exact ⟨_, by omega, counted⟩

theorem toDecimal_eq
    (regular : heap.Regular) (integer : heap.Integer operand x) :
    toDecimal operand heap = .ok (Numeral.decimal x) := by
  obtain ⟨number, found, _, read⟩ := exists_bignum regular integer
  have decimal : Numeral.IsRadix 10 := by decide
  rw [toDecimal, found]
  exact Bignum.toNumeral_eq decimal read

/-- The relation of integers that a comparison decides. -/
def Comparison.Relates (comparison : Comparison)
    (x y : Int) : Prop :=
  match comparison with
  | .equal => x = y
  | .less => x < y
  | .greater => x > y
  | .lessOrEqual => x ≤ y
  | .greaterOrEqual => x ≥ y

instance (comparison : Comparison) (x y : Int) :
    Decidable (comparison.Relates x y) :=
  match comparison with
  | .equal => inferInstanceAs (Decidable (x = y))
  | .less => inferInstanceAs (Decidable (x < y))
  | .greater => inferInstanceAs (Decidable (x > y))
  | .lessOrEqual => inferInstanceAs (Decidable (x ≤ y))
  | .greaterOrEqual => inferInstanceAs (Decidable (x ≥ y))

theorem Comparison.holds_compare_eq (comparison : Comparison) (x y : Int) :
    comparison.holds (Ord.compare x y) = decide (comparison.Relates x y) := by
  rw [Bool.eq_iff_iff, decide_eq_true_eq]
  cases comparison with
  | equal => exact Ordering.isEq_iff_eq_eq.trans Int.compare_eq_eq
  | less => exact Ordering.isLT_iff_eq_lt.trans Int.compare_eq_lt
  | greater => exact Ordering.isGT_iff_eq_gt.trans Int.compare_eq_gt
  | lessOrEqual => exact Int.isLE_compare
  | greaterOrEqual => exact Int.isGE_compare

theorem compare_eq (comparison : Comparison) (regular : heap.Regular)
    (leftInteger : heap.Integer left x) (rightInteger : heap.Integer right y) :
    BigInteger.compare comparison left right heap =
      .ok (comparison.holds (Ord.compare x y)) := by
  obtain ⟨leftNumber, leftFound, leftSound, readLeft⟩ :=
    exists_bignum regular leftInteger
  obtain ⟨rightNumber, rightFound, rightSound, readRight⟩ :=
    exists_bignum regular rightInteger
  rw [BigInteger.compare, order, leftFound, rightFound]
  simp only [bind, Except.bind,
    Bignum.order_eq leftSound rightSound readLeft readRight, Except.map]

/-! ## Wrapping -/

/-- Negating the residue of the magnitude gives the residue of a negative
integer. -/
theorem ofInt_natAbs {α : Type} [Neg α] (ofInt : Int → α)
    (ofInt_neg : ∀ y, ofInt (-y) = -ofInt y) (x : Int) :
    (if x < 0 then -ofInt x.natAbs else ofInt x.natAbs) = ofInt x := by
  by_cases negative : x < 0
  · have magnitude : (x.natAbs : Int) = -x := by omega
    rw [if_pos negative, magnitude, ← ofInt_neg, Int.neg_neg]
  · have magnitude : (x.natAbs : Int) = x := by omega
    rw [if_neg negative, magnitude]

theorem toUInt32_eq
    (regular : heap.Regular) (integer : heap.Integer operand x) :
    toUInt32 operand heap = .ok (UInt32.ofInt x) := by
  obtain ⟨number, found, sound, read⟩ := exists_bignum regular integer
  rw [toUInt32, found]
  simp only [bind, Except.bind, Bignum.low32_eq sound read,
    Bignum.isNegative_eq sound read, decide_eq_true_eq, pure, Except.pure,
    ← uint32_ofInt_natCast]
  exact congrArg Except.ok (ofInt_natAbs UInt32.ofInt UInt32.ofInt_neg x)

theorem toUInt64_eq
    (regular : heap.Regular) (integer : heap.Integer operand x) :
    toUInt64 operand heap = .ok (UInt64.ofInt x) := by
  obtain ⟨number, found, sound, read⟩ := exists_bignum regular integer
  rw [toUInt64, found]
  simp only [bind, Except.bind, Bignum.low64_eq sound read,
    Bignum.isNegative_eq sound read, decide_eq_true_eq, pure, Except.pure,
    ← uint64_ofInt_natCast]
  exact congrArg Except.ok (ofInt_natAbs UInt64.ofInt UInt64.ofInt_neg x)

theorem toInt32_eq (regular : heap.Regular) (integer : heap.Integer operand x) :
    toInt32 operand heap = .ok (Int32.ofInt x) := by
  rw [toInt32, toUInt32_eq regular integer]
  exact congrArg Except.ok (uint32_toInt32_ofInt x)

theorem toInt64_eq (regular : heap.Regular) (integer : heap.Integer operand x) :
    toInt64 operand heap = .ok (Int64.ofInt x) := by
  rw [toInt64, toUInt64_eq regular integer]
  exact congrArg Except.ok (uint64_toInt64_ofInt x)

/-! ## Checked -/

section Checked

variable {number : Bignum} {width : Nat} {target : MachineInteger} {α : Type}
  {value : α}

private theorem requireWidth_eq (sound : heap.SoundBignum number)
    (read : number.value heap = .ok x) (width : Nat) (target : MachineInteger) :
    requireWidth number width target heap =
      require (x.natAbs < 2 ^ width) (.overflow target) := by
  simp only [requireWidth, Bignum.bitCount_eq sound read, bind, Except.bind,
    require, Positional.bitLength_le_iff]

/-- A checked conversion without sign answers the low bits of a magnitude that
is not negated and not too wide. -/
theorem unsignedChecked_eq (sound : heap.SoundBignum number)
    (read : number.value heap = .ok x) {low : Except Error α}
    (isLow : (x.natAbs : Int) = x → low = .ok value) :
    (do
      require (number.isNegative = false) (.overflow target)
      requireWidth number width target heap
      low) =
      if 0 ≤ x ∧ x < (2 ^ width : Nat) then .ok value
      else .error (.overflow target) := by
  simp only [requireWidth_eq sound read, Bignum.isNegative_eq sound read,
    decide_eq_false_iff_not, require_bind]
  by_cases negative : x < 0
  · have outside : ¬(0 ≤ x ∧ x < (2 ^ width : Nat)) := by omega
    rw [if_neg (not_not_intro negative), if_neg outside]
  · have magnitude : (x.natAbs : Int) = x := by omega
    have sameRange :
        x.natAbs < 2 ^ width ↔ 0 ≤ x ∧ x < (2 ^ width : Nat) := by omega
    simp only [if_pos negative, sameRange, isLow magnitude]

/-- A checked conversion with sign answers the signed pattern of a magnitude
that is not too wide, if the pattern has kept the sign. -/
theorem signedChecked_eq (sound : heap.SoundBignum number)
    (read : number.value heap = .ok x) {β : Type} {low : Except Error β}
    {magnitude : β} (isLow : low = .ok magnitude) {least bound : Int}
    {negated pattern : β → α} {below above : β → Prop} [DecidablePred below]
    [DecidablePred above]
    (narrow : least ≤ x ∧ x < bound → x.natAbs < 2 ^ width)
    (ifNegative : x < 0 → x.natAbs < 2 ^ width →
      negated magnitude = value ∧
        (below magnitude ↔ least ≤ x ∧ x < bound))
    (otherwise : ¬x < 0 → x.natAbs < 2 ^ width →
      pattern magnitude = value ∧
        (above magnitude ↔ least ≤ x ∧ x < bound)) :
    (do
      requireWidth number width target heap
      let magnitude ← low
      if number.isNegative then
        require (below magnitude) (.overflow target)
        return negated magnitude
      else
        require (above magnitude) (.overflow target)
        return pattern magnitude) =
      if least ≤ x ∧ x < bound then .ok value
      else .error (.overflow target) := by
  simp only [requireWidth_eq sound read, Bignum.isNegative_eq sound read,
    decide_eq_true_eq, isLow, require_bind]
  by_cases wide : x.natAbs < 2 ^ width
  · by_cases negative : x < 0
    · obtain ⟨same, kept⟩ := ifNegative negative wide
      simp only [if_pos wide, bind, Except.bind, if_pos negative, kept, same]
      rfl
    · obtain ⟨same, kept⟩ := otherwise negative wide
      simp only [if_pos wide, bind, Except.bind, if_neg negative, kept, same]
      rfl
  · rw [if_neg wide, if_neg (mt narrow wide)]

end Checked

theorem toUInt32Checked_eq
    (regular : heap.Regular) (integer : heap.Integer operand x) :
    toUInt32Checked operand heap =
      if 0 ≤ x ∧
        x <
          2 ^ 32 then .ok (UInt32.ofInt x) else
            .error (.overflow .unsigned32) := by
  obtain ⟨number, found, sound, read⟩ := exists_bignum regular integer
  rw [toUInt32Checked, found]
  refine unsignedChecked_eq sound read fun magnitude => ?_
  rw [Bignum.low32_eq sound read, ← uint32_ofInt_natCast, magnitude]

theorem toUInt64Checked_eq
    (regular : heap.Regular) (integer : heap.Integer operand x) :
    toUInt64Checked operand heap =
      if 0 ≤ x ∧
        x <
          2 ^ 64 then .ok (UInt64.ofInt x) else
            .error (.overflow .unsigned64) := by
  obtain ⟨number, found, sound, read⟩ := exists_bignum regular integer
  rw [toUInt64Checked, found]
  refine unsignedChecked_eq sound read fun magnitude => ?_
  rw [Bignum.low64_eq sound read, ← uint64_ofInt_natCast, magnitude]

/-- A pattern of 32 bits keeps its sign exactly within the signed range. -/
theorem int32_ofInt_neg_iff (wide : -2 ^ 32 < x) (low : x < 2 ^ 32) :
    Int32.ofInt x < 0 ↔ -2 ^ 31 ≤ x ∧ x < 0 ∨ 2 ^ 31 ≤ x := by
  rw [Int32.lt_iff_toInt_lt, Int32.toInt_ofInt, Int.bmod_def]
  simp only [Int32.size, Int32.toInt_zero]
  omega

theorem int64_ofInt_neg_iff (wide : -2 ^ 64 < x) (low : x < 2 ^ 64) :
    Int64.ofInt x < 0 ↔ -2 ^ 63 ≤ x ∧ x < 0 ∨ 2 ^ 63 ≤ x := by
  rw [Int64.lt_iff_toInt_lt, Int64.toInt_ofInt, Int.bmod_def]
  simp only [Int64.size, Int64.toInt_zero]
  omega

theorem toInt32Checked_eq
    (regular : heap.Regular) (integer : heap.Integer operand x) :
    toInt32Checked operand heap =
      if -2 ^ 31 ≤ x ∧ x < 2 ^ 31 then .ok (Int32.ofInt x)
      else .error (.overflow .signed32) := by
  obtain ⟨number, found, sound, read⟩ := exists_bignum regular integer
  rw [toInt32Checked, found]
  refine signedChecked_eq sound read (Bignum.low32_eq sound read) (by omega)
    ?_ ?_
  · intro negative wide
    have magnitude : -(x.natAbs : Int) = x := by omega
    rw [uint32_toInt32_ofNat, ← Int32.ofInt_neg, magnitude,
      int32_ofInt_neg_iff (by omega) (by omega)]
    exact ⟨rfl, by omega⟩
  · intro nonnegative wide
    have magnitude : (x.natAbs : Int) = x := by omega
    rw [uint32_toInt32_ofNat, magnitude, ← Int32.not_lt,
      int32_ofInt_neg_iff (by omega) (by omega)]
    exact ⟨rfl, by omega⟩

theorem toInt64Checked_eq
    (regular : heap.Regular) (integer : heap.Integer operand x) :
    toInt64Checked operand heap =
      if -2 ^ 63 ≤ x ∧ x < 2 ^ 63 then .ok (Int64.ofInt x)
      else .error (.overflow .signed64) := by
  obtain ⟨number, found, sound, read⟩ := exists_bignum regular integer
  rw [toInt64Checked, found]
  refine signedChecked_eq sound read (Bignum.low64_eq sound read) (by omega)
    ?_ ?_
  · intro negative wide
    have magnitude : -(x.natAbs : Int) = x := by omega
    rw [uint64_toInt64_ofNat, ← Int64.ofInt_neg, magnitude,
      int64_ofInt_neg_iff (by omega) (by omega)]
    exact ⟨rfl, by omega⟩
  · intro nonnegative wide
    have magnitude : (x.natAbs : Int) = x := by omega
    rw [uint64_toInt64_ofNat, magnitude, ← Int64.not_lt,
      int64_ofInt_neg_iff (by omega) (by omega)]
    exact ⟨rfl, by omega⟩

end BigInteger

end ManagedHeap
