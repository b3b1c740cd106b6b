import ManagedHeap.Host.Call
import ManagedHeap.Proofs.BigInteger.Inspection
import ManagedHeap.Proofs.BigInteger.Results

/-!
# Arithmetic on big integers

What each entry point builds, as a function of the values of its operands, and
what that takes from the heap, as a function of the values and the configured
precision.
-/

namespace ManagedHeap.BigInteger

open Bignum (Fills growth growthVia)

variable {heap : Heap} {operand left right : Handle} {x y : Int} {cost : Nat}
  {result : Except Error Int}

/-! ## Operands -/

private theorem builds_unary {operation : Bignum → DigitM Unit}
    (regular : heap.Regular)
    (integer : heap.Integer operand x)
    (fills : ∀ {number : Bignum} {workspace : Workspace},
      workspace.heap.Bounded →
      workspace.heap.Backs workspace.target →
      workspace.target.capacity = heap.config.precision.toNat →
      number.value workspace.heap = .ok x →
      number.used = Digits.count x.natAbs →
        Fills (operation number) workspace result cost) :
    Builds (unary operation operand) heap result
      (allocationSize heap.config.precision.toNat + cost) := by
  obtain ⟨number, found, sound, read⟩ := exists_bignum regular integer
  unfold Builds unary
  refine Ensures.read found
    (builds_build regular fun {workspace handle} blank capacity => ?_)
  refine delivers_of_fills blank.backs ?_
  exact fills blank.regular.tidy.bounded blank.backs capacity
    ((sound.value_eq blank.grows).trans read) (sound.used_eq read)

private theorem builds_binary {operation : Bignum → Bignum → DigitM Unit}
    (regular : heap.Regular)
    (leftInteger : heap.Integer left x) (rightInteger : heap.Integer right y)
    (fills : ∀ {leftNumber rightNumber : Bignum} {workspace : Workspace},
      workspace.heap.Bounded → workspace.heap.Backs workspace.target →
      workspace.target.capacity = heap.config.precision.toNat →
      leftNumber.value workspace.heap = .ok x →
      leftNumber.used = Digits.count x.natAbs →
      rightNumber.value workspace.heap = .ok y →
      rightNumber.used = Digits.count y.natAbs →
        Fills (operation leftNumber rightNumber) workspace result cost) :
    Builds (binary operation left right) heap result
      (allocationSize heap.config.precision.toNat + cost) := by
  obtain ⟨leftNumber, leftFound, leftSound, readLeft⟩ :=
    exists_bignum regular leftInteger
  obtain ⟨rightNumber, rightFound, rightSound, readRight⟩ :=
    exists_bignum regular rightInteger
  unfold Builds binary
  refine Ensures.read leftFound (Ensures.read rightFound
    (builds_build regular fun {workspace handle} blank capacity => ?_))
  refine delivers_of_fills blank.backs ?_
  exact fills blank.regular.tidy.bounded blank.backs capacity
    ((leftSound.value_eq blank.grows).trans readLeft)
    (leftSound.used_eq readLeft)
    ((rightSound.value_eq blank.grows).trans readRight)
    (rightSound.used_eq readRight)

/-! ## One operand -/

theorem builds_neg (regular : heap.Regular) (integer : heap.Integer operand x) :
    Builds (neg operand) heap (.ok (-x))
      (allocationSize heap.config.precision.toNat +
        growth heap.config.precision.toNat (Digits.count (-x).natAbs)) := by
  refine builds_unary regular integer fun bounded backs capacity read _ => ?_
  rw [← capacity]
  exact Bignum.fills_neg bounded backs read

theorem builds_abs (regular : heap.Regular) (integer : heap.Integer operand x) :
    Builds (abs operand) heap (.ok x.natAbs)
      (allocationSize heap.config.precision.toNat +
        growth heap.config.precision.toNat (Digits.count x.natAbs)) := by
  refine builds_unary regular integer fun bounded backs capacity read _ => ?_
  rw [← capacity]
  exact Bignum.fills_abs bounded backs read

/-- What a shift makes of its operand; a negative count is refused. -/
def shiftResult (operand count : Int) : Except Error Int :=
  if count <
    0 then .error (.arithmetic .invalidOperand) else
      .ok (operand * 2 ^ count.toNat)

/-- What a shift takes from the heap besides its blank result. -/
def shiftCost (precision : Nat) (operand count : Int) : Nat :=
  if count < 0 then
    0
  else
    Bignum.shiftGrowth precision (Digits.count operand.natAbs) operand
      count.toNat

theorem builds_shiftLeft (count : Int) (regular : heap.Regular)
    (integer : heap.Integer operand x) :
    Builds (shiftLeft operand count) heap (shiftResult x count)
      (allocationSize heap.config.precision.toNat +
        shiftCost heap.config.precision.toNat x count) := by
  refine builds_unary regular integer
    fun {number workspace} bounded backs capacity read used => ?_
  unfold shiftResult shiftCost
  split
  · rename_i negative
    exact Bignum.fills_shiftLeft_of_neg number negative
  · obtain ⟨places, rfl⟩ := Int.eq_ofNat_of_zero_le (Int.not_lt.mp ‹_›)
    rw [← capacity, ← used]
    exact Bignum.fills_shiftLeft places bounded backs read

/-! ## Powers -/

/-- What a power makes of its operands; an exponent that is no unsigned 32-bit
number is refused. -/
def powResult (base exponent : Int) : Except Error Int :=
  if 0 ≤ exponent ∧ exponent < 2 ^ 32 then .ok (base ^ exponent.toNat)
  else .error (.overflow .unsigned32)

/-- What a power takes from the heap; a refused exponent takes nothing. -/
def powCost (precision : Nat) (base exponent : Int) : Nat :=
  if 0 ≤ exponent ∧ exponent < 2 ^ 32 then
    allocationSize precision +
      growthVia precision (Bignum.powerRoom base exponent.toNat)
        (base ^ exponent.toNat)
  else
    0

theorem builds_pow (regular : heap.Regular) (leftInteger : heap.Integer left x)
    (rightInteger : heap.Integer right y) :
    Builds (pow left right) heap (powResult x y)
      (powCost heap.config.precision.toNat x y) := by
  have exponent := toUInt32Checked_eq regular rightInteger
  unfold Builds pow powResult powCost
  split
  · rename_i inRange
    rw [if_pos inRange] at exponent
    have count : (UInt32.ofInt y).toNat = y.toNat := by
      obtain ⟨places, rfl⟩ := Int.eq_ofNat_of_zero_le inRange.1
      rw [uint32_ofInt_natCast, UInt32.toNat_ofNat', Int.toNat_natCast]
      omega
    refine Ensures.read exponent (builds_unary regular leftInteger ?_)
    intro number workspace bounded backs capacity read _
    rw [← capacity, count]
    exact Bignum.fills_pow y.toNat bounded backs read
  · rename_i outside
    rw [if_neg outside] at exponent
    rw [ensures_bind, ensures_inspect, exponent]
    refine ⟨(nomatch ·, ·), ?_⟩
    rintro _ ⟨⟩
    exact ⟨regular, .refl _ _, Or.inl ⟨rfl, rfl⟩⟩

end ManagedHeap.BigInteger

namespace ManagedHeap.BinaryOperation

/-! ## Two operands -/

open Bignum (growth growthVia)
open BigInteger (allocationSize)

/-- What an operation makes of its operands. -/
def result : BinaryOperation → Int → Int → Except Error Int
  | .add, left, right => .ok (left + right)
  | .sub, left, right => .ok (left - right)
  | .mul, left, right => .ok (left * right)
  | .div, left, right => Bignum.divisionResult right (left.tdiv right)
  | .rem, left, right => Bignum.divisionResult right (left.tmod right)
  | .pow, left, right => BigInteger.powResult left right

/-- What an operation takes from the heap. -/
def cost (precision : Nat) : BinaryOperation → Int → Int → Nat
  | .add, left, right =>
    allocationSize precision + growth precision
      (Digits.count (left + right).natAbs)
  | .sub, left, right =>
    allocationSize precision + growth precision
      (Digits.count (left - right).natAbs)
  | .mul, left, right =>
    allocationSize precision +
      growthVia precision (Digits.count left.natAbs + Digits.count right.natAbs)
        (left * right)
  | .div, left, right =>
    allocationSize precision +
      Bignum.resultGrowth precision
        (Bignum.divisionResult right (left.tdiv right))
  | .rem, left, right =>
    allocationSize precision +
      Bignum.resultGrowth precision
        (Bignum.divisionResult right (left.tmod right))
  | .pow, left, right => BigInteger.powCost precision left right

end ManagedHeap.BinaryOperation

namespace ManagedHeap.BigInteger

variable {heap : Heap} {left right : Handle} {x y : Int}

/-- Each operation builds the exact result of its operands. -/
theorem builds_perform (operation : BinaryOperation) (regular : heap.Regular)
    (leftInteger : heap.Integer left x) (rightInteger : heap.Integer right y) :
    Builds (operation.perform left right) heap (operation.result x y)
      (operation.cost heap.config.precision.toNat x y) := by
  cases operation with
  | add =>
    refine builds_binary regular leftInteger rightInteger ?_
    intro leftNumber rightNumber workspace bounded backs capacity readLeft _
      readRight _
    rw [← capacity]
    exact Bignum.fills_add bounded backs readLeft readRight
  | sub =>
    refine builds_binary regular leftInteger rightInteger ?_
    intro leftNumber rightNumber workspace bounded backs capacity readLeft _
      readRight _
    rw [← capacity]
    exact Bignum.fills_sub bounded backs readLeft readRight
  | mul =>
    refine builds_binary regular leftInteger rightInteger ?_
    intro leftNumber rightNumber workspace bounded backs capacity readLeft
      leftUsed readRight rightUsed
    rw [← capacity, ← leftUsed, ← rightUsed]
    exact Bignum.fills_mul bounded backs readLeft readRight
  | div =>
    refine builds_binary regular leftInteger rightInteger ?_
    intro leftNumber rightNumber workspace bounded backs capacity readLeft _
      readRight _
    rw [← capacity]
    exact Bignum.fills_quotient bounded backs readLeft readRight
  | rem =>
    refine builds_binary regular leftInteger rightInteger ?_
    intro leftNumber rightNumber workspace bounded backs capacity readLeft _
      readRight _
    rw [← capacity]
    exact Bignum.fills_remainder bounded backs readLeft readRight
  | pow => exact builds_pow regular leftInteger rightInteger

end ManagedHeap.BigInteger
