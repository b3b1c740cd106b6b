import Mathlib.Algebra.BigOperators.Fin
import Mathlib.Algebra.BigOperators.Ring.Finset
import ManagedHeap.Proofs.Host.Soundness

/-!
# Exact arithmetic

The integer of a bignum object is read from its digits, place by place
(`Spells`). In every reached heap the arithmetic entry points answer new
bignums whose digits spell the exact result without leading zeros, unless
memory runs out (`ComputesExactly`).
-/

namespace ManagedHeap

open scoped BigOperators

/-! ## Places -/

theorem Digits.toNat_eq_sum (digits : List UInt32) :
    toNat digits = ∑ place :
      Fin digits.length, digits[place].toNat * 2 ^ (32 * place.val) := by
  induction digits with
  | nil => rfl
  | cons head tail inductionHypothesis =>
    have split : toNat (head :: tail) = head.toNat + 2 ^ 32 * toNat tail := rfl
    rw [split, inductionHypothesis]
    simp only [List.length_cons]
    rw [Fin.sum_univ_succ, Finset.mul_sum]
    refine congrArg₂ (· + ·) (by simp) (Finset.sum_congr rfl fun place _ => ?_)
    show 2 ^ 32 * (tail[place].toNat * 2 ^ (32 * place.val)) =
      tail[place].toNat * 2 ^ (32 * (place.val + 1))
    rw [Nat.mul_add, Nat.pow_add, Nat.mul_one, Nat.mul_left_comm,
      Nat.mul_comm (2 ^ 32)]

/-- The integer with a sign and digits: the digits count by their places. -/
def Sign.signedSum (sign : Sign) (digits : List UInt32) : Int :=
  sign.apply (∑ place : Fin digits.length,
    digits[place].toNat * 2 ^ (32 * place.val))

namespace Heap

variable {heap : Heap} {handle operand left right : Handle} {value x y : Int}

/-! ## Spelled integers -/

/-- The object of a handle is a bignum that has some digits in use in its
buffer. -/
structure Spells (heap : Heap) (handle : Handle) (number : Bignum)
    (digits : List UInt32) : Prop where
  found : heap.objects.find? handle.address = some (.bigInteger number)
  read : number.digits heap = .ok digits
  length : digits.length = number.used

/-- A bignum object stands for an integer. -/
def StandsFor (heap : Heap) (handle : Handle) (value : Int) : Prop :=
  ∃ number digits, heap.Spells handle number digits ∧
    number.sign.signedSum digits = value

/-- A bignum object stands for an integer without leading zeros, and zero is
not negative. -/
def StandsNormalisedFor (heap : Heap) (handle : Handle) (value : Int) : Prop :=
  ∃ number digits, heap.Spells handle number digits ∧
    number.sign.signedSum digits = value ∧
    digits.getLast? ≠ some 0 ∧ (value = 0 → number.sign = .nonnegative)

/-- In a regular heap the digits of a bignum object spell its integer,
normalised. -/
theorem Integer.standsNormalisedFor
    (regular : heap.Regular) (integer : heap.Integer handle value) :
    heap.StandsNormalisedFor handle value := by
  obtain ⟨number, found, readValue⟩ := integer
  have sound := regular.bignums found
  obtain ⟨digits, read, length, last⟩ := sound.exists_digits
  have spelled := Except.ok.inj ((value_of_digits read).symm.trans readValue)
  rw [Digits.toNat_eq_sum] at spelled
  refine ⟨number, digits, ⟨found, read, length⟩, spelled, last, ?_⟩
  rintro rfl
  exact sound.zero_is_nonnegative (sound.used_eq readValue)

theorem StandsNormalisedFor.standsFor
    (stands : heap.StandsNormalisedFor handle value) :
    heap.StandsFor handle value := by
  obtain ⟨number, digits, spells, spelled, _⟩ := stands
  exact ⟨number, digits, spells, spelled⟩

/-- The integer that digits spell is the value that is read from them. -/
theorem StandsFor.integer (stands : heap.StandsFor handle value) :
    heap.Integer handle value := by
  obtain ⟨number, digits, spells, rfl⟩ := stands
  refine ⟨number, spells.found, ?_⟩
  rw [value_of_digits spells.read, Digits.toNat_eq_sum, Sign.signedSum]

theorem StandsFor.unique (first : heap.StandsFor handle x)
    (second : heap.StandsFor handle y) : x = y := by
  obtain ⟨number, found, read⟩ := first.integer
  exact Except.ok.inj (read.symm.trans (second.integer.value_of_found found))

/-- Every bignum object of a regular heap stands for an integer. -/
theorem Regular.exists_standsFor (regular : heap.Regular) {number : Bignum}
    (found : heap.objects.find? handle.address = some (.bigInteger number)) :
    ∃ value, heap.StandsFor handle value := by
  obtain ⟨value, integer⟩ := regular.exists_integer found
  exact ⟨value, (integer.standsNormalisedFor regular).standsFor⟩

/-! ## Exact results -/

/-- An operation answers a new bignum object for an integer, normalised,
unless memory runs out. -/
def Computes (operation : HeapM Handle) (heap : Heap) (value : Int) : Prop :=
  Ensures operation heap
    (fun result after => heap.objects.find? result.address = none ∧
      after.StandsNormalisedFor result value)
    fun error _ => error.IsOutOfMemory

/-- The arithmetic entry points compute exactly on operands that stand for `x`
and `y`. -/
structure ComputesExactly (heap : Heap) (left right : Handle) (x y : Int) :
    Prop where
  add : Computes (BigInteger.add left right) heap (x + y)
  sub : Computes (BigInteger.sub left right) heap (x - y)
  mul : Computes (BigInteger.mul left right) heap (x * y)
  neg : Computes (BigInteger.neg left) heap (-x)
  abs : Computes (BigInteger.abs left) heap x.natAbs
  shiftLeft : ∀ count : Int, 0 ≤ count →
    Computes (BigInteger.shiftLeft left count) heap (x * 2 ^ count.toNat)
  pow :
    0 ≤ y → y < 2 ^ 32 → Computes (BigInteger.pow left right) heap (x ^ y.toNat)

theorem computes_of_builds {operation : HeapM Handle}
    {cost : Nat} (regular : heap.Regular)
    (builds : BigInteger.Builds operation heap (.ok value) cost) :
    Computes operation heap value := by
  apply builds.answers.mono
  · intro result after answered
    obtain ⟨regularAfter, _, atPointer, integer, _⟩ := answered
    refine ⟨?_, integer.standsNormalisedFor regularAfter⟩
    exact regular.tidy.bounded.find?_eq_none (Nat.le_of_eq atPointer.symm)
  · exact fun _ _ lacking => lacking.1

theorem Regular.computesExactly
    (regular : heap.Regular) (leftInteger : heap.Integer left x)
    (rightInteger : heap.Integer right y) :
    heap.ComputesExactly left right x y where
  add :=
    computes_of_builds regular
      (BigInteger.builds_perform .add regular leftInteger rightInteger)
  sub :=
    computes_of_builds regular
      (BigInteger.builds_perform .sub regular leftInteger rightInteger)
  mul :=
    computes_of_builds regular
      (BigInteger.builds_perform .mul regular leftInteger rightInteger)
  neg := computes_of_builds regular (BigInteger.builds_neg regular leftInteger)
  abs := computes_of_builds regular (BigInteger.builds_abs regular leftInteger)
  shiftLeft := by
    intro count nonnegative
    have builds := BigInteger.builds_shiftLeft count regular leftInteger
    rw [BigInteger.shiftResult, if_neg (Int.not_lt.mpr nonnegative)] at builds
    exact computes_of_builds regular builds
  pow := by
    intro nonnegative bounded
    have builds := BigInteger.builds_pow regular leftInteger rightInteger
    rw [BigInteger.powResult, if_pos ⟨nonnegative, bounded⟩] at builds
    exact computes_of_builds regular builds

end Heap

/-! ## Reached heaps -/

namespace Session

/-- All bignum objects of a reached heap stand for integers, and arithmetic on
them is exact. -/
theorem reached_computesExactly
    {config : Config} {host : Host} {session : Session}
    {left right : Handle} {leftNumber rightNumber : Bignum}
    (reached : Reached config host session)
    (leftFound : session.heap.objects.find? left.address =
      some (.bigInteger leftNumber))
    (rightFound : session.heap.objects.find? right.address =
      some (.bigInteger rightNumber)) :
    ∃ x y, session.heap.StandsFor left x ∧ session.heap.StandsFor right y ∧
      session.heap.ComputesExactly left right x y := by
  have regular := reached.regular
  obtain ⟨x, leftInteger⟩ := regular.exists_integer leftFound
  obtain ⟨y, rightInteger⟩ := regular.exists_integer rightFound
  exact ⟨x, y, (leftInteger.standsNormalisedFor regular).standsFor,
    (rightInteger.standsNormalisedFor regular).standsFor,
    regular.computesExactly leftInteger rightInteger⟩

/-- Minus seven and zero, with the remains of a failed division on the heap. -/
theorem trappedDivision_computesExactly :
    ∃ sevenNumber zeroNumber,
      Reached {} .plain trappedDivision ∧
      trappedDivision.heap.objects.find? (Handle.ofAddress 0x1002c).address =
        some (.bigInteger sevenNumber) ∧
      trappedDivision.heap.objects.find? (Handle.ofAddress 0x10000).address =
        some (.bigInteger zeroNumber) ∧
      ∃ x y, trappedDivision.heap.StandsFor (Handle.ofAddress 0x1002c) x ∧
        trappedDivision.heap.StandsFor (Handle.ofAddress 0x10000) y ∧
        trappedDivision.heap.ComputesExactly
          (Handle.ofAddress 0x1002c) (Handle.ofAddress 0x10000) x y :=
  have sevenFound :
      trappedDivision.heap.objects.find? (Handle.ofAddress 0x1002c).address =
        some (.bigInteger
          ⟨1, 4, .negative, some (.startOf (Handle.ofAddress 0x10040))⟩) := by
    decide +kernel
  have zeroFound :
      trappedDivision.heap.objects.find? (Handle.ofAddress 0x10000).address =
        some (.bigInteger
          ⟨0, 4, .nonnegative,
            some (.startOf (Handle.ofAddress 0x10014))⟩) := by
    decide +kernel
  ⟨_, _, reached_trappedDivision, sevenFound, zeroFound,
    reached_computesExactly reached_trappedDivision sevenFound zeroFound⟩

end Session

end ManagedHeap
