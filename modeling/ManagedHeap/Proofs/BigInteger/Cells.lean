import ManagedHeap.Proofs.BigInteger.Arithmetic
import ManagedHeap.Proofs.BigInteger.Construction
import ManagedHeap.Proofs.Heap.Cells

/-!
# Big integers as cells

What the entry points for big integers make, from whatever their operands are:
an operand that is no big integer is refused before anything is allocated.
-/

namespace ManagedHeap.BigInteger

open Heap (Makes charge)

variable {heap : Heap} {operand left right : Handle}

theorem Builds.makes {operation : HeapM Handle} {result : Except Error Int}
    {cost : Nat}
    (builds : Builds operation heap result cost) :
    Makes operation heap (result.map .integer) cost := by
  refine Ensures.mono builds ?_ ?_
  · rintro handle after ⟨value, rfl, regular, grows, atPointer, integer,
      pointer⟩
    exact ⟨.integer value, rfl, regular, grows, atPointer, integer, pointer⟩
  · rintro error after ⟨regular, grows, failure⟩
    refine ⟨regular, grows, failure.imp_left ?_⟩
    rintro ⟨rfl, pointer⟩
    exact ⟨rfl, pointer⟩

/-! ## Operands -/

theorem integer_eq_error
    {error : Error} (failed : heap.bignum operand = .error error) :
    heap.integer operand = .error error := by
  rw [Heap.integer, failed]
  rfl

theorem exists_integer (regular : heap.Regular) {number : Bignum}
    (read : heap.bignum operand = .ok number) :
    ∃ value, heap.integer operand = .ok value ∧ heap.Integer operand value := by
  obtain ⟨value, integer⟩ :=
    regular.exists_integer (Heap.bignum_eq_ok_iff.mp read)
  exact ⟨value, Heap.integer_eq_ok_iff.mpr integer, integer⟩

/-- What is built from one operand is made from whatever the operand is. -/
theorem makes_unary {operation : Bignum → DigitM Unit}
    {result : Int → Except Error Int}
    {cost : Int → Nat} (regular : heap.Regular)
    (builds : ∀ {x}, heap.Integer operand x →
      Builds (unary operation operand) heap (result x) (cost x)) :
    Makes (unary operation operand) heap
      ((heap.integer operand >>= result).map .integer)
      (charge (heap.integer operand) cost) := by
  cases read : heap.bignum operand with
  | error error =>
    rw [integer_eq_error read]
    exact Heap.makes_of_read_eq_error regular read
  | ok number =>
    obtain ⟨x, isInteger, integer⟩ := exists_integer regular read
    rw [isInteger]
    exact (builds integer).makes

private theorem makes_binary {operation : Bignum → Bignum → DigitM Unit}
    {result : Int → Int → Except Error Int}
    {cost : Int → Int → Nat} (regular : heap.Regular)
    (builds : ∀ {x y}, heap.Integer left x → heap.Integer right y →
      Builds (binary operation left right) heap (result x y) (cost x y)) :
    Makes (binary operation left right) heap
      ((heap.integer left >>= fun x => heap.integer right >>= result x).map
        .integer)
      (charge (heap.integer left) fun x =>
        charge (heap.integer right) (cost x)) := by
  cases readLeft : heap.bignum left with
  | error error =>
    rw [integer_eq_error readLeft]
    exact Heap.makes_of_read_eq_error regular readLeft
  | ok leftNumber =>
    obtain ⟨x, isLeft, leftInteger⟩ := exists_integer regular readLeft
    rw [isLeft]
    cases readRight : heap.bignum right with
    | error error =>
      rw [integer_eq_error readRight]
      exact Ensures.read readLeft
        (Heap.makes_of_read_eq_error regular readRight)
    | ok rightNumber =>
      obtain ⟨y, isRight, rightInteger⟩ := exists_integer regular readRight
      rw [isRight]
      exact (builds leftInteger rightInteger).makes

end ManagedHeap.BigInteger

namespace ManagedHeap.BinaryOperation

/-! ## Operations on two operands -/

open Heap (charge)

/-- What an operation makes of two operands that may be no big integers. A
power looks at its exponent first. -/
def outcome (operation : BinaryOperation) (left right : Except Error Int) :
    Except Error Int :=
  match operation with
  | .pow => right >>= fun exponent =>
    if 0 ≤ exponent ∧ exponent < 2 ^ 32 then
      left >>= fun base => .ok (base ^ exponent.toNat)
    else
      .error (.overflow .unsigned32)
  | operation => left >>= fun x => right >>= operation.result x

/-- What an operation takes from the heap for two operands that may be no big
integers. -/
def charged (precision : Nat) (operation : BinaryOperation)
    (left right : Except Error Int) : Nat :=
  charge left fun x => charge right fun y => operation.cost precision x y

end ManagedHeap.BinaryOperation

namespace ManagedHeap.BigInteger

open Heap (Makes charge)

variable {heap : Heap} {left right : Handle}

private theorem makes_pow (regular : heap.Regular) :
    Makes (pow left right) heap
      ((BinaryOperation.pow.outcome (heap.integer left)
        (heap.integer right)).map .integer)
      (BinaryOperation.pow.charged heap.config.precision.toNat
        (heap.integer left)
        (heap.integer right)) := by
  cases readRight : heap.bignum right with
  | error error =>
    have exponent : toUInt32Checked right heap = .error error := by
      rw [toUInt32Checked, readRight]
      rfl
    have free :
        BinaryOperation.pow.charged heap.config.precision.toNat
          (heap.integer left)
        (.error error) = 0 := by
      unfold BinaryOperation.charged
      cases heap.integer left <;> rfl
    rw [integer_eq_error readRight, free]
    exact Heap.makes_of_read_eq_error regular exponent
  | ok rightNumber =>
    obtain ⟨y, isRight, rightInteger⟩ := exists_integer regular readRight
    have exponent := toUInt32Checked_eq regular rightInteger
    rw [isRight]
    cases readLeft : heap.bignum left with
    | error error =>
      rw [integer_eq_error readLeft]
      by_cases inRange : 0 ≤ y ∧ y < 2 ^ 32
      · rw [if_pos inRange] at exponent
        have refused :
            BinaryOperation.pow.outcome (.error error) (.ok y) = .error error :=
          if_pos inRange
        rw [refused]
        exact Ensures.read exponent
          (Heap.makes_of_read_eq_error regular readLeft)
      · rw [if_neg inRange] at exponent
        have refused : BinaryOperation.pow.outcome (.error error) (.ok y) =
            .error (.overflow .unsigned32) :=
          if_neg inRange
        rw [refused]
        exact Heap.makes_of_read_eq_error regular exponent
    | ok leftNumber =>
      obtain ⟨x, isLeft, leftInteger⟩ := exists_integer regular readLeft
      rw [isLeft]
      exact (builds_pow regular leftInteger rightInteger).makes

/-- Each operation makes its outcome from whatever its operands are. -/
theorem makes_perform (operation : BinaryOperation) (regular : heap.Regular) :
    Makes (operation.perform left right) heap
      ((operation.outcome (heap.integer left) (heap.integer right)).map
        .integer)
      (operation.charged heap.config.precision.toNat (heap.integer left)
        (heap.integer right)) := by
  cases operation with
  | add => exact makes_binary regular (builds_perform .add regular)
  | sub => exact makes_binary regular (builds_perform .sub regular)
  | mul => exact makes_binary regular (builds_perform .mul regular)
  | div => exact makes_binary regular (builds_perform .div regular)
  | rem => exact makes_binary regular (builds_perform .rem regular)
  | pow => exact makes_pow regular

/-! ## Reading -/

/-- What is read of an integer is read from whatever the operand is. -/
theorem read_eq {α : Type} {read : Except Error α}
    {result : Int → Except Error α}
    (regular : heap.Regular)
    (refused : ∀ {error}, heap.bignum left = .error error → read = .error error)
    (answered : ∀ {x}, heap.Integer left x → read = result x) :
    read = heap.integer left >>= result := by
  cases readLeft : heap.bignum left with
  | error error =>
    rw [integer_eq_error readLeft]
    exact refused readLeft
  | ok number =>
    obtain ⟨x, isInteger, integer⟩ := exists_integer regular readLeft
    rw [isInteger]
    exact answered integer

theorem compare_eq_read (comparison : Comparison) (regular : heap.Regular) :
    BigInteger.compare comparison left right heap = (do
      let x ← heap.integer left
      let y ← heap.integer right
      return comparison.holds (Ord.compare x y)) := by
  refine read_eq regular ?_ fun {x} leftInteger => ?_
  · intro error failed
    rw [BigInteger.compare, order, failed]
    rfl
  · refine read_eq regular ?_ fun {y} rightInteger => ?_
    · intro error failed
      obtain ⟨number, found, _⟩ := leftInteger
      rw [BigInteger.compare, order, Heap.bignum_eq_ok_iff.mpr found, failed]
      rfl
    · exact compare_eq comparison regular leftInteger rightInteger

end ManagedHeap.BigInteger

namespace ManagedHeap.MachineInteger

/-! ## Machine integers -/

/-- An integer modulo the range of a machine integer. -/
def wrapped (target : MachineInteger) (value : Int) : Answer :=
  match target with
  | .unsigned32 => .uint32 (UInt32.ofInt value)
  | .signed32 => .int32 (Int32.ofInt value)
  | .unsigned64 => .uint64 (UInt64.ofInt value)
  | .signed64 => .int64 (Int64.ofInt value)

/-- An integer is in the range of a machine integer. -/
def InRange (target : MachineInteger) (value : Int) : Prop :=
  match target with
  | .unsigned32 => 0 ≤ value ∧ value < 2 ^ 32
  | .signed32 => -2 ^ 31 ≤ value ∧ value < 2 ^ 31
  | .unsigned64 => 0 ≤ value ∧ value < 2 ^ 64
  | .signed64 => -2 ^ 63 ≤ value ∧ value < 2 ^ 63

instance (target : MachineInteger) (value : Int) :
    Decidable (target.InRange value) :=
  match target with
  | .unsigned32 => inferInstanceAs (Decidable (0 ≤ value ∧ value < 2 ^ 32))
  | .signed32 => inferInstanceAs (Decidable (-2 ^ 31 ≤ value ∧ value < 2 ^ 31))
  | .unsigned64 => inferInstanceAs (Decidable (0 ≤ value ∧ value < 2 ^ 64))
  | .signed64 => inferInstanceAs (Decidable (-2 ^ 63 ≤ value ∧ value < 2 ^ 63))

/-- An integer in the range of a machine integer, and no other. -/
def narrowed (target : MachineInteger) (value : Int) : Except Error Answer :=
  if target.InRange value then .ok (target.wrapped value) else
    .error (.overflow target)

variable {heap : Heap} {operand : Handle}

theorem wrap_eq_read (target : MachineInteger) (regular : heap.Regular) :
    target.wrap operand heap =
      heap.integer operand >>= fun value => .ok (target.wrapped value) := by
  refine BigInteger.read_eq regular ?_ ?_
  · intro error failed
    cases target <;>
      simp only [wrap, BigInteger.toInt32, BigInteger.toInt64,
        BigInteger.toUInt32,
        BigInteger.toUInt64, failed] <;> rfl
  · intro x integer
    cases target <;> simp only [wrap, BigInteger.toUInt32_eq regular integer,
      BigInteger.toInt32_eq regular integer,
      BigInteger.toUInt64_eq regular integer,
      BigInteger.toInt64_eq regular integer] <;> rfl

theorem narrow_eq_read (target : MachineInteger) (regular : heap.Regular) :
    target.narrow operand heap = heap.integer operand >>= target.narrowed := by
  refine BigInteger.read_eq regular ?_ ?_
  · intro error failed
    cases target <;>
      simp only [narrow, BigInteger.toInt32Checked, BigInteger.toInt64Checked,
        BigInteger.toUInt32Checked, BigInteger.toUInt64Checked, failed] <;> rfl
  · intro x integer
    cases target with
    | unsigned32 =>
      rw [narrow, BigInteger.toUInt32Checked_eq regular integer]
      exact apply_ite (Except.map _) ..
    | signed32 =>
      rw [narrow, BigInteger.toInt32Checked_eq regular integer]
      exact apply_ite (Except.map _) ..
    | unsigned64 =>
      rw [narrow, BigInteger.toUInt64Checked_eq regular integer]
      exact apply_ite (Except.map _) ..
    | signed64 =>
      rw [narrow, BigInteger.toInt64Checked_eq regular integer]
      exact apply_ite (Except.map _) ..

end ManagedHeap.MachineInteger
