import Mathlib.Data.Int.ModEq
import ManagedHeap.Proofs.BigInteger.Cells

/-!
# Machine values

The values of the machine integers, the integers that they stand for, and the
casts between them. A machine integer has exactly one value for every residue
modulo its range (`eq_of_modEq`), so a conversion that wraps around is
determined by the residue that it keeps: `ofInt` respects arithmetic, and casts
are `ofInt` of the integer that is cast (`cast_eq_ofInt`).
-/

namespace ManagedHeap.MachineInteger

variable {type : MachineInteger} {x y : Int}

/-! ## Values -/

/-- The values of a machine integer. -/
def Value : MachineInteger → Type
  | .unsigned32 => UInt32
  | .signed32 => Int32
  | .unsigned64 => UInt64
  | .signed64 => Int64

def bits : MachineInteger → Nat
  | .unsigned32 => 32
  | .signed32 => 32
  | .unsigned64 => 64
  | .signed64 => 64

def isSigned : MachineInteger → Bool
  | .unsigned32 => false
  | .signed32 => true
  | .unsigned64 => false
  | .signed64 => true

/-- The value that an integer has modulo the range of a machine integer. -/
def ofInt : (type : MachineInteger) → Int → type.Value
  | .unsigned32 => UInt32.ofInt
  | .signed32 => Int32.ofInt
  | .unsigned64 => UInt64.ofInt
  | .signed64 => Int64.ofInt

namespace Value

/-- The integer that a value stands for. -/
def toInt : {type : MachineInteger} → type.Value → Int
  | .unsigned32, value => UInt32.toNat value
  | .signed32, value => Int32.toInt value
  | .unsigned64, value => UInt64.toNat value
  | .signed64, value => Int64.toInt value

/-- The value as an answer of a call. -/
def answer : {type : MachineInteger} → type.Value → Answer
  | .unsigned32, value => .uint32 value
  | .signed32, value => .int32 value
  | .unsigned64, value => .uint64 value
  | .signed64, value => .int64 value

/-! ## Arithmetic that wraps around -/

instance : {type : MachineInteger} → Add type.Value
  | .unsigned32 => inferInstanceAs (Add UInt32)
  | .signed32 => inferInstanceAs (Add Int32)
  | .unsigned64 => inferInstanceAs (Add UInt64)
  | .signed64 => inferInstanceAs (Add Int64)

instance : {type : MachineInteger} → Sub type.Value
  | .unsigned32 => inferInstanceAs (Sub UInt32)
  | .signed32 => inferInstanceAs (Sub Int32)
  | .unsigned64 => inferInstanceAs (Sub UInt64)
  | .signed64 => inferInstanceAs (Sub Int64)

instance : {type : MachineInteger} → Mul type.Value
  | .unsigned32 => inferInstanceAs (Mul UInt32)
  | .signed32 => inferInstanceAs (Mul Int32)
  | .unsigned64 => inferInstanceAs (Mul UInt64)
  | .signed64 => inferInstanceAs (Mul Int64)

instance : {type : MachineInteger} → Neg type.Value
  | .unsigned32 => inferInstanceAs (Neg UInt32)
  | .signed32 => inferInstanceAs (Neg Int32)
  | .unsigned64 => inferInstanceAs (Neg UInt64)
  | .signed64 => inferInstanceAs (Neg Int64)

/-! ## Casts -/

/-- The pattern of 64 bits of a value: zeros above an unsigned one, copies of
the sign above a signed one. -/
def extended : {type : MachineInteger} → type.Value → UInt64
  | .unsigned32, value => UInt32.toUInt64 value
  | .signed32, value => (Int32.toInt64 value).toUInt64
  | .unsigned64, value => value
  | .signed64, value => Int64.toUInt64 value

/-- The value that stands in the low bits of a pattern. -/
def ofPattern (pattern : UInt64) : (type : MachineInteger) → type.Value
  | .unsigned32 => pattern.toUInt32
  | .signed32 => pattern.toUInt32.toInt32
  | .unsigned64 => pattern
  | .signed64 => pattern.toInt64

/-- A value as one of another machine integer. -/
def cast (value : type.Value) (target : MachineInteger) : target.Value :=
  ofPattern value.extended target

end Value

/-! ## Residues -/

theorem inRange_toInt (value : type.Value) : type.InRange value.toInt := by
  cases type with
  | unsigned32 =>
    exact ⟨Int.natCast_nonneg _, Int.ofNat_lt.mpr (UInt32.toNat_lt value)⟩
  | signed32 => exact ⟨Int32.le_toInt value, Int32.toInt_lt value⟩
  | unsigned64 =>
    exact ⟨Int.natCast_nonneg _, Int.ofNat_lt.mpr (UInt64.toNat_lt value)⟩
  | signed64 => exact ⟨Int64.le_toInt value, Int64.toInt_lt value⟩

/-- In range there is one integer of every residue. -/
theorem eq_of_modEq (left : type.InRange x) (right : type.InRange y)
    (congruent : x ≡ y [ZMOD 2 ^ type.bits]) : x = y := by
  cases type <;> simp only [InRange, bits, Int.ModEq] at left right congruent <;>
    omega

theorem Value.toInt_injective {left right : type.Value}
    (same : left.toInt = right.toInt) : left = right := by
  cases type with
  | unsigned32 => exact UInt32.toNat_inj.mp (Int.ofNat_inj.mp same)
  | signed32 => exact Int32.toInt_inj.mp same
  | unsigned64 => exact UInt64.toNat_inj.mp (Int.ofNat_inj.mp same)
  | signed64 => exact Int64.toInt_inj.mp same

/-- The value of an integer keeps its residue. -/
theorem toInt_ofInt_modEq (type : MachineInteger) (x : Int) :
    (type.ofInt x).toInt ≡ x [ZMOD 2 ^ type.bits] := by
  cases type with
  | unsigned32 =>
    show ((UInt32.ofInt x).toNat : Int) % 2 ^ 32 = x % 2 ^ 32
    rw [UInt32.ofInt, UInt32.toNat_ofNat']
    omega
  | signed32 =>
    show (Int32.ofInt x).toInt % 2 ^ 32 = x % 2 ^ 32
    rw [Int32.toInt_ofInt]
    exact Int.bmod_emod
  | unsigned64 =>
    show ((UInt64.ofInt x).toNat : Int) % 2 ^ 64 = x % 2 ^ 64
    rw [UInt64.ofInt, UInt64.toNat_ofNat']
    omega
  | signed64 =>
    show (Int64.ofInt x).toInt % 2 ^ 64 = x % 2 ^ 64
    rw [Int64.toInt_ofInt]
    exact Int.bmod_emod

theorem toInt_ofInt (inRange : type.InRange x) : (type.ofInt x).toInt = x :=
  eq_of_modEq (inRange_toInt _) inRange (toInt_ofInt_modEq type x)

theorem ofInt_toInt (value : type.Value) : type.ofInt value.toInt = value :=
  Value.toInt_injective (toInt_ofInt (inRange_toInt value))

/-- An unsigned value is the residue itself. -/
theorem toInt_ofInt_of_unsigned (unsigned : type.isSigned = false) (x : Int) :
    (type.ofInt x).toInt = x % 2 ^ type.bits := by
  have inRange : type.InRange (x % 2 ^ type.bits) := by
    cases type <;> simp only [isSigned, reduceCtorEq] at unsigned <;>
      simp only [InRange, bits] <;> omega
  have congruent := (toInt_ofInt_modEq type x).trans (Int.mod_modEq x _).symm
  exact eq_of_modEq (inRange_toInt _) inRange congruent

private theorem answer_ofInt (type : MachineInteger) (x : Int) :
    (type.ofInt x).answer = type.wrapped x := by
  cases type <;> rfl

/-! ## Arithmetic on residues -/

theorem ofInt_add (type : MachineInteger) (x y : Int) :
    type.ofInt (x + y) = type.ofInt x + type.ofInt y := by
  cases type with
  | unsigned32 => exact UInt32.ofInt_add x y
  | signed32 => exact Int32.ofInt_add x y
  | unsigned64 => exact UInt64.ofInt_add x y
  | signed64 => exact Int64.ofInt_add x y

theorem ofInt_neg (type : MachineInteger) (x : Int) :
    type.ofInt (-x) = -type.ofInt x := by
  cases type with
  | unsigned32 => exact UInt32.ofInt_neg x
  | signed32 => exact Int32.ofInt_neg x
  | unsigned64 => exact UInt64.ofInt_neg x
  | signed64 => exact Int64.ofInt_neg x

theorem ofInt_sub (type : MachineInteger) (x y : Int) :
    type.ofInt (x - y) = type.ofInt x - type.ofInt y := by
  rw [Int.sub_eq_add_neg, ofInt_add, ofInt_neg]
  cases type with
  | unsigned32 => exact (UInt32.sub_eq_add_neg _ _).symm
  | signed32 => exact (Int32.sub_eq_add_neg _ _).symm
  | unsigned64 => exact (UInt64.sub_eq_add_neg _ _).symm
  | signed64 => exact (Int64.sub_eq_add_neg _ _).symm

theorem ofInt_mul (type : MachineInteger) (x y : Int) :
    type.ofInt (x * y) = type.ofInt x * type.ofInt y := by
  cases type with
  | unsigned32 => exact UInt32.ofInt_mul x y
  | signed32 => exact Int32.ofInt_mul x y
  | unsigned64 => exact UInt64.ofInt_mul x y
  | signed64 => exact Int64.ofInt_mul x y

/-! ## Casts of residues -/

private theorem uint32_toUInt64_eq (value : UInt32) :
    value.toUInt64 = UInt64.ofInt value.toNat := by
  have bound := value.toNat_lt
  apply UInt64.toNat_inj.mp
  rw [uint64_ofInt_natCast, UInt32.toNat_toUInt64, UInt64.toNat_ofNat']
  omega

private theorem int64_toUInt64_eq (value : Int64) :
    value.toUInt64 = UInt64.ofInt value.toInt :=
  calc
    value.toUInt64 = (UInt64.ofInt value.toInt).toInt64.toUInt64 := by
      rw [uint64_toInt64_ofInt, Int64.ofInt_toInt]
    _ = UInt64.ofInt value.toInt := UInt64.toUInt64_toInt64 _

private theorem int32_toUInt64_eq (value : Int32) :
    value.toInt64.toUInt64 = UInt64.ofInt value.toInt := by
  rw [int64_toUInt64_eq, Int32.toInt_toInt64]

private theorem uint64_toUInt32_ofInt (x : Int) :
    (UInt64.ofInt x).toUInt32 = UInt32.ofInt x := by
  apply UInt32.toNat_inj.mp
  rw [UInt64.toNat_toUInt32, UInt64.ofInt, UInt32.ofInt, UInt64.toNat_ofNat',
    UInt32.toNat_ofNat']
  omega

/-- Extended to 64 bits, a value keeps its residue. -/
theorem Value.extended_eq (value : type.Value) :
    value.extended = UInt64.ofInt value.toInt := by
  cases type with
  | unsigned32 => exact uint32_toUInt64_eq value
  | signed32 => exact int32_toUInt64_eq value
  | unsigned64 =>
    rw [toInt, uint64_ofInt_natCast]
    exact UInt64.ofNat_toNat.symm
  | signed64 => exact int64_toUInt64_eq value

theorem Value.ofPattern_ofInt (target : MachineInteger) (x : Int) :
    ofPattern (UInt64.ofInt x) target = target.ofInt x := by
  cases target with
  | unsigned32 => exact uint64_toUInt32_ofInt x
  | signed32 =>
    rw [ofPattern, uint64_toUInt32_ofInt]
    exact uint32_toInt32_ofInt x
  | unsigned64 => rfl
  | signed64 => exact uint64_toInt64_ofInt x

/-- A cast keeps the residue of the integer that is cast. -/
theorem Value.cast_eq_ofInt (value : type.Value) (target : MachineInteger) :
    value.cast target = target.ofInt value.toInt := by
  rw [cast, extended_eq, ofPattern_ofInt]

/-- The sign of minus one fills the upper half. -/
example :
    (Value.cast (show signed32.Value from (-1 : Int32)) .unsigned64).answer =
      .uint64 0xFFFFFFFFFFFFFFFF := by
  decide

/-! ## Conversions of big integers -/

variable {heap : Heap} {operand : Handle}

theorem wrap_eq (target : MachineInteger) (regular : heap.Regular)
    (integer : heap.Integer operand x) :
    target.wrap operand heap = .ok (target.ofInt x).answer := by
  rw [target.wrap_eq_read regular, Heap.integer_eq_ok_iff.mpr integer,
    answer_ofInt]
  rfl

theorem narrow_eq (target : MachineInteger) (regular : heap.Regular)
    (integer : heap.Integer operand x) :
    target.narrow operand heap =
      if target.InRange x then .ok (target.ofInt x).answer
      else .error (.overflow target) := by
  rw [target.narrow_eq_read regular, Heap.integer_eq_ok_iff.mpr integer,
    answer_ofInt]
  rfl

end ManagedHeap.MachineInteger
