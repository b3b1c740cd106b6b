import ManagedHeap.Bignum.Arithmetic
import ManagedHeap.Bignum.Division

/-!
# Big integers

Big integers as heap objects. Every result is a new object whose digits stand
in a byte buffer of their own. Operands are looked up before the result is
allocated.
-/

namespace ManagedHeap.BigInteger

/-! ## Results -/

/-- Allocates a zero with the configured room. -/
def allocate : HeapM Handle := do
  let handle ← Heap.alloc (.bigInteger .empty)
  let heap ← get
  let number ← Bignum.zero heap.config.precision.toNat
  Heap.setBignum handle number
  return handle

/-- Allocates a result and lets an operation fill it. -/
def build (operation : DigitM Unit) : HeapM Handle := do
  let handle ← allocate
  let start ← HeapM.inspect (·.bignum handle)
  let number ← DigitM.build start operation
  Heap.setBignum handle number
  return handle

/-! ## Construction -/

def ofUInt32 (value : UInt32) : HeapM Handle :=
  build (Bignum.setUnsigned32 value)

def ofUInt64 (value : UInt64) : HeapM Handle :=
  build (Bignum.setUnsigned64 value)

/-- Subtracts `2 ^ bits` from the target. -/
def subtractPowerOfTwo (bits : Nat) : DigitM Unit := do
  let start ← DigitM.onHeap (Bignum.zero 1)
  let power ← DigitM.onHeap (DigitM.build start (Bignum.setPowerOfTwo bits))
  let workspace ← get
  Bignum.sub workspace.target power

/-- The big integer of a signed 32-bit number: its bit pattern, less `2 ^ 32`
if it is negative. -/
def ofInt32 (value : Int32) : HeapM Handle :=
  build do
    Bignum.setUnsigned32 value.toUInt32
    if value < 0 then
      subtractPowerOfTwo 32

/-- The big integer of a signed 64-bit number: its bit pattern, less `2 ^ 64`
if it is negative. -/
def ofInt64 (value : Int64) : HeapM Handle :=
  build do
    Bignum.setUnsigned64 value.toUInt64
    if value < 0 then
      subtractPowerOfTwo 64

/-- The big integer of a decimal numeral with an optional sign. -/
def ofDecimal (text : String) : HeapM Handle :=
  build (Bignum.readNumeral 10 text)

/-! ## Rendering and inspection -/

def toDecimal (operand : Handle) (heap : Heap) : Except Error String := do
  let number ← heap.bignum operand
  number.toNumeral 10 heap

def isNegative (operand : Handle) (heap : Heap) : Except Error Bool :=
  (heap.bignum operand).map Bignum.isNegative

/-- The number of bits of the magnitude. -/
def bitCount (operand : Handle) (heap : Heap) : Except Error Nat := do
  let number ← heap.bignum operand
  number.bitCount heap

/-! ## Comparison -/

/-- How two big integers compare. -/
def order (left right : Handle) (heap : Heap) : Except Error Ordering := do
  let leftNumber ← heap.bignum left
  let rightNumber ← heap.bignum right
  leftNumber.order rightNumber heap

inductive Comparison where
  | equal
  | less
  | greater
  | lessOrEqual
  | greaterOrEqual
  deriving DecidableEq, Repr

def Comparison.holds : Comparison → Ordering → Bool
  | .equal, ordering => ordering.isEq
  | .less, ordering => ordering.isLT
  | .greater, ordering => ordering.isGT
  | .lessOrEqual, ordering => ordering.isLE
  | .greaterOrEqual, ordering => ordering.isGE

def compare (comparison : Comparison) (left right : Handle) (heap : Heap) :
    Except Error Bool :=
  (order left right heap).map comparison.holds

/-! ## Arithmetic -/

def unary (operation : Bignum → DigitM Unit) (operand : Handle) :
    HeapM Handle := do
  let number ← HeapM.inspect (·.bignum operand)
  build (operation number)

def binary (operation : Bignum → Bignum → DigitM Unit) (left right : Handle) :
    HeapM Handle := do
  let leftNumber ← HeapM.inspect (·.bignum left)
  let rightNumber ← HeapM.inspect (·.bignum right)
  build (operation leftNumber rightNumber)

def add (left right : Handle) : HeapM Handle :=
  binary Bignum.add left right

def sub (left right : Handle) : HeapM Handle :=
  binary Bignum.sub left right

def mul (left right : Handle) : HeapM Handle :=
  binary Bignum.mul left right

/-- The quotient, truncated toward zero. -/
def div (left right : Handle) : HeapM Handle :=
  binary Bignum.quotient left right

/-- The remainder, with the sign of the dividend. -/
def rem (left right : Handle) : HeapM Handle :=
  binary Bignum.remainder left right

def neg (operand : Handle) : HeapM Handle :=
  unary Bignum.neg operand

def abs (operand : Handle) : HeapM Handle :=
  unary Bignum.abs operand

/-- The operand times `2 ^ count`. -/
def shiftLeft (operand : Handle) (count : Int) : HeapM Handle :=
  unary (fun number => number.shiftLeft count) operand

end ManagedHeap.BigInteger
