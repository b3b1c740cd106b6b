import ManagedHeap.Bignum.Storage

/-!
# Bignum arithmetic

Arithmetic on bignums in memory. Each operation reads its operands as
integers, computes exactly and writes the result into the target of the
workspace. Where the size of a result is known beforehand, its place is asked
for first, so that a result too large fails before it is computed.
-/

namespace ManagedHeap.Bignum

/-! ## Constants -/

def setUnsigned32 (value : UInt32) : DigitM Unit :=
  store .nonnegative value.toNat

def setUnsigned64 (value : UInt64) : DigitM Unit :=
  store .nonnegative value.toNat

/-- The target becomes `2 ^ exponent`. -/
def setPowerOfTwo (exponent : Nat) : DigitM Unit := do
  reserve (exponent / digitBits + 1)
  store .nonnegative (2 ^ exponent)

/-! ## Reading -/

/-- The number of bits of the magnitude, counted to the top of the last
digit's bits. It is a natural number here; from `2 ^ 27` digits on it may have
more than 32 bits. -/
def bitCount (number : Bignum) (heap : Heap) : Except Error Nat :=
  (number.storedBytes heap).map fun bytes =>
    if number.used = 0 then
      0
    else
      let top := bytes.slice (digitBytes * (number.used - 1)) digitBytes
      digitBits * (number.used - 1) + Positional.bitLength top.toNat

/-- The magnitude modulo `2 ^ 32`. -/
def low32 (number : Bignum) (heap : Heap) : Except Error UInt32 :=
  (number.storedBytes heap).map fun bytes => UInt32.ofNat (bytes.take 4).toNat

/-- The magnitude modulo `2 ^ 64`. -/
def low64 (number : Bignum) (heap : Heap) : Except Error UInt64 :=
  (number.storedBytes heap).map fun bytes => UInt64.ofNat (bytes.take 8).toNat

/-- Compares two bignums: by sign first, then by digit count, then by
magnitude. -/
def order (left right : Bignum) (heap : Heap) : Except Error Ordering :=
  if left.sign ≠ right.sign then
    .ok (if left.sign = .negative then .lt else .gt)
  else do
    let leftMagnitude ← left.magnitude heap
    let rightMagnitude ← right.magnitude heap
    let ordering :=
      (compare left.used right.used).then (compare leftMagnitude rightMagnitude)
    return if left.sign = .negative then ordering.swap else ordering

/-! ## Ring operations -/

def add (left right : Bignum) : DigitM Unit := do
  let leftValue ← DigitM.inspect left.value
  let rightValue ← DigitM.inspect right.value
  assign (leftValue + rightValue)

def sub (left right : Bignum) : DigitM Unit := do
  let leftValue ← DigitM.inspect left.value
  let rightValue ← DigitM.inspect right.value
  assign (leftValue - rightValue)

/-- The target becomes the product. A product has at most as many digits as
both factors together. -/
def mul (left right : Bignum) : DigitM Unit := do
  let leftValue ← DigitM.inspect left.value
  let rightValue ← DigitM.inspect right.value
  grow (left.used + right.used)
  assign (leftValue * rightValue)

def neg (operand : Bignum) : DigitM Unit := do
  let magnitude ← DigitM.inspect operand.magnitude
  store operand.sign.flip magnitude

def abs (operand : Bignum) : DigitM Unit := do
  let magnitude ← DigitM.inspect operand.magnitude
  store .nonnegative magnitude

/-! ## Powers and shifts -/

/-- The fewest digits of a power, from the bits of its base and its exponent:
a base of `bits` bits is at least `2 ^ (bits - 1)`. More digits than a 32-bit
number counts fit into no heap. -/
def leastPowerDigits (bits exponent : Nat) : Nat :=
  min (Positional.ceilDiv ((bits - 1) * exponent + 1) digitBits) maxAddress

/-- The target becomes the power of the base. -/
def pow (base : Bignum) (exponent : Nat) : DigitM Unit := do
  let baseValue ← DigitM.inspect base.value
  let bits := Positional.bitLength baseValue.natAbs
  if 1 < bits ∧ 1 < exponent then
    grow (leastPowerDigits bits exponent)
  assign (baseValue ^ exponent)

/-- The target becomes the operand times `2 ^ count`. A negative count is
refused. -/
def shiftLeft (operand : Bignum) (count : Int) : DigitM Unit := do
  if count < 0 then
    throw (.arithmetic .invalidOperand)
  let operandValue ← DigitM.inspect operand.value
  if operandValue = 0 then
    assign 0
  else
    grow (operand.used + Positional.ceilDiv count.toNat digitBits)
    let bits := Positional.bitLength operandValue.natAbs + count.toNat
    reserve (Positional.ceilDiv bits digitBits)
    assign (operandValue * 2 ^ count.toNat)

/-! ## Numerals -/

def readNumeral (radix : Nat) (text : String) : DigitM Unit :=
  match Numeral.read? radix text with
  | none => throw (.arithmetic .invalidOperand)
  | some value => assign value

def toNumeral (radix : Nat) (number : Bignum) (heap : Heap) :
    Except Error String := do
  require (Numeral.IsRadix radix) (.arithmetic .invalidOperand)
  let value ← number.value heap
  return Numeral.write radix value

end ManagedHeap.Bignum
