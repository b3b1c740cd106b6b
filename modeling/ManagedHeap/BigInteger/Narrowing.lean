import ManagedHeap.BigInteger.Basic

/-!
# Narrowing and powers

Machine integers of big integers. The wrapping conversions keep the value
modulo a power of two; the checked ones fail for a value out of range. Powers
stand here because their exponent is narrowed.
-/

namespace ManagedHeap.BigInteger

/-! ## Wrapping -/

/-- The value modulo `2 ^ 32`: the low bits of the magnitude, negated for a
negative value. -/
def toUInt32 (operand : Handle) (heap : Heap) : Except Error UInt32 := do
  let number ← heap.bignum operand
  let magnitude ← number.low32 heap
  return if number.isNegative then -magnitude else magnitude

def toInt32 (operand : Handle) (heap : Heap) : Except Error Int32 :=
  (toUInt32 operand heap).map UInt32.toInt32

/-- The value modulo `2 ^ 64`: the low bits of the magnitude, negated for a
negative value. -/
def toUInt64 (operand : Handle) (heap : Heap) : Except Error UInt64 := do
  let number ← heap.bignum operand
  let magnitude ← number.low64 heap
  return if number.isNegative then -magnitude else magnitude

def toInt64 (operand : Handle) (heap : Heap) : Except Error Int64 :=
  (toUInt64 operand heap).map UInt64.toInt64

/-! ## Checked -/

/-- Fails for a magnitude of more than `width` bits. -/
def requireWidth (number : Bignum) (width : Nat) (target : MachineInteger)
    (heap : Heap) :
    Except Error Unit := do
  let bits ← number.bitCount heap
  require (bits ≤ width) (.overflow target)

def toUInt32Checked (operand : Handle) (heap : Heap) : Except Error UInt32 := do
  let number ← heap.bignum operand
  require (number.isNegative = false) (.overflow .unsigned32)
  requireWidth number 32 .unsigned32 heap
  number.low32 heap

/-- The value as a signed 32-bit number. After negation a negative value must
still be below zero, which is so down to `-2 ^ 31`; any other value must not
have become negative. -/
def toInt32Checked (operand : Handle) (heap : Heap) : Except Error Int32 := do
  let number ← heap.bignum operand
  requireWidth number 32 .signed32 heap
  let magnitude ← number.low32 heap
  let pattern := magnitude.toInt32
  if number.isNegative then
    require (-pattern < 0) (.overflow .signed32)
    return -pattern
  else
    require (0 ≤ pattern) (.overflow .signed32)
    return pattern

def toUInt64Checked (operand : Handle) (heap : Heap) : Except Error UInt64 := do
  let number ← heap.bignum operand
  require (number.isNegative = false) (.overflow .unsigned64)
  requireWidth number 64 .unsigned64 heap
  number.low64 heap

/-- The value as a signed 64-bit number, by the rule of `toInt32Checked`. -/
def toInt64Checked (operand : Handle) (heap : Heap) : Except Error Int64 := do
  let number ← heap.bignum operand
  requireWidth number 64 .signed64 heap
  let magnitude ← number.low64 heap
  let pattern := magnitude.toInt64
  if number.isNegative then
    require (-pattern < 0) (.overflow .signed64)
    return -pattern
  else
    require (0 ≤ pattern) (.overflow .signed64)
    return pattern

/-! ## Powers -/

/-- The power of a base. The exponent has to be an unsigned 32-bit number. -/
def pow (base exponent : Handle) : HeapM Handle := do
  let count ← HeapM.inspect (toUInt32Checked exponent)
  unary (fun number => number.pow count.toNat) base

end ManagedHeap.BigInteger
