import ManagedHeap.Handle

/-!
# Bignums

The control structure of a bignum. The digits themselves stand in a byte
buffer, little-endian, 32 bits each, least significant first.
-/

namespace ManagedHeap

/-- The sign of a bignum. Zero has the sign `nonnegative`. -/
inductive Sign where
  | nonnegative
  | negative
  deriving DecidableEq, Repr

namespace Sign

/-- The integer with a sign and a magnitude. -/
def apply : Sign → Nat → Int
  | .nonnegative, magnitude => magnitude
  | .negative, magnitude => -(magnitude : Int)

def ofInt (value : Int) : Sign :=
  if value < 0 then .negative else .nonnegative

def flip : Sign → Sign
  | .nonnegative => .negative
  | .negative => .nonnegative

theorem apply_ofInt (value : Int) :
    (ofInt value).apply value.natAbs = value := by
  unfold ofInt
  split <;> simp only [apply] <;> omega

end Sign

/-- A bignum: how many digits are in use, how many its storage holds, its
sign, and where its storage starts. -/
@[ext]
structure Bignum where
  used : Nat := 0
  capacity : Nat := 0
  sign : Sign := .nonnegative
  storage : Option PayloadPointer := none
  deriving DecidableEq, Repr

namespace Bignum

def digitBits : Nat := 32

def digitBytes : Nat := 4

/-- Zero without storage. -/
def empty : Bignum := {}

def isNegative (number : Bignum) : Bool :=
  number.sign == .negative

/-- The same number with its storage in another buffer. -/
def moveStorage (change : Handle → Handle) (number : Bignum) : Bignum :=
  { number with
    storage := number.storage.map fun start =>
      start.retarget (change start.buffer) }

end Bignum

end ManagedHeap
