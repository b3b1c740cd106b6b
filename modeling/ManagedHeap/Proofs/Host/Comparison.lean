import ManagedHeap.Proofs.Host.Arithmetic

/-!
# Comparison and length

What the comparisons, the sign and the bit count answer about the bignum
objects of a reached heap: the facts of their integers (`Inspects`), and no
more. Objects that stand for the same integers are told apart by none of them,
whatever runs and limits they come from (`InspectAlike`).
-/

namespace ManagedHeap

/-! ## Lengths -/

/-- A number of bits is that of a magnitude: none for zero, and otherwise those
up to the highest one. -/
def Positional.IsBitLength (bits magnitude : Nat) : Prop :=
  (magnitude = 0 → bits = 0) ∧
    (magnitude ≠ 0 → 2 ^ (bits - 1) ≤ magnitude ∧ magnitude < 2 ^ bits)

theorem Positional.isBitLength_bitLength (magnitude : Nat) :
    IsBitLength (bitLength magnitude) magnitude := by
  constructor
  · rintro rfl
    rfl
  · intro positive
    exact ⟨two_pow_le_of_bitLength positive, lt_two_pow_bitLength magnitude⟩

namespace Heap

variable {heap other : Heap} {left right otherLeft otherRight : Handle}
  {x y : Int}

/-! ## Inspection -/

/-- The comparisons of two operands, and the sign and the bits of the left one,
are those of the integers `x` and `y`. -/
structure Inspects (heap : Heap) (left right : Handle) (x y : Int) : Prop where
  compare : ∀ comparison, BigInteger.compare comparison left right heap =
    .ok (decide (comparison.Relates x y))
  isNegative : BigInteger.isNegative left heap = .ok (decide (x < 0))
  bitCount : ∃ bits, BigInteger.bitCount left heap = .ok bits ∧
    Positional.IsBitLength bits x.natAbs

theorem Regular.inspects (regular : heap.Regular)
    (leftInteger : heap.Integer left x) (rightInteger : heap.Integer right y) :
    heap.Inspects left right x y where
  compare comparison := by
    rw [BigInteger.compare_eq comparison regular leftInteger rightInteger,
      comparison.holds_compare_eq]
  isNegative := BigInteger.isNegative_eq regular leftInteger
  bitCount := ⟨_, BigInteger.bitCount_eq regular leftInteger,
    Positional.isBitLength_bitLength _⟩

/-- The inspections answer the same about two pairs of operands, maybe of
different heaps. -/
structure InspectAlike (heap other : Heap)
    (left right otherLeft otherRight : Handle) : Prop where
  compare : ∀ comparison, BigInteger.compare comparison left right heap =
    BigInteger.compare comparison otherLeft otherRight other
  isNegative : BigInteger.isNegative left heap =
    BigInteger.isNegative otherLeft other
  bitCount : BigInteger.bitCount left heap = BigInteger.bitCount otherLeft other

theorem Regular.inspectAlike (regular : heap.Regular)
    (otherRegular : other.Regular) (leftInteger : heap.Integer left x)
    (rightInteger : heap.Integer right y)
    (otherLeftInteger : other.Integer otherLeft x)
    (otherRightInteger : other.Integer otherRight y) :
    InspectAlike heap other left right otherLeft otherRight where
  compare comparison := by
    rw [BigInteger.compare_eq comparison regular leftInteger rightInteger,
      BigInteger.compare_eq comparison otherRegular otherLeftInteger
        otherRightInteger]
  isNegative := by
    rw [BigInteger.isNegative_eq regular leftInteger,
      BigInteger.isNegative_eq otherRegular otherLeftInteger]
  bitCount := by
    rw [BigInteger.bitCount_eq regular leftInteger,
      BigInteger.bitCount_eq otherRegular otherLeftInteger]

end Heap

/-! ## Reached heaps -/

namespace Session

/-- Inspecting bignum objects of a reached heap answers the facts of their
integers, and the same for all objects of reached heaps that stand for those
integers. -/
theorem reached_inspects {config : Config} {host : Host} {session : Session}
    {left right : Handle} {leftNumber rightNumber : Bignum}
    (reached : Reached config host session)
    (leftFound : session.heap.objects.find? left.address =
      some (.bigInteger leftNumber))
    (rightFound : session.heap.objects.find? right.address =
      some (.bigInteger rightNumber)) :
    ∃ x y, session.heap.StandsFor left x ∧ session.heap.StandsFor right y ∧
      session.heap.Inspects left right x y ∧
      (leftNumber.used < 2 ^ 27 →
        ∃ bits < 2 ^ 32, BigInteger.bitCount left session.heap = .ok bits) ∧
      ∀ otherConfig otherHost other otherLeft otherRight,
        Reached otherConfig otherHost other →
        other.heap.StandsFor otherLeft x → other.heap.StandsFor otherRight y →
          Heap.InspectAlike session.heap other.heap left right otherLeft
            otherRight := by
  have regular := reached.regular
  obtain ⟨x, leftStands⟩ := regular.exists_standsFor leftFound
  obtain ⟨y, rightStands⟩ := regular.exists_standsFor rightFound
  have leftInteger := leftStands.integer
  have rightInteger := rightStands.integer
  refine ⟨x, y, leftStands, rightStands,
    regular.inspects leftInteger rightInteger, ?_, ?_⟩
  · intro few
    exact BigInteger.exists_bitCount_lt regular leftInteger leftFound few
  · intro otherConfig otherHost other otherLeft otherRight otherReached
      otherStands otherStandsRight
    exact regular.inspectAlike otherReached.regular leftInteger rightInteger
      otherStands.integer otherStandsRight.integer

/-- A session with minus one twice: in storage for two digits, which its bit
pattern needed, and in storage for one. -/
def twiceMinusOne : Session :=
  let wide := ((start { precision := 0 } .plain).invoke (.ofInt64 (-1))).2
  (wide.invoke (.ofInt32 (-1))).2

/-- Nothing tells one minus one from the other. -/
theorem twiceMinusOne_inspects :
    ∃ wideNumber narrowNumber,
      Reached { precision := 0 } .plain twiceMinusOne ∧
      twiceMinusOne.heap.objects.find? (Handle.ofAddress 0x10000).address =
        some (.bigInteger wideNumber) ∧
      twiceMinusOne.heap.objects.find? (Handle.ofAddress 0x1004c).address =
        some (.bigInteger narrowNumber) ∧
      wideNumber.capacity = 2 ∧ narrowNumber.capacity = 1 ∧
      twiceMinusOne.heap.Inspects (Handle.ofAddress 0x10000)
        (Handle.ofAddress 0x1004c) (-1) (-1) ∧
      (∃ bits < 2 ^ 32,
        BigInteger.bitCount (Handle.ofAddress 0x10000) twiceMinusOne.heap =
          .ok bits) ∧
      Heap.InspectAlike twiceMinusOne.heap twiceMinusOne.heap
        (Handle.ofAddress 0x10000) (Handle.ofAddress 0x1004c)
        (Handle.ofAddress 0x1004c) (Handle.ofAddress 0x10000) := by
  have reached : Reached { precision := 0 } .plain twiceMinusOne :=
    .invoke (.invoke .start (.ofInt64 (-1)) trivial) (.ofInt32 (-1)) trivial
  have wideFound :
      twiceMinusOne.heap.objects.find? (Handle.ofAddress 0x10000).address =
        some (.bigInteger
          ⟨1, 2, .negative, some (.startOf (Handle.ofAddress 0x1001c))⟩) := by
    decide +kernel
  have narrowFound :
      twiceMinusOne.heap.objects.find? (Handle.ofAddress 0x1004c).address =
        some (.bigInteger
          ⟨1, 1, .negative, some (.startOf (Handle.ofAddress 0x10068))⟩) := by
    decide +kernel
  have wideStands :
      twiceMinusOne.heap.StandsFor (Handle.ofAddress 0x10000) (-1) :=
    ⟨_, [1], ⟨wideFound, by decide +kernel, rfl⟩, by decide⟩
  have narrowStands :
      twiceMinusOne.heap.StandsFor (Handle.ofAddress 0x1004c) (-1) :=
    ⟨_, [1], ⟨narrowFound, by decide +kernel, rfl⟩, by decide⟩
  obtain ⟨x, y, leftStands, rightStands, inspects, counted, alike⟩ :=
    reached_inspects reached wideFound narrowFound
  obtain rfl := leftStands.unique wideStands
  obtain rfl := rightStands.unique narrowStands
  exact ⟨_, _, reached, wideFound, narrowFound, rfl, rfl, inspects,
    counted (by decide), alike _ _ _ _ _ reached narrowStands wideStands⟩

end Session

end ManagedHeap
