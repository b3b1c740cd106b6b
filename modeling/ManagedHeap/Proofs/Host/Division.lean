import ManagedHeap.Proofs.Bignum.Division
import ManagedHeap.Proofs.Host.Arithmetic

/-!
# Exact division

Quotient and remainder of bignum objects are those of one truncating division
(`Truncates`), whether they come from two calls, in either order, or from one
division with two outputs. Division by zero gives no result.
-/

namespace ManagedHeap

/-- Two operations on the same operands, one after the other. -/
def BinaryOperation.performBoth (first second : BinaryOperation)
    (left right : Handle) : HeapM (Handle × Handle) := do
  let firstResult ← first.perform left right
  let secondResult ← second.perform left right
  return (firstResult, secondResult)

namespace Heap

variable {heap : Heap} {left right : Handle} {leftNumber rightNumber : Bignum}
  {x y p q : Int}

/-! ## Divisors other than zero -/

/-- Two operations answer new bignum objects for two integers, which both
stand for them after the second, unless memory runs out. -/
def ComputesBoth (first second : BinaryOperation) (heap : Heap)
    (left right : Handle) (firstValue secondValue : Int) : Prop :=
  Ensures (first.performBoth second left right) heap
    (fun results after => after.StandsNormalisedFor results.1 firstValue ∧
      after.StandsNormalisedFor results.2 secondValue)
    fun error _ => error.IsOutOfMemory

/-- All ways to divide two bignums of the heap give one quotient and one
remainder. -/
structure Divides (heap : Heap) (left right : Handle)
    (leftNumber rightNumber : Bignum) (quotient remainder : Int) : Prop where
  div : Computes (BigInteger.div left right) heap quotient
  rem : Computes (BigInteger.rem left right) heap remainder
  /-- The remainder is asked for after the quotient. -/
  divThenRem : ComputesBoth .div .rem heap left right quotient remainder
  remThenDiv : ComputesBoth .rem .div heap left right remainder quotient
  /-- One division writes the outputs that are wanted: both, or one. -/
  outputs : ∀ workspace : DivisionWorkspace, workspace.heap = heap →
    workspace.Ready →
      Ensures (Bignum.divide leftNumber rightNumber) workspace
        (fun _ after => workspace.Yields after quotient remainder)
        fun error _ => error.IsOutOfMemory

/-- The operands of the first operation are there for the second one, and its
result stays what it is. -/
theorem computesBoth_of_result {first second : BinaryOperation}
    (regular : heap.Regular) (leftInteger : heap.Integer left x)
    (rightInteger : heap.Integer right y)
    (firstResult : first.result x y = .ok p)
    (secondResult : second.result x y = .ok q) :
    ComputesBoth first second heap left right p q := by
  have firstBuilds :=
    BigInteger.builds_perform first regular leftInteger rightInteger
  rw [firstResult] at firstBuilds
  unfold ComputesBoth BinaryOperation.performBoth
  rw [ensures_bind]
  apply firstBuilds.answers.mono
  · intro handle middle answered
    obtain ⟨middleRegular, grows, _, integer, _⟩ := answered
    have secondBuilds := BigInteger.builds_perform second middleRegular
      (leftInteger.grows regular grows) (rightInteger.grows regular grows)
    rw [secondResult] at secondBuilds
    rw [ensures_bind]
    apply secondBuilds.answers.mono
    · intro other after answeredAfter
      obtain ⟨afterRegular, growsAfter, _, otherInteger, _⟩ := answeredAfter
      have kept := integer.grows middleRegular growsAfter
      exact ⟨kept.standsNormalisedFor afterRegular,
        otherInteger.standsNormalisedFor afterRegular⟩
    · exact fun _ _ lacking => lacking.1
  · exact fun _ _ lacking => lacking.1

theorem Regular.divides (regular : heap.Regular)
    (leftFound : heap.objects.find? left.address =
      some (.bigInteger leftNumber))
    (rightFound : heap.objects.find? right.address =
      some (.bigInteger rightNumber))
    (readLeft : leftNumber.value heap = .ok x)
    (readRight : rightNumber.value heap = .ok y) (nonzero : y ≠ 0) :
    heap.Divides left right leftNumber rightNumber (x.tdiv y) (x.tmod y) := by
  have leftInteger : heap.Integer left x := ⟨leftNumber, leftFound, readLeft⟩
  have rightInteger : heap.Integer right y :=
    ⟨rightNumber, rightFound, readRight⟩
  have quotient : BinaryOperation.div.result x y = .ok (x.tdiv y) :=
    if_neg nonzero
  have remainder : BinaryOperation.rem.result x y = .ok (x.tmod y) :=
    if_neg nonzero
  have divBuilds :=
    BigInteger.builds_perform .div regular leftInteger rightInteger
  have remBuilds :=
    BigInteger.builds_perform .rem regular leftInteger rightInteger
  rw [quotient] at divBuilds
  rw [remainder] at remBuilds
  constructor
  · exact computes_of_builds regular divBuilds
  · exact computes_of_builds regular remBuilds
  · exact computesBoth_of_result regular leftInteger rightInteger quotient
      remainder
  · exact computesBoth_of_result regular leftInteger rightInteger remainder
      quotient
  · rintro workspace rfl ready
    exact Bignum.ensures_divide regular.tidy.bounded ready readLeft readRight
      nonzero

/-! ## Zero divisors -/

/-- The object of a new result does not fit, or its first digit buffer does
not fit above it. -/
def LacksResult (heap : Heap) : Prop :=
  ¬heap.Fits (.bigInteger .empty) ∨
    ¬(heap.push (.bigInteger .empty)).Fits
      (.blob (Bytes.zeros
        (heap.config.precision.toNat * Bignum.digitBytes)))

/-- An operation never answers: it refuses its operands, or memory runs out
when its result is allocated. -/
def Refuses (operation : HeapM Handle) (heap : Heap) : Prop :=
  Ensures operation heap (fun _ _ => False) fun error _ =>
    error = .arithmetic .invalidOperand ∧ ¬heap.LacksResult ∨
      error.IsOutOfMemory ∧ heap.LacksResult

theorem lacksResult_iff (heap : Heap) :
    heap.LacksResult ↔
      heap.Lacks (BigInteger.allocationSize heap.config.precision.toNat) := by
  have positive := (Object.bigInteger .empty).size_pos
  have whole : (Object.bigInteger .empty).fullSize =
      (Object.bigInteger .empty).size := rfl
  have pushed : (heap.push (.bigInteger .empty)).pointer =
      heap.pointer + (Object.bigInteger .empty).size := rfl
  have limit : (heap.push (.bigInteger .empty)).config.heapLimit =
      heap.config.heapLimit := rfl
  simp only [LacksResult, Fits, whole, pushed, limit, Bignum.size_zeros_eq,
    Lacks, BigInteger.allocationSize]
  omega

private theorem refuses_of_builds {operation : HeapM Handle}
    (regular : heap.Regular)
    (builds : BigInteger.Builds operation heap
      (.error (.arithmetic .invalidOperand))
      (BigInteger.allocationSize heap.config.precision.toNat)) :
    Refuses operation heap := by
  unfold Refuses
  rw [lacksResult_iff]
  apply Ensures.mono builds
  · intro handle after built
    obtain ⟨value, impossible, _⟩ := built
    cases impossible
  · intro error after failed
    obtain ⟨afterRegular, grows, outcome⟩ := failed
    cases outcome with
    | inl refused =>
      obtain ⟨same, charged⟩ := refused
      left
      exact ⟨(Except.error.inj same).symm,
        regular.tidy.not_lacks afterRegular.tidy grows charged⟩
    | inr lacking => exact Or.inr lacking

theorem Regular.refuses_zero (regular : heap.Regular)
    (leftInteger : heap.Integer left x) (rightInteger : heap.Integer right 0) :
    Refuses (BigInteger.div left right) heap ∧
      Refuses (BigInteger.rem left right) heap := by
  constructor
  · exact refuses_of_builds regular
      (BigInteger.builds_perform .div regular leftInteger rightInteger)
  · exact refuses_of_builds regular
      (BigInteger.builds_perform .rem regular leftInteger rightInteger)

end Heap

/-! ## Reached heaps -/

namespace Session

/-- In a reached heap every bignum object can be divided by every one that is
not zero, with the quotient and the remainder of truncating division, and by
zero not at all. -/
theorem reached_divides
    {config : Config} {host : Host} {session : Session}
    {left right : Handle} {leftNumber rightNumber : Bignum}
    (reached : Reached config host session)
    (leftFound : session.heap.objects.find? left.address =
      some (.bigInteger leftNumber))
    (rightFound : session.heap.objects.find? right.address =
      some (.bigInteger rightNumber)) :
    ∃ x y, session.heap.StandsFor left x ∧ session.heap.StandsFor right y ∧
      (y ≠ 0 → ∃ q r, Truncates x y q r ∧
        session.heap.Divides left right leftNumber rightNumber q r) ∧
      (y = 0 → session.heap.Refuses (BigInteger.div left right) ∧
        session.heap.Refuses (BigInteger.rem left right)) := by
  have regular := reached.regular
  obtain ⟨x, leftInteger⟩ := regular.exists_integer leftFound
  obtain ⟨y, rightInteger⟩ := regular.exists_integer rightFound
  refine ⟨x, y, (leftInteger.standsNormalisedFor regular).standsFor,
    (rightInteger.standsNormalisedFor regular).standsFor, ?_, ?_⟩
  · intro nonzero
    refine ⟨_, _, truncates_tdiv_tmod x nonzero, ?_⟩
    exact regular.divides leftFound rightFound
      (leftInteger.value_of_found leftFound)
      (rightInteger.value_of_found rightFound) nonzero
  · rintro rfl
    exact regular.refuses_zero leftInteger rightInteger

/-- A session with minus seven and two. -/
def sevenAndTwo : Session :=
  let seven := ((start {} .plain).invoke (.ofInt32 (-7))).2
  (seven.invoke (.ofUInt32 2)).2

theorem sevenAndTwo_divides :
    ∃ sevenNumber twoNumber,
      Reached {} .plain sevenAndTwo ∧
      sevenAndTwo.heap.objects.find? (Handle.ofAddress 0x10000).address =
        some (.bigInteger sevenNumber) ∧
      sevenAndTwo.heap.objects.find? (Handle.ofAddress 0x10048).address =
        some (.bigInteger twoNumber) ∧
      ∃ x y, sevenAndTwo.heap.StandsFor (Handle.ofAddress 0x10000) x ∧
        sevenAndTwo.heap.StandsFor (Handle.ofAddress 0x10048) y ∧
        (y ≠ 0 → ∃ q r, Truncates x y q r ∧
          sevenAndTwo.heap.Divides (Handle.ofAddress 0x10000)
            (Handle.ofAddress 0x10048) sevenNumber twoNumber q r) ∧
        (y = 0 →
          sevenAndTwo.heap.Refuses
            (BigInteger.div (Handle.ofAddress 0x10000)
              (Handle.ofAddress 0x10048)) ∧
          sevenAndTwo.heap.Refuses
            (BigInteger.rem (Handle.ofAddress 0x10000)
              (Handle.ofAddress 0x10048))) :=
  have reached : Reached {} .plain sevenAndTwo :=
    .invoke (.invoke .start (.ofInt32 (-7)) trivial) (.ofUInt32 2) trivial
  have sevenFound :
      sevenAndTwo.heap.objects.find? (Handle.ofAddress 0x10000).address =
        some (.bigInteger
          ⟨1, 4, .negative, some (.startOf (Handle.ofAddress 0x10014))⟩) := by
    decide +kernel
  have twoFound :
      sevenAndTwo.heap.objects.find? (Handle.ofAddress 0x10048).address =
        some (.bigInteger
          ⟨1, 4, .nonnegative,
            some (.startOf (Handle.ofAddress 0x1005c))⟩) := by
    decide +kernel
  ⟨_, _, reached, sevenFound, twoFound,
    reached_divides reached sevenFound twoFound⟩

end Session

end ManagedHeap
