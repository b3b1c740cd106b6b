import ManagedHeap.Proofs.BigInteger.MachineValues
import ManagedHeap.Proofs.Host.Arithmetic

/-!
# Narrowing

Machine integers of the bignum objects of a reached heap. The checked
conversions answer the integer itself, and refuse exactly the integers that are
out of range (`Narrows`). The wrapping conversions answer the one value in range
that is congruent to the integer (`Wraps`), so they take exact arithmetic to the
wrapping arithmetic of the machine integers (`WrapsArithmetic`).
-/

namespace ManagedHeap

namespace Heap

variable {heap : Heap} {operand left right : Handle} {target : MachineInteger}
  {x y : Int}

/-! ## Checked conversions -/

/-- The checked conversion to a machine integer answers the value of an integer
in range, and is an overflow of that machine integer otherwise. -/
structure Narrows (heap : Heap) (operand : Handle) (target : MachineInteger)
    (value : Int) : Prop where
  answers_iff : ∀ answer, target.narrow operand heap = .ok answer ↔
    target.InRange value ∧
      ∃ result : target.Value, result.toInt = value ∧ answer = result.answer
  refuses_iff : ∀ error, target.narrow operand heap = .error error ↔
    ¬target.InRange value ∧ error = .overflow target

theorem Regular.narrows (regular : heap.Regular)
    (integer : heap.Integer operand x) (target : MachineInteger) :
    heap.Narrows operand target x := by
  have narrowed := MachineInteger.narrow_eq target regular integer
  by_cases inRange : target.InRange x
  · rw [if_pos inRange] at narrowed
    constructor
    · intro answer
      constructor
      · intro answered
        have same := Except.ok.inj (narrowed.symm.trans answered)
        exact ⟨inRange, target.ofInt x, MachineInteger.toInt_ofInt inRange,
          same.symm⟩
      · intro expected
        obtain ⟨_, result, isValue, isAnswer⟩ := expected
        rw [narrowed, isAnswer, ← isValue, MachineInteger.ofInt_toInt]
    · intro error
      constructor
      · intro refused
        cases narrowed.symm.trans refused
      · intro outside
        exact absurd inRange outside.1
  · rw [if_neg inRange] at narrowed
    constructor
    · intro answer
      constructor
      · intro answered
        cases narrowed.symm.trans answered
      · intro expected
        exact absurd expected.1 inRange
    · intro error
      constructor
      · intro refused
        have same := Except.error.inj (narrowed.symm.trans refused)
        exact ⟨inRange, same.symm⟩
      · intro outside
        rw [narrowed, outside.2]

/-! ## Wrapping conversions -/

/-- The wrapping conversion to a machine integer answers a value that is
congruent to an integer, as no other integer in range is. -/
structure Wraps (heap : Heap) (operand : Handle) (target : MachineInteger)
    (value : Int) (result : target.Value) : Prop where
  answered : target.wrap operand heap = .ok result.answer
  inRange : target.InRange result.toInt
  congruent : result.toInt ≡ value [ZMOD 2 ^ target.bits]
  unique : ∀ other, target.InRange other →
    other ≡ value [ZMOD 2 ^ target.bits] → other = result.toInt
  /-- An unsigned value is the residue. -/
  residue : target.isSigned = false →
    result.toInt = value % 2 ^ target.bits

theorem Regular.wraps (regular : heap.Regular)
    (integer : heap.Integer operand x) (target : MachineInteger) :
    heap.Wraps operand target x (target.ofInt x) := by
  have inRange := MachineInteger.inRange_toInt (target.ofInt x)
  have congruent := MachineInteger.toInt_ofInt_modEq target x
  constructor
  · exact MachineInteger.wrap_eq target regular integer
  · exact inRange
  · exact congruent
  · intro other otherInRange otherCongruent
    exact MachineInteger.eq_of_modEq otherInRange inRange
      (otherCongruent.trans congruent.symm)
  · intro unsigned
    exact MachineInteger.toInt_ofInt_of_unsigned unsigned x

/-! ## Arithmetic -/

/-- An operation answers a big integer that wraps to a given value, unless
memory runs out. -/
def WrapsTo (operation : HeapM Handle) (heap : Heap) {target : MachineInteger}
    (expected : target.Value) : Prop :=
  Ensures operation heap
    (fun result after => target.wrap result after = .ok expected.answer)
    fun error _ => error.IsOutOfMemory

/-- On operands that wrap to `u` and `v`, exact arithmetic wraps to the wrapping
arithmetic of the machine integers. -/
structure WrapsArithmetic (heap : Heap) (left right : Handle)
    {target : MachineInteger} (u v : target.Value) : Prop where
  add : WrapsTo (BigInteger.add left right) heap (u + v)
  sub : WrapsTo (BigInteger.sub left right) heap (u - v)
  mul : WrapsTo (BigInteger.mul left right) heap (u * v)
  neg : WrapsTo (BigInteger.neg left) heap (-u)

private theorem wrapsTo_of_builds {operation : HeapM Handle} {cost : Nat}
    {expected : target.Value}
    (builds : BigInteger.Builds operation heap (.ok x) cost)
    (isExpected : target.ofInt x = expected) :
    WrapsTo operation heap expected := by
  apply builds.answers.mono
  · intro result after answered
    obtain ⟨regularAfter, _, _, integer, _⟩ := answered
    rw [MachineInteger.wrap_eq target regularAfter integer, isExpected]
  · exact fun _ _ lacking => lacking.1

theorem Regular.wrapsArithmetic (regular : heap.Regular)
    (leftInteger : heap.Integer left x) (rightInteger : heap.Integer right y)
    (target : MachineInteger) :
    heap.WrapsArithmetic left right (target.ofInt x) (target.ofInt y) where
  add :=
    wrapsTo_of_builds
      (BigInteger.builds_perform .add regular leftInteger rightInteger)
      (target.ofInt_add x y)
  sub :=
    wrapsTo_of_builds
      (BigInteger.builds_perform .sub regular leftInteger rightInteger)
      (target.ofInt_sub x y)
  mul :=
    wrapsTo_of_builds
      (BigInteger.builds_perform .mul regular leftInteger rightInteger)
      (target.ofInt_mul x y)
  neg :=
    wrapsTo_of_builds (BigInteger.builds_neg regular leftInteger)
      (target.ofInt_neg x)

end Heap

/-! ## Reached heaps -/

namespace Session

/-- A session with the greatest integer below the signed 32-bit range and the
least one above it. -/
def besideInt32 : Session :=
  let below := ((start {} .plain).invoke (.ofInt64 (-0x80000001))).2
  (below.invoke (.ofUInt32 0x80000000)).2

private theorem reached_besideInt32 : Reached {} .plain besideInt32 :=
  .invoke (.invoke .start (.ofInt64 (-0x80000001)) trivial)
    (.ofUInt32 0x80000000) trivial

/-- Every bignum object of a reached heap narrows to each machine integer
exactly when its integer is in range, and to that integer. The bits that are
counted for this fit into 32 bits themselves below `2 ^ 27` digits. -/
theorem reached_narrows {config : Config} {host : Host} {session : Session}
    {operand : Handle} {number : Bignum}
    (reached : Reached config host session)
    (found : session.heap.objects.find? operand.address =
      some (.bigInteger number)) :
    ∃ x, session.heap.StandsFor operand x ∧
      (∀ target, session.heap.Narrows operand target x) ∧
      (number.used < 2 ^ 27 → ∃ bits < 2 ^ 32,
        BigInteger.bitCount operand session.heap = .ok bits) := by
  have regular := reached.regular
  obtain ⟨x, stands⟩ := regular.exists_standsFor found
  have integer := stands.integer
  exact ⟨x, stands, regular.narrows integer,
    BigInteger.exists_bitCount_lt regular integer found⟩

theorem besideInt32_narrows :
    ∃ number, Reached {} .plain besideInt32 ∧
      besideInt32.heap.objects.find? (Handle.ofAddress 0x10000).address =
        some (.bigInteger number) ∧
      (∀ target, besideInt32.heap.Narrows (Handle.ofAddress 0x10000) target
        (-0x80000001)) ∧
      ∃ bits < 2 ^ 32,
        BigInteger.bitCount (Handle.ofAddress 0x10000) besideInt32.heap =
          .ok bits := by
  have found :
      besideInt32.heap.objects.find? (Handle.ofAddress 0x10000).address =
        some (.bigInteger
          ⟨1, 4, .negative, some (.startOf (Handle.ofAddress 0x10014))⟩) := by
    decide +kernel
  have standsForBelow :
      besideInt32.heap.StandsFor (Handle.ofAddress 0x10000) (-0x80000001) :=
    ⟨_, [0x80000001], ⟨found, by decide +kernel, rfl⟩, by decide⟩
  obtain ⟨x, stands, narrows, counted⟩ :=
    reached_narrows reached_besideInt32 found
  obtain rfl := stands.unique standsForBelow
  exact ⟨_, reached_besideInt32, found, narrows, counted (by decide)⟩

/-- Every bignum object of a reached heap wraps to the residue of its integer,
and arithmetic on two of them to wrapping arithmetic on their residues. -/
theorem reached_wraps {config : Config} {host : Host} {session : Session}
    {left right : Handle} {leftNumber rightNumber : Bignum}
    (reached : Reached config host session)
    (leftFound : session.heap.objects.find? left.address =
      some (.bigInteger leftNumber))
    (rightFound : session.heap.objects.find? right.address =
      some (.bigInteger rightNumber)) :
    ∃ x y, session.heap.StandsFor left x ∧ session.heap.StandsFor right y ∧
      ∀ target : MachineInteger, ∃ u v : target.Value,
        session.heap.Wraps left target x u ∧
        session.heap.Wraps right target y v ∧
        session.heap.WrapsArithmetic left right u v := by
  have regular := reached.regular
  obtain ⟨x, leftStands⟩ := regular.exists_standsFor leftFound
  obtain ⟨y, rightStands⟩ := regular.exists_standsFor rightFound
  refine ⟨x, y, leftStands, rightStands, fun target => ?_⟩
  exact ⟨target.ofInt x, target.ofInt y,
    regular.wraps leftStands.integer target,
    regular.wraps rightStands.integer target,
    regular.wrapsArithmetic leftStands.integer rightStands.integer target⟩

theorem besideInt32_wraps :
    ∃ belowNumber aboveNumber,
      Reached {} .plain besideInt32 ∧
      besideInt32.heap.objects.find? (Handle.ofAddress 0x10000).address =
        some (.bigInteger belowNumber) ∧
      besideInt32.heap.objects.find? (Handle.ofAddress 0x1004c).address =
        some (.bigInteger aboveNumber) ∧
      ∀ target : MachineInteger, ∃ u v : target.Value,
        besideInt32.heap.Wraps (Handle.ofAddress 0x10000) target
          (-0x80000001) u ∧
        besideInt32.heap.Wraps (Handle.ofAddress 0x1004c) target 0x80000000
          v ∧
        besideInt32.heap.WrapsArithmetic (Handle.ofAddress 0x10000)
          (Handle.ofAddress 0x1004c) u v := by
  have belowFound :
      besideInt32.heap.objects.find? (Handle.ofAddress 0x10000).address =
        some (.bigInteger
          ⟨1, 4, .negative, some (.startOf (Handle.ofAddress 0x10014))⟩) := by
    decide +kernel
  have aboveFound :
      besideInt32.heap.objects.find? (Handle.ofAddress 0x1004c).address =
        some (.bigInteger
          ⟨1, 4, .nonnegative,
            some (.startOf (Handle.ofAddress 0x10060))⟩) := by
    decide +kernel
  have standsForBelow :
      besideInt32.heap.StandsFor (Handle.ofAddress 0x10000) (-0x80000001) :=
    ⟨_, [0x80000001], ⟨belowFound, by decide +kernel, rfl⟩, by decide⟩
  have standsForAbove :
      besideInt32.heap.StandsFor (Handle.ofAddress 0x1004c) 0x80000000 :=
    ⟨_, [0x80000000], ⟨aboveFound, by decide +kernel, rfl⟩, by decide⟩
  obtain ⟨x, y, leftStands, rightStands, wraps⟩ :=
    reached_wraps reached_besideInt32 belowFound aboveFound
  obtain rfl := leftStands.unique standsForBelow
  obtain rfl := rightStands.unique standsForAbove
  exact ⟨_, _, reached_besideInt32, belowFound, aboveFound, wraps⟩

end Session

end ManagedHeap
