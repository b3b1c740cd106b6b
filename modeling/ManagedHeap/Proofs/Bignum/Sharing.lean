import ManagedHeap.Proofs.Bignum.Operations

/-!
# Shared storage

An output may share its buffer with an operand. Operands are read before
anything is written, so the integer that an output gets does not depend on
where the output was stored or what it held: it is the exact one, which a
fresh output gets as well. Nothing is written but the storage that an output
had before (`outputs_may_share`).
-/

namespace ManagedHeap

/-- The objects that none of the named addresses has stay as they are. -/
def Heap.Leaves (before : Heap) (owned : Nat → Prop) (after : Heap) : Prop :=
  ∀ address object, before.objects.find? address = some object →
    ¬owned address → after.objects.find? address = some object

theorem Heap.Leaves.refl (heap : Heap) (owned : Nat → Prop) :
    heap.Leaves owned heap :=
  fun _ _ found _ => found

namespace DivisionWorkspace

/-- The digits of a wanted output stand in the buffer at this address. -/
def Owns (workspace : DivisionWorkspace) (address : Nat) : Prop :=
  ∃ target, (workspace.quotient = some target ∨
    workspace.remainder = some target) ∧ target.Owns address

/-- Wanted outputs that agree with their storage and share none of it with
each other. -/
structure Usable (workspace : DivisionWorkspace) : Prop where
  quotient : ∀ target, workspace.quotient = some target →
    workspace.heap.Usable target
  remainder : ∀ target, workspace.remainder = some target →
    workspace.heap.Usable target
  apart : ∀ quotient remainder, workspace.quotient = some quotient →
    workspace.remainder = some remainder → quotient.StoredApart remainder

/-- Both outputs are zeros that were made for the division, one after the
other. -/
def IsFresh (workspace : DivisionWorkspace) (heap : Heap) : Prop :=
  ∃ quotientPrecision remainderPrecision quotient remainder middle,
    Bignum.zero quotientPrecision heap = .ok quotient middle ∧
    Bignum.zero remainderPrecision middle = .ok remainder workspace.heap ∧
    workspace.quotient = some quotient ∧ workspace.remainder = some remainder

end DivisionWorkspace

namespace Bignum

variable {before : Workspace} {operation : Operation Bignum}
  {integers : Bignum → Int} {heap : Heap}

/-! ## One output -/

/-- An operation that returns gives its target the exact integer, wherever
the target is stored, and writes only to the storage of the target. -/
theorem ensures_exact
    (bounded : before.heap.Bounded) (backs : before.heap.Backs before.target)
    (reads : ∀ operand ∈ operation.operands,
      operand.value before.heap = .ok (integers operand)) :
    Ensures operation.perform before
      (fun _ after => before.heap.Leaves before.target.Owns after.heap ∧
        ∃ value, (operation.map integers).result = .ok value ∧
          after.target.value after.heap = .ok value)
      (fun error after =>
        before.heap.Leaves before.target.Owns after.heap ∧
          (error.IsOutOfMemory ∨
            (operation.map integers).result = .error error)) := by
  obtain ⟨cost, fills⟩ := fills_perform bounded backs reads
  apply Ensures.mono fills
  · intro _ after filled
    obtain ⟨value, isResult, assigns⟩ := filled
    exact ⟨fun _ _ => assigns.rewrites.kept, value, isResult, assigns.value_eq⟩
  · intro error after failed
    rcases failed with refused | outOfMemory
    · obtain ⟨isError, unchanged, _⟩ := refused
      rw [unchanged]
      exact ⟨.refl _ _, Or.inr isError⟩
    · obtain ⟨⟨_, widens⟩, isOutOfMemory, _⟩ := outOfMemory
      exact ⟨fun _ _ => widens.rewrites.kept, Or.inl isOutOfMemory⟩

/-- What an operation does in a target does not depend on the target. -/
structure IgnoresTarget (operation : Operation Bignum) (before : Workspace) :
    Prop where
  exact : ∀ after, operation.perform before = .ok () after →
    ∃ value,
      (operation.map (·.integer before.heap)).result = .ok value ∧
        after.target.value after.heap = .ok value
  /-- A fresh target gets the same integer. -/
  asFresh : ∀ precision start middle after freshAfter,
    operation.perform before = .ok () after →
    zero precision before.heap = .ok start middle →
    operation.perform ⟨middle, start⟩ = .ok () freshAfter →
      freshAfter.target.value freshAfter.heap =
        after.target.value after.heap
  fails : ∀ error after, operation.perform before = .error error after →
    error.IsOutOfMemory ∨
      (operation.map (·.integer before.heap)).result = .error error
  writes : Ensures operation.perform before
    (fun _ after => before.heap.Leaves before.target.Owns after.heap)
    (fun _ after => before.heap.Leaves before.target.Owns after.heap)

theorem ignoresTarget (bounded : before.heap.Bounded)
    (backs : before.heap.Backs before.target)
    (operands : ∀ operand ∈ operation.operands,
      before.heap.Usable operand) :
    IgnoresTarget operation before := by
  have ensured := ensures_exact bounded backs
    fun operand member => (operands operand member).value_eq
  constructor
  · exact fun after outcome => (ensured.of_ok outcome).2
  · intro precision start middle after freshAfter outcome isZero freshOutcome
    have fresh := fresh_of_zero bounded isZero
    have freshEnsured : Ensures operation.perform ⟨middle, start⟩ _ _ :=
      ensures_exact (fresh.untouched.bounded bounded) fresh.backs
        fun operand member =>
          (operands operand member).value_kept fresh.untouched
    obtain ⟨_, value, isResult, read⟩ := ensured.of_ok outcome
    obtain ⟨_, freshValue, isFreshResult, freshRead⟩ :=
      freshEnsured.of_ok freshOutcome
    have same : freshValue = value :=
      Except.ok.inj (isFreshResult.symm.trans isResult)
    rw [freshRead, read, same]
  · exact fun error after outcome => (ensured.of_error outcome).2
  · apply ensured.mono
    · exact fun _ _ done => done.1
    · exact fun _ _ failed => failed.1

/-! ## Two outputs -/

variable {workspace : DivisionWorkspace} {dividend divisor : Bignum} {x y : Int}

private theorem ready_of_usable (bounded : workspace.heap.Bounded)
    (addressable : workspace.heap.pointer ≤ maxAddress)
    (usable : workspace.Usable) :
    workspace.Ready where
  quotient := fun target isTarget =>
    (usable.quotient target isTarget).backs bounded addressable
  remainder := fun target isTarget =>
    (usable.remainder target isTarget).backs bounded addressable
  apart := usable.apart

/-- The second buffer lies above the first. -/
theorem ready_of_isFresh (bounded : heap.Bounded)
    (isFresh : workspace.IsFresh heap) :
    Heap.Rewrites (fun _ => False) heap workspace.heap ∧ workspace.Ready := by
  obtain ⟨_, _, quotient, remainder, middle, isQuotient, isRemainder,
    wantedQuotient, wantedRemainder⟩ := isFresh
  have first := fresh_of_zero bounded isQuotient
  have middleBounded := first.untouched.bounded bounded
  have second := fresh_of_zero middleBounded isRemainder
  refine ⟨first.untouched.trans bounded second.untouched
    fun _ => False.elim, ?_, ?_, ?_⟩
  · intro target isTarget
    obtain rfl := Option.some.inj (wantedQuotient.symm.trans isTarget)
    exact first.backs.kept second.untouched
  · intro target isTarget
    obtain rfl := Option.some.inj (wantedRemainder.symm.trans isTarget)
    exact second.backs
  · intro left right isLeft isRight
    obtain rfl := Option.some.inj (wantedQuotient.symm.trans isLeft)
    obtain rfl := Option.some.inj (wantedRemainder.symm.trans isRight)
    exact second.storedApart middleBounded first.backs

theorem Writes.leaves {value : Int} {before after : Heap}
    {output written : Option Bignum}
    (writes : Writes value before output after written) {owned : Nat → Prop}
    (owns : ∀ target address, output = some target → target.Owns address →
      owned address) :
    before.Leaves owned after := by
  intro address object found notOwned
  cases writes with
  | unwanted => exact found
  | wanted assigns =>
    refine assigns.rewrites.kept found ?_
    exact fun ownsAddress => notOwned (owns _ _ rfl ownsAddress)

/-- Whichever way a division ends, it has written only to the storage of its
outputs. -/
theorem leaves_divide (bounded : workspace.heap.Bounded)
    (ready : workspace.Ready)
    (readDividend : dividend.value workspace.heap = .ok x)
    (readDivisor : divisor.value workspace.heap = .ok y) :
    Ensures (divide dividend divisor) workspace
      (fun _ after => workspace.heap.Leaves workspace.Owns after.heap)
      (fun _ after => workspace.heap.Leaves workspace.Owns after.heap) := by
  have ownsQuotient : ∀ target address, workspace.quotient = some target →
      target.Owns address → workspace.Owns address :=
    fun target _ isTarget owns => ⟨target, Or.inl isTarget, owns⟩
  have ownsRemainder : ∀ target address, workspace.remainder = some target →
      target.Owns address → workspace.Owns address :=
    fun target _ isTarget owns => ⟨target, Or.inr isTarget, owns⟩
  by_cases zero : y = 0
  · subst zero
    unfold Ensures
    rw [divide_of_zero workspace readDividend readDivisor]
    exact Heap.Leaves.refl _ _
  · apply (ensures_divide_writes bounded ready readDividend readDivisor
      zero).mono
    · intro _ after writes
      obtain ⟨middle, writesQuotient, writesRemainder⟩ := writes
      intro address object found notOwned
      have between :=
        writesQuotient.leaves ownsQuotient address object found notOwned
      exact writesRemainder.leaves ownsRemainder address object between
        notOwned
    · intro error after failed
      rcases failed.2 with unchanged | written
      · rw [unchanged]
        exact .refl _ _
      · exact written.2.leaves ownsQuotient

/-- What a division does in its outputs does not depend on them. -/
structure IgnoresOutputs (dividend divisor : Bignum)
    (workspace : DivisionWorkspace) : Prop where
  exact : ∀ after, divide dividend divisor workspace = .ok () after →
    divisor.integer workspace.heap ≠ 0 ∧
      workspace.Yields after
        ((dividend.integer workspace.heap).tdiv
          (divisor.integer workspace.heap))
        ((dividend.integer workspace.heap).tmod
          (divisor.integer workspace.heap))
  /-- Fresh outputs get the same integers. -/
  asFresh : ∀ fresh freshAfter, fresh.IsFresh workspace.heap →
    divide dividend divisor fresh = .ok () freshAfter →
      fresh.Yields freshAfter
        ((dividend.integer workspace.heap).tdiv
          (divisor.integer workspace.heap))
        ((dividend.integer workspace.heap).tmod
          (divisor.integer workspace.heap))
  fails : ∀ error after, divide dividend divisor workspace =
      .error error after →
    error.IsOutOfMemory ∨ divisor.integer workspace.heap = 0 ∧
      error = .arithmetic .invalidOperand
  writes : Ensures (divide dividend divisor) workspace
    (fun _ after => workspace.heap.Leaves workspace.Owns after.heap)
    (fun _ after => workspace.heap.Leaves workspace.Owns after.heap)

/-- What a division returns with, and what it fails with. -/
theorem ensures_divide_cases (bounded : workspace.heap.Bounded)
    (ready : workspace.Ready)
    (readDividend : dividend.value workspace.heap = .ok x)
    (readDivisor : divisor.value workspace.heap = .ok y) :
    Ensures (divide dividend divisor) workspace
      (fun _ after => y ≠ 0 ∧
        workspace.Yields after (x.tdiv y) (x.tmod y))
      (fun error _ => error.IsOutOfMemory ∨
        y = 0 ∧ error = .arithmetic .invalidOperand) := by
  by_cases zero : y = 0
  · subst zero
    unfold Ensures
    rw [divide_of_zero workspace readDividend readDivisor]
    exact Or.inr ⟨rfl, rfl⟩
  · apply (ensures_divide bounded ready readDividend readDivisor zero).mono
    · exact fun _ _ yields => ⟨zero, yields⟩
    · exact fun _ _ outOfMemory => Or.inl outOfMemory

theorem ignoresOutputs (bounded : workspace.heap.Bounded)
    (ready : workspace.Ready) (usableDividend : workspace.heap.Usable dividend)
    (usableDivisor : workspace.heap.Usable divisor) :
    IgnoresOutputs dividend divisor workspace := by
  have readDividend := usableDividend.value_eq
  have readDivisor := usableDivisor.value_eq
  have cases :=
    ensures_divide_cases bounded ready readDividend readDivisor
  constructor
  · exact fun after outcome => cases.of_ok outcome
  · intro fresh freshAfter isFresh outcome
    obtain ⟨untouched, freshReady⟩ := ready_of_isFresh bounded isFresh
    have freshCases := ensures_divide_cases (untouched.bounded bounded)
      freshReady (usableDividend.value_kept untouched)
      (usableDivisor.value_kept untouched)
    exact (freshCases.of_ok outcome).2
  · exact fun error after outcome => cases.of_error outcome
  · exact leaves_divide bounded ready readDividend readDivisor

/-! ## Any heap -/

/-- In a heap that passes the check, with a heap pointer of 32 bits, whatever
storage the outputs of an operation share with its operands, and whatever they
held: an operation that returns leaves the exact integer in its target, as in
a fresh one, and so does a division in outputs that share nothing with each
other. Only storage of the outputs is written. -/
theorem outputs_may_share (checked : heap.check = .ok ())
    (addressable : heap.pointer ≤ maxAddress) :
    (∀ operation target, heap.Usable target →
      (∀ operand ∈ operation.operands, heap.Usable operand) →
        IgnoresTarget operation ⟨heap, target⟩) ∧
    ∀ dividend divisor quotient remainder,
      heap.Usable dividend → heap.Usable divisor →
      DivisionWorkspace.Usable ⟨heap, quotient, remainder⟩ →
        IgnoresOutputs dividend divisor ⟨heap, quotient, remainder⟩ := by
  have bounded := (Heap.check_eq_ok_iff.mp checked).layout.bounded
  constructor
  · intro operation target usable operands
    exact ignoresTarget bounded (usable.backs bounded addressable) operands
  · intro dividend divisor quotient remainder usableDividend usableDivisor
      usable
    have ready : DivisionWorkspace.Ready ⟨heap, quotient, remainder⟩ :=
      ready_of_usable bounded addressable usable
    exact ignoresOutputs bounded ready usableDividend usableDivisor

/-- The product of seven and minus two where seven stood, and the quotient and
the remainder each where the other operand stood. -/
theorem pairHeap_outputs_may_share :
    pairHeap.check = .ok () ∧ pairHeap.pointer ≤ maxAddress ∧
      IgnoresTarget (.mul seven minusTwo) ⟨pairHeap, seven⟩ ∧
      IgnoresOutputs seven minusTwo ⟨pairHeap, some minusTwo, some seven⟩ ∧
      Ensures (Operation.mul seven minusTwo).perform ⟨pairHeap, seven⟩
        (fun _ after => after.target.value after.heap = .ok (-14))
        (fun _ _ => False) := by
  have checked : pairHeap.check = .ok () := by decide
  have addressable : pairHeap.pointer ≤ maxAddress := by decide
  obtain ⟨single, double⟩ := outputs_may_share checked addressable
  have outputs : DivisionWorkspace.Usable
      ⟨pairHeap, some minusTwo, some seven⟩ := by
    refine ⟨?_, ?_, ?_⟩
    · rintro _ ⟨⟩
      exact usable_minusTwo
    · rintro _ ⟨⟩
      exact usable_seven
    · rintro _ _ ⟨⟩ ⟨⟩ buffer ⟨_, ⟨⟩, rfl⟩ ⟨_, ⟨⟩, same⟩
      cases same
  refine ⟨checked, addressable, single _ _ usable_seven ?_,
    double _ _ _ _ usable_seven usable_minusTwo outputs, by decide +kernel⟩
  intro operand member
  rcases List.mem_pair.mp member with rfl | rfl
  · exact usable_seven
  · exact usable_minusTwo

end Bignum

end ManagedHeap
