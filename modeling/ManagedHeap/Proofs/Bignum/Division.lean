import ManagedHeap.Proofs.Bignum.Arithmetic
import ManagedHeap.Proofs.Bignum.Reading

/-!
# Division with two outputs

A division writes its quotient first and its remainder after it. Whichever of
the two outputs are wanted, each wanted one comes to stand for its exact
integer (`ensures_divide`): writing one output leaves the storage of the other
alone, and the operands are read before either is written. What was done to
each output stays known, also where the second fails (`ensures_divide_writes`).
-/

namespace ManagedHeap

/-! ## Truncation -/

/-- The quotient and the remainder of a division that truncates toward zero:
the multiple of the divisor is no larger than the dividend, and what is left
has the sign of the dividend. -/
structure Truncates (dividend divisor quotient remainder : Int) : Prop where
  sum : dividend = quotient * divisor + remainder
  towardZero : (quotient * divisor).natAbs ≤ dividend.natAbs
  small : remainder.natAbs < divisor.natAbs
  sign : remainder = 0 ∨ remainder.sign = dividend.sign

theorem truncates_tdiv_tmod (dividend : Int) {divisor : Int}
    (nonzero : divisor ≠ 0) :
    Truncates dividend divisor (dividend.tdiv divisor)
      (dividend.tmod divisor) where
  sum := (Int.tdiv_mul_add_tmod dividend divisor).symm
  towardZero := by
    rw [Int.natAbs_mul, Int.natAbs_tdiv]
    exact Nat.div_mul_le_self ..
  small := by
    rw [Int.natAbs_tmod]
    exact Nat.mod_lt _ (Int.natAbs_pos.mpr nonzero)
  sign := by
    by_cases divides : divisor ∣ dividend
    · exact Or.inl (Int.dvd_iff_tmod_eq_zero.mp divides)
    · right
      rw [Int.sign_tmod, if_neg divides]

namespace Bignum

/-! ## Storage apart -/

/-- No buffer holds the digits of both. -/
def StoredApart (left right : Bignum) : Prop :=
  ∀ buffer, left.Owns buffer → ¬right.Owns buffer

theorem StoredApart.symm {left right : Bignum}
    (apart : left.StoredApart right) : right.StoredApart left :=
  fun buffer ownsRight ownsLeft => apart buffer ownsLeft ownsRight

variable {before after : Workspace} {other : Bignum} {cost : Nat}

/-- The storage of another bignum is not written to. -/
theorem Spends.find?_other (spends : Spends cost before after)
    (apart : before.target.StoredApart other)
    (backs : before.heap.Backs other) {buffer : Nat}
    (owns : other.Owns buffer) :
    after.heap.objects.find? buffer = before.heap.objects.find? buffer := by
  have unwritten : ¬before.target.Owns buffer :=
    fun shared => apart buffer shared owns
  obtain ⟨bytes, found⟩ := backs.exists_blob owns
  rw [found]
  exact spends.rewrites.kept found unwritten

theorem Spends.backs_other (spends : Spends cost before after)
    (apart : before.target.StoredApart other)
    (backs : before.heap.Backs other) :
    after.heap.Backs other where
  used_le_capacity := backs.used_le_capacity
  unstored := backs.unstored
  stored := by
    intro start stored
    rw [spends.find?_other apart backs ⟨start, stored, rfl⟩]
    exact backs.stored start stored

theorem Spends.value_other (spends : Spends cost before after)
    (apart : before.target.StoredApart other)
    (backs : before.heap.Backs other) :
    other.value after.heap = other.value before.heap :=
  Heap.value_congr fun owns => spends.find?_other apart backs owns

/-- New storage lies above the heap pointer, where the other bignum has
none. -/
theorem Spends.storedApart (spends : Spends cost before after)
    (bounded : before.heap.Bounded)
    (apart : before.target.StoredApart other)
    (backs : before.heap.Backs other) :
    after.target.StoredApart other := by
  intro buffer ownsTarget ownsOther
  cases spends.owns ownsTarget with
  | inl old => exact apart buffer old ownsOther
  | inr fresh =>
    exact Nat.not_lt.mpr fresh (backs.lt_of_owns bounded ownsOther)

end Bignum

/-! ## Outputs -/

namespace DivisionWorkspace

/-- Every wanted output has the room that it claims, and storage of its
own. -/
structure Ready (workspace : DivisionWorkspace) : Prop where
  quotient : ∀ target, workspace.quotient = some target →
    workspace.heap.Backs target
  remainder : ∀ target, workspace.remainder = some target →
    workspace.heap.Backs target
  apart : ∀ quotient remainder, workspace.quotient = some quotient →
    workspace.remainder = some remainder → quotient.StoredApart remainder

/-- Every output that was wanted stands for its integer. -/
structure Yields (before after : DivisionWorkspace) (quotient remainder : Int) :
    Prop where
  quotient : before.quotient.isSome → ∃ number,
    after.quotient = some number ∧ number.value after.heap = .ok quotient
  remainder : before.remainder.isSome → ∃ number,
    after.remainder = some number ∧ number.value after.heap = .ok remainder

end DivisionWorkspace

section Steps

variable {α : Type} {heap : Heap} {target : Bignum} {operation : DigitM Unit}
  {quotient remainder : Option Bignum}
  {returns : Unit → DivisionWorkspace → Prop}
  {fails : Error → DivisionWorkspace → Prop}

private theorem ensures_onQuotient :
    Ensures (DivisionM.onQuotient operation) ⟨heap, some target, remainder⟩
        returns fails ↔
      Ensures operation ⟨heap, target⟩
        (fun _ after => returns () ⟨after.heap, some after.target, remainder⟩)
        (fun error after =>
          fails error ⟨after.heap, some after.target, remainder⟩) := by
  unfold Ensures DivisionM.onQuotient
  cases outcome : operation ⟨heap, target⟩ <;> simp only [outcome]

private theorem ensures_onRemainder :
    Ensures (DivisionM.onRemainder operation) ⟨heap, quotient, some target⟩
        returns fails ↔
      Ensures operation ⟨heap, target⟩
        (fun _ after => returns () ⟨after.heap, quotient, some after.target⟩)
        (fun error after =>
          fails error ⟨after.heap, quotient, some after.target⟩) := by
  unfold Ensures DivisionM.onRemainder
  cases outcome : operation ⟨heap, target⟩ <;> simp only [outcome]

theorem Ensures.readOperands {reader : Heap → Except Error α} {value : α}
    {next : α → DivisionM Unit} {workspace : DivisionWorkspace}
    (result : reader workspace.heap = .ok value)
    (rest : Ensures (next value) workspace returns fails) :
    Ensures (DivisionM.inspect reader >>= next) workspace returns fails := by
  rw [ensures_bind]
  have read : DivisionM.inspect reader workspace = .ok value workspace := by
    rw [DivisionM.inspect, result]
  exact Ensures.intro read rest

end Steps

namespace Bignum

/-! ## Writing the outputs -/

/-- An output that is wanted is given its integer, and one that is not stays
left out. -/
inductive Writes (value : Int) :
    Heap → Option Bignum → Heap → Option Bignum → Prop where
  | unwanted (heap : Heap) : Writes value heap none heap none
  | wanted {before after : Heap} {target number : Bignum} {cost : Nat}
      (assigns : Assigns value cost ⟨before, target⟩ ⟨after, number⟩) :
      Writes value before (some target) after (some number)

variable {workspace : DivisionWorkspace} {value : Int}

section Writes

variable {before after : Heap} {output written : Option Bignum}
  {other : Bignum}

theorem Writes.bounded (writes : Writes value before output after written)
    (bounded : before.Bounded) :
    after.Bounded := by
  cases writes with
  | unwanted => exact bounded
  | wanted assigns => exact assigns.rewrites.bounded bounded

/-- A bignum stored apart from the output is still all there. -/
theorem Writes.backs_other (writes : Writes value before output after written)
    (apart : ∀ target, output = some target → target.StoredApart other)
    (backs : before.Backs other) :
    after.Backs other := by
  cases writes with
  | unwanted => exact backs
  | wanted assigns =>
    exact assigns.toSpends.backs_other (apart _ rfl) backs

theorem Writes.value_other (writes : Writes value before output after written)
    (apart : ∀ target, output = some target → target.StoredApart other)
    (backs : before.Backs other) :
    other.value after = other.value before := by
  cases writes with
  | unwanted => rfl
  | wanted assigns =>
    exact assigns.toSpends.value_other (apart _ rfl) backs

theorem Writes.storedApart (writes : Writes value before output after written)
    (bounded : before.Bounded)
    (apart : ∀ target, output = some target → target.StoredApart other)
    (backs : before.Backs other) :
    ∀ number, written = some number → number.StoredApart other := by
  intro number isNumber
  cases writes with
  | unwanted => cases isNumber
  | wanted assigns =>
    obtain rfl := Option.some.inj isNumber
    exact assigns.toSpends.storedApart bounded (apart _ rfl) backs

theorem Writes.backs (writes : Writes value before output after written) :
    ∀ number, written = some number → after.Backs number := by
  intro number isNumber
  cases writes with
  | unwanted => cases isNumber
  | wanted assigns =>
    obtain rfl := Option.some.inj isNumber
    exact assigns.backs

/-- The output that was wanted reads as its integer. -/
theorem Writes.exists_value (writes : Writes value before output after written)
    (wanted : output.isSome) :
    ∃ number, written = some number ∧ number.value after = .ok value := by
  cases writes with
  | unwanted => cases wanted
  | wanted assigns => exact ⟨_, rfl, assigns.value_eq⟩

end Writes

private theorem ensures_assignQuotient (bounded : workspace.heap.Bounded)
    (backs : ∀ target, workspace.quotient = some target →
      workspace.heap.Backs target) :
    Ensures (DivisionM.onQuotient (assign value)) workspace
      (fun _ after => after.remainder = workspace.remainder ∧
        Writes value workspace.heap workspace.quotient after.heap
          after.quotient)
      (fun error after => after = workspace ∧ error.IsOutOfMemory) := by
  obtain ⟨heap, quotient, remainder⟩ := workspace
  cases quotient with
  | none => exact ⟨rfl, .unwanted heap⟩
  | some target =>
    have assigned : Ensures (assign value) ⟨heap, target⟩ _ _ :=
      ensures_assign value bounded (backs target rfl)
    rw [ensures_onQuotient]
    apply assigned.mono
    · exact fun _ after assigns => ⟨rfl, .wanted assigns⟩
    · intro error after failed
      obtain ⟨unchanged, outOfMemory, _⟩ := failed
      rw [unchanged]
      exact ⟨rfl, outOfMemory⟩

private theorem ensures_assignRemainder (bounded : workspace.heap.Bounded)
    (backs : ∀ target, workspace.remainder = some target →
      workspace.heap.Backs target) :
    Ensures (DivisionM.onRemainder (assign value)) workspace
      (fun _ after => after.quotient = workspace.quotient ∧
        Writes value workspace.heap workspace.remainder after.heap
          after.remainder)
      (fun error after => after = workspace ∧ error.IsOutOfMemory) := by
  obtain ⟨heap, quotient, remainder⟩ := workspace
  cases remainder with
  | none => exact ⟨rfl, .unwanted heap⟩
  | some target =>
    have assigned : Ensures (assign value) ⟨heap, target⟩ _ _ :=
      ensures_assign value bounded (backs target rfl)
    rw [ensures_onRemainder]
    apply assigned.mono
    · exact fun _ after assigns => ⟨rfl, .wanted assigns⟩
    · intro error after failed
      obtain ⟨unchanged, outOfMemory, _⟩ := failed
      rw [unchanged]
      exact ⟨rfl, outOfMemory⟩

/-- A division writes the quotient and after it the remainder, or memory runs
out before the first or before the second. -/
theorem ensures_divide_writes {dividend divisor : Bignum} {x y : Int}
    (bounded : workspace.heap.Bounded) (ready : workspace.Ready)
    (readDividend : dividend.value workspace.heap = .ok x)
    (readDivisor : divisor.value workspace.heap = .ok y) (nonzero : y ≠ 0) :
    Ensures (divide dividend divisor) workspace
      (fun _ after => ∃ middle,
        Writes (x.tdiv y) workspace.heap workspace.quotient middle
          after.quotient ∧
        Writes (x.tmod y) middle workspace.remainder after.heap
          after.remainder)
      (fun error after => error.IsOutOfMemory ∧
        (after = workspace ∨ after.remainder = workspace.remainder ∧
          Writes (x.tdiv y) workspace.heap workspace.quotient after.heap
            after.quotient)) := by
  have operands := divisionOperands_eq readDividend readDivisor
  rw [if_neg nonzero] at operands
  unfold divide
  apply Ensures.readOperands operands
  rw [ensures_bind]
  apply (ensures_assignQuotient bounded ready.quotient).mono
  · intro _ middle written
    obtain ⟨sameRemainder, writesQuotient⟩ := written
    have backsRemainder : ∀ target, middle.remainder = some target →
        middle.heap.Backs target := by
      intro target isTarget
      rw [sameRemainder] at isTarget
      exact writesQuotient.backs_other
        (fun quotient isQuotient =>
          ready.apart quotient target isQuotient isTarget)
        (ready.remainder target isTarget)
    apply (ensures_assignRemainder (writesQuotient.bounded bounded)
      backsRemainder).mono
    · intro _ after writtenAfter
      obtain ⟨sameQuotient, writesRemainder⟩ := writtenAfter
      rw [← sameQuotient] at writesQuotient
      rw [sameRemainder] at writesRemainder
      exact ⟨middle.heap, writesQuotient, writesRemainder⟩
    · intro error after failed
      obtain ⟨unchanged, outOfMemory⟩ := failed
      rw [unchanged]
      exact ⟨outOfMemory, Or.inr ⟨sameRemainder, writesQuotient⟩⟩
  · intro error after failed
    exact ⟨failed.2, Or.inl failed.1⟩

theorem divide_of_zero (workspace : DivisionWorkspace)
    {dividend divisor : Bignum} {x : Int}
    (readDividend : dividend.value workspace.heap = .ok x)
    (readDivisor : divisor.value workspace.heap = .ok 0) :
    divide dividend divisor workspace =
      .error (.arithmetic .invalidOperand) workspace := by
  have operands := divisionOperands_eq readDividend readDivisor
  simp [divide, bind, EStateM.bind, DivisionM.inspect, operands]

/-- Whichever outputs are wanted, each gets the quotient or the remainder of
the same division, unless memory runs out. -/
theorem ensures_divide {dividend divisor : Bignum} {x y : Int}
    (bounded : workspace.heap.Bounded) (ready : workspace.Ready)
    (readDividend : dividend.value workspace.heap = .ok x)
    (readDivisor : divisor.value workspace.heap = .ok y) (nonzero : y ≠ 0) :
    Ensures (divide dividend divisor) workspace
      (fun _ after => workspace.Yields after (x.tdiv y) (x.tmod y))
      (fun error _ => error.IsOutOfMemory) := by
  have written :=
    ensures_divide_writes bounded ready readDividend readDivisor nonzero
  apply written.mono
  · intro _ after writes
    obtain ⟨middle, writesQuotient, writesRemainder⟩ := writes
    constructor
    · -- The quotient was written before the remainder, and reads as then.
      intro wanted
      obtain ⟨number, isNumber, read⟩ := writesQuotient.exists_value wanted
      have kept : number.value after.heap = number.value middle := by
        refine writesRemainder.value_other ?_
          (writesQuotient.backs number isNumber)
        intro target isTarget
        have apart := writesQuotient.storedApart bounded
          (fun quotient isQuotient =>
            ready.apart quotient target isQuotient isTarget)
          (ready.remainder target isTarget)
        exact (apart number isNumber).symm
      exact ⟨number, isNumber, kept.trans read⟩
    · exact fun wanted => writesRemainder.exists_value wanted
  · exact fun _ _ failed => failed.1

end Bignum

end ManagedHeap
