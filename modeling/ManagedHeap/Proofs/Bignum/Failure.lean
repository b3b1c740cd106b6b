import ManagedHeap.Proofs.Bignum.Operations

/-!
# Failed changes

A change to a bignum may fail at several places: when its operands are
refused, and at each allocation, a second one after the first went through.
All of them come before the first digit is written, so the number stays what
it was. The most that a failure leaves behind is more room, in a longer copy
of the storage (`failed_change_keeps`).
-/

namespace ManagedHeap.Bignum

/-- The storage is a new buffer, longer than the one before by their length
words, which begins with all that there was room for. -/
def ReplacesStorage (before after : Workspace) : Prop :=
  ∃ buffer copy, after.target.storage = some (.startOf buffer) ∧
    before.heap.pointer ≤ buffer.address ∧
    after.heap.objects.find? buffer.address = some (.blob copy) ∧
    ∀ old bytes, before.target.storage = some old →
      before.heap.objects.find? old.buffer.address = some (.blob bytes) →
        Object.lengthWord bytes.size < Object.lengthWord copy.size ∧
          bytes.toList.take (digitBytes * before.target.capacity) <+:
            copy.toList

/-- The target is the number that it was, with the same digits, and so is
every other bignum. No object that was there has changed. At most there is
more room. -/
structure Keeps (before after : Workspace) : Prop where
  usable : after.heap.Usable after.target
  sign : after.target.sign = before.target.sign
  used : after.target.used = before.target.used
  digits : after.target.digits after.heap = before.target.digits before.heap
  integers : ∀ number, before.heap.Usable number →
    number.value after.heap = number.value before.heap
  objects : ∀ address object,
    before.heap.objects.find? address = some object →
      after.heap.objects.find? address = some object
  capacity_le : before.target.capacity ≤ after.target.capacity
  storage : after.target.storage = before.target.storage ∨
    ReplacesStorage before after

variable {before after : Workspace} {cost : Nat}

/-- The storage of a backed bignum starts where its buffer does. -/
theorem exists_startOf {heap : Heap} {number : Bignum} {start : PayloadPointer}
    (backs : heap.Backs number) (stored : number.storage = some start) :
    number.storage = some (.startOf start.buffer) := by
  obtain ⟨atStart, _⟩ := backs.stored start stored
  rw [stored]
  exact congrArg some (PayloadPointer.ext rfl atStart)

theorem Widens.replacesStorage (widens : Widens cost before after) :
    after.target.storage = before.target.storage ∨
      ReplacesStorage before after := by
  rcases widens.storage with same | fresh
  · exact Or.inl same
  · cases newStored : after.target.storage with
    | none =>
      left
      cases stored : before.target.storage with
      | none => rfl
      | some old =>
        have stays := widens.stays_stored (by rw [stored]; rfl)
        rw [newStored] at stays
        cases stays
    | some new =>
      obtain ⟨_, copy, found, _⟩ := widens.backs.stored new newStored
      by_cases same : before.target.storage = some new
      · exact Or.inl same.symm
      · right
        refine ⟨new.buffer, copy, exists_startOf widens.backs newStored,
          fresh _ ⟨new, newStored, rfl⟩, found, ?_⟩
        intro old bytes stored present
        rcases widens.copies old bytes stored present with kept
          | ⟨other, otherCopy, otherStored, otherFound, longer, begins⟩
        · rw [newStored] at kept
          exact absurd (stored.trans kept.symm) same
        · obtain rfl := Option.some.inj (newStored.symm.trans otherStored)
          obtain rfl :=
            Object.blob.inj (Option.some.inj (found.symm.trans otherFound))
          exact ⟨longer, begins⟩

theorem Widens.keeps (widens : Widens cost before after)
    (usable : before.heap.Usable before.target) :
    Keeps before after where
  usable := widens.usable usable
  sign := widens.sign
  used := widens.used
  digits := widens.digits_eq
  integers := by
    intro number usableNumber
    rw [usableNumber.value_eq]
    exact usableNumber.value_kept widens.untouched
  objects := fun _ _ found => widens.untouched.kept found not_false
  capacity_le := widens.capacity_le
  storage := widens.replacesStorage

/-! ## Any heap -/

variable {heap : Heap} {target : Bignum} {change : Change Bignum}
  {error : Error}

/-- In a heap that passes the check, with a heap pointer of 32 bits, a change
that fails keeps the number that it was to change, whether or not the number
shares its storage with an operand. It fails because memory runs out or
because its operands are refused. -/
theorem failed_change_keeps (checked : heap.check = .ok ())
    (addressable : heap.pointer ≤ maxAddress) (usable : heap.Usable target)
    (operands : ∀ operand ∈ change.operands, heap.Usable operand)
    (failed : change.perform ⟨heap, target⟩ = .error error after) :
    Keeps ⟨heap, target⟩ after ∧
      (error.IsOutOfMemory ∨ error = .arithmetic .invalidOperand) := by
  have bounded := (Heap.check_eq_ok_iff.mp checked).layout.bounded
  have backs := usable.backs bounded addressable
  have ensured : Ensures change.perform ⟨heap, target⟩ _ _ :=
    ensures_change bounded backs operands
  obtain ⟨⟨_, widens⟩, reason⟩ := ensured.of_error failed
  exact ⟨widens.keeps usable, reason⟩

/-- Seven to the power of 48 in place of seven: there is space for the four
digits that are asked for first, and not for all five. -/
theorem seven_pow_keeps :
    ∃ error after, pairHeap.check = .ok () ∧ pairHeap.pointer ≤ maxAddress ∧
      pairHeap.Usable seven ∧
      (Change.compute (.pow seven 48)).perform ⟨pairHeap, seven⟩ =
        .error error after ∧
      after.target.capacity = 4 ∧
      Keeps ⟨pairHeap, seven⟩ after ∧
      (error.IsOutOfMemory ∨ error = .arithmetic .invalidOperand) := by
  have checked : pairHeap.check = .ok () := by decide
  have addressable : pairHeap.pointer ≤ maxAddress := by decide
  have operands : ∀ operand ∈ (Change.compute (.pow seven 48)).operands,
      pairHeap.Usable operand := by
    intro operand member
    obtain rfl := List.mem_singleton.mp member
    exact usable_seven
  have fails : Ensures (Change.compute (.pow seven 48)).perform
      ⟨pairHeap, seven⟩ (fun _ _ => False)
      (fun _ after => after.target.capacity = 4) := by
    decide +kernel
  cases outcome : (Change.compute (.pow seven 48)).perform
      ⟨pairHeap, seven⟩ with
  | ok _ after => exact (fails.of_ok outcome).elim
  | error error after =>
    exact ⟨error, after, checked, addressable, usable_seven, rfl,
      fails.of_error outcome,
      failed_change_keeps checked addressable usable_seven operands outcome⟩

end ManagedHeap.Bignum
