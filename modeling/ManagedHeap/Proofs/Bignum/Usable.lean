import ManagedHeap.Proofs.Bignum.Division
import ManagedHeap.Proofs.Heap.Checking

/-!
# Usable bignums

Control structures that the arithmetic layer takes as operands and as targets,
from outside the heap too: they agree with their storage (`Heap.Usable`), so
they stand for an integer, and there is room for what they claim. A fresh zero
is one of them (`Bignum.Fresh`).
-/

namespace ManagedHeap

/-! ## Usable bignums -/

namespace Bignum

/-- The integer that a bignum stands for, and 0 where its digits cannot be
read. -/
def integer (number : Bignum) (heap : Heap) : Int :=
  (number.value heap).toOption.getD 0

end Bignum

namespace Heap

variable {heap after : Heap} {number : Bignum}

/-- A bignum that agrees with its storage: it claims no more digits than it
has room for, the highest of them is not zero, and all the room is there. A
zero may have either sign. -/
structure Usable (heap : Heap) (number : Bignum) : Prop where
  used_le_capacity : number.used ≤ number.capacity
  unstored : number.storage = none → number.capacity = 0
  stored : ∀ start, number.storage = some start → heap.Stores number start

theorem usable_empty (heap : Heap) : heap.Usable .empty where
  used_le_capacity := Nat.le_refl _
  unstored := fun _ => rfl
  stored := fun _ stored => nomatch stored

theorem SoundBignum.usable (sound : heap.SoundBignum number)
    (roomless : number.storage = none → number.capacity = 0) :
    heap.Usable number where
  used_le_capacity := sound.used_le_capacity
  unstored := roomless
  stored := sound.stored

theorem Usable.soundBignum (usable : heap.Usable number)
    (zero : number.used = 0 → number.sign = .nonnegative) :
    heap.SoundBignum number where
  used_le_capacity := usable.used_le_capacity
  zero_is_nonnegative := zero
  unstored_is_zero := by
    intro unstored
    have roomless := usable.unstored unstored
    have inUse := usable.used_le_capacity
    omega
  stored := usable.stored

/-- The digits in use do not depend on the sign. -/
theorem Usable.exists_digits (usable : heap.Usable number) :
    ∃ digits, number.digits heap = .ok digits ∧ digits.length = number.used ∧
      digits.getLast? ≠ some 0 := by
  have unsigned : heap.Usable { number with sign := .nonnegative } :=
    ⟨usable.used_le_capacity, usable.unstored, usable.stored⟩
  exact (unsigned.soundBignum fun _ => rfl).exists_digits

theorem Usable.value_eq (usable : heap.Usable number) :
    number.value heap = .ok (number.integer heap) := by
  obtain ⟨digits, read, _⟩ := usable.exists_digits
  rw [Bignum.integer, value_of_digits read]
  rfl

/-- A buffer that ends below an address has a size of 32 bits. -/
theorem Usable.backs (usable : heap.Usable number) (bounded : heap.Bounded)
    (addressable : heap.pointer ≤ maxAddress) :
    heap.Backs number where
  used_le_capacity := usable.used_le_capacity
  unstored := usable.unstored
  stored := by
    intro start stored
    obtain ⟨atStart, bytes, found, room, _⟩ := usable.stored start stored
    have below := bounded _ _ found
    refine ⟨atStart, bytes, found, room, ?_⟩
    simp only [Object.size, Object.sizeInWords, Object.wordsBy,
      Object.blobWords, bytesToWords, wordSize, Positional.ceilDiv] at below
    omega

/-- Backed digits that do not end in zero make a usable bignum. -/
theorem Backs.usable {digits : List UInt32} (backs : heap.Backs number)
    (read : number.digits heap = .ok digits)
    (last : digits.getLast? ≠ some 0) :
    heap.Usable number where
  used_le_capacity := backs.used_le_capacity
  unstored := backs.unstored
  stored := fun _ stored => backs.stores read last stored

theorem Usable.exists_blob (usable : heap.Usable number) {buffer : Nat}
    (owns : number.Owns buffer) :
    ∃ bytes, heap.objects.find? buffer = some (.blob bytes) := by
  obtain ⟨start, stored, rfl⟩ := owns
  obtain ⟨_, bytes, found, _⟩ := usable.stored start stored
  exact ⟨bytes, found⟩

/-- Where nothing is written, the integer stays. -/
theorem Usable.value_kept (usable : heap.Usable number)
    (untouched : Rewrites (fun _ => False) heap after) :
    number.value after = .ok (number.integer heap) := by
  rw [← usable.value_eq]
  refine value_congr fun owns => ?_
  obtain ⟨bytes, found⟩ := usable.exists_blob owns
  rw [found]
  exact untouched.kept found not_false

/-- Where nothing is written, the room stays. -/
theorem Backs.kept (backs : heap.Backs number)
    (untouched : Rewrites (fun _ => False) heap after) :
    after.Backs number where
  used_le_capacity := backs.used_le_capacity
  unstored := backs.unstored
  stored := by
    intro start stored
    obtain ⟨atStart, bytes, found, room⟩ := backs.stored start stored
    exact ⟨atStart, bytes, untouched.kept found not_false, room⟩

end Heap

namespace Bignum

/-! ## Fresh bignums -/

/-- A zero whose digits have a new buffer at the heap pointer. -/
structure Fresh (before : Heap) (number : Bignum) (after : Heap) : Prop where
  untouched : Heap.Rewrites (fun _ => False) before after
  backs : after.Backs number
  trims : after.Trims number
  unused : number.used = 0
  sign : number.sign = .nonnegative
  stored : ∃ buffer : Handle, number.storage = some (.startOf buffer) ∧
    buffer.address = before.pointer

theorem fresh_of_zero {heap after : Heap} {precision : Nat} {number : Bignum}
    (bounded : heap.Bounded)
    (outcome : zero precision heap = .ok number after) :
    Fresh heap number after := by
  obtain ⟨fits, rfl, answers⟩ := (allots_zero heap precision).of_ok outcome
  have atPointer := Handle.address_ofAddress fits.pointer_lt
  have isNumber := answers _ atPointer
  have found := Heap.find?_push_self heap
    (.blob (Bytes.zeros (precision * digitBytes)))
  have addressable := fits.size_lt
  rw [Bytes.size_zeros] at addressable
  rw [← atPointer] at found
  obtain ⟨backs, trims⟩ := backs_zero found addressable
  rw [isNumber]
  exact ⟨bounded.rewrites_push fits, backs, trims, rfl, rfl, _, rfl, atPointer⟩

/-- A bignum that was there before lies below the new buffer. -/
theorem Fresh.storedApart {before after : Heap} {number other : Bignum}
    (fresh : Fresh before number after) (bounded : before.Bounded)
    (backs : before.Backs other) :
    other.StoredApart number := by
  intro address ownsOther ownsNumber
  have below := backs.lt_of_owns bounded ownsOther
  obtain ⟨buffer, stored, atPointer⟩ := fresh.stored
  obtain ⟨start, isStorage, atAddress⟩ := ownsNumber
  obtain rfl := Option.some.inj (stored.symm.trans isStorage)
  rw [← atAddress] at below
  exact Nat.lt_irrefl _ (atPointer ▸ below)

theorem Fresh.soundBignum {before after : Heap} {number : Bignum}
    (fresh : Fresh before number after) :
    after.SoundBignum number :=
  fresh.backs.soundBignum fresh.unused fresh.sign

/-! ## Two bignums -/

/-- The digits of seven, below room for a digit more that holds something, and
those of minus two. There is little space left. -/
def pairHeap : Heap where
  config := { heapLimit := 0x10040 }
  objects := {
    entries := [
      (0x10000, .blob (Bytes.ofList [7, 0, 0, 0, 1, 2, 3, 4])),
      (0x10010, .blob (Bytes.ofList [2, 0, 0, 0]))]
    ascending := by simp [Ascending] }
  pointer := 0x1001c
  roots := []
  lastLive := 0
  allocated := 0x1c

def seven : Bignum where
  used := 1
  capacity := 2
  storage := some (.startOf (Handle.ofAddress 0x10000))

def minusTwo : Bignum where
  used := 1
  capacity := 1
  sign := .negative
  storage := some (.startOf (Handle.ofAddress 0x10010))

theorem usable_seven : pairHeap.Usable seven := by
  have checked : pairHeap.checkBignum 0 seven = .ok () := by decide
  exact (Heap.checkBignum_eq_ok_iff.mp checked).usable
    fun unstored => nomatch unstored

theorem usable_minusTwo : pairHeap.Usable minusTwo := by
  have checked : pairHeap.checkBignum 0 minusTwo = .ok () := by decide
  exact (Heap.checkBignum_eq_ok_iff.mp checked).usable
    fun unstored => nomatch unstored

end Bignum

end ManagedHeap
