import ManagedHeap.Bignum.Digits
import ManagedHeap.Heap.Roots

/-!
# Sound heaps

What a sound heap is, clause by clause and in no order: nothing dangles,
objects are aligned and lie apart between the base and the heap pointer, and
every bignum agrees with its storage.
-/

namespace ManagedHeap.Heap

/-- An object stands where the handle refers to. -/
def Holds (heap : Heap) (handle : Handle) : Prop :=
  ∃ object, heap.objects.find? handle.address = some object

/-! ## Bignums -/

/-- A byte buffer at the start of `start` holds all digits that `number`
claims, by its length word, and the highest of those in use is not zero. -/
def Stores (heap : Heap) (number : Bignum) (start : PayloadPointer) : Prop :=
  start.offset = 0 ∧
    ∃ bytes, heap.objects.find? start.buffer.address = some (.blob bytes) ∧
      Bignum.digitBytes * number.capacity ≤ Object.lengthWord bytes.size ∧
      (number.used ≠ 0 →
        ∃ digit, (Digits.decode bytes.toList)[number.used - 1]? = some digit ∧
          digit ≠ 0)

/-- A bignum that agrees with its storage. -/
structure SoundBignum (heap : Heap) (number : Bignum) : Prop where
  used_le_capacity : number.used ≤ number.capacity
  zero_is_nonnegative : number.used = 0 → number.sign = .nonnegative
  unstored_is_zero : number.storage = none → number.used = 0
  stored : ∀ start, number.storage = some start → heap.Stores number start

/-! ## Layout -/

/-- Two entries whose objects have no byte in common. -/
def Apart (left right : Nat × Object) : Prop :=
  left.1 + left.2.size ≤ right.1 ∨ right.1 + right.2.size ≤ left.1

instance (left right : Nat × Object) : Decidable (Apart left right) :=
  inferInstanceAs (Decidable (_ ∨ _))

theorem Apart.symm {left right : Nat × Object} (apart : Apart left right) :
    Apart right left :=
  Or.symm apart

/-- Aligned objects that lie apart between the base and the heap pointer. -/
structure SoundLayout (heap : Heap) : Prop where
  aligned : ∀ entry ∈ heap.objects.entries, entry.1 % wordSize = 0
  above_base : ∀ entry ∈ heap.objects.entries, heap.base ≤ entry.1
  below_pointer :
    ∀ entry ∈ heap.objects.entries, entry.1 + entry.2.size ≤ heap.pointer
  apart : ∀ left ∈ heap.objects.entries, ∀ right ∈ heap.objects.entries,
    left.1 ≠ right.1 → Apart left right

instance (heap : Heap) : Decidable heap.SoundLayout :=
  decidable_of_iff
    ((∀ entry ∈ heap.objects.entries, entry.1 % wordSize = 0) ∧
      (∀ entry ∈ heap.objects.entries, heap.base ≤ entry.1) ∧
      (∀ entry ∈ heap.objects.entries,
        entry.1 + entry.2.size ≤ heap.pointer) ∧
      ∀ left ∈ heap.objects.entries, ∀ right ∈ heap.objects.entries,
        left.1 ≠ right.1 → Apart left right)
    ⟨fun ⟨aligned, above, below, apart⟩ => ⟨aligned, above, below, apart⟩,
      fun ⟨aligned, above, below, apart⟩ => ⟨aligned, above, below, apart⟩⟩

/-! ## The whole heap -/

/-- A heap that obeys every rule. -/
structure Sound (heap : Heap) : Prop where
  roots_held : ∀ handle ∈ heap.liveRoots, heap.Holds handle
  layout : heap.SoundLayout
  pointers_held : ∀ entry ∈ heap.objects.entries,
    ∀ target ∈ entry.2.pointers, heap.Holds target
  bignums : ∀ address number,
    (address, Object.bigInteger number) ∈ heap.objects.entries →
      heap.SoundBignum number

/-- A heap without objects obeys every rule. -/
theorem sound_empty (config : Config) : (Heap.empty config).Sound where
  roots_held := by simp [Heap.empty, liveRoots]
  layout := by
    constructor <;> simp [Heap.empty, Store.empty]
  pointers_held := by simp [Heap.empty, Store.empty]
  bignums := by simp [Heap.empty, Store.empty]

end ManagedHeap.Heap
