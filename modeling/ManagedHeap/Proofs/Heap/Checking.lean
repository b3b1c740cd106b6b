import Mathlib.Data.List.Pairwise
import ManagedHeap.Heap.Check
import ManagedHeap.Heap.Soundness
import ManagedHeap.Proofs.Bignum.Digits
import ManagedHeap.Proofs.Outcomes

/-!
# The heap check and soundness

The check passes exactly on the sound heaps (`check_eq_ok_iff`). The check
goes through the objects in address order and compares each with the end of
the one before; that is enough for any two to lie apart, because entries
ascend.
-/

namespace ManagedHeap.Heap

variable {heap : Heap}

/-! ## References -/

theorem contains_eq_true_iff {handle : Handle} :
    heap.contains handle = true ↔ heap.Holds handle := by
  rw [contains, Option.isSome_iff_exists]
  rfl

theorem find?_not_contains_eq_none_iff {handles : List Handle} :
    (handles.find? fun handle => !heap.contains handle) = none ↔
      ∀ handle ∈ handles, heap.Holds handle := by
  simp [← contains_eq_true_iff]

theorem checkRoots_eq_ok_iff :
    heap.checkRoots = .ok () ↔
      ∀ handle ∈ heap.liveRoots, heap.Holds handle := by
  rw [← find?_not_contains_eq_none_iff, checkRoots]
  split <;> rename_i search <;> simp [search]

theorem checkPointers_eq_ok_iff {address : Nat} {object : Object} :
    heap.checkPointers address object = .ok () ↔
      ∀ target ∈ object.pointers, heap.Holds target := by
  rw [← find?_not_contains_eq_none_iff, checkPointers]
  split <;> rename_i search <;> simp [search]

theorem find_eq_ok_iff {handle : Handle} {object : Object} :
    heap.find handle = .ok object ↔
      heap.objects.find? handle.address = some object := by
  unfold find
  split <;> rename_i search <;> simp [search]

/-! ## Bignums -/

theorem isZeroDigit_eq_false_iff {bytes : Bytes} {index : Nat}
    (inside : Bignum.digitBytes * index + Bignum.digitBytes ≤ bytes.size) :
    isZeroDigit bytes index = false ↔
      ∃ digit, (Digits.decode bytes.toList)[index]? = some digit ∧
        digit ≠ 0 := by
  have available : 4 * index + 4 ≤ bytes.toList.length := inside
  obtain ⟨first, second, third, fourth, values, digit⟩ :=
    Digits.getElem?_decode available
  rw [isZeroDigit, Bytes.toList_slice, Bignum.digitBytes, values, digit]
  simp only [Option.some.injEq, exists_eq_left', ne_eq,
    Digits.ofBytes_eq_zero_iff]
  simp

theorem checkDigits_eq_ok_iff {address : Nat} {number : Bignum} {bytes : Bytes}
    (bounded : number.used ≤ number.capacity) :
    checkDigits address number bytes = .ok () ↔
      Bignum.digitBytes * number.capacity ≤ Object.lengthWord bytes.size ∧
        (number.used ≠ 0 →
          ∃ digit, (Digits.decode bytes.toList)[number.used - 1]? = some digit ∧
            digit ≠ 0) := by
  simp only [checkDigits, Except.unit_bind_eq_ok_iff, require_eq_ok_iff]
  apply and_congr_right
  intro recorded
  have enough := Object.le_of_le_lengthWord recorded
  by_cases unused : number.used = 0
  · simp [unused]
  · have inside :
        Bignum.digitBytes * (number.used - 1) + Bignum.digitBytes ≤
          bytes.size := by
      simp only [Bignum.digitBytes] at enough ⊢
      omega
    rw [isZeroDigit_eq_false_iff inside]
    simp [unused]

theorem checkStorage_eq_ok_iff
    {address : Nat} {number : Bignum} {start : PayloadPointer}
    (bounded : number.used ≤ number.capacity) :
    heap.checkStorage address number start = .ok () ↔
      heap.Stores number start := by
  simp only [checkStorage, Except.unit_bind_eq_ok_iff, require_eq_ok_iff,
    Stores]
  apply and_congr_right
  intro _
  unfold find
  cases found : heap.objects.find? start.buffer.address with
  | none => simp
  | some object =>
    cases object with
    | blob bytes => simp [checkDigits_eq_ok_iff bounded]
    | _ => simp

theorem checkBignum_eq_ok_iff {address : Nat} {number : Bignum} :
    heap.checkBignum address number = .ok () ↔ heap.SoundBignum number := by
  simp only [checkBignum, Except.unit_bind_eq_ok_iff, require_eq_ok_iff]
  constructor
  · rintro ⟨bounded, notNegativeZero, storage⟩
    refine ⟨bounded, ?_, ?_, ?_⟩
    · intro unused
      cases sign : number.sign with
      | nonnegative => rfl
      | negative => exact absurd ⟨unused, sign⟩ notNegativeZero
    · intro unstored
      simpa [unstored, require_eq_ok_iff] using storage
    · intro start stored
      rw [stored] at storage
      exact (checkStorage_eq_ok_iff bounded).mp storage
  · rintro ⟨bounded, nonnegative, unstored, stored⟩
    refine ⟨bounded, ?_, ?_⟩
    · rintro ⟨unused, negative⟩
      rw [nonnegative unused] at negative
      cases negative
    · cases storage : number.storage with
      | none => exact require_eq_ok_iff.mpr (unstored storage)
      | some start =>
        exact (checkStorage_eq_ok_iff bounded).mpr (stored start storage)

/-! ## Objects -/

/-- What the check asks of one object, its place apart. -/
def SoundObject (heap : Heap) (object : Object) : Prop :=
  (∀ target ∈ object.pointers, heap.Holds target) ∧
    ∀ number, object = .bigInteger number → heap.SoundBignum number

theorem checkObject_eq_ok_iff {previousEnd address : Nat} {object : Object} :
    heap.checkObject previousEnd address object = .ok () ↔
      (address % wordSize = 0 ∧ previousEnd ≤ address ∧
        address + object.size ≤ heap.pointer) ∧
        heap.SoundObject object := by
  simp only [checkObject, Except.unit_bind_eq_ok_iff, require_eq_ok_iff,
    checkPointers_eq_ok_iff, SoundObject]
  cases object <;> simp [checkBignum_eq_ok_iff, and_assoc]

/-- The check of a list of entries passes when each is sound by itself, starts
at or above the given end, and ends before those after it start. -/
theorem checkObjects_eq_ok_iff
    {previousEnd : Nat} {entries : List (Nat × Object)} :
    heap.checkObjects previousEnd entries = .ok () ↔
      (∀ entry ∈ entries,
        (entry.1 % wordSize = 0 ∧ previousEnd ≤ entry.1 ∧
          entry.1 + entry.2.size ≤ heap.pointer) ∧ heap.SoundObject entry.2) ∧
        entries.Pairwise fun left right => left.1 + left.2.size ≤ right.1 := by
  induction entries generalizing previousEnd with
  | nil => simp [checkObjects]
  | cons first rest inductionHypothesis =>
    obtain ⟨address, object⟩ := first
    simp only [checkObjects, Except.unit_bind_eq_ok_iff, checkObject_eq_ok_iff,
      inductionHypothesis, List.forall_mem_cons, List.pairwise_cons]
    constructor
    · rintro ⟨⟨⟨aligned, above, below⟩, sound⟩, restSound, restApart⟩
      refine ⟨⟨⟨⟨aligned, above, below⟩, sound⟩, ?_⟩, ?_, restApart⟩
      · intro entry member
        obtain ⟨⟨entryAligned, entryAbove, entryBelow⟩, entrySound⟩ :=
          restSound entry member
        exact ⟨⟨entryAligned, by omega, entryBelow⟩, entrySound⟩
      · intro entry member
        exact (restSound entry member).1.2.1
    · rintro ⟨⟨firstSound, restSound⟩, firstApart, restApart⟩
      refine ⟨firstSound, ?_, restApart⟩
      intro entry member
      obtain ⟨⟨aligned, _, below⟩, sound⟩ := restSound entry member
      exact ⟨⟨aligned, firstApart entry member, below⟩, sound⟩

/-! ## Layout -/

instance : Std.Symm Apart where
  symm _ _ := Apart.symm

/-- In an ascending list it is the same whether any two objects lie apart or
each ends before the next ones start. -/
theorem pairwise_end_le_iff {entries : List (Nat × Object)}
    (order : Ascending entries) :
    (entries.Pairwise fun left right => left.1 + left.2.size ≤ right.1) ↔
      ∀ left ∈ entries, ∀ right ∈ entries, left.1 ≠ right.1 →
        Apart left right := by
  constructor
  · intro apart left leftMember right rightMember different
    have disjoint : entries.Pairwise Apart := apart.imp Or.inl
    have distinct : left ≠ right :=
      fun same => different (congrArg Prod.fst same)
    exact disjoint.forall leftMember rightMember distinct
  · intro apart
    refine List.Pairwise.imp_of_mem ?_ order
    intro left right leftMember rightMember below
    rcases apart left leftMember right rightMember
      (Nat.ne_of_lt below) with ends | ends
    · exact ends
    · have := right.2.size_pos
      omega

/-! ## The whole heap -/

/-- The check passes on the sound heaps and on no other. -/
theorem check_eq_ok_iff : heap.check = .ok () ↔ heap.Sound := by
  simp only [check, Except.unit_bind_eq_ok_iff, checkRoots_eq_ok_iff,
    checkObjects_eq_ok_iff, pairwise_end_le_iff heap.objects.ascending]
  constructor
  · rintro ⟨roots, objects, apart⟩
    refine ⟨roots, ⟨?_, ?_, ?_, apart⟩, ?_, ?_⟩
    · exact fun entry member => (objects entry member).1.1
    · exact fun entry member => (objects entry member).1.2.1
    · exact fun entry member => (objects entry member).1.2.2
    · exact fun entry member => (objects entry member).2.1
    · exact fun address number member => (objects _ member).2.2 number rfl
  · rintro ⟨roots, ⟨aligned, above, below, apart⟩, pointers, bignums⟩
    refine ⟨roots, ?_, apart⟩
    intro entry member
    refine ⟨⟨aligned entry member, above entry member, below entry member⟩,
      pointers entry member, ?_⟩
    intro number isNumber
    exact bignums entry.1 number (isNumber ▸ member)

end ManagedHeap.Heap
