import ManagedHeap.Proofs.Bignum.Writing
import ManagedHeap.Proofs.Heap.Regularity

/-!
# Reading bignums

The integer of a bignum object (`Integer`): its sign applied to the digits in
use. A sound bignum has as many digits in use as its integer needs
(`SoundBignum.used_eq`), and a bignum that an integer was assigned to is
sound.
-/

namespace ManagedHeap

namespace Heap

variable {heap before after : Heap} {number : Bignum}

/-! ## Integers in a heap -/

/-- The object of a handle is a bignum that stands for an integer. -/
def Integer (heap : Heap) (handle : Handle) (value : Int) : Prop :=
  ∃ number, heap.objects.find? handle.address = some (.bigInteger number) ∧
    number.value heap = .ok value

theorem Integer.value_of_found {handle : Handle} {value : Int}
    (integer : heap.Integer handle value)
    (found : heap.objects.find? handle.address = some (.bigInteger number)) :
    number.value heap = .ok value := by
  obtain ⟨other, otherFound, read⟩ := integer
  rw [found] at otherFound
  obtain rfl := Object.bigInteger.inj (Option.some.inj otherFound)
  exact read

theorem storedBytes_congr (same : ∀ {buffer}, number.Owns buffer →
      after.objects.find? buffer = before.objects.find? buffer) :
    number.storedBytes after = number.storedBytes before := by
  unfold Bignum.storedBytes
  split
  · rfl
  · cases stored : number.storage with
    | none => rfl
    | some start =>
      have unchanged := same ⟨start, stored, rfl⟩
      simp only [payload, payloadWithin, blob, find, unchanged]

theorem value_congr (same : ∀ {buffer}, number.Owns buffer →
      after.objects.find? buffer = before.objects.find? buffer) :
    number.value after = number.value before := by
  rw [Bignum.value, Bignum.value, Bignum.magnitude, Bignum.magnitude,
    storedBytes_congr same]

theorem SoundBignum.value_eq (sound : before.SoundBignum number)
    (grows : before.Grows after) :
    number.value after = number.value before := by
  refine value_congr fun owns => ?_
  obtain ⟨bytes, found⟩ := sound.exists_blob owns
  rw [found, grows.found found]

theorem Integer.grows (regular : before.Regular) {handle : Handle} {value : Int}
    (integer : before.Integer handle value) (grows : before.Grows after) :
    after.Integer handle value := by
  obtain ⟨number, found, read⟩ := integer
  exact ⟨number, grows.found found,
    ((regular.bignums found).value_eq grows).trans read⟩

/-! ## Digits in use -/

theorem digits_eq_ok {start : PayloadPointer} {bytes : Bytes}
    (stored : number.storage = some start) (atStart : start.offset = 0)
    (found : heap.objects.find? start.buffer.address = some (.blob bytes))
    (inside : Bignum.digitBytes * number.used ≤ bytes.size) :
    number.digits heap =
      .ok ((Digits.decode bytes.toList).take number.used) := by
  rw [Bignum.digits, storedBytes_eq_ok stored atStart found inside]
  simp only [Except.map, Bytes.toList_take, Bignum.digitBytes,
    Digits.decode_take]

private theorem used_le_length_decode
    {bytes : Bytes} (inside : Bignum.digitBytes * number.used ≤ bytes.size) :
    number.used ≤ (Digits.decode bytes.toList).length := by
  rw [Digits.length_decode, Bytes.length_toList]
  simp only [Bignum.digitBytes] at inside
  omega

/-- Backed digits that do not end in zero are stored as they should be. -/
theorem Backs.stores {digits : List UInt32} {start : PayloadPointer}
    (backs : heap.Backs number) (read : number.digits heap = .ok digits)
    (last : digits.getLast? ≠ some 0) (stored : number.storage = some start) :
    heap.Stores number start := by
  obtain ⟨atStart, bytes, found, room, _⟩ := backs.stored start stored
  refine ⟨atStart, bytes, found, room, fun inUse => ?_⟩
  have inside : Bignum.digitBytes * number.used ≤ bytes.size :=
    Nat.le_trans (Nat.mul_le_mul_left _ backs.used_le_capacity)
      (Object.le_of_le_lengthWord room)
  have inBuffer := digits_eq_ok stored atStart found inside
  have isDigits := Except.ok.inj (inBuffer.symm.trans read)
  rw [← isDigits] at last
  exact (Digits.exists_top_ne_zero_iff inUse
    (used_le_length_decode inside)).mpr last

/-- The digits of a sound bignum: as many as are in use, the last of them not
zero. -/
theorem SoundBignum.exists_digits (sound : heap.SoundBignum number) :
    ∃ digits, number.digits heap = .ok digits ∧ digits.length = number.used ∧
      digits.getLast? ≠ some 0 := by
  by_cases unused : number.used = 0
  · refine ⟨[], ?_, unused.symm, by simp⟩
    rw [Bignum.digits, storedBytes_of_unused heap unused]
    rfl
  · cases stored : number.storage with
    | none => exact absurd (sound.unstored_is_zero stored) unused
    | some start =>
      obtain ⟨atStart, bytes, found, room, top⟩ := sound.stored start stored
      have inside : Bignum.digitBytes * number.used ≤ bytes.size :=
        Nat.le_trans (Nat.mul_le_mul_left _ sound.used_le_capacity)
          (Object.le_of_le_lengthWord room)
      have enough := used_le_length_decode inside
      refine ⟨_, digits_eq_ok stored atStart found inside, ?_, ?_⟩
      · rw [List.length_take, Nat.min_eq_left enough]
      · exact (Digits.exists_top_ne_zero_iff unused enough).mp (top unused)

theorem value_of_digits {digits : List UInt32}
    (read : number.digits heap = .ok digits) :
    number.value heap = .ok (number.sign.apply (Digits.toNat digits)) := by
  rw [Bignum.value, Bignum.magnitude_eq, read]
  rfl

theorem natAbs_apply (sign : Sign) (magnitude : Nat) :
    (sign.apply magnitude).natAbs = magnitude := by
  cases sign <;> simp [Sign.apply]

/-- A sound bignum uses as many digits as its integer needs. -/
theorem SoundBignum.used_eq (sound : heap.SoundBignum number) {value : Int}
    (read : number.value heap = .ok value) :
    number.used = Digits.count value.natAbs := by
  obtain ⟨digits, readDigits, length, last⟩ := sound.exists_digits
  obtain rfl := Except.ok.inj ((value_of_digits readDigits).symm.trans read)
  rw [natAbs_apply, ← length, Digits.length_eq_count last]

end Heap

namespace Bignum

variable {before after : Workspace} {cost : Nat} {value : Int}

theorem Assigns.exists_digits (assigns : Assigns value cost before after) :
    ∃ digits, after.target.digits after.heap = .ok digits ∧
      digits.getLast? ≠ some 0 := by
  have read : after.target.digits after.heap =
      .ok (Digits.decode (Bytes.ofNat
        (digitBytes * Digits.count value.natAbs) value.natAbs).toList) := by
    rw [digits, assigns.storedBytes]
    rfl
  refine ⟨_, read, Digits.getLast?_ne_zero ?_⟩
  have same := congrArg Int.natAbs (Except.ok.inj
    (assigns.value_eq.symm.trans (Heap.value_of_digits read)))
  rw [Heap.natAbs_apply] at same
  rw [← same, Digits.length_decode, Bytes.length_toList, Bytes.size_ofNat]
  simp only [digitBytes]
  omega

theorem Assigns.soundBignum (assigns : Assigns value cost before after) :
    after.heap.SoundBignum after.target := by
  obtain ⟨digits, read, last⟩ := assigns.exists_digits
  refine ⟨assigns.backs.used_le_capacity, ?_, ?_, ?_⟩
  · intro unused
    have zero := Digits.count_eq_zero_iff.mp (assigns.used.symm.trans unused)
    rw [assigns.sign, Int.natAbs_eq_zero.mp zero]
    rfl
  · intro unstored
    have := assigns.backs.unstored unstored
    have := assigns.backs.used_le_capacity
    omega
  · exact fun start stored => assigns.backs.stores read last stored

end Bignum

end ManagedHeap
