import ManagedHeap.BigInteger.Basic
import ManagedHeap.Proofs.Bignum.Arithmetic
import ManagedHeap.Proofs.Bignum.Reading

/-!
# Results

Every big integer that is computed is a new object at the old heap pointer,
with a digit buffer that no other object has (`Builds`). Whether the
computation succeeds or fails, the heap stays regular and all older objects
stay as they were.
-/

namespace ManagedHeap.BigInteger

variable {heap before after : Heap} {handle : Handle} {number : Bignum}
  {cost : Nat}

/-! ## Blank results -/

/-- Bytes of a bignum object and of a digit buffer with room for `precision`
digits. -/
def allocationSize (precision : Nat) : Nat :=
  (Object.bigInteger .empty).size + Bignum.bufferSize precision

/-- A zero in a new object at the old heap pointer, with new storage. -/
structure Blank (before after : Heap) (handle : Handle) (number : Bignum) :
    Prop where
  regular : after.Regular
  grows : before.Grows after
  atPointer : handle.address = before.pointer
  found : after.objects.find? handle.address = some (.bigInteger number)
  unused : number.used = 0
  backs : after.Backs number
  trims : after.Trims number
  owns : ∀ {buffer}, number.Owns buffer → before.pointer ≤ buffer

/-- The heap with an empty bignum object, and above it a buffer of zeros for
`precision` digits. -/
def withBuffer (heap : Heap) (precision : Nat) : Heap :=
  (heap.push (.bigInteger .empty)).push
    (.blob (Bytes.zeros (precision * Bignum.digitBytes)))

/-- The bignum of a new zero. -/
private def blankNumber (precision : Nat) (buffer : Handle) : Bignum :=
  { capacity := precision, storage := some (.startOf buffer) }

private theorem regular_withBuffer (regular : heap.Regular) {precision : Nat}
    (objectFits : heap.Fits (.bigInteger .empty))
    (bufferFits : (heap.push (.bigInteger .empty)).Fits
      (.blob (Bytes.zeros (precision * Bignum.digitBytes)))) :
    (withBuffer heap precision).Regular := by
  have regularObject : (heap.push (.bigInteger .empty)).Regular :=
    regular.push objectFits (by simp [Object.pointers, Object.fields])
      fun _ same => (Object.bigInteger.inj same).symm
  exact regularObject.push bufferFits (by simp [Object.pointers, Object.fields])
    (by simp)

/-- Only the new object may own what lies above the old heap pointer. -/
theorem eq_of_owns_withBuffer (regular : heap.Regular)
    {precision address owned : Nat} {other : Bignum}
    (found : (withBuffer heap precision).objects.find? address =
      some (.bigInteger other))
    (owns : other.Owns owned) (above : heap.pointer < owned) :
    address = heap.pointer := by
  rw [withBuffer, Heap.find?_push, Heap.find?_push] at found
  split at found
  · cases found
  · split at found
    · rename_i atObject
      exact atObject
    · have older := regular.lt_of_owns found owns
      exact absurd (Nat.lt_trans older above) (Nat.lt_irrefl _)

private theorem blank_withBuffer (regular : heap.Regular) {precision : Nat}
    {buffer : Handle} (objectFits : heap.Fits (.bigInteger .empty))
    (bufferFits : (heap.push (.bigInteger .empty)).Fits
      (.blob (Bytes.zeros (precision * Bignum.digitBytes))))
    (atPointer : handle.address = heap.pointer)
    (aboveObject : buffer.address = (heap.push (.bigInteger .empty)).pointer) :
    Blank heap
      ((withBuffer heap precision).place handle
        (.bigInteger (blankNumber precision buffer)))
      handle (blankNumber precision buffer) := by
  have bounded := regular.tidy.bounded
  have objectGrows := bounded.grows_push (.bigInteger .empty)
  have bufferGrows := (bounded.push (.bigInteger .empty)).grows_push
    (.blob (Bytes.zeros (precision * Bignum.digitBytes)))
  have above : heap.pointer < buffer.address := by
    rw [aboveObject]
    exact Nat.lt_add_of_pos_right (Object.size_pos _)
  have objectFound :
      (withBuffer heap precision).objects.find? handle.address =
        some (.bigInteger .empty) :=
    bufferGrows.found (atPointer ▸ Heap.find?_push_self heap _)
  have bufferFound :
      (withBuffer heap precision).objects.find? buffer.address =
        some (.blob (Bytes.zeros (precision * Bignum.digitBytes))) :=
    aboveObject ▸ Heap.find?_push_self (heap.push (.bigInteger .empty)) _
  have bufferPlaced (object : Object) :
      ((withBuffer heap precision).place handle object).objects.find?
          buffer.address =
        some (.blob (Bytes.zeros (precision * Bignum.digitBytes))) :=
    (Heap.find?_place_of_ne _ object (Nat.ne_of_gt (atPointer ▸ above))).trans
      bufferFound
  have addressable := bufferFits.size_lt
  rw [Bytes.size_zeros] at addressable
  obtain ⟨backs, _⟩ := Bignum.backs_zero bufferFound addressable
  obtain ⟨backsPlaced, trimsPlaced⟩ :=
    Bignum.backs_zero (bufferPlaced _) addressable
  refine ⟨?_, ?_, atPointer, Heap.find?_place_self .., rfl, backsPlaced,
    trimsPlaced, ?_⟩
  · refine (regular_withBuffer regular objectFits bufferFits).place_bignum
      objectFound (backs.soundBignum rfl rfl) ?_
    rintro _ address other ⟨_, ⟨⟩, rfl⟩ found owns
    exact (eq_of_owns_withBuffer regular found owns above).trans atPointer.symm
  · refine Heap.Extends.trans bounded (objectGrows.trans bufferGrows)
      (Heap.extends_place _ objectFound) ?_
    rintro _ rfl
    exact Or.inr (Nat.le_of_eq atPointer.symm)
  · rintro _ ⟨_, ⟨⟩, rfl⟩
    exact Nat.le_of_lt above

/-- A new zero takes the space of its object and its buffer, and an allocation
that fails part way leaves at most an empty bignum. -/
theorem ensures_allocate (regular : heap.Regular) :
    Ensures allocate heap
      (fun handle after => ∃ number, Blank heap after handle number ∧
        number.capacity = heap.config.precision.toNat ∧
          after.pointer =
            heap.pointer + allocationSize heap.config.precision.toNat)
      (fun error after =>
        after.Regular ∧ heap.Grows after ∧ error.IsOutOfMemory ∧
        heap.config.heapLimit.toNat <
          heap.pointer + allocationSize heap.config.precision.toNat) := by
  have bounded := regular.tidy.bounded
  unfold allocate
  rw [ensures_bind]
  refine (Heap.allots_alloc heap (.bigInteger .empty) rfl).mono ?_ ?_
  · rintro handle middle ⟨objectFits, rfl, answers⟩
    have atPointer := Handle.address_ofAddress objectFits.pointer_lt
    obtain rfl := answers _ atPointer
    have regularObject :=
      regular.push objectFits (by simp [Object.pointers, Object.fields])
      fun _ same => (Object.bigInteger.inj same).symm
    have objectFound := Heap.find?_push_self heap (.bigInteger .empty)
    rw [← atPointer] at objectFound
    simp only [ensures_bind, ensures_get]
    refine (Bignum.allots_zero _ heap.config.precision.toNat).mono ?_ ?_
    · rintro number last ⟨bufferFits, rfl, answersBuffer⟩
      have aboveObject := Handle.address_ofAddress bufferFits.pointer_lt
      obtain rfl := answersBuffer _ aboveObject
      have grows := (bounded.push (.bigInteger .empty)).grows_push
        (.blob (Bytes.zeros (heap.config.precision.toNat * Bignum.digitBytes)))
      rw [Heap.setBignum]
      refine Ensures.read (Heap.bignum_eq_ok_iff.mpr (grows.found objectFound))
        ?_
      refine ⟨_, blank_withBuffer regular objectFits bufferFits atPointer
        aboveObject,
        rfl, ?_⟩
      refine bufferFits.pointer_push.trans ?_
      rw [objectFits.pointer_push, Bignum.size_zeros_eq, allocationSize,
        Nat.add_assoc]
      rfl
    · rintro error last ⟨noFit, rfl, outOfMemory⟩
      refine ⟨regularObject, bounded.grows_push _, outOfMemory, ?_⟩
      have short :
          heap.config.heapLimit.toNat < heap.pointer + _ + Object.fullSize _ :=
        Nat.lt_of_not_le noFit
      rwa [Bignum.size_zeros_eq, Nat.add_assoc] at short
  · rintro error after ⟨noFit, rfl, outOfMemory⟩
    refine ⟨regular, .refl _ _, outOfMemory, ?_⟩
    have short := (Heap.lacks_of_not_fits noFit).2
    exact Nat.lt_of_lt_of_le short
      (Nat.add_le_add_left (Nat.le_add_right ..) _)

/-! ## Filled results -/

/-- An operation makes the target stand for `result` and takes `cost` bytes
from the heap, or fails with the error of `result` after it took them, or for
want of them. -/
def Delivers (operation : DigitM Unit)
    (before : Workspace) (result : Except Error Int)
    (cost : Nat) : Prop :=
  Ensures operation before
    (fun _ after =>
      ∃ value, result = .ok value ∧ Bignum.Assigns value cost before after)
    (fun error after => (∃ spent, Bignum.Spends spent before after) ∧
      (result = .error error ∧ after.heap.pointer = before.heap.pointer + cost ∨
        error.IsOutOfMemory ∧
          before.heap.config.heapLimit.toNat < before.heap.pointer + cost))

theorem delivers_of_fills {operation : DigitM Unit} {workspace : Workspace}
    {result : Except Error Int} (backs : workspace.heap.Backs workspace.target)
    (fills : Bignum.Fills operation workspace result cost) :
    Delivers operation workspace result cost := by
  refine Ensures.mono fills (fun _ _ assigns => assigns) ?_
  rintro error after
    (⟨failed, rfl, rfl⟩ | ⟨⟨spent, widens⟩, outOfMemory, lacks⟩)
  · exact ⟨⟨0, .refl backs⟩, Or.inl ⟨failed, rfl⟩⟩
  · exact ⟨⟨spent, widens.toSpends⟩, Or.inr ⟨outOfMemory, lacks.2⟩⟩

section Filled

variable {workspace later : Workspace} {value : Int}

/-- What is written for a result leaves the heap regular and all older objects
unchanged. -/
theorem Blank.spends (bounded : heap.Bounded)
    (blank : Blank heap workspace.heap handle workspace.target)
    (spends : Bignum.Spends cost workspace later) :
    later.heap.Regular ∧ heap.Grows later.heap ∧
      later.heap.objects.find? handle.address =
        some (.bigInteger workspace.target) := by
  refine ⟨blank.regular.rewrites spends.rewrites ?_, ?_, ?_⟩
  · intro address number buffer found owns written
    obtain rfl := blank.regular.unshared found blank.found owns written
    obtain rfl :=
      Object.bigInteger.inj (Option.some.inj (found.symm.trans blank.found))
    exact blank.unused
  · exact Heap.Extends.trans bounded blank.grows spends.rewrites.toExtends
      fun _ owns => Or.inr (blank.owns owns)
  · rcases spends.rewrites.rewritten blank.found with same
      | ⟨_, _, impossible, _⟩
    · exact same
    · cases impossible

theorem Blank.place (bounded : heap.Bounded)
    (blank : Blank heap workspace.heap handle workspace.target)
    (assigns : Bignum.Assigns value cost workspace later) :
    (later.heap.place handle (.bigInteger later.target)).Regular ∧
      heap.Grows (later.heap.place handle (.bigInteger later.target)) ∧
        (later.heap.place handle
          (.bigInteger later.target)).Integer handle value := by
  obtain ⟨regular, grows, found⟩ := blank.spends bounded assigns.toSpends
  have sound := assigns.soundBignum
  refine ⟨regular.place_bignum found sound ?_, ?_, later.target,
    Heap.find?_place_self .., ?_⟩
  · intro buffer address other owns otherFound otherOwns
    rcases assigns.owns owns with old | fresh
    · exact regular.unshared otherFound found otherOwns old
    · -- The other bignum is one of the blank heap, whose buffers lie below
      -- its pointer.
      cases earlier : workspace.heap.objects.find? address with
      | none =>
        obtain ⟨_, impossible, _⟩ := assigns.rewrites.added otherFound earlier
        cases impossible
      | some object =>
        rcases assigns.rewrites.rewritten earlier with same
          | ⟨_, _, _, impossible, _⟩
        · obtain rfl := Option.some.inj (same.symm.trans otherFound)
          have older := blank.regular.lt_of_owns earlier otherOwns
          exact absurd older (Nat.not_lt.mpr fresh)
        · cases otherFound.symm.trans impossible
  · refine Heap.Extends.trans bounded grows (Heap.extends_place _ found) ?_
    rintro _ rfl
    exact Or.inr (Nat.le_of_eq blank.atPointer.symm)
  · refine (Heap.value_congr fun owns => Heap.find?_place_of_ne _ _ ?_).trans
      assigns.value_eq
    rintro rfl
    obtain ⟨bytes, blob⟩ := sound.exists_blob owns
    cases found.symm.trans blob

end Filled

/-! ## Built results -/

/-- An operation answers a new big integer for `result` and takes `cost` bytes
from the heap, or fails with the error of `result` after it took them, or for
want of them. -/
def Builds (operation : HeapM Handle) (heap : Heap) (result : Except Error Int)
    (cost : Nat) : Prop :=
  Ensures operation heap
    (fun handle after =>
      ∃ value, result = .ok value ∧ after.Regular ∧ heap.Grows after ∧
      handle.address = heap.pointer ∧ after.Integer handle value ∧
        after.pointer = heap.pointer + cost)
    (fun error after => after.Regular ∧ heap.Grows after ∧
      (result = .error error ∧ after.pointer = heap.pointer + cost ∨
        error.IsOutOfMemory ∧ heap.Lacks cost))

/-- An operation that has a result answers it, unless memory runs out. -/
theorem Builds.answers {operation : HeapM Handle} {value : Int}
    (builds : Builds operation heap (.ok value) cost) :
    Ensures operation heap
      (fun handle after => after.Regular ∧ heap.Grows after ∧
        handle.address = heap.pointer ∧ after.Integer handle value ∧
        after.pointer = heap.pointer + cost)
      fun error _ => error.IsOutOfMemory ∧ heap.Lacks cost := by
  apply Ensures.mono builds
  · intro handle after built
    obtain ⟨_, same, answered⟩ := built
    cases same
    exact answered
  · intro error after failed
    obtain ⟨_, _, outcome⟩ := failed
    cases outcome with
    | inl refused => cases refused.1
    | inr lacking => exact lacking

/-- A result is built by what fills a blank one. -/
theorem builds_build {operation : DigitM Unit} {result : Except Error Int}
    (regular : heap.Regular)
    (delivers : ∀ {workspace handle}, Blank heap workspace.heap handle
      workspace.target →
      workspace.target.capacity = heap.config.precision.toNat →
        Delivers operation workspace result cost) :
    Builds (build operation) heap result
      (allocationSize heap.config.precision.toNat + cost) := by
  have bounded := regular.tidy.bounded
  have positive : 0 < allocationSize heap.config.precision.toNat + cost :=
    Nat.add_pos_left (Nat.add_pos_left (Object.size_pos _) _) cost
  unfold Builds build
  rw [ensures_bind]
  refine (ensures_allocate regular).mono ?_ ?_
  · rintro handle middle ⟨number, blank, capacity, pointer⟩
    refine Ensures.read (Heap.bignum_eq_ok_iff.mpr blank.found) ?_
    obtain ⟨workspace, rfl, rfl⟩ : ∃ workspace : Workspace,
        workspace.heap = middle ∧ workspace.target = number :=
          ⟨⟨middle, number⟩, rfl, rfl⟩
    rw [ensures_bind, ensures_build]
    show Ensures operation workspace _ _
    refine Ensures.mono (delivers blank capacity) ?_ ?_
    · rintro _ later ⟨value, isValue, assigns⟩
      obtain ⟨_, _, found⟩ := blank.spends bounded assigns.toSpends
      obtain ⟨regularAfter, grows, integer⟩ := blank.place bounded assigns
      rw [ensures_bind]
      refine Ensures.read (Heap.bignum_eq_ok_iff.mpr found) ?_
      refine ⟨value, isValue, regularAfter, grows, blank.atPointer, integer, ?_⟩
      have charged : later.heap.pointer = workspace.heap.pointer + cost :=
        (assigns.exact blank.trims).2
      show later.heap.pointer = _
      omega
    · rintro error later ⟨⟨spent, spends⟩, failure⟩
      obtain ⟨regularAfter, grows, _⟩ := blank.spends bounded spends
      refine ⟨regularAfter, grows, failure.imp ?_ ?_⟩
      · exact fun ⟨failed, charged⟩ => ⟨failed, by omega⟩
      · rintro ⟨outOfMemory, limit⟩
        rw [blank.grows.limit_eq, pointer] at limit
        exact ⟨outOfMemory, positive, by omega⟩
  · rintro error after ⟨regularAfter, grows, outOfMemory, limit⟩
    exact ⟨regularAfter, grows, Or.inr ⟨outOfMemory, positive, by omega⟩⟩

end ManagedHeap.BigInteger
