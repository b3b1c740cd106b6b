import ManagedHeap.Proofs.Heap.Cells

/-!
# Iterators

What an iterator is made of, and what a step does to it: nothing but the
position of that iterator changes, and an iterator at the end changes nothing.
-/

namespace ManagedHeap.BlobIterator

open Heap (Makes charge)

variable {heap : Heap} {iterator buffer : Handle} {content : Bytes}
  {position : UInt32}

/-! ## New iterators -/

def object (buffer : Handle) (position : UInt32) : Object :=
  .array [.pointer buffer, .scalar position]

private theorem pointers_object (buffer : Handle) (position : UInt32) :
    (object buffer position).pointers = [buffer] := rfl

theorem makes_create (buffer : Handle) (regular : heap.Regular) :
    Makes (create buffer) heap (heap.blob buffer >>= fun bytes =>
      .ok (.iterator bytes 0))
      (charge (heap.blob buffer) fun _ => 4 * wordSize) := by
  refine Heap.makes_read regular fun bytes read => ?_
  have found := Heap.blob_eq_ok_iff.mp read
  refine (Heap.allots_alloc heap (object buffer 0) rfl).makes regular ?_
    (by simp [object]) ?_
  · intro target refers
    obtain rfl := List.mem_singleton.mp refers
    exact ⟨_, found⟩
  · intro handle atPointer
    have grows := regular.tidy.bounded.grows_push (object buffer 0)
    refine ⟨buffer, ?_, grows.found found⟩
    rw [atPointer]
    exact Heap.find?_push_self heap _

/-! ## Reading -/

theorem state_eq_ok_iff :
    state iterator heap = .ok (buffer, position) ↔
      heap.objects.find? iterator.address = some (object buffer position) := by
  rw [← Heap.find_eq_ok_iff, state, object]
  split <;> simp_all

theorem isDone_eq (iterator : Handle) (heap : Heap) :
    isDone iterator heap =
      (heap.iteration iterator).map fun state => decide
      (Object.lengthWord state.1.size ≤ state.2.toNat) := by
  rw [isDone, Heap.iteration]
  cases state iterator heap with
  | error error => rfl
  | ok held =>
    obtain ⟨buffer, position⟩ := held
    show (heap.blob buffer >>= _) = (heap.blob buffer >>= _).map _
    cases heap.blob buffer <;> rfl

/-! ## Steps -/

/-- The byte at a position among some bytes. -/
def byteAt (content : Bytes) (position : UInt32) : Except Error UInt8 :=
  match content.get? position.toNat with
  | some byte => .ok byte
  | none => .error .iteratorExhausted

theorem current_eq
    (array : heap.objects.find? iterator.address =
      some (object buffer position))
    (blob : heap.objects.find? buffer.address = some (.blob content)) :
    current iterator heap =
      (byteAt content position).map fun byte =>
        (byte, object buffer (position + 1)) := by
  rw [current, state_eq_ok_iff.mpr array]
  show (heap.blob buffer >>= _) = _
  rw [Heap.blob_eq_ok_iff.mpr blob, byteAt]
  show (match content.get? position.toNat with
    | some byte => Except.ok (byte, _)
    | none => Except.error _) = _
  cases content.get? position.toNat <;> rfl

/-- A step returns the byte at the position and moves past it, or is refused
and changes nothing. -/
theorem next_eq
    (array : heap.objects.find? iterator.address =
      some (object buffer position))
    (blob : heap.objects.find? buffer.address = some (.blob content)) :
    next iterator heap =
      match byteAt content position with
      | .ok byte =>
        .ok byte (heap.place iterator (object buffer (position + 1)))
      | .error error => .error error heap := by
  simp only [next, bind, EStateM.bind, HeapM.inspect, current_eq array blob]
  cases byteAt content position <;> rfl

/-- What is no iterator over bytes is refused as when its bytes are looked
up. -/
theorem current_eq_error
    {error : Error} (failed : heap.iteration iterator = .error error) :
    current iterator heap = .error error := by
  rw [Heap.iteration] at failed
  rw [current]
  cases isState : state iterator heap with
  | error refusal =>
    rw [isState] at failed
    exact congrArg _ (Except.error.inj failed)
  | ok held =>
    obtain ⟨buffer, position⟩ := held
    rw [isState] at failed
    show (heap.blob buffer >>= _) = _
    replace failed :
      (heap.blob buffer >>= fun bytes => .ok (bytes, position)) =
        .error error :=
      failed
    cases read : heap.blob buffer with
    | error refusal =>
      rw [read] at failed
      exact congrArg _ (Except.error.inj failed)
    | ok bytes =>
      rw [read] at failed
      cases failed

/-- A step puts an iterator over the same buffer in place of the iterator. -/
theorem exists_of_current_eq_ok {byte : UInt8} {advanced : Object}
    (read : current iterator heap = .ok (byte, advanced)) :
    ∃ buffer position,
      heap.objects.find? iterator.address = some (object buffer position) ∧
      advanced = object buffer (position + 1) := by
  obtain ⟨⟨buffer, position⟩, isState, rest⟩ := Except.bind_eq_ok_iff.mp read
  obtain ⟨content, readBlob, _⟩ := Except.bind_eq_ok_iff.mp rest
  have array := state_eq_ok_iff.mp isState
  rw [current_eq array (Heap.blob_eq_ok_iff.mp readBlob)] at read
  obtain ⟨_, _, same⟩ := Except.map_eq_ok_iff.mp read
  exact ⟨buffer, position, array, (congrArg Prod.snd same).symm⟩

theorem regular_advance (regular : heap.Regular)
    (array : heap.objects.find? iterator.address =
      some (object buffer position))
    (later : UInt32) :
    (heap.place iterator (object buffer later)).Regular := by
  refine regular.place array (Nat.le_refl _) (by simp [object]) ?_
    (regular.free_of_not_blob array (by simp [object]))
    (by simp [object])
  rw [pointers_object, ← pointers_object buffer position]
  exact regular.pointers_held array

/-- A step of an iterator changes no cell but its own. -/
theorem denotes_advance {handle : Handle} {cell : Cell}
    (denotes : heap.Denotes handle cell) (regular : heap.Regular)
    (array : heap.objects.find? iterator.address =
      some (object buffer position))
    (elsewhere : handle.address ≠ iterator.address) (later : UInt32) :
    (heap.place iterator (object buffer later)).Denotes handle cell := by
  have blob_kept :
      ∀ {address bytes}, heap.objects.find? address = some (.blob bytes) →
        (heap.place iterator (object buffer later)).objects.find? address =
          some (.blob bytes) := by
    intro address bytes found
    rw [Heap.find?_place_of_ne heap]
    · exact found
    · rintro rfl
      cases found.symm.trans array
  cases cell with
  | bytes content => exact blob_kept denotes
  | integer value =>
    obtain ⟨number, found, read⟩ := denotes
    refine ⟨number, (Heap.find?_place_of_ne heap _ elsewhere).trans found, ?_⟩
    refine (Heap.value_congr fun owns => ?_).trans read
    obtain ⟨bytes, blob⟩ := (regular.bignums found).exists_blob owns
    rw [blob, blob_kept blob]
  | iterator content position =>
    obtain ⟨other, found, blob⟩ := denotes
    exact ⟨other, (Heap.find?_place_of_ne heap _ elsewhere).trans found,
      blob_kept blob⟩

/-- A step keeps the heap regular, and one that fails changes nothing. -/
theorem ensures_next (iterator : Handle) (regular : heap.Regular) :
    Ensures (next iterator) heap (fun _ after => after.Regular) fun _ after =>
      after = heap := by
  unfold next
  rw [ensures_bind, ensures_inspect]
  refine ⟨?_, fun _ _ => rfl⟩
  rintro ⟨byte, advanced⟩ read
  obtain ⟨buffer, position, array, rfl⟩ := exists_of_current_eq_ok read
  exact regular_advance regular array (position + 1)

end ManagedHeap.BlobIterator
