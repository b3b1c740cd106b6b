import ManagedHeap.Heap.Marking
import ManagedHeap.Heap.Reachability

/-!
# What marking finds

Marking succeeds exactly when nothing that the roots reach is missing
(`exists_mark_eq_ok_iff`), and then it marks exactly what they reach
(`mem_of_mark_eq_ok_iff`).

The invariant is `Tracing`: all that is marked or waiting is reached, and what
a marked object keeps alive is marked or waiting. Nothing waits at the end, so
the marked addresses are closed.
-/

namespace ManagedHeap.Heap

/-- Everything reached is there, and reached bignums have their digits in byte
buffers. -/
structure Traceable (heap : Heap) : Prop where
  present : ∀ address, heap.Reaches address →
    ∃ object, heap.objects.find? address = some object
  buffered : ∀ address object buffer, heap.Reaches address →
    heap.objects.find? address = some object →
    object.digitBuffer = some buffer →
    ∃ bytes, heap.objects.find? buffer.address = some (.blob bytes)

/-- What a marked object keeps alive is marked too, references possibly
later. -/
structure Traced (heap : Heap) (marked : List Nat) (waiting : List Handle)
    (object : Object) : Prop where
  pointers :
    ∀ target ∈ object.pointers, target.address ∈ marked ∨ target ∈ waiting
  buffer_marked :
    ∀ buffer, object.digitBuffer = some buffer → buffer.address ∈ marked
  buffer_found : ∀ buffer, object.digitBuffer = some buffer →
    ∃ bytes, heap.objects.find? buffer.address = some (.blob bytes)

/-- How far marking has come. -/
structure Tracing (heap : Heap) (marked : List Nat) (waiting : List Handle) :
    Prop where
  marked_reached : ∀ address ∈ marked, heap.Reaches address
  waiting_reached : ∀ handle ∈ waiting, heap.Reaches handle.address
  roots : ∀ handle ∈ heap.liveRoots, handle.address ∈ marked ∨ handle ∈ waiting
  traced : ∀ address ∈ marked, ∃ object,
    heap.objects.find? address = some object ∧ heap.Traced marked waiting object

variable {heap : Heap} {marked : List Nat}
  {handle : Handle} {waiting : List Handle}

/-! ## One step -/

theorem Tracing.start (heap : Heap) :
    heap.Tracing [] heap.liveRoots.reverse where
  marked_reached := by simp
  waiting_reached := by
    intro handle member
    exact .root (List.mem_reverse.mp member)
  roots := fun handle held => Or.inr (List.mem_reverse.mpr held)
  traced := by simp

theorem Tracing.skip (tracing : heap.Tracing marked (handle :: waiting))
    (known : handle.address ∈ marked) :
    heap.Tracing marked waiting := by
  have settled : ∀ target : Handle,
      target.address ∈ marked ∨ target ∈ handle :: waiting →
      target.address ∈ marked ∨ target ∈ waiting := by
    rintro target (inMarked | inWaiting)
    · exact Or.inl inMarked
    · rcases List.mem_cons.mp inWaiting with same | later
      · exact Or.inl (same ▸ known)
      · exact Or.inr later
  refine ⟨tracing.marked_reached, ?_, ?_, ?_⟩
  · exact fun target member =>
      tracing.waiting_reached target (List.mem_cons_of_mem _ member)
  · exact fun target held => settled target (tracing.roots target held)
  · intro address member
    obtain ⟨object, found, traced⟩ := tracing.traced address member
    refine ⟨object, found, ?_, traced.buffer_marked, traced.buffer_found⟩
    exact fun target refers => settled target (traced.pointers target refers)

/-- The addresses that marking adds with an object are that of its digit
buffer and no other, and a byte buffer stands there. -/
theorem digitBufferAddress_eq_ok
    {store : Store} {address : Nat} {object : Object} {buffers : List Nat}
    (read : store.digitBufferAddress address object = .ok buffers) :
    (∀ buffer, object.digitBuffer = some buffer → buffer.address ∈ buffers) ∧
      ∀ added ∈ buffers, ∃ buffer bytes,
        object.digitBuffer = some buffer ∧ buffer.address = added ∧
          store.find? added = some (.blob bytes) := by
  unfold Store.digitBufferAddress at read
  split at read
  · rename_i unstored
    obtain rfl := Except.ok.inj read
    simp [unstored]
  · rename_i buffer isBuffer
    split at read
    · cases read
    · rename_i bytes found
      obtain rfl := Except.ok.inj read
      simp [isBuffer, found]
    · cases read

/-- An object is marked with its digit buffer, and its references wait. -/
theorem Tracing.expand (tracing : heap.Tracing marked (handle :: waiting))
    {object : Object}
    (found : heap.objects.find? handle.address = some object)
    {buffers : List Nat}
    (read : heap.objects.digitBufferAddress handle.address object =
      .ok buffers) :
    heap.Tracing (buffers ++ handle.address :: marked)
      (object.pointers.reverse ++ waiting) := by
  have reached := tracing.waiting_reached handle List.mem_cons_self
  obtain ⟨complete, only⟩ := digitBufferAddress_eq_ok read
  -- Nothing is unmarked, and only `handle` leaves the worklist, so whatever
  -- was settled before is settled still.
  have grown :
      ∀ address ∈ marked, address ∈ buffers ++ handle.address :: marked :=
    fun address member => by simp [member]
  have settled : ∀ target : Handle,
      target.address ∈ marked ∨ target ∈ handle :: waiting →
      target.address ∈ buffers ++ handle.address :: marked ∨
        target ∈ object.pointers.reverse ++ waiting := by
    rintro target (inMarked | inWaiting)
    · exact Or.inl (grown _ inMarked)
    · rcases List.mem_cons.mp inWaiting with rfl | later
      · exact Or.inl (by simp)
      · exact Or.inr (List.mem_append_right _ later)
  have expanded : heap.Traced (buffers ++ handle.address :: marked)
      (object.pointers.reverse ++ waiting) object := by
    refine ⟨?_, ?_, ?_⟩
    · exact fun target refers => Or.inr (by simp [refers])
    · intro buffer isBuffer
      exact List.mem_append_left _ (complete buffer isBuffer)
    · intro buffer isBuffer
      obtain ⟨_, bytes, _, _, blob⟩ := only _ (complete buffer isBuffer)
      exact ⟨bytes, blob⟩
  refine ⟨?_, ?_, ?_, ?_⟩
  · intro address member
    rcases List.mem_append.mp member with isBuffer | old
    · obtain ⟨buffer, _, stored, rfl, _⟩ := only address isBuffer
      exact .reference reached found (by simp [Object.kept, stored])
    · rcases List.mem_cons.mp old with rfl | old
      · exact reached
      · exact tracing.marked_reached address old
  · intro target member
    rcases List.mem_append.mp member with refers | old
    · exact .reference reached found
        (List.mem_append_left _ (List.mem_reverse.mp refers))
    · exact tracing.waiting_reached target (List.mem_cons_of_mem _ old)
  · exact fun target held => settled target (tracing.roots target held)
  · intro address member
    rcases List.mem_append.mp member with isBuffer | old
    · obtain ⟨_, bytes, _, _, blob⟩ := only address isBuffer
      -- A byte buffer refers to nothing.
      exact ⟨.blob bytes, blob, by simp [Object.pointers, Object.fields],
        by simp [Object.digitBuffer], by simp [Object.digitBuffer]⟩
    · rcases List.mem_cons.mp old with rfl | old
      · exact ⟨object, found, expanded⟩
      · obtain ⟨other, otherFound, traced⟩ := tracing.traced address old
        refine ⟨other, otherFound, ?_, ?_, traced.buffer_found⟩
        · exact fun target refers =>
            settled target (traced.pointers target refers)
        · exact fun buffer isBuffer =>
            grown _ (traced.buffer_marked buffer isBuffer)

/-! ## The whole run -/

/-- When nothing reached is missing, marking ends with nothing waiting. -/
theorem Tracing.markFrom_eq_ok (tracing : heap.Tracing marked waiting)
    (traceable : heap.Traceable) :
    ∃ result, heap.objects.markFrom marked waiting = .ok result := by
  -- The two ways to fail need a reached object that is missing, or a reached
  -- bignum whose digits are in no byte buffer.
  fun_induction Store.markFrom heap.objects marked waiting with
  | case1 marked => exact ⟨marked, rfl⟩
  | case2 marked handle waiting known inductionHypothesis =>
    exact inductionHypothesis (tracing.skip known)
  | case3 marked handle waiting unknown missing =>
    obtain ⟨object, found⟩ :=
      traceable.present _ (tracing.waiting_reached handle List.mem_cons_self)
    rw [missing] at found
    cases found
  | case4 marked handle waiting unknown object found error read =>
    have reached := tracing.waiting_reached handle List.mem_cons_self
    unfold Store.digitBufferAddress at read
    split at read
    · cases read
    · rename_i buffer isBuffer
      obtain ⟨bytes, blob⟩ :=
        traceable.buffered _ object buffer reached found isBuffer
      rw [blob] at read
      cases read
  | case5 marked handle waiting unknown object found buffers read
    inductionHypothesis =>
    exact inductionHypothesis (tracing.expand found read)

theorem Tracing.of_markFrom_eq_ok (tracing : heap.Tracing marked waiting)
    {result : List Nat}
    (outcome : heap.objects.markFrom marked waiting = .ok result) :
    heap.Tracing result [] := by
  fun_induction Store.markFrom heap.objects marked waiting with
  | case1 marked =>
    obtain rfl := Except.ok.inj outcome
    exact tracing
  | case2 marked handle waiting known inductionHypothesis =>
    exact inductionHypothesis (tracing.skip known) outcome
  | case3 marked handle waiting unknown missing => cases outcome
  | case4 marked handle waiting unknown object found error read => cases outcome
  | case5 marked handle waiting unknown object found buffers read
    inductionHypothesis =>
    exact inductionHypothesis (tracing.expand found read) outcome

theorem Tracing.mem_iff (tracing : heap.Tracing marked []) {address : Nat} :
    address ∈ marked ↔ heap.Reaches address := by
  constructor
  · exact tracing.marked_reached address
  · intro reached
    refine reached.of_closed ?_ ?_
    · intro handle held
      exact (tracing.roots handle held).resolve_right (List.not_mem_nil)
    · intro source object inside found target refers
      obtain ⟨other, otherFound, traced⟩ := tracing.traced source inside
      obtain rfl : other = object :=
        Option.some.inj (otherFound.symm.trans found)
      rcases List.mem_append.mp refers with isPointer | isBuffer
      · exact (traced.pointers target isPointer).resolve_right
          (List.not_mem_nil)
      · exact traced.buffer_marked target (Option.mem_toList.mp isBuffer)

theorem Tracing.traceable (tracing : heap.Tracing marked []) :
    heap.Traceable := by
  refine ⟨?_, ?_⟩
  · intro address reached
    obtain ⟨object, found, _⟩ :=
      tracing.traced address (tracing.mem_iff.mpr reached)
    exact ⟨object, found⟩
  · intro address object buffer reached found isBuffer
    obtain ⟨other, otherFound, traced⟩ :=
      tracing.traced address (tracing.mem_iff.mpr reached)
    obtain rfl : other = object := Option.some.inj (otherFound.symm.trans found)
    exact traced.buffer_found buffer isBuffer

/-- Marking marks exactly what the roots reach. -/
theorem mem_of_mark_eq_ok_iff {marked : List Nat}
    (outcome : heap.mark = .ok marked)
    {address : Nat} :
    address ∈ marked ↔ heap.Reaches address :=
  ((Tracing.start heap).of_markFrom_eq_ok outcome).mem_iff

/-- Marking succeeds exactly when nothing reached is missing. -/
theorem exists_mark_eq_ok_iff :
    (∃ marked, heap.mark = .ok marked) ↔ heap.Traceable := by
  constructor
  · rintro ⟨marked, outcome⟩
    exact ((Tracing.start heap).of_markFrom_eq_ok outcome).traceable
  · exact (Tracing.start heap).markFrom_eq_ok

end ManagedHeap.Heap
