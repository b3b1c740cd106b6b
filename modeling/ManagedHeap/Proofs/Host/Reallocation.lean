import ManagedHeap.Proofs.Host.Soundness

/-!
# Storage that grows or is replaced

What a request for storage of another size does, by what stands under the
pointer and by the three sizes that enter: the bytes to keep, the bytes asked
for, and the bytes that the buffer has from the pointer on. Storage stays where
it is when it is long enough, whatever is to be kept; else the old content is
read first, then space is taken, and last the copy is written, which nothing
can stop any more (`reached_reallocates`).
-/

namespace ManagedHeap

open PayloadPointer (startOf)

namespace Heap

/-! ## The rule -/

/-- The buffer of `fresh` is a new one of `newSize` bytes: the `oldSize` bytes
that `bytes` holds from `offset` on, and zeros after them. Nothing else has
changed. -/
structure Replaces (heap : Heap) (bytes : Bytes) (offset oldSize newSize : Nat)
    (fresh : PayloadPointer) (after : Heap) : Prop where
  at_start : fresh.offset = 0
  is_new : heap.objects.find? fresh.buffer.address = none
  content : ∃ copy, after.blob fresh.buffer = .ok copy ∧
    copy.size = newSize ∧
    copy.toList.take oldSize = (bytes.toList.drop offset).take oldSize ∧
    copy.toList.drop oldSize = List.replicate (newSize - oldSize) 0
  others_kept : ∀ address, address ≠ fresh.buffer.address →
    after.objects.find? address = heap.objects.find? address
  roots_kept : after.roots = heap.roots

/-- How a request for storage of another size ends on a buffer that holds
`bytes`. -/
structure ReallocatesBuffer (heap : Heap) (pointer : PayloadPointer)
    (bytes : Bytes) (oldSize newSize : Nat) : Prop where
  stays : newSize ≤ bytes.size - pointer.offset →
    realloc pointer oldSize newSize heap = .ok pointer heap
  refused : bytes.size - pointer.offset < newSize →
    bytes.size < pointer.offset + oldSize →
    realloc pointer oldSize newSize heap =
      .error (.payloadBounds pointer.offset oldSize bytes.size) heap
  replaced : bytes.size - pointer.offset < newSize →
    pointer.offset + oldSize ≤ bytes.size →
    heap.Fits (.blob (Bytes.zeros newSize)) →
    ∃ fresh after, realloc pointer oldSize newSize heap = .ok fresh after ∧
      heap.Replaces bytes pointer.offset oldSize newSize fresh after
  exhausted : bytes.size - pointer.offset < newSize →
    pointer.offset + oldSize ≤ bytes.size →
    ¬heap.Fits (.blob (Bytes.zeros newSize)) →
    RunsOut (realloc pointer oldSize newSize) heap
      (Object.blob (Bytes.zeros newSize)).fullSize
  copied : ∀ {kept buffer middle},
    heap.payload pointer oldSize = .ok kept →
    bytes.size - pointer.offset < newSize →
    allocBlob newSize heap = .ok buffer middle →
    ∃ after, writePayload (startOf buffer) kept middle = .ok () after ∧
      realloc pointer oldSize newSize heap = .ok (startOf buffer) after

/-- How a request for storage of another size ends, whatever the pointer
refers to. -/
structure Reallocates (heap : Heap) (pointer : PayloadPointer)
    (oldSize newSize : Nat) : Prop where
  buffer : ∀ {bytes}, heap.blob pointer.buffer = .ok bytes →
    heap.ReallocatesBuffer pointer bytes oldSize newSize
  missing : heap.objects.find? pointer.buffer.address = none →
    realloc pointer oldSize newSize heap =
      .error (.invalidHandle pointer.buffer.raw) heap
  other : ∀ {object},
    heap.objects.find? pointer.buffer.address = some object →
    object.tag ≠ .blob →
    realloc pointer oldSize newSize heap =
      .error (.tagMismatch .blob object.tag) heap
  failed : ∀ {error after},
    realloc pointer oldSize newSize heap = .error error after → after = heap

/-! ## Its cases -/

variable {heap : Heap} {pointer : PayloadPointer} {bytes : Bytes}
  {oldSize newSize : Nat}

theorem realloc_of_blob_eq_error {error : Error}
    (noBuffer : heap.blob pointer.buffer = .error error) :
    realloc pointer oldSize newSize heap = .error error heap := by
  simp only [realloc, bind, EStateM.bind, HeapM.inspect, noBuffer]

private theorem payload_eq_payloadBounds
    (found : heap.blob pointer.buffer = .ok bytes)
    (recorded : bytes.size ≤ maxAddress)
    (outside : bytes.size < pointer.offset + oldSize) :
    heap.payload pointer oldSize =
      .error (.payloadBounds pointer.offset oldSize bytes.size) := by
  have refused := payloadWithin_eq_error (blob_eq_ok_iff.mp found) outside
  rw [Object.lengthWord_of_le recorded] at refused
  rw [payload, refused]
  rfl

/-- A buffer longer than the bytes to keep is filled up with zeros. -/
theorem Bounded.replaces_push (bounded : heap.Bounded) {fresh : PayloadPointer}
    (short : bytes.size - pointer.offset < newSize)
    (inside : pointer.offset + oldSize ≤ bytes.size)
    (fits : heap.Fits
      (.blob (enlarged (bytes.slice pointer.offset oldSize) newSize)))
    (answers : ∀ handle : Handle, handle.address = heap.pointer →
      fresh = startOf handle) :
    heap.Replaces bytes pointer.offset oldSize newSize fresh
      (heap.push
        (.blob (enlarged (bytes.slice pointer.offset oldSize) newSize))) := by
  have atPointer := Handle.address_ofAddress fits.pointer_lt
  obtain rfl := answers _ atPointer
  have keptList : (bytes.slice pointer.offset oldSize).toList =
      (bytes.toList.drop pointer.offset).take oldSize :=
    Bytes.toList_slice bytes pointer.offset oldSize
  have keptSize : (bytes.slice pointer.offset oldSize).size = oldSize := by
    rw [← Bytes.length_toList, keptList, List.length_take, List.length_drop,
      Bytes.length_toList]
    omega
  have longer : (bytes.slice pointer.offset oldSize).size ≤ newSize := by omega
  have keptLength :
      ((bytes.toList.drop pointer.offset).take oldSize).length = oldSize := by
    rw [← keptList, Bytes.length_toList, keptSize]
  refine ⟨rfl, ?_, ⟨_, blob_eq_ok_iff.mpr ?_, size_enlarged longer, ?_, ?_⟩, ?_,
    rfl⟩
  · exact bounded.find?_eq_none (Nat.le_of_eq atPointer.symm)
  · rw [startOf, atPointer]
    exact find?_push_self ..
  · rw [toList_enlarged, keptList, List.take_left' keptLength]
  · rw [toList_enlarged, keptList, keptSize, List.drop_left' keptLength]
  · intro address elsewhere
    rw [startOf, atPointer] at elsewhere
    rw [find?_push, if_neg elsewhere]

/-- Space for a longer buffer once taken, the bytes to keep are written to
it. -/
theorem exists_copy {kept : Bytes} {buffer : Handle} {middle : Heap}
    (read : heap.payload pointer oldSize = .ok kept)
    (found : heap.blob pointer.buffer = .ok bytes)
    (recorded : bytes.size ≤ maxAddress)
    (short : bytes.size - pointer.offset < newSize)
    (allotted : allocBlob newSize heap = .ok buffer middle) :
    ∃ after, writePayload (startOf buffer) kept middle = .ok () after ∧
      realloc pointer oldSize newSize heap = .ok (startOf buffer) after := by
  obtain ⟨fits, rfl, answers⟩ := (allots_allocBlob heap newSize).of_ok allotted
  have atPointer := Handle.address_ofAddress fits.pointer_lt
  obtain rfl := answers _ atPointer
  obtain ⟨whole, within, _⟩ := Except.map_eq_ok_iff.mp read
  obtain ⟨wholeFound, inside⟩ := payloadWithin_eq_ok_iff.mp within
  rw [← blob_eq_ok_iff, found] at wholeFound
  obtain rfl := Except.ok.inj wholeFound
  have keptSize := size_of_payload read
  have longer : kept.size ≤ newSize := by omega
  have room := payloadWithin_push_zeros atPointer longer
  have written : ∃ after, writePayload (startOf (Handle.ofAddress heap.pointer))
      kept (heap.push (.blob (Bytes.zeros newSize))) = .ok () after := by
    simp only [writePayload, bind, EStateM.bind, HeapM.inspect, room]
    exact ⟨_, rfl⟩
  obtain ⟨after, copied⟩ := written
  refine ⟨after, copied, ?_⟩
  simp only [realloc, bind, EStateM.bind, HeapM.inspect, found,
    Object.lengthWord_of_le recorded, if_neg (Nat.not_le.mpr short), read,
    allotted, copied]
  rfl

/-- A buffer that has not the bytes to keep is not replaced, and one that has
them is when the new one fits. -/
theorem Bounded.reallocatesBuffer (bounded : heap.Bounded)
    (oldSize newSize : Nat) (found : heap.blob pointer.buffer = .ok bytes)
    (recorded : bytes.size ≤ maxAddress) :
    heap.ReallocatesBuffer pointer bytes oldSize newSize where
  stays := by
    intro enough
    rw [← Object.lengthWord_of_le recorded] at enough
    exact realloc_of_le (blob_eq_ok_iff.mp found) enough
  refused := by
    intro short outside
    simp only [realloc, bind, EStateM.bind, HeapM.inspect, found,
      Object.lengthWord_of_le recorded, if_neg (Nat.not_le.mpr short),
      payload_eq_payloadBounds found recorded outside]
  replaced := by
    intro short inside fits
    have kept := payload_eq_ok (blob_eq_ok_iff.mp found) inside
    obtain ⟨buffer, middle, allotted, _⟩ := Ensures.exists_ok
      ((allots_allocBlob heap newSize).mono (fun _ _ taken => taken)
        fun _ _ refused => refused.1 fits)
    obtain ⟨after, _, outcome⟩ :=
      exists_copy kept found recorded short allotted
    have shortLength := short
    rw [← Object.lengthWord_of_le recorded] at shortLength
    obtain ⟨fitsCopy, rfl, answers⟩ :=
      (allots_realloc (blob_eq_ok_iff.mp found) shortLength (by omega)
        inside).of_ok outcome
    exact ⟨_, _, outcome, bounded.replaces_push short inside fitsCopy answers⟩
  exhausted := by
    intro short inside noFit
    refine RunsOut.after_read bytes found ?_
    rw [Object.lengthWord_of_le recorded, if_neg (Nat.not_le.mpr short)]
    exact RunsOut.after_read _ (payload_eq_ok (blob_eq_ok_iff.mp found) inside)
      ((runsOut_allocBlob noFit).bind _)
  copied := fun read short allotted =>
    exists_copy read found recorded short allotted

theorem Bounded.reallocates (bounded : heap.Bounded)
    (records : heap.RecordsLengths) (pointer : PayloadPointer)
    (oldSize newSize : Nat) :
    heap.Reallocates pointer oldSize newSize where
  buffer := fun found =>
    bounded.reallocatesBuffer oldSize newSize found
      (records (blob_eq_ok_iff.mp found))
  missing := fun absent =>
    realloc_of_blob_eq_error (by simp only [blob, find, absent])
  other := fun found isOther =>
    realloc_of_blob_eq_error (blob_eq_tagMismatch found isOther)
  failed := by
    intro error after outcome
    cases found : heap.blob pointer.buffer with
    | error failure =>
      rw [realloc_of_blob_eq_error found] at outcome
      cases outcome
      rfl
    | ok bytes =>
      have present := blob_eq_ok_iff.mp found
      exact (ensures_realloc oldSize newSize present
        (records present)).of_error outcome

end Heap

/-! ## Sessions -/

namespace Session

variable {config : Config} {host : Host} {session : Session}

/-- In every reached heap, a request for storage of another size keeps the
storage in place, replaces it by a zero-filled copy or changes nothing, for
every pointer and all sizes. -/
theorem reached_reallocates (reached : Reached config host session)
    (pointer : PayloadPointer) (oldSize newSize : Nat) :
    session.heap.Reallocates pointer oldSize newSize :=
  reached.regular.tidy.bounded.reallocates reached.regular.recorded pointer
    oldSize newSize

/-- A buffer of six bytes, a bignum behind it, and 24 bytes left. -/
def sixBytes : Session :=
  ((start { heapLimit := 0x10054 } .plain).invokeAll
    [.textOfString "abcdef", .ofUInt32 0]).2

private theorem reached_sixBytes :
    Reached { heapLimit := 0x10054 } .plain sixBytes :=
  .invoke (.invoke .start (.textOfString "abcdef") trivial) (.ofUInt32 0)
    trivial

/-- From its third byte on the buffer has four bytes left. Three of them can be
kept in a buffer of ten and not, for lack of space, in one of twenty; five of
them are not there to be kept, which only matters when the buffer is
replaced. -/
theorem sixBytes_reallocates :
    Reached { heapLimit := 0x10054 } .plain sixBytes ∧
      (∃ fresh after,
        Heap.realloc ⟨Handle.ofAddress 0x10000, 2⟩ 3 10 sixBytes.heap =
          .ok fresh after ∧
        sixBytes.heap.Replaces (Bytes.ofList [97, 98, 99, 100, 101, 102])
          2 3 10 fresh after) ∧
      Heap.realloc ⟨Handle.ofAddress 0x10000, 2⟩ 3 20 sixBytes.heap =
        .error (.outOfMemory 28 24) sixBytes.heap ∧
      Heap.realloc ⟨Handle.ofAddress 0x10000, 2⟩ 5 10 sixBytes.heap =
        .error (.payloadBounds 2 5 6) sixBytes.heap ∧
      Heap.realloc ⟨Handle.ofAddress 0x10000, 2⟩ 5 4 sixBytes.heap =
        .ok ⟨Handle.ofAddress 0x10000, 2⟩ sixBytes.heap ∧
      Heap.realloc ⟨Handle.ofAddress 0x10010, 2⟩ 3 10 sixBytes.heap =
        .error (.tagMismatch .blob .bigInteger) sixBytes.heap := by
  have found : sixBytes.heap.blob (Handle.ofAddress 0x10000) =
      .ok (Bytes.ofList [97, 98, 99, 100, 101, 102]) := by
    decide +kernel
  have asked := reached_reallocates reached_sixBytes
  have onBuffer := fun oldSize newSize =>
    (asked ⟨Handle.ofAddress 0x10000, 2⟩ oldSize newSize).buffer found
  have available : sixBytes.heap.available = 24 := by decide +kernel
  have twenty : (Object.blob (Bytes.zeros 20)).fullSize = 28 := by
    decide +kernel
  have fits : sixBytes.heap.Fits (.blob (Bytes.zeros 10)) := by
    show _ ≤ _
    decide +kernel
  have noFit : ¬sixBytes.heap.Fits (.blob (Bytes.zeros 20)) := by
    rw [Heap.fits_iff_fullSize_le_available, available, twenty]
    decide
  have runsOut := (onBuffer 3 20).exhausted (by decide) (by decide) noFit
  rw [Heap.RunsOut, available, twenty] at runsOut
  have tagged : sixBytes.heap.tag (Handle.ofAddress 0x10010) =
      .ok .bigInteger := by
    decide +kernel
  obtain ⟨object, isFound, isNumber⟩ := Except.map_eq_ok_iff.mp tagged
  have refused := (asked ⟨_, 2⟩ 3 10).other (Heap.find_eq_ok_iff.mp isFound)
    (by simp [isNumber])
  rw [isNumber] at refused
  exact ⟨reached_sixBytes,
    (onBuffer 3 10).replaced (by decide) (by decide) fits, runsOut,
    (onBuffer 5 10).refused (by decide) (by decide),
    (onBuffer 5 4).stays (by decide), refused⟩

end Session

end ManagedHeap
