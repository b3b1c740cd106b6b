import ManagedHeap.Heap.Buffers
import ManagedHeap.Proofs.Heap.Checking
import ManagedHeap.Proofs.Heap.Extension
import ManagedHeap.Proofs.Outcomes

/-!
# Requests for space

Every request for space either adds exactly one object at the heap pointer or
changes nothing, and it fails exactly when the object does not fit below the
limit (`Allots`). The error then names the bytes asked for and those that are
left (`RunsOut`).
-/

namespace ManagedHeap

def Error.IsOutOfMemory : Error → Prop
  | .outOfMemory _ _ => True
  | _ => False

namespace Heap

variable {heap : Heap}

/-! ## One object -/

/-- There is room below the limit for as much of an object as its length word
has. -/
def HasRoom (heap : Heap) (object : Object) : Prop :=
  heap.pointer + object.size ≤ heap.config.heapLimit.toNat

/-- All of an object fits below the limit. -/
def Fits (heap : Heap) (object : Object) : Prop :=
  heap.pointer + object.fullSize ≤ heap.config.heapLimit.toNat

private theorem add_le_limit_iff (heap : Heap) {cost : Nat}
    (positive : 0 < cost) :
    heap.pointer + cost ≤ heap.config.heapLimit.toNat ↔
      cost ≤ heap.available := by
  simp only [available]
  omega

theorem hasRoom_iff_size_le_available (heap : Heap) (object : Object) :
    heap.HasRoom object ↔ object.size ≤ heap.available :=
  heap.add_le_limit_iff object.size_pos

theorem fits_iff_fullSize_le_available (heap : Heap) (object : Object) :
    heap.Fits object ↔ object.fullSize ≤ heap.available :=
  heap.add_le_limit_iff object.fullSize_pos

theorem HasRoom.pointer_lt {object : Object} (room : heap.HasRoom object) :
    heap.pointer < maxAddress := by
  have positive := object.size_pos
  have limit := heap.config.heapLimit.toNat_lt
  simp only [HasRoom, maxAddress] at room ⊢
  omega

theorem Fits.hasRoom {object : Object} (fits : heap.Fits object) :
    heap.HasRoom object :=
  Nat.le_trans (Nat.add_le_add_left object.size_le_fullSize _) fits

/-- What fits is as large as its length word says. -/
theorem Fits.size_eq {object : Object} (fits : heap.Fits object) :
    object.size = object.fullSize := by
  have limit := heap.config.heapLimit.toNat_lt
  refine Object.size_eq_fullSize ?_
  simp only [Fits, maxAddress] at fits ⊢
  omega

/-- What fits moves the pointer past all of it. -/
theorem Fits.pointer_push {object : Object} (fits : heap.Fits object) :
    (heap.push object).pointer = heap.pointer + object.fullSize :=
  congrArg (heap.pointer + ·) fits.size_eq

theorem Fits.pointer_lt {object : Object} (fits : heap.Fits object) :
    heap.pointer < maxAddress :=
  fits.hasRoom.pointer_lt

/-- Fewer bytes are left below the limit than a request takes. -/
def Lacks (heap : Heap) (cost : Nat) : Prop :=
  0 < cost ∧ heap.config.heapLimit.toNat < heap.pointer + cost

theorem lacks_of_not_fits {object : Object} (noFit : ¬heap.Fits object) :
    heap.Lacks object.fullSize :=
  ⟨object.fullSize_pos, Nat.lt_of_not_le noFit⟩

/-- Whatever an object is, it is added at the pointer when there is room for
what its length word has, and nothing changes when there is not. -/
theorem ensures_alloc (heap : Heap) (object : Object) :
    Ensures (alloc object) heap
      (fun answer after => heap.HasRoom object ∧ after = heap.push object ∧
        ∀ handle : Handle, handle.address = heap.pointer → answer = handle)
      (fun error after => ¬heap.HasRoom object ∧ after = heap ∧
        error.IsOutOfMemory) := by
  have hasRoom := heap.hasRoom_iff_size_le_available object
  unfold alloc allocWords
  simp only [ensures_bind, ensures_inspect, ensures_modifyGet, ensures_modify,
    ensures_pure]
  unfold reserve
  by_cases enough : object.size ≤ heap.available
  · simp only [Object.size] at enough
    rw [if_pos enough]
    refine ⟨?_, by simp⟩
    intro requested isRequested
    obtain rfl := Except.ok.inj isRequested
    have bound := (hasRoom.mpr enough).pointer_lt
    have address := Handle.address_ofAddress bound
    refine ⟨hasRoom.mpr enough, ?_, ?_⟩
    · simp only [place, push, address, Object.size]
    · intro handle atPointer
      exact Handle.ext (address.trans atPointer.symm)
  · simp only [Object.size] at enough
    rw [if_neg enough]
    refine ⟨by simp, ?_⟩
    intro error isError
    obtain rfl := Except.error.inj isError
    exact ⟨fun room => enough (hasRoom.mp room), trivial, trivial⟩

theorem alloc_eq_ok {object : Object} (room : heap.HasRoom object) :
    alloc object heap =
      .ok (Handle.ofAddress heap.pointer) (heap.push object) := by
  have ensured := heap.ensures_alloc object
  have atPointer := Handle.address_ofAddress room.pointer_lt
  cases outcome : alloc object heap with
  | error error after => exact absurd room (ensured.of_error outcome).1
  | ok handle after =>
    obtain ⟨_, rfl, answers⟩ := ensured.of_ok outcome
    rw [answers _ atPointer]

/-- What a request for any object ensures: the object at the pointer, with room
for what its length word has, or an unchanged heap. -/
def Adds {α : Type} (operation : HeapM α) (heap : Heap) (object : Object)
    (answers : Handle → α → Prop) : Prop :=
  Ensures operation heap
    (fun answer after => heap.HasRoom object ∧ after = heap.push object ∧
      ∀ handle : Handle, handle.address = heap.pointer → answers handle answer)
    (fun error after => after = heap ∧ error.IsOutOfMemory)

theorem adds_alloc (heap : Heap) (object : Object) :
    Adds (alloc object) heap object fun handle answer => answer = handle :=
  (heap.ensures_alloc object).mono (fun _ _ added => added)
    fun _ _ refused => refused.2

/-- What a request for space ensures: one more object at the pointer when all
of it fits, or an unchanged heap. -/
def Allots {α : Type} (operation : HeapM α) (heap : Heap) (object : Object)
    (answers : Handle → α → Prop) : Prop :=
  Ensures operation heap
    (fun answer after => heap.Fits object ∧ after = heap.push object ∧
      ∀ handle : Handle, handle.address = heap.pointer → answers handle answer)
    (fun error after => ¬heap.Fits object ∧ after = heap ∧ error.IsOutOfMemory)

theorem Allots.adds {α : Type} {operation : HeapM α} {object : Object}
    {answers : Handle → α → Prop}
    (allots : Allots operation heap object answers) :
    Adds operation heap object answers :=
  Ensures.mono allots (fun _ _ allotted => ⟨allotted.1.hasRoom, allotted.2⟩)
    fun _ _ refused => refused.2

theorem allots_alloc (heap : Heap) (object : Object)
    (recorded : object.size = object.fullSize) :
    Allots (alloc object) heap object fun handle answer => answer = handle := by
  have fits_iff : heap.Fits object ↔ heap.HasRoom object := by
    rw [Fits, HasRoom, recorded]
  unfold Allots
  rw [fits_iff]
  exact heap.ensures_alloc object

/-! ## Byte buffers -/

theorem reserve_eq_ok_iff {words requested : Nat} :
    heap.reserve words = .ok requested ↔
      wordSize * words ≤ heap.available ∧ wordSize * words = requested := by
  simp only [reserve]
  split <;> rename_i enough
  · simp [enough]
  · simp [enough]

theorem reserve_eq_error_iff {words : Nat} {error : Error} :
    heap.reserve words = .error error ↔
      heap.available < wordSize * words ∧
        error = .outOfMemory (wordSize * words) heap.available := by
  simp only [reserve]
  split <;> rename_i enough
  · simp [Nat.not_lt.mpr enough]
  · simp [Nat.lt_of_not_le enough, eq_comm]

theorem allots_allocBlob (heap : Heap) (length : Nat) :
    Allots (allocBlob length) heap (.blob (Bytes.zeros length))
      fun handle answer => answer = handle := by
  have fits_iff := heap.fits_iff_fullSize_le_available
    (.blob (Bytes.zeros length))
  rw [Object.fullSize_blob, Bytes.size_zeros] at fits_iff
  unfold Allots allocBlob
  simp only [ensures_bind, ensures_inspect]
  constructor
  · intro _ reserved
    obtain ⟨enough, _⟩ := reserve_eq_ok_iff.mp reserved
    exact heap.allots_alloc _ (fits_iff.mpr enough).size_eq
  · intro error refused
    obtain ⟨short, rfl⟩ := reserve_eq_error_iff.mp refused
    exact ⟨fun fits => Nat.not_le.mpr short (fits_iff.mp fits), trivial,
      trivial⟩

theorem Fits.size_lt {bytes : Bytes} (fits : heap.Fits (.blob bytes)) :
    bytes.size < maxAddress := by
  have limit := heap.config.heapLimit.toNat_lt
  simp only [Fits, Object.fullSize_blob, Object.blobWords, bytesToWords,
    wordSize, Positional.ceilDiv] at fits
  simp only [maxAddress]
  omega

theorem allots_allocBlobFrom (heap : Heap) (bytes : Bytes) :
    Allots (allocBlobFrom bytes) heap (.blob bytes) fun handle answer =>
      answer = handle := by
  unfold Allots allocBlobFrom
  simp only [ensures_bind, ensures_inspect]
  constructor
  · intro _ required
    exact heap.allots_alloc _ (Object.size_blob (require_eq_ok_iff.mp required))
  · intro error refused
    obtain ⟨tooLong, rfl⟩ := require_eq_error_iff.mp refused
    exact ⟨fun fits => tooLong (Nat.le_of_lt fits.size_lt), trivial, trivial⟩

theorem allots_calloc (heap : Heap) (count elementSize : Nat) :
    Allots (calloc count elementSize) heap
      (.blob (Bytes.zeros (count * elementSize)))
      fun handle answer => answer = .startOf handle := by
  unfold Allots calloc
  simp only [ensures_bind, ensures_inspect, ensures_pure]
  refine ⟨fun _ _ => ?_, fun error refused => ?_⟩
  · refine (allots_allocBlob heap _).mono ?_ fun _ _ failed => failed
    rintro buffer after ⟨fits, rfl, answers⟩
    exact ⟨fits, rfl, fun handle atPointer =>
      congrArg _ (answers handle atPointer)⟩
  · obtain ⟨tooLong, rfl⟩ := require_eq_error_iff.mp refused
    refine ⟨fun fits => tooLong ?_, trivial, trivial⟩
    have short := fits.size_lt
    rw [Bytes.size_zeros] at short
    exact Nat.le_of_lt short

/-! ## Refusals -/

/-- An operation fails with an error that names the bytes asked for and those
left below the limit, and nothing has changed. -/
def RunsOut {α : Type} (operation : HeapM α) (heap : Heap)
    (requested : Nat) : Prop :=
  operation heap = .error (.outOfMemory requested heap.available) heap

private theorem runsOut_read {α β : Type} {reader : Heap → Except Error α}
    {next : α → HeapM β} {requested : Nat}
    (refused :
      reader heap = .error (.outOfMemory requested heap.available)) :
    RunsOut (HeapM.inspect reader >>= next) heap requested := by
  simp only [RunsOut, bind, EStateM.bind, HeapM.inspect, refused]

theorem RunsOut.after_read {α β : Type} {reader : Heap → Except Error α}
    {next : α → HeapM β} {requested : Nat} (value : α)
    (read : reader heap = .ok value)
    (runsOut : RunsOut (next value) heap requested) :
    RunsOut (HeapM.inspect reader >>= next) heap requested := by
  simpa only [RunsOut, bind, EStateM.bind, HeapM.inspect, read] using runsOut

theorem RunsOut.bind {α β : Type} {operation : HeapM α} {requested : Nat}
    (runsOut : RunsOut operation heap requested) (next : α → HeapM β) :
    RunsOut (operation >>= next) heap requested := by
  unfold RunsOut at runsOut ⊢
  simp only [Bind.bind, EStateM.bind, runsOut]

theorem runsOut_alloc {object : Object} (noRoom : ¬heap.HasRoom object) :
    RunsOut (alloc object) heap object.size := by
  rw [hasRoom_iff_size_le_available, Nat.not_le] at noRoom
  exact (runsOut_read (reserve_eq_error_iff.mpr ⟨noRoom, rfl⟩)).bind _

theorem runsOut_allocBlob {length : Nat}
    (noFit : ¬heap.Fits (.blob (Bytes.zeros length))) :
    RunsOut (allocBlob length) heap
      (Object.blob (Bytes.zeros length)).fullSize := by
  rw [fits_iff_fullSize_le_available, Nat.not_le] at noFit
  rw [Object.fullSize_blob, Bytes.size_zeros] at noFit ⊢
  exact runsOut_read (reserve_eq_error_iff.mpr ⟨noFit, rfl⟩)

/-- A payload whose length has more than 32 bits is refused by its length. -/
theorem runsOut_allocBlobFrom {bytes : Bytes}
    (noFit : ¬heap.Fits (.blob bytes)) :
    RunsOut (allocBlobFrom bytes) heap
      (if bytes.size ≤ maxAddress then (Object.blob bytes).fullSize
        else bytes.size) := by
  split
  · rename_i short
    have recorded := Object.size_blob short
    have noRoom : ¬heap.HasRoom (.blob bytes) := by
      rwa [HasRoom, recorded]
    rw [← recorded]
    exact (runsOut_alloc noRoom).after_read () (require_eq_ok_iff.mpr short)
  · rename_i tooLong
    exact runsOut_read (require_eq_error_iff.mpr ⟨tooLong, rfl⟩)

theorem runsOut_calloc {count elementSize : Nat}
    (noFit : ¬heap.Fits (.blob (Bytes.zeros (count * elementSize)))) :
    RunsOut (calloc count elementSize) heap
      (if count * elementSize ≤ maxAddress then
          (Object.blob (Bytes.zeros (count * elementSize))).fullSize
        else count * elementSize) := by
  split
  · rename_i short
    refine RunsOut.after_read () ?_ ((runsOut_allocBlob noFit).bind _)
    exact require_eq_ok_iff.mpr short
  · rename_i tooLong
    exact runsOut_read (require_eq_error_iff.mpr ⟨tooLong, rfl⟩)

/-! ## Replaced storage -/

/-- The content of storage that replaces a shorter one: the bytes kept, and
zeros after them. -/
def enlarged (kept : Bytes) (newSize : Nat) : Bytes :=
  (Bytes.zeros newSize).overwrite 0 kept

theorem toList_enlarged {kept : Bytes} {newSize : Nat} :
    (enlarged kept newSize).toList =
      kept.toList ++ List.replicate (newSize - kept.size) 0 := by
  simp [enlarged]

theorem size_enlarged
    {kept : Bytes} {newSize : Nat} (longer : kept.size ≤ newSize) :
    (enlarged kept newSize).size = newSize := by
  rw [← Bytes.length_toList, toList_enlarged, List.length_append,
    List.length_replicate, Bytes.length_toList]
  omega

theorem blob_eq_ok_iff {handle : Handle} {bytes : Bytes} :
    heap.blob handle = .ok bytes ↔
      heap.objects.find? handle.address = some (.blob bytes) := by
  rw [← find_eq_ok_iff, blob]
  split <;> simp_all

theorem bignum_eq_ok_iff {handle : Handle} {number : Bignum} :
    heap.bignum handle = .ok number ↔
      heap.objects.find? handle.address = some (.bigInteger number) := by
  rw [← find_eq_ok_iff, bignum]
  split <;> simp_all

/-- An object with another tag is no byte buffer, and the tag says so. -/
theorem blob_eq_tagMismatch {handle : Handle} {object : Object}
    (found : heap.objects.find? handle.address = some object)
    (other : object.tag ≠ .blob) :
    heap.blob handle = .error (.tagMismatch .blob object.tag) := by
  rw [blob, find_eq_ok_iff.mpr found]
  cases object with
  | blob bytes => exact absurd rfl other
  | _ => rfl

theorem bignum_eq_tagMismatch {handle : Handle} {object : Object}
    (found : heap.objects.find? handle.address = some object)
    (other : object.tag ≠ .bigInteger) :
    heap.bignum handle = .error (.tagMismatch .bigInteger object.tag) := by
  rw [bignum, find_eq_ok_iff.mpr found]
  cases object with
  | bigInteger number => exact absurd rfl other
  | _ => rfl

theorem payloadWithin_eq_ok_iff {pointer : PayloadPointer} {length : Nat}
    {bytes : Bytes} :
    heap.payloadWithin pointer length = .ok bytes ↔
      heap.objects.find? pointer.buffer.address = some (.blob bytes) ∧
        pointer.offset + length ≤ bytes.size := by
  rw [← blob_eq_ok_iff, payloadWithin]
  cases heap.blob pointer.buffer with
  | error failure => simp
  | ok present =>
    dsimp only
    split <;> grind

/-- A refusal names the length word of the buffer. -/
theorem payloadWithin_eq_error {pointer : PayloadPointer} {length : Nat}
    {bytes : Bytes}
    (found : heap.objects.find? pointer.buffer.address = some (.blob bytes))
    (outside : bytes.size < pointer.offset + length) :
    heap.payloadWithin pointer length =
      .error (.payloadBounds pointer.offset length
        (Object.lengthWord bytes.size)) := by
  rw [payloadWithin, blob_eq_ok_iff.mpr found]
  exact if_neg (Nat.not_le.mpr outside)

theorem payload_eq_ok {pointer : PayloadPointer} {length : Nat} {bytes : Bytes}
    (found : heap.objects.find? pointer.buffer.address = some (.blob bytes))
    (inside : pointer.offset + length ≤ bytes.size) :
    heap.payload pointer length = .ok (bytes.slice pointer.offset length) := by
  rw [payload, payloadWithin_eq_ok_iff.mpr ⟨found, inside⟩]
  rfl

/-- Storage that is long enough from the pointer on stays where it is. -/
theorem realloc_of_le {pointer : PayloadPointer} {bytes : Bytes}
    {oldSize newSize : Nat}
    (found : heap.objects.find? pointer.buffer.address = some (.blob bytes))
    (enough : newSize ≤ Object.lengthWord bytes.size - pointer.offset) :
    realloc pointer oldSize newSize heap = .ok pointer heap := by
  simp only [realloc, bind, EStateM.bind, HeapM.inspect,
    blob_eq_ok_iff.mpr found, if_pos enough]
  rfl

/-- A new buffer of zeros takes as many bytes as it has. -/
theorem payloadWithin_push_zeros {handle : Handle} {length newSize : Nat}
    (atPointer : handle.address = heap.pointer) (enough : length ≤ newSize) :
    (heap.push (.blob (Bytes.zeros newSize))).payloadWithin (.startOf handle)
        length =
      .ok (Bytes.zeros newSize) := by
  refine payloadWithin_eq_ok_iff.mpr ⟨?_, ?_⟩
  · rw [PayloadPointer.startOf, atPointer]
    exact find?_push_self ..
  · show 0 + length ≤ _
    rwa [Nat.zero_add, Bytes.size_zeros]

/-- Storage that is too short is replaced by a buffer of the new size. -/
theorem allots_realloc {pointer : PayloadPointer} {bytes : Bytes}
    {oldSize newSize : Nat}
    (found : heap.objects.find? pointer.buffer.address = some (.blob bytes))
    (short : Object.lengthWord bytes.size - pointer.offset < newSize)
    (longer : oldSize ≤ newSize)
    (inside : pointer.offset + oldSize ≤ bytes.size) :
    Allots (realloc pointer oldSize newSize) heap
      (.blob (enlarged (bytes.slice pointer.offset oldSize) newSize))
      fun handle answer => answer = .startOf handle := by
  have kept := payload_eq_ok found inside
  have keptSize := size_of_payload kept
  have keptLonger : (bytes.slice pointer.offset oldSize).size ≤ newSize :=
    Nat.le_trans (Nat.le_of_eq keptSize) longer
  have sameLength :
      (enlarged (bytes.slice pointer.offset oldSize) newSize).size =
        (Bytes.zeros newSize).size :=
    (size_enlarged keptLonger).trans (Bytes.size_zeros newSize).symm
  unfold Allots realloc
  refine Ensures.read (blob_eq_ok_iff.mpr found) ?_
  rw [if_neg (Nat.not_le.mpr short)]
  refine Ensures.read kept ?_
  rw [ensures_bind]
  refine (allots_allocBlob heap newSize).mono ?_ ?_
  · rintro buffer after ⟨fits, rfl, answers⟩
    have atPointer := Handle.address_ofAddress fits.pointer_lt
    obtain rfl := answers _ atPointer
    rw [ensures_bind]
    refine Ensures.read (payloadWithin_push_zeros atPointer keptLonger)
      ⟨?_, place_push atPointer (Object.size_blob_congr sameLength), ?_⟩
    · simpa only [Fits, Object.fullSize_blob, sameLength] using fits
    · intro handle address
      exact congrArg PayloadPointer.startOf
        (Handle.ext (atPointer.trans address.symm))
  · rintro error after ⟨noFit, unchanged, outOfMemory⟩
    refine ⟨?_, unchanged, outOfMemory⟩
    simpa only [Fits, Object.fullSize_blob, sameLength] using noFit

/-- Storage stays where it is or moves to a new buffer, and a request that
fails changes nothing. -/
theorem ensures_realloc {pointer : PayloadPointer} {bytes : Bytes}
    (oldSize newSize : Nat)
    (found : heap.objects.find? pointer.buffer.address = some (.blob bytes))
    (recorded : bytes.size ≤ maxAddress) :
    Ensures (realloc pointer oldSize newSize) heap
      (fun fresh after => fresh = pointer ∧ after = heap ∨
        ∃ content, heap.Fits (.blob content) ∧
          after = heap.push (.blob content) ∧
          ∀ handle : Handle, handle.address = heap.pointer →
            fresh = .startOf handle)
      (fun _ after => after = heap) := by
  have length := Object.lengthWord_of_le recorded
  by_cases enough : newSize ≤ Object.lengthWord bytes.size - pointer.offset
  · exact Ensures.intro (realloc_of_le found enough) (Or.inl ⟨rfl, rfl⟩)
  · by_cases inside : pointer.offset + oldSize ≤ bytes.size
    · refine (allots_realloc found (Nat.lt_of_not_le enough) (by omega)
        inside).mono ?_ ?_
      · exact fun _ _ allotted => Or.inr ⟨_, allotted⟩
      · exact fun _ _ refused => refused.2.1
    · unfold realloc
      refine Ensures.read (blob_eq_ok_iff.mpr found) ?_
      rw [if_neg enough, ensures_bind, ensures_inspect]
      refine ⟨fun kept read => ?_, fun _ _ => rfl⟩
      -- The old content is not all there, so it is not read.
      obtain ⟨whole, within, _⟩ := Except.map_eq_ok_iff.mp read
      obtain ⟨wholeFound, wholeInside⟩ := payloadWithin_eq_ok_iff.mp within
      rw [found] at wholeFound
      obtain rfl := Object.blob.inj (Option.some.inj wholeFound)
      exact absurd wholeInside inside

end Heap

end ManagedHeap
