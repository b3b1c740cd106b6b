import ManagedHeap.Proofs.Heap.Collection

/-!
# Collections of damaged heaps

What a collection does on a heap that is sound in its layout only: handles may
refer to nothing, and digit pointers to anything. A collection heeds what the
roots lead to and nothing else (`collect_heeds_reached`). It fails before
anything has moved exactly when a handle that the roots lead to is of no
object, or the digits of a bignum that they lead to are in no byte buffer, and
its error names such a fault.

Only references are followed here (`Traces`). Where nothing is at fault, the
digit buffers are byte buffers, which refer to nothing, so this is reachability
(`intact_iff_traceable`).
-/

namespace ManagedHeap

theorem Object.digitBuffer_eq_some_iff {object : Object} {buffer : Handle} :
    object.digitBuffer = some buffer ↔ ∃ number start,
      object = .bigInteger number ∧ number.storage = some start ∧
        start.buffer = buffer := by
  cases object <;> simp [digitBuffer]

namespace Heap

/-! ## What the roots lead to -/

/-- The roots lead to a handle: it is one of them, or a reference of an object
that they lead to. The storage of digits is not among the references. -/
inductive Traces (heap : Heap) : Handle → Prop where
  | root {handle : Handle} (held : handle ∈ heap.liveRoots) :
      heap.Traces handle
  | reference {handle target : Handle} {object : Object}
      (traced : heap.Traces handle)
      (found : heap.objects.find? handle.address = some object)
      (refers : target ∈ object.pointers) :
      heap.Traces target

/-- Every handle that the roots lead to is of an object, and the digit pointer
of every bignum among these objects goes to a byte buffer. -/
structure Intact (heap : Heap) : Prop where
  held : ∀ {handle}, heap.Traces handle → heap.Holds handle
  buffered : ∀ {handle number start}, heap.Traces handle →
    heap.objects.find? handle.address = some (.bigInteger number) →
    number.storage = some start →
    ∃ bytes, heap.objects.find? start.buffer.address = some (.blob bytes)

/-- Something that the roots lead to and that is not there, or a digit pointer
to an object that is no byte buffer, with the error that reports it. -/
inductive Fault (heap : Heap) : Error → Prop where
  | missingObject {handle : Handle} (traced : heap.Traces handle)
      (missing : heap.objects.find? handle.address = none) :
      heap.Fault (.invalidHandle handle.raw)
  | missingStorage {handle : Handle} {number : Bignum} {start : PayloadPointer}
      (traced : heap.Traces handle)
      (found : heap.objects.find? handle.address = some (.bigInteger number))
      (stored : number.storage = some start)
      (missing : heap.objects.find? start.buffer.address = none) :
      heap.Fault (.invalidHandle start.buffer.raw)
  | otherStorage {handle : Handle} {number : Bignum} {start : PayloadPointer}
      {target : Object} (traced : heap.Traces handle)
      (found : heap.objects.find? handle.address = some (.bigInteger number))
      (stored : number.storage = some start)
      (targetFound : heap.objects.find? start.buffer.address = some target)
      (other : target.tag ≠ .blob) :
      heap.Fault (.heapCheck handle.address (.storageTag target.tag))

variable {heap : Heap}

theorem Traces.reaches {handle : Handle} (traced : heap.Traces handle) :
    heap.Reaches handle.address := by
  induction traced with
  | root held => exact .root held
  | reference _ found refers inductionHypothesis =>
    exact .reference inductionHypothesis found (List.mem_append_left _ refers)

/-- In an intact heap the roots reach the objects that they lead to and byte
buffers. -/
theorem Intact.traces_or_blob (intact : heap.Intact) {address : Nat}
    (reached : heap.Reaches address) :
    (∃ handle : Handle, handle.address = address ∧ heap.Traces handle) ∨
      ∃ bytes, heap.objects.find? address = some (.blob bytes) := by
  induction reached with
  | root held => exact Or.inl ⟨_, rfl, .root held⟩
  | @reference source object target _ found refers inductionHypothesis =>
    rcases inductionHypothesis with ⟨handle, rfl, traced⟩ | ⟨bytes, blob⟩
    · rcases List.mem_append.mp refers with isPointer | isBuffer
      · exact Or.inl ⟨target, rfl, .reference traced found isPointer⟩
      · obtain ⟨number, start, rfl, stored, rfl⟩ :=
          Object.digitBuffer_eq_some_iff.mp (Option.mem_toList.mp isBuffer)
        exact Or.inr (intact.buffered traced found stored)
    · -- A byte buffer refers to nothing.
      obtain rfl := Option.some.inj (blob.symm.trans found)
      simp [Object.kept, Object.pointers, Object.fields, Object.digitBuffer]
        at refers

theorem Intact.exists_traces (intact : heap.Intact) {address : Nat}
    {number : Bignum} (reached : heap.Reaches address)
    (found : heap.objects.find? address = some (.bigInteger number)) :
    ∃ handle : Handle, handle.address = address ∧ heap.Traces handle := by
  refine (intact.traces_or_blob reached).resolve_right ?_
  rintro ⟨bytes, blob⟩
  cases found.symm.trans blob

theorem intact_iff_traceable : heap.Intact ↔ heap.Traceable := by
  constructor
  · intro intact
    refine ⟨?_, ?_⟩
    · intro address reached
      rcases intact.traces_or_blob reached with ⟨_, rfl, traced⟩ | ⟨bytes, blob⟩
      · exact intact.held traced
      · exact ⟨_, blob⟩
    · intro address object buffer reached found isBuffer
      obtain ⟨number, start, rfl, stored, rfl⟩ :=
        Object.digitBuffer_eq_some_iff.mp isBuffer
      obtain ⟨_, rfl, traced⟩ := intact.exists_traces reached found
      exact intact.buffered traced found stored
  · intro traceable
    refine ⟨fun traced => traceable.present _ traced.reaches, ?_⟩
    intro handle number start traced found stored
    refine traceable.buffered _ _ start.buffer traced.reaches found ?_
    simp [Object.digitBuffer, stored]

theorem Fault.not_intact {error : Error} (fault : heap.Fault error) :
    ¬heap.Intact := by
  intro intact
  cases fault with
  | missingObject traced missing =>
    obtain ⟨object, found⟩ := intact.held traced
    cases missing.symm.trans found
  | missingStorage traced found stored missing =>
    obtain ⟨bytes, blob⟩ := intact.buffered traced found stored
    cases missing.symm.trans blob
  | otherStorage traced found stored targetFound other =>
    obtain ⟨bytes, blob⟩ := intact.buffered traced found stored
    obtain rfl := Option.some.inj (targetFound.symm.trans blob)
    exact other rfl

/-! ## Marking -/

theorem digitBufferAddress_eq_error {store : Store} {address : Nat}
    {object : Object} {error : Error}
    (failed : store.digitBufferAddress address object = .error error) :
    ∃ number start, object = .bigInteger number ∧
      number.storage = some start ∧
      (store.find? start.buffer.address = none ∧
          error = .invalidHandle start.buffer.raw ∨
        ∃ target, store.find? start.buffer.address = some target ∧
          target.tag ≠ .blob ∧
          error = .heapCheck address (.storageTag target.tag)) := by
  unfold Store.digitBufferAddress at failed
  split at failed
  · cases failed
  · rename_i buffer isBuffer
    obtain ⟨number, start, rfl, stored, rfl⟩ :=
      Object.digitBuffer_eq_some_iff.mp isBuffer
    refine ⟨number, start, rfl, stored, ?_⟩
    split at failed
    · rename_i missing
      exact Or.inl ⟨missing, (Except.error.inj failed).symm⟩
    · cases failed
    · rename_i target notBlob found
      refine Or.inr ⟨target, found, ?_, (Except.error.inj failed).symm⟩
      intro isBlob
      cases target with
      | blob bytes => exact notBlob bytes rfl
      | _ => cases isBlob

/-- Only what the roots lead to waits, so whatever stops marking is a fault of
theirs. -/
theorem fault_of_markFrom_eq_error {marked : List Nat} {waiting : List Handle}
    {error : Error} (traced : ∀ handle ∈ waiting, heap.Traces handle)
    (failed : heap.objects.markFrom marked waiting = .error error) :
    heap.Fault error := by
  fun_induction Store.markFrom heap.objects marked waiting with
  | case1 marked => cases failed
  | case2 marked handle waiting known inductionHypothesis =>
    refine inductionHypothesis ?_ failed
    exact fun target member => traced target (List.mem_cons_of_mem _ member)
  | case3 marked handle waiting unknown missing =>
    obtain rfl := Except.error.inj failed
    exact .missingObject (traced handle List.mem_cons_self) missing
  | case4 marked handle waiting unknown object found storageError read =>
    obtain rfl := Except.error.inj failed
    have handleTraced := traced handle List.mem_cons_self
    obtain ⟨number, start, rfl, stored, missing | other⟩ :=
      digitBufferAddress_eq_error read
    · obtain ⟨missing, rfl⟩ := missing
      exact .missingStorage handleTraced found stored missing
    · obtain ⟨target, targetFound, notBlob, rfl⟩ := other
      exact .otherStorage handleTraced found stored targetFound notBlob
  | case5 marked handle waiting unknown object found buffers read
    inductionHypothesis =>
    refine inductionHypothesis ?_ failed
    intro target member
    rcases List.mem_append.mp member with refers | later
    · exact .reference (traced handle List.mem_cons_self) found
        (List.mem_reverse.mp refers)
    · exact traced target (List.mem_cons_of_mem _ later)

theorem fault_of_mark_eq_error {error : Error}
    (failed : heap.mark = .error error) : heap.Fault error := by
  refine fault_of_markFrom_eq_error ?_ failed
  exact fun handle member => .root (List.mem_reverse.mp member)

/-! ## Collecting -/

/-- A bignum that agrees with its storage after a compaction did so before. -/
theorem SoundLayout.soundBignum_of_compact {marked : List Nat}
    (layout : heap.SoundLayout) (traceable : heap.Traceable)
    (marks : ∀ {address}, address ∈ marked ↔ heap.Reaches address)
    (sound : (heap.compact marked).Sound) {address : Nat} {number : Bignum}
    (reached : heap.Reaches address)
    (found : heap.objects.find? address = some (.bigInteger number)) :
    heap.SoundBignum number := by
  obtain ⟨_, moved⟩ := find?_compact_destination found (marks.mpr reached)
  have movedSound := sound.soundBignum moved
  refine ⟨movedSound.used_le_capacity, movedSound.zero_is_nonnegative, ?_, ?_⟩
  · intro unstored
    exact movedSound.unstored_is_zero (by simp [Bignum.moveStorage, unstored])
  · intro start stored
    have isBuffer :
        (Object.bigInteger number).digitBuffer = some start.buffer :=
      Object.digitBuffer_eq_some_iff.mpr ⟨number, start, rfl, stored, rfl⟩
    obtain ⟨bytes, blob⟩ :=
      traceable.buffered address _ start.buffer reached found isBuffer
    have bufferReached : heap.Reaches start.buffer.address :=
      .reference reached found
        (List.mem_append_right _ (Option.mem_toList.mpr isBuffer))
    have movedBlob :=
      layout.find?_compact_apply blob (marks.mpr bufferReached)
    have movedStored :
        (number.moveStorage (heap.forwarding marked).apply).storage =
          some (start.retarget
            ((heap.forwarding marked).apply start.buffer)) := by
      simp [Bignum.moveStorage, stored]
    obtain ⟨atStart, content, contentFound, room, top⟩ :=
      movedSound.stored _ movedStored
    obtain rfl :=
      Object.blob.inj (Option.some.inj (contentFound.symm.trans movedBlob))
    exact ⟨atStart, content, blob, room, top⟩

/-- Every bignum that the roots lead to agrees with its storage. -/
def TracedBignumsSound (heap : Heap) : Prop :=
  ∀ handle number, heap.Traces handle →
    heap.objects.find? handle.address = some (.bigInteger number) →
    heap.SoundBignum number

/-- A collection returns exactly when all that the roots lead to is there and,
if the heap is checked afterwards, their bignums agree with their storage. -/
theorem SoundLayout.exists_collect_eq_ok_iff (layout : heap.SoundLayout) :
    (∃ stats after, collect heap = .ok stats after) ↔
      heap.Intact ∧
        (heap.config.checkAfterCollection = true →
          heap.TracedBignumsSound) := by
  have ensured := ensures_collect heap
  constructor
  · rintro ⟨stats, after, collected⟩
    obtain ⟨marked, outcome, rfl, _, passed⟩ := ensured.of_ok collected
    have traceable := exists_mark_eq_ok_iff.mp ⟨marked, outcome⟩
    refine ⟨intact_iff_traceable.mpr traceable, ?_⟩
    intro checks handle number traced found
    exact layout.soundBignum_of_compact traceable
      (mem_of_mark_eq_ok_iff outcome) (check_eq_ok_iff.mp (passed checks))
      traced.reaches found
  · rintro ⟨intact, bignums⟩
    have traceable := intact_iff_traceable.mp intact
    obtain ⟨marked, outcome⟩ := exists_mark_eq_ok_iff.mpr traceable
    cases collected : collect heap with
    | ok stats after => exact ⟨stats, after, rfl⟩
    | error error after =>
      exfalso
      obtain ⟨rfl, checks, failed⟩ :=
        (ensures_collect_of_mark_eq_ok outcome).of_error collected
      have sound : (heap.compact marked).Sound := by
        refine layout.sound_compact traceable ?_
          (mem_of_mark_eq_ok_iff outcome)
        intro address number reached found
        obtain ⟨handle, rfl, traced⟩ := intact.exists_traces reached found
        exact bignums checks handle number traced found
      cases (check_eq_ok_iff.mpr sound).symm.trans failed

/-- What a collection heeds. -/
structure HeedsReached (heap : Heap) : Prop where
  /-- Marking comes to its end exactly when all that the roots lead to is
  there, bignums with byte buffers as their storage. -/
  marks_iff : (∃ marked, heap.mark = .ok marked) ↔ heap.Intact
  faulty_iff : (∃ error, heap.Fault error) ↔ ¬heap.Intact
  /-- Where something is missing, the collection fails with a fault of what the
  roots lead to, and the heap is what it was. -/
  refuses : ¬heap.Intact →
    ∃ error, collect heap = .error error heap ∧ heap.Fault error
  /-- Once marking has come to its end, what is marked is compacted, and only
  the check that may follow can fail. -/
  compacts : ∀ marked, heap.mark = .ok marked →
    Ensures collect heap
      (fun _ after => after = heap.compact marked)
      fun error after => after = heap.compact marked ∧
        heap.config.checkAfterCollection = true ∧ after.check = .error error
  /-- Objects that the roots do not lead to are no reason to fail. -/
  collects_iff : (∃ stats after, collect heap = .ok stats after) ↔
    heap.Intact ∧
      (heap.config.checkAfterCollection = true → heap.TracedBignumsSound)

/-- In a soundly laid out heap, whatever its handles and digit pointers are, a
collection heeds what the roots lead to and nothing else. -/
theorem collect_heeds_reached {heap : Heap} (layout : heap.SoundLayout) :
    heap.HeedsReached := by
  have marks_iff : (∃ marked, heap.mark = .ok marked) ↔ heap.Intact :=
    exists_mark_eq_ok_iff.trans intact_iff_traceable.symm
  have refuses : ¬heap.Intact →
      ∃ error, collect heap = .error error heap ∧ heap.Fault error := by
    intro damaged
    cases outcome : heap.mark with
    | ok marked => exact absurd (marks_iff.mp ⟨marked, outcome⟩) damaged
    | error error =>
      exact ⟨error, collect_of_mark_eq_error outcome,
        fault_of_mark_eq_error outcome⟩
  refine ⟨marks_iff, ⟨?_, ?_⟩, refuses, ?_, layout.exists_collect_eq_ok_iff⟩
  · rintro ⟨_, fault⟩
    exact fault.not_intact
  · intro damaged
    obtain ⟨error, _, fault⟩ := refuses damaged
    exact ⟨error, fault⟩
  · intro marked outcome
    refine (ensures_collect_of_mark_eq_ok outcome).mono ?_ ?_
    · exact fun _ _ returned => returned.1
    · exact fun _ _ failed => failed

/-- An array and a box in a circle and a bignum, all sound, above an array of
a dangling handle and a bignum that claims to have its digits in that array. No
root leads to the last two. -/
def damagedHeap : Heap where
  config := {}
  objects := {
    entries := [
      (0x10000, .array [.pointer (Handle.ofAddress 0x20000)]),
      (0x1000c, .bigInteger
        { used := 9, capacity := 1,
          storage := some ⟨Handle.ofAddress 0x10000, 3⟩ }),
      (0x10020, .array [.pointer (Handle.ofAddress 0x1002c)]),
      (0x1002c, .mutableBox (.pointer (Handle.ofAddress 0x10020))),
      (0x10034, .blob (Bytes.ofList [5, 0, 0, 0])),
      (0x10040, .bigInteger
        { used := 1, capacity := 1,
          storage := some (.startOf (Handle.ofAddress 0x10034)) })]
    ascending := by simp [Ascending] }
  pointer := 0x10054
  roots :=
    [some (Handle.ofAddress 0x10020), none, some (Handle.ofAddress 0x10040)]
  lastLive := 0
  allocated := 0x54

/-- The same objects, with a root that leads to the damaged ones. -/
def damagedRootHeap : Heap :=
  { damagedHeap with roots := [some (Handle.ofAddress 0x1000c)] }

/-- Damage that no root leads to does no harm, though the heap is checked
after the collection; damage that a root leads to stops a collection. -/
theorem damagedHeap_heeds :
    damagedHeap.SoundLayout ∧ damagedHeap.check ≠ .ok () ∧
      damagedHeap.config.checkAfterCollection = true ∧
      (∃ stats after, collect damagedHeap = .ok stats after) ∧
      damagedHeap.Intact ∧ damagedHeap.TracedBignumsSound ∧
      damagedRootHeap.SoundLayout ∧
      ∃ error, collect damagedRootHeap = .error error damagedRootHeap ∧
        damagedRootHeap.Fault error := by
  have layout : damagedHeap.SoundLayout := by decide
  have heeds := collect_heeds_reached layout
  have collected : HeapM.returns collect damagedHeap = true := by
    decide +kernel
  have exists_ok := HeapM.exists_eq_ok collected
  obtain ⟨intact, bignums⟩ := heeds.collects_iff.mp exists_ok
  have rootLayout : damagedRootHeap.SoundLayout := by decide
  have rootHeeds := collect_heeds_reached rootLayout
  have damaged : ¬damagedRootHeap.Intact := by
    intro rootIntact
    obtain ⟨marked, outcome⟩ := rootHeeds.marks_iff.mpr rootIntact
    have failed : damagedRootHeap.mark =
        .error (.heapCheck 0x1000c (.storageTag .array)) := by
      decide +kernel
    cases outcome.symm.trans failed
  exact ⟨layout, by decide, rfl, exists_ok, intact, bignums rfl, rootLayout,
    rootHeeds.refuses damaged⟩

end Heap

end ManagedHeap
