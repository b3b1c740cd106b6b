import ManagedHeap.Proofs.Heap.Evolution

/-!
# Payloads and their addresses

The payload of a byte buffer stands apart from all other payloads and from
what is no payload, so the address at which it starts is enough to find the
buffer again (`ResolvesPayloads`). An empty buffer has no payload of its own:
where its payload would start, the next object stands or the free space
begins (`PacksEmptyBuffers`).
-/

namespace ManagedHeap

open PayloadPointer (headerSize startOf)

/-! ## Parts of objects -/

namespace Object

/-- The bytes of an object in front of its payload; an object that is no byte
buffer has no payload. -/
def fixedSize : Object → Nat
  | .blob _ => headerSize
  | object => object.size

private theorem headerSize_add_le_size {bytes : Bytes}
    (recorded : bytes.size ≤ maxAddress) :
    headerSize + bytes.size ≤ (Object.blob bytes).size := by
  rw [size_blob recorded, fullSize_blob]
  simp only [headerSize, blobWords, bytesToWords, wordSize, Positional.ceilDiv]
  omega

private theorem fixedSize_le_size (object : Object) :
    object.fixedSize ≤ object.size := by
  cases object with
  | blob bytes => exact Nat.mul_le_mul_left wordSize (Nat.le_add_right 2 _)
  | _ => exact Nat.le_refl _

theorem IsEmptyBuffer.size_eq {object : Object}
    (isEmpty : object.IsEmptyBuffer) : object.size = headerSize := by
  obtain ⟨bytes, rfl, noPayload⟩ := isEmpty
  simp only [size, sizeInWords, wordsBy, noPayload]
  rfl

end Object

namespace Heap

variable {heap before after : Heap}

/-- The address is one of the payload of the byte buffer at `buffer`. -/
def InPayload (heap : Heap) (buffer address : Nat) : Prop :=
  ∃ bytes, heap.objects.find? buffer = some (.blob bytes) ∧
    buffer + headerSize ≤ address ∧
    address < buffer + headerSize + bytes.size

/-- The address is one of the header or the fields of the object at
`start`. -/
def InFixedPart (heap : Heap) (start address : Nat) : Prop :=
  ∃ object, heap.objects.find? start = some object ∧
    start ≤ address ∧ address < start + object.fixedSize

/-- Objects that have an address in common are the same. -/
theorem Tidy.eq_of_overlap (tidy : heap.Tidy) {left right address : Nat}
    {object other : Object}
    (foundLeft : heap.objects.find? left = some object)
    (foundRight : heap.objects.find? right = some other)
    (inLeft : left ≤ address ∧ address < left + object.size)
    (inRight : right ≤ address ∧ address < right + other.size) :
    left = right := by
  by_contra different
  have apart := tidy.layout.apart
    (left, object) (Store.find?_eq_some_iff.mp foundLeft)
    (right, other) (Store.find?_eq_some_iff.mp foundRight) different
  simp only [Apart] at apart
  omega

theorem Tidy.payloads_apart (tidy : heap.Tidy)
    (records : heap.RecordsLengths) {left right address : Nat}
    (inLeft : heap.InPayload left address)
    (inRight : heap.InPayload right address) : left = right := by
  obtain ⟨leftBytes, foundLeft, afterLeft, beforeLeft⟩ := inLeft
  obtain ⟨rightBytes, foundRight, afterRight, beforeRight⟩ := inRight
  have leftFits := Object.headerSize_add_le_size (records foundLeft)
  have rightFits := Object.headerSize_add_le_size (records foundRight)
  have inLeft :
      left ≤ address ∧ address < left + (Object.blob leftBytes).size := by
    omega
  have inRight :
      right ≤ address ∧ address < right + (Object.blob rightBytes).size := by
    omega
  exact tidy.eq_of_overlap foundLeft foundRight inLeft inRight

theorem Tidy.not_inFixedPart (tidy : heap.Tidy)
    (records : heap.RecordsLengths) {buffer start address : Nat}
    (inPayload : heap.InPayload buffer address) :
    ¬heap.InFixedPart start address := by
  intro inFixed
  obtain ⟨bytes, foundBuffer, afterHeader, beforeEnd⟩ := inPayload
  obtain ⟨object, foundObject, afterStart, beforePayload⟩ := inFixed
  have bufferFits := Object.headerSize_add_le_size (records foundBuffer)
  have objectFits := object.fixedSize_le_size
  have inBuffer :
      buffer ≤ address ∧ address < buffer + (Object.blob bytes).size := by
    omega
  have inObject : start ≤ address ∧ address < start + object.size := by
    omega
  have same : buffer = start :=
    tidy.eq_of_overlap foundBuffer foundObject inBuffer inObject
  -- A byte buffer has nothing fixed but its header.
  rw [same, foundObject] at foundBuffer
  obtain rfl := Option.some.inj foundBuffer
  simp only [Object.fixedSize] at beforePayload
  omega

/-- A payload ends within the address range, so that its length, its start and
every position in it are 32-bit numbers. -/
theorem Tidy.payload_le (tidy : heap.Tidy) (records : heap.RecordsLengths)
    {buffer : Handle} {bytes : Bytes}
    (found : heap.objects.find? buffer.address = some (.blob bytes)) :
    (startOf buffer).address + bytes.size ≤ maxAddress := by
  have member := Store.find?_eq_some_iff.mp found
  have starts := tidy.layout.above_base _ member
  have ends := tidy.layout.below_pointer _ member
  have fits := Object.headerSize_add_le_size (records found)
  have positive := (Object.blob bytes).size_pos
  have pointer_le := tidy.pointer_le
  have limit := heap.config.heapLimit.toNat_lt
  simp only [PayloadPointer.address, startOf, maxAddress] at starts ends ⊢
  omega

/-! ## Addresses and buffers -/

private theorem ofAddress?_address (buffer : Handle) :
    PayloadPointer.ofAddress? (startOf buffer).address =
      some (startOf buffer) := by
  have bound := buffer.address_lt
  simp [PayloadPointer.ofAddress?, PayloadPointer.address, startOf,
    Handle.ofAddress?, bound]

private theorem address_of_ofAddress? {address : Nat} {pointer : PayloadPointer}
    (isStart : PayloadPointer.ofAddress? address = some pointer) :
    pointer = startOf pointer.buffer ∧
      pointer.buffer.address + headerSize = address := by
  unfold PayloadPointer.ofAddress? at isStart
  split at isStart
  · rename_i above
    obtain ⟨buffer, isHandle, rfl⟩ := Option.map_eq_some_iff.mp isStart
    unfold Handle.ofAddress? at isHandle
    split at isHandle
    · obtain rfl := Option.some.inj isHandle
      exact ⟨rfl, Nat.sub_add_cancel above⟩
    · cases isHandle
  · cases isStart

/-- What stands one header below an address decides what the address is. -/
theorem payloadPointerAt_of_found {handle : Handle} {object : Object}
    (found : heap.objects.find? handle.address = some object) :
    heap.payloadPointerAt (startOf handle).address =
      if object.tag = .blob then
        .ok (startOf handle)
      else
        .error (.tagMismatch .blob object.tag) := by
  have isTag : heap.tag (startOf handle).buffer = .ok object.tag := by
    show (heap.find handle).map Object.tag = _
    rw [find_eq_ok_iff.mpr found]
    rfl
  rw [payloadPointerAt, ofAddress?_address]
  dsimp only
  rw [isTag]
  by_cases isBlob : object.tag = .blob
  · rw [if_pos isBlob, isBlob]
  · rw [if_neg isBlob]
    cases object with
    | blob bytes => exact absurd rfl isBlob
    | _ => rfl

private theorem payloadPointerAt_of_missing {address : Nat}
    (missing : ∀ start object, heap.objects.find? start = some object →
      start + headerSize ≠ address) :
    ∃ raw, heap.payloadPointerAt address = .error (.invalidHandle raw) := by
  unfold payloadPointerAt
  cases isStart : PayloadPointer.ofAddress? address with
  | none => exact ⟨address, rfl⟩
  | some pointer =>
    obtain ⟨_, below⟩ := address_of_ofAddress? isStart
    have nothing : heap.objects.find? pointer.buffer.address = none := by
      cases found : heap.objects.find? pointer.buffer.address with
      | none => rfl
      | some object => exact absurd below (missing _ object found)
    refine ⟨pointer.buffer.raw, ?_⟩
    simp [tag, find, nothing, Except.map]

/-- Only a payload start leads to a buffer, and to its own. -/
theorem exists_blob_of_payloadPointerAt {address : Nat}
    {pointer : PayloadPointer}
    (resolved : heap.payloadPointerAt address = .ok pointer) :
    pointer = startOf pointer.buffer ∧ ∃ bytes,
      heap.objects.find? pointer.buffer.address = some (.blob bytes) := by
  unfold payloadPointerAt at resolved
  split at resolved
  · cases resolved
  · rename_i start isStart
    split at resolved
    · rename_i isBlob
      obtain rfl := Except.ok.inj resolved
      obtain ⟨object, found, isTag⟩ := Except.map_eq_ok_iff.mp isBlob
      refine ⟨(address_of_ofAddress? isStart).1, ?_⟩
      cases object with
      | blob bytes => exact ⟨bytes, find_eq_ok_iff.mp found⟩
      | _ => cases isTag
    · cases resolved
    · cases resolved

/-! ## Empty buffers -/

/-- Behind an empty buffer the next object stands, or the free space
begins. -/
def PacksEmptyBuffers (heap : Heap) : Prop :=
  ∀ address object, heap.objects.find? address = some object →
    object.IsEmptyBuffer →
      address + object.size = heap.pointer ∨
        ∃ next, heap.objects.find? (address + object.size) = some next

theorem packsEmptyBuffers_empty (config : Config) :
    (Heap.empty config).PacksEmptyBuffers :=
  fun _ _ found => nomatch found

theorem PacksEmptyBuffers.push (packs : heap.PacksEmptyBuffers)
    (object : Object) : (heap.push object).PacksEmptyBuffers := by
  intro address present found isEmpty
  rw [find?_push] at found
  by_cases isNew : address = heap.pointer
  · rw [if_pos isNew] at found
    obtain rfl := Option.some.inj found
    exact Or.inl (congrArg (· + object.size) isNew)
  · rw [if_neg isNew] at found
    right
    rw [find?_push]
    by_cases atEnd : address + present.size = heap.pointer
    · exact ⟨object, if_pos atEnd⟩
    · rw [if_neg atEnd]
      exact (packs address present found isEmpty).resolve_left atEnd

theorem PacksEmptyBuffers.place (packs : heap.PacksEmptyBuffers)
    {handle : Handle} {old new : Object}
    (found : heap.objects.find? handle.address = some old)
    (yields : old.YieldsTo new) :
    (heap.place handle new).PacksEmptyBuffers := by
  intro address present presentFound isEmpty
  have next_kept : ∀ {next}, (∃ object, heap.objects.find? next = some object) →
      ∃ object, (heap.place handle new).objects.find? next = some object := by
    intro next held
    rw [find?_place]
    by_cases atHandle : next = handle.address
    · exact ⟨new, if_pos atHandle⟩
    · rw [if_neg atHandle]
      exact held
  rw [find?_place] at presentFound
  by_cases atHandle : address = handle.address
  · rw [if_pos atHandle] at presentFound
    obtain rfl := Option.some.inj presentFound
    have wasEmpty := yields.empty isEmpty
    have sameSize : new.size = old.size :=
      isEmpty.size_eq.trans wasEmpty.size_eq.symm
    rw [atHandle, sameSize]
    exact (packs handle.address old found wasEmpty).imp_right next_kept
  · rw [if_neg atHandle] at presentFound
    exact (packs address present presentFound isEmpty).imp_right next_kept

theorem Evolves.packsEmptyBuffers
    (evolves : Evolves Object.YieldsTo before after)
    (packs : before.PacksEmptyBuffers) : after.PacksEmptyBuffers := by
  induction evolves with
  | refl => exact packs
  | push _ _ inductionHypothesis => exact inductionHypothesis.push _
  | place _ found yields inductionHypothesis =>
    exact inductionHypothesis.place found yields
  | withRoots _ _ inductionHypothesis => exact inductionHypothesis

/-- Packed entries follow each other without gaps. -/
theorem end_of_mem_packEntries {change : Handle → Handle} {target : Nat}
    {entries : List (Nat × Object)} {entry : Nat × Object}
    (member : entry ∈ Store.packEntries change target entries) :
    entry.1 + entry.2.size = target + Store.totalSize entries ∨
      ∃ next, (entry.1 + entry.2.size, next) ∈
        Store.packEntries change target entries := by
  induction entries generalizing target with
  | nil => cases member
  | cons first rest inductionHypothesis =>
    obtain ⟨address, object⟩ := first
    rw [Store.totalSize_cons]
    simp only [Store.packEntries, List.mem_cons] at member ⊢
    rcases member with rfl | inRest
    · rw [Object.size_relocate]
      cases rest with
      | nil => exact Or.inl rfl
      | cons second others =>
        exact Or.inr ⟨second.2.relocate change, Or.inr List.mem_cons_self⟩
    · rcases inductionHypothesis inRest with atEnd | next
      · exact Or.inl (by omega)
      · obtain ⟨object, inPacked⟩ := next
        exact Or.inr ⟨object, Or.inr inPacked⟩

/-- A compaction leaves no gaps, behind empty buffers or elsewhere. -/
theorem packsEmptyBuffers_compact (heap : Heap) (marked : List Nat) :
    (heap.compact marked).PacksEmptyBuffers := by
  intro address object found _
  have packed := end_of_mem_packEntries (Store.find?_eq_some_iff.mp found)
  refine packed.imp id fun next => ?_
  obtain ⟨object, inPacked⟩ := next
  exact ⟨object, Store.find?_eq_some_iff.mpr inPacked⟩

/-! ## The address of a payload -/

/-- Payloads can be told by their addresses, those of empty buffers
included. -/
structure ResolvesPayloads (heap : Heap) : Prop where
  /-- No address is in two payloads. -/
  payloads_apart : ∀ left right address, heap.InPayload left address →
    heap.InPayload right address → left = right
  /-- No address of a payload is in a header or a field. -/
  payloads_only : ∀ buffer start address, heap.InPayload buffer address →
    ¬heap.InFixedPart start address
  /-- Payloads start and end within the address range. -/
  payload_le : ∀ buffer bytes,
    heap.objects.find? buffer.address = some (.blob bytes) →
      (startOf buffer).address + bytes.size ≤ maxAddress
  /-- Different buffers have different payload starts. -/
  starts_apart : ∀ left right, (startOf left).address =
    (startOf right).address → left = right
  /-- The payload start of an empty buffer is the address of the next
  object. -/
  empty_next : ∀ buffer bytes,
    heap.objects.find? buffer.address = some (.blob bytes) →
      bytes.size = 0 → (startOf buffer).address = heap.pointer ∨
        ∃ next, heap.objects.find? (startOf buffer).address = some next
  /-- The payload start of a buffer leads to that buffer. -/
  resolves : ∀ buffer bytes,
    heap.objects.find? buffer.address = some (.blob bytes) →
      heap.payloadPointerAt (startOf buffer).address = .ok (startOf buffer)
  /-- An address above an object that is no byte buffer is refused for its
  tag. -/
  mismatches : ∀ start object, heap.objects.find? start = some object →
    object.tag ≠ .blob →
      heap.payloadPointerAt (start + headerSize) =
        .error (.tagMismatch .blob object.tag)
  /-- An address that stands above no object is refused as no handle. -/
  invalid : ∀ address, (∀ start object,
    heap.objects.find? start = some object → start + headerSize ≠ address) →
      ∃ raw, heap.payloadPointerAt address = .error (.invalidHandle raw)

theorem Tidy.resolvesPayloads (tidy : heap.Tidy)
    (records : heap.RecordsLengths) (packs : heap.PacksEmptyBuffers) :
    heap.ResolvesPayloads where
  payloads_apart := fun _ _ _ => tidy.payloads_apart records
  payloads_only := fun _ _ _ => tidy.not_inFixedPart records
  payload_le := fun _ _ => tidy.payload_le records
  starts_apart := by
    intro left right same
    simp only [PayloadPointer.address, startOf] at same
    exact Handle.ext (by omega)
  empty_next := by
    intro buffer bytes found noPayload
    have isEmpty : Object.IsEmptyBuffer (.blob bytes) :=
      ⟨bytes, rfl, noPayload⟩
    have packed := packs buffer.address (.blob bytes) found isEmpty
    rw [isEmpty.size_eq] at packed
    exact packed
  resolves := fun _ _ found => payloadPointerAt_of_found found
  mismatches := by
    intro start object found noBlob
    obtain ⟨handle, rfl⟩ :=
      tidy.exists_handle (Store.find?_eq_some_iff.mp found)
    exact (payloadPointerAt_of_found found).trans (if_neg noBlob)
  invalid := fun _ missing => payloadPointerAt_of_missing missing

end Heap

end ManagedHeap
