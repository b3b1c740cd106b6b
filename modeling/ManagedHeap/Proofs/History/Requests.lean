import ManagedHeap.Proofs.History.Operations

/-!
# Requests for space over a history

Whatever was done to a heap, and whether it succeeded, a request for space is
refused exactly when the heap pointer and the bytes that it takes up add up to
more than the limit, and it is served with one more object at the heap pointer
(`afterAll_serves`). The sums are those of natural numbers, so no request is
served because a sum or a product runs over.

Byte buffers are measured before they are made. An object that is handed over
is measured by its length word, so the boundary is exact for objects that their
length words measure, and too low for a buffer of `2 ^ 32` bytes
(`longBuffer_served`).

What a served request rests on is that no object starts at the heap pointer or
above it. That holds on every heap that operations lead to, also where objects
have given way to larger ones and overlap.
-/

namespace ManagedHeap

namespace Heap

variable {heap before after : Heap}

/-! ## Vacant space -/

/-- No object starts at the heap pointer or above it. -/
def VacantAbove (heap : Heap) : Prop :=
  ∀ entry ∈ heap.objects.entries, entry.1 < heap.pointer

theorem vacantAbove_empty (config : Config) :
    (Heap.empty config).VacantAbove := by
  simp [VacantAbove, Heap.empty, Store.empty]

theorem VacantAbove.lt (vacant : heap.VacantAbove) {address : Nat}
    {object : Object} (found : heap.objects.find? address = some object) :
    address < heap.pointer :=
  vacant (address, object) (Store.find?_eq_some_iff.mp found)

theorem VacantAbove.find?_eq_none (vacant : heap.VacantAbove) {address : Nat}
    (above : heap.pointer ≤ address) : heap.objects.find? address = none := by
  cases found : heap.objects.find? address with
  | none => rfl
  | some object => exact absurd (vacant.lt found) (Nat.not_lt.mpr above)

theorem VacantAbove.entries_push (vacant : heap.VacantAbove)
    (object : Object) :
    (heap.push object).objects.entries =
      heap.objects.entries ++ [(heap.pointer, object)] :=
  Store.entries_insert_of_lt object vacant

theorem VacantAbove.push (vacant : heap.VacantAbove) (object : Object) :
    (heap.push object).VacantAbove := by
  have positive := object.size_pos
  intro entry member
  rw [vacant.entries_push object] at member
  show entry.1 < heap.pointer + object.size
  rcases List.mem_append.mp member with isOld | isNew
  · exact Nat.lt_add_right _ (vacant entry isOld)
  · obtain rfl := List.mem_singleton.mp isNew
    exact Nat.lt_add_of_pos_right positive

theorem VacantAbove.place (vacant : heap.VacantAbove) {handle : Handle}
    {old : Object} (found : heap.objects.find? handle.address = some old)
    (new : Object) :
    (heap.place handle new).VacantAbove := by
  intro entry member
  rcases Store.mem_insertEntry member with rfl | isOld
  · exact vacant (handle.address, old) (Store.find?_eq_some_iff.mp found)
  · exact vacant entry isOld

/-- Evolution keeps the space above the pointer vacant, whatever objects give
way to. -/
theorem Evolves.vacantAbove {replaces : Object → Object → Prop}
    (evolves : Evolves replaces before after)
    (vacant : before.VacantAbove) : after.VacantAbove := by
  induction evolves with
  | refl => exact vacant
  | push _ _ inductionHypothesis => exact inductionHypothesis.push _
  | place _ found _ inductionHypothesis =>
    exact inductionHypothesis.place found _
  | withRoots _ _ inductionHypothesis => exact inductionHypothesis

theorem vacantAbove_compact (heap : Heap) (marked : List Nat) :
    (heap.compact marked).VacantAbove :=
  fun _ member => (layout_compact heap marked).bounded.lt
    (Store.find?_eq_some_iff.mpr member)

/-- A collection keeps it vacant too, whether or not it returns. -/
theorem VacantAbove.ensures_collect (vacant : heap.VacantAbove) :
    Ensures collect heap (fun _ after => after.VacantAbove)
      fun _ after => after.VacantAbove := by
  refine (heap.ensures_collect).mono ?_ ?_
  · rintro _ _ ⟨marked, _, rfl, _⟩
    exact vacantAbove_compact heap marked
  · rintro _ _ (⟨_, rfl⟩ | ⟨marked, _, rfl, _⟩)
    · exact vacant
    · exact vacantAbove_compact heap marked

theorem VacantAbove.ensures_scheduleCollect (vacant : heap.VacantAbove) :
    Ensures scheduleCollect heap (fun _ after => after.VacantAbove)
      fun _ after => after.VacantAbove := by
  unfold scheduleCollect
  rw [ensures_bind, ensures_get]
  split
  · rw [ensures_bind]
    exact vacant.ensures_collect
  · exact vacant

end Heap

/-! ## Requests -/

/-- A request for space, by the type of what it returns. -/
inductive SpaceRequest : Type → Type where
  | alloc (object : Object) : SpaceRequest Handle
  | allocBlob (length : UInt32) : SpaceRequest Handle
  | allocBlobFrom (bytes : Bytes) : SpaceRequest Handle
  | calloc (count elementSize : UInt32) : SpaceRequest PayloadPointer

namespace SpaceRequest

variable {α : Type}

def perform : SpaceRequest α → HeapM α
  | .alloc object => Heap.alloc object
  | .allocBlob length => Heap.allocBlob length.toNat
  | .allocBlobFrom bytes => Heap.allocBlobFrom bytes
  | .calloc count elementSize => Heap.calloc count.toNat elementSize.toNat

/-- The object that a request asks for. -/
def object : SpaceRequest α → Object
  | .alloc object => object
  | .allocBlob length => .blob (Bytes.zeros length.toNat)
  | .allocBlobFrom bytes => .blob bytes
  | .calloc count elementSize =>
    .blob (Bytes.zeros (count.toNat * elementSize.toNat))

/-- What a request returns when its object is at `handle`. -/
def answer : SpaceRequest α → Handle → α
  | .alloc _, handle => handle
  | .allocBlob _, handle => handle
  | .allocBlobFrom _, handle => handle
  | .calloc .., handle => .startOf handle

/-- The bytes of a buffer of `length` bytes: two words, and its payload rounded
up to a word. -/
def bufferCost (length : Nat) : Nat :=
  4 * (2 + (length + 3) / 4)

/-- The bytes that a request takes up. -/
def cost : SpaceRequest α → Nat
  | .alloc object => object.fullSize
  | .allocBlob length => bufferCost length.toNat
  | .allocBlobFrom bytes => bufferCost bytes.size
  | .calloc count elementSize =>
    bufferCost (count.toNat * elementSize.toNat)

/-- The bytes that a refusal names: those that the request takes up, or those
of its payload alone when their number has more than 32 bits. -/
def namedCost : SpaceRequest α → Nat
  | .alloc object => object.size
  | .allocBlob length => bufferCost length.toNat
  | .allocBlobFrom bytes =>
    if bytes.size ≤ maxAddress then bufferCost bytes.size else bytes.size
  | .calloc count elementSize =>
    if count.toNat * elementSize.toNat ≤ maxAddress then
      bufferCost (count.toNat * elementSize.toNat)
    else
      count.toNat * elementSize.toNat

/-- An object that is handed over has no more in it than its length word says,
and no more words than 32 bits count. -/
def IsRecorded : SpaceRequest α → Prop
  | .alloc object =>
    object.size = object.fullSize ∧ object.wordsBy id ≤ maxAddress
  | _ => True

/-! ## One request -/

variable {heap : Heap} {request : SpaceRequest α}

theorem fullSize_object (request : SpaceRequest α) :
    request.object.fullSize = request.cost := by
  cases request with
  | alloc object => rfl
  | allocBlob length =>
    exact congrArg bufferCost (Bytes.size_zeros length.toNat)
  | allocBlobFrom bytes => rfl
  | calloc count elementSize => exact congrArg bufferCost (Bytes.size_zeros _)

theorem allots_perform (heap : Heap) (recorded : request.IsRecorded) :
    Heap.Allots request.perform heap request.object fun handle answer =>
      answer = request.answer handle := by
  cases request with
  | alloc object => exact Heap.allots_alloc heap object recorded.1
  | allocBlob length => exact Heap.allots_allocBlob heap length.toNat
  | allocBlobFrom bytes => exact Heap.allots_allocBlobFrom heap bytes
  | calloc count elementSize =>
    exact Heap.allots_calloc heap count.toNat elementSize.toNat

theorem runsOut_perform (recorded : request.IsRecorded)
    (noFit : ¬heap.Fits request.object) :
    Heap.RunsOut request.perform heap request.namedCost := by
  cases request with
  | alloc object =>
    refine Heap.runsOut_alloc ?_
    rwa [Heap.HasRoom, recorded.1]
  | allocBlob length =>
    have runsOut := Heap.runsOut_allocBlob noFit
    rwa [Object.fullSize_blob, Bytes.size_zeros] at runsOut
  | allocBlobFrom bytes => exact Heap.runsOut_allocBlobFrom noFit
  | calloc count elementSize =>
    have runsOut := Heap.runsOut_calloc noFit
    rwa [Object.fullSize_blob, Bytes.size_zeros] at runsOut

end SpaceRequest

namespace Heap

variable {α : Type} {heap : Heap}

/-- A heap with one object more, at the pointer and above all others, and with
nothing else changed. -/
structure Gains (before : Heap) (object : Object) (cost : Nat)
    (after : Heap) : Prop where
  entries : after.objects.entries =
    before.objects.entries ++ [(before.pointer, object)]
  pointer : after.pointer = before.pointer + cost
  allocated : after.allocated = before.allocated + cost
  config : after.config = before.config
  roots : after.roots = before.roots
  lastLive : after.lastLive = before.lastLive

/-- What a heap does with a request for space. -/
structure Serves (heap : Heap) (request : SpaceRequest α) : Prop where
  refused_iff :
    (∃ requested available after, request.perform heap =
        .error (.outOfMemory requested available) after) ↔
      heap.config.heapLimit.toNat < heap.pointer + request.cost
  /-- Where the limit is below the pointer, no bytes are left. -/
  refused : ∀ error after, request.perform heap = .error error after →
    error = .outOfMemory request.namedCost
      (heap.config.heapLimit.toNat - heap.pointer) ∧ after = heap
  served : heap.pointer + request.cost ≤ heap.config.heapLimit.toNat →
    ∃ handle after, request.perform heap = .ok (request.answer handle) after ∧
      handle.address = heap.pointer ∧
      heap.Gains request.object request.cost after

theorem VacantAbove.gains_push (vacant : heap.VacantAbove)
    (object : Object) :
    heap.Gains object object.size (heap.push object) where
  entries := vacant.entries_push object
  pointer := rfl
  allocated := rfl
  config := rfl
  roots := rfl
  lastLive := rfl

theorem VacantAbove.serves {request : SpaceRequest α}
    (vacant : heap.VacantAbove) (recorded : request.IsRecorded) :
    heap.Serves request := by
  have cost := request.fullSize_object
  have allots := SpaceRequest.allots_perform heap recorded
  have fits_iff : heap.Fits request.object ↔
      heap.pointer + request.cost ≤ heap.config.heapLimit.toNat := by
    rw [Fits, cost]
  refine ⟨⟨?_, ?_⟩, ?_, ?_⟩
  · rintro ⟨_, _, _, refused⟩
    obtain ⟨noFit, _, _⟩ := allots.of_error refused
    rw [fits_iff, Nat.not_le] at noFit
    exact noFit
  · intro beyond
    have noFit : ¬heap.Fits request.object :=
      fun fits => Nat.not_le.mpr beyond (fits_iff.mp fits)
    exact ⟨_, _, _, SpaceRequest.runsOut_perform recorded noFit⟩
  · intro error after failed
    obtain ⟨noFit, unchanged, _⟩ := allots.of_error failed
    have refused := SpaceRequest.runsOut_perform recorded noFit
    obtain ⟨rfl, _⟩ := EStateM.Result.error.inj (failed.symm.trans refused)
    exact ⟨rfl, unchanged⟩
  · intro below
    have fits := fits_iff.mpr below
    cases outcome : request.perform heap with
    | error error after => exact absurd fits (allots.of_error outcome).1
    | ok answer after =>
      obtain ⟨_, rfl, answers⟩ := allots.of_ok outcome
      have address := Handle.address_ofAddress fits.pointer_lt
      obtain rfl := answers _ address
      refine ⟨Handle.ofAddress heap.pointer, _, rfl, address, ?_⟩
      rw [← cost, ← fits.size_eq]
      exact vacant.gains_push request.object

end Heap

/-! ## Requests after any history -/

namespace History

variable {α : Type} {history : History}

theorem vacantAbove_after (vacant : history.heap.VacantAbove)
    (operation : Heap.Operation) :
    (history.after operation).heap.VacantAbove := by
  have keeps : Ensures operation.perform history.heap
      (fun _ after => after.VacantAbove)
      (fun _ after => after.VacantAbove) := by
    by_cases forced : operation = .call .collect
    · subst forced
      exact ensures_map.mpr vacant.ensures_collect
    by_cases scheduled : operation = .call .scheduleCollect
    · subst scheduled
      exact ensures_map.mpr vacant.ensures_scheduleCollect
    have evolves : Ensures operation.perform history.heap
        (fun _ after => Heap.Evolves (fun _ _ => True) history.heap after)
        (fun _ after => Heap.Evolves (fun _ _ => True) history.heap after) :=
      evolves_of_replaces (fun _ _ _ => trivial) operation.replaces_trivial
        forced scheduled
    exact evolves.mono (fun _ _ evolves => evolves.vacantAbove vacant)
      fun _ _ evolves => evolves.vacantAbove vacant
  unfold after
  cases outcome : operation.perform history.heap with
  | ok _ _ => exact keeps.of_ok outcome
  | error _ _ => exact keeps.of_error outcome

theorem vacantAbove_afterAll (vacant : history.heap.VacantAbove)
    (operations : List Heap.Operation) :
    (history.afterAll operations).heap.VacantAbove := by
  induction operations generalizing history with
  | nil => exact vacant
  | cons operation rest inductionHypothesis =>
    exact inductionHypothesis (vacantAbove_after vacant operation)

/-- After any operations on an empty heap, failed ones included, a request for
space is refused exactly when it does not fit below the limit, and then nothing
has changed; otherwise it adds the object that it asks for and nothing else. -/
theorem afterAll_serves (config : Config) (operations : List Heap.Operation)
    (request : SpaceRequest α) (recorded : request.IsRecorded) :
    ((start config).afterAll operations).heap.Serves request :=
  (vacantAbove_afterAll (Heap.vacantAbove_empty config) operations).serves
    recorded

theorem twoScalars_served :
    (SpaceRequest.alloc (.array [.scalar 1, .scalar 2])).IsRecorded ∧
    ∃ handle after,
      Heap.alloc (.array [.scalar 1, .scalar 2])
          ((start {}).afterAll [.allocBlob 10]).heap = .ok handle after ∧
        handle.address = 0x10014 ∧ after.pointer = 0x10024 := by
  have recorded :
      (SpaceRequest.alloc (.array [.scalar 1, .scalar 2])).IsRecorded := by
    refine ⟨rfl, ?_⟩
    decide
  have serves := afterAll_serves {} [.allocBlob 10] _ recorded
  have pointer :
      ((start {}).afterAll [.allocBlob 10]).heap.pointer = 0x10014 := by
    decide +kernel
  obtain ⟨handle, after, performed, address, gains⟩ := serves.served (by
    rw [pointer]
    decide +kernel)
  exact ⟨recorded, handle, after, performed, address.trans pointer,
    gains.pointer.trans (congrArg (· + 16) pointer)⟩

/-- A product of more than 32 bits is named in the refusal as it is. -/
example : Heap.RunsOut (SpaceRequest.calloc 65536 65537).perform
    ((start {}).afterAll [.allocBlob 10]).heap 4295032832 :=
  rfl

/-! ## Buffers too long for their length words -/

/-- A buffer of `2 ^ 32` bytes is handed over to a heap that it does not fit
into, and the heap pointer moves by 8 bytes. -/
theorem served_of_long {bytes : Bytes} (long : bytes.size = 2 ^ 32) :
    (start {}).heap.config.heapLimit.toNat <
      (start {}).heap.pointer +
        (SpaceRequest.alloc (.blob bytes)).cost ∧
    (∃ handle after,
      Heap.alloc (.blob bytes) (start {}).heap = .ok handle after ∧
        after.pointer = (start {}).heap.pointer + 8) ∧
    ¬(start {}).heap.Serves (.alloc (.blob bytes)) := by
  have size := Object.size_blob_of_long long
  have beyond : (start {}).heap.config.heapLimit.toNat <
      (start {}).heap.pointer + (SpaceRequest.alloc (.blob bytes)).cost := by
    have cost : (SpaceRequest.alloc (.blob bytes)).cost = 4294967304 :=
      congrArg SpaceRequest.bufferCost long
    rw [cost]
    decide
  have room : (start {}).heap.HasRoom (.blob bytes) := by
    rw [Heap.HasRoom, size]
    decide
  have served := Heap.alloc_eq_ok room
  refine ⟨beyond, ⟨_, _, served, congrArg (_ + ·) size⟩, fun serves => ?_⟩
  obtain ⟨_, _, _, refused⟩ := serves.refused_iff.mpr beyond
  cases served.symm.trans refused

theorem longBuffer_served :
    (start {}).heap.config.heapLimit.toNat <
      (start {}).heap.pointer +
        (SpaceRequest.alloc (.blob (Bytes.zeros (2 ^ 32)))).cost ∧
    (∃ handle after,
      Heap.alloc (.blob (Bytes.zeros (2 ^ 32))) (start {}).heap =
          .ok handle after ∧
        after.pointer = (start {}).heap.pointer + 8) ∧
    ¬(start {}).heap.Serves (.alloc (.blob (Bytes.zeros (2 ^ 32)))) :=
  served_of_long (Bytes.size_zeros _)

end History

end ManagedHeap
