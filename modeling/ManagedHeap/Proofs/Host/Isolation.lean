import ManagedHeap.Proofs.Heap.Carrying
import ManagedHeap.Proofs.Host.Soundness

/-!
# What calls leave alone

A call that asks for space leaves older objects and the root table as they
were, answered or failed, and no two bignum objects have the same digit
buffer. So the integer of a bignum object stays the same whatever is called
later, as long as its object is there (`reached_isolates`). Collections move
objects; `Call.follow` says where to.
-/

namespace ManagedHeap

namespace Heap

variable {heap after : Heap} {handle left right : Handle} {value : Int}

/-! ## Integers and changes elsewhere -/

/-- What is written over the digits of one bignum leaves the integers of all
others. -/
theorem Regular.integer_of_rewrites {number : Bignum} (regular : heap.Regular)
    (found : heap.objects.find? left.address = some (.bigInteger number))
    (rewrites : Rewrites number.Owns heap after)
    (different : left.address ≠ right.address)
    (integer : heap.Integer right value) :
    after.Integer right value := by
  obtain ⟨other, otherFound, read⟩ := integer
  have notBuffer : ¬number.Owns right.address := by
    intro owns
    obtain ⟨bytes, blob⟩ := (regular.bignums found).exists_blob owns
    cases otherFound.symm.trans blob
  refine ⟨other, rewrites.kept otherFound notBuffer, ?_⟩
  refine (value_congr fun {buffer} owns => ?_).trans read
  obtain ⟨bytes, blob⟩ := (regular.bignums otherFound).exists_blob owns
  have unshared : ¬number.Owns buffer := fun shared =>
    different (regular.unshared found otherFound shared owns)
  rw [blob, rewrites.kept blob unshared]

end Heap

/-! ## Calls that ask for space -/

namespace Call

variable {heap : Heap} {handle later : Handle} {cell : Cell}

/-- A call that asks for space: its result is a new object or new storage. -/
def Allocates : Call → Prop
  | .identityToBlob _ => True
  | .identityOfBlob _ => True
  | .identityOfBase32 _ => True
  | .textOfString _ => True
  | .version => True
  | .blobIterator _ => True
  | .ofUInt32 _ => True
  | .ofInt32 _ => True
  | .ofUInt64 _ => True
  | .ofInt64 _ => True
  | .ofDecimal _ => True
  | .binary .. => True
  | .neg _ => True
  | .abs _ => True
  | .shiftLeft .. => True
  | .calloc .. => True
  | .realloc .. => True
  | _ => False

theorem Allocates.not_changesInPlace {call : Call}
    (allocates : call.Allocates) : ¬call.ChangesInPlace := by
  cases call <;> simp_all [Allocates, ChangesInPlace]

theorem Allocates.admissible {call : Call} (allocates : call.Allocates) :
    call.Admissible heap := by
  cases call <;> trivial

/-- What a call ensures whichever way it ends holds of the heap after it. -/
theorem heapAfter_of_ensures {call : Call} {holds : Heap → Prop}
    (ensured : Ensures call.perform heap (fun _ after => holds after)
      fun _ after => holds after) :
    holds (call.heapAfter heap) := by
  unfold heapAfter
  cases outcome : call.perform heap with
  | ok answer after => exact ensured.of_ok outcome
  | error error after => exact ensured.of_error outcome

/-- Whether it is answered or fails part way, a call that does not change
objects in place leaves all of them as they were. -/
theorem grows_heapAfter (call : Call) (regular : heap.Regular)
    (adds : ¬call.ChangesInPlace) : heap.Grows (call.heapAfter heap) :=
  heapAfter_of_ensures <|
    (call.onlyAdds_perform regular adds).mono
      (fun _ _ added => added.2) fun _ _ added => added.2

/-! ## Following an object -/

/-- The call runs a collection. -/
def collects (heap : Heap) : Call → Bool
  | .collect => true
  | .scheduleCollect => heap.shouldCollect
  | _ => false

/-- The handle of the same object after a call. Only a collection moves
objects, and it drops those that the roots do not reach. -/
def follow (call : Call) (heap : Heap) (handle : Handle) : Option Handle :=
  if call.collects heap then
    match heap.mark with
    | .ok marked =>
      if handle.address ∈ marked then
        some ((heap.forwarding marked).apply handle)
      else
        none
    | .error _ => none
  else
    some handle

/-- What a collecting call leaves is the reached part of the heap, packed. -/
theorem exists_heapAfter_eq_compact {call : Call} (regular : heap.Regular)
    (collects : call.collects heap = true) :
    ∃ marked, heap.mark = .ok marked ∧
      (∀ {address}, address ∈ marked ↔ heap.Reaches address) ∧
      call.heapAfter heap = heap.compact marked := by
  obtain ⟨marked, stats, marks, outcome, collected⟩ := regular.sound.collect_eq
  have performed : Ensures call.perform heap
      (fun _ after => after = heap.compact marked)
      fun _ after => after = heap.compact marked := by
    cases call with
    | collect => exact ensures_map.mpr (Ensures.intro collected rfl)
    | scheduleCollect =>
      have due : heap.shouldCollect = true := collects
      refine ensures_map.mpr ?_
      rw [Heap.scheduleCollect, ensures_bind, ensures_get, if_pos due]
      exact ensures_bind.mpr (Ensures.intro collected rfl)
    | _ => cases collects
  exact ⟨marked, outcome, marks, heapAfter_of_ensures performed⟩

/-- A scheduled collection that is not due changes nothing. -/
theorem heapAfter_scheduleCollect (notDue : heap.shouldCollect = false) :
    heapAfter .scheduleCollect heap = heap := by
  have performed : Ensures (perform .scheduleCollect) heap
      (fun _ after => after = heap) fun _ after => after = heap := by
    refine ensures_map.mpr ?_
    rw [Heap.scheduleCollect, ensures_bind, ensures_get, notDue]
    rfl
  exact heapAfter_of_ensures performed

/-- What a call may do to a heap when it runs no collection. -/
inductive Effect (heap : Heap) : Call → Heap → Prop where
  | grows {call : Call} {after : Heap} (grows : heap.Grows after) :
      Effect heap call after
  | advances {iterator buffer : Handle} {position : UInt32}
      (array : heap.objects.find? iterator.address =
        some (BlobIterator.object buffer position)) :
      Effect heap (.iteratorNext iterator)
        (heap.place iterator (BlobIterator.object buffer (position + 1)))
  | addsRoot (handle : Handle) :
      Effect heap (.addRoot handle)
        { heap with roots := (Roots.add handle heap.roots).2 }
  | removesRoot (slot : RootSlot) :
      Effect heap (.removeRoot slot)
        { heap with roots := Roots.remove heap.roots slot }

theorem effect_heapAfter {call : Call} (regular : heap.Regular)
    (stays : call.collects heap = false) :
    Effect heap call (call.heapAfter heap) := by
  by_cases inPlace : call.ChangesInPlace
  · cases call with
    | iteratorNext iterator =>
      have performed : Ensures (perform (.iteratorNext iterator)) heap
          (fun _ after => Effect heap (.iteratorNext iterator) after)
          fun _ after => Effect heap (.iteratorNext iterator) after := by
        refine ensures_map.mpr ?_
        rw [BlobIterator.next, ensures_bind, ensures_inspect]
        refine ⟨?_, fun _ _ => .grows (.refl _ _)⟩
        rintro ⟨byte, advanced⟩ read
        obtain ⟨buffer, position, array, rfl⟩ :=
          BlobIterator.exists_of_current_eq_ok read
        exact .advances array
      exact heapAfter_of_ensures performed
    | addRoot handle => exact .addsRoot handle
    | removeRoot slot => exact .removesRoot slot
    | collect => cases stays
    | scheduleCollect =>
      rw [heapAfter_scheduleCollect stays]
      exact .grows (.refl _ _)
    | _ => exact inPlace.elim
  · exact .grows (call.grows_heapAfter regular inPlace)

/-- A call that runs no collection leaves every cell where it is, save that
of the iterator that it moves on. -/
theorem denotes_heapAfter {call : Call} (regular : heap.Regular)
    (stays : call.collects heap = false)
    (unmoved : call = .iteratorNext handle → cell.tag ≠ .array)
    (denotes : heap.Denotes handle cell) :
    (call.heapAfter heap).Denotes handle cell := by
  have effect := effect_heapAfter regular stays
  generalize call.heapAfter heap = after at effect ⊢
  cases effect with
  | grows grows => exact denotes.grows regular grows
  | addsRoot root => exact denotes.withRoots _
  | removesRoot slot => exact denotes.withRoots _
  | @advances iterator buffer position array =>
    refine BlobIterator.denotes_advance denotes regular array ?_ _
    intro same
    obtain ⟨object, found, isTag⟩ := denotes.exists_object
    rw [same, array] at found
    have isArray : Tag.array = cell.tag := by
      rw [← isTag, ← Option.some.inj found]
      rfl
    have isIterator : iterator = handle := Handle.ext same.symm
    exact unmoved (congrArg _ isIterator) isArray.symm

/-- The cell of an object goes with it, also through a collection. -/
theorem denotes_follow {call : Call} (regular : heap.Regular)
    (followed : call.follow heap handle = some later)
    (unmoved : call = .iteratorNext handle → cell.tag ≠ .array)
    (denotes : heap.Denotes handle cell) :
    (call.heapAfter heap).Denotes later cell := by
  unfold follow at followed
  split at followed
  · rename_i collects
    obtain ⟨marked, outcome, marks, after⟩ :=
      exists_heapAfter_eq_compact regular collects
    rw [outcome] at followed
    dsimp only at followed
    split at followed
    · rename_i inMarked
      obtain rfl := Option.some.inj followed
      rw [after]
      exact denotes.compact regular.tidy.layout marks (marks.mp inMarked)
    · cases followed
  · rename_i stays
    obtain rfl := Option.some.inj followed
    exact denotes_heapAfter regular (by simpa using stays) unmoved denotes

end Call

/-! ## Runs -/

namespace Session

variable {config : Config} {host : Host} {session : Session}

/-- Calls that may follow a session: each makes roots of existing objects
only. -/
def Admits (session : Session) : List Call → Prop
  | [] => True
  | call :: rest =>
    call.Admissible session.heap ∧ (session.invoke call).2.Admits rest

/-- The handle of the same object after some calls. -/
def follow (session : Session) (handle : Handle) : List Call → Option Handle
  | [] => some handle
  | call :: rest => do
    let next ← call.follow session.heap handle
    (session.invoke call).2.follow next rest

theorem regular_invoke {call : Call} (regular : session.heap.Regular)
    (admissible : call.Admissible session.heap) :
    (session.invoke call).2.heap.Regular := by
  rw [heap_invoke]
  exact call.regular_heapAfter regular admissible

theorem regular_invokeAll {calls : List Call} (regular : session.heap.Regular)
    (admits : session.Admits calls) :
    (session.invokeAll calls).2.heap.Regular := by
  induction calls generalizing session with
  | nil => exact regular
  | cons call rest inductionHypothesis =>
    exact inductionHypothesis (regular_invoke regular admits.1) admits.2

/-- The cell of an object that is no iterator goes with it through any
calls. -/
theorem denotes_follow {handle later : Handle} {cell : Cell}
    {calls : List Call} (regular : session.heap.Regular)
    (admits : session.Admits calls)
    (followed : session.follow handle calls = some later)
    (noIterator : cell.tag ≠ .array)
    (denotes : session.heap.Denotes handle cell) :
    (session.invokeAll calls).2.heap.Denotes later cell := by
  induction calls generalizing session handle with
  | nil =>
    obtain rfl := Option.some.inj followed
    exact denotes
  | cons call rest inductionHypothesis =>
    obtain ⟨admissible, restAdmits⟩ := admits
    obtain ⟨next, toNext, toLater⟩ := Option.bind_eq_some_iff.mp followed
    have restDenotes : (session.invoke call).2.heap.Denotes next cell := by
      rw [heap_invoke]
      exact Call.denotes_follow regular toNext (fun _ => noIterator) denotes
    exact inductionHypothesis (regular_invoke regular admissible) restAdmits
      toLater restDenotes

/-- In every reached heap: a call that asks for space changes neither an older
object nor the roots and adds objects above the heap pointer only, answered or
trapped; no two bignum objects have the same digit buffer; what is written to
the digits of one leaves the integers of the others; and the integer of a
bignum object is the same after any calls that it outlives. -/
theorem reached_isolates (reached : Reached config host session) :
    (∀ call : Call, call.Allocates →
      session.heap.Grows (session.invoke call).2.heap) ∧
    (∀ left right leftNumber rightNumber buffer,
      session.heap.objects.find? left = some (.bigInteger leftNumber) →
      session.heap.objects.find? right = some (.bigInteger rightNumber) →
      leftNumber.Owns buffer → rightNumber.Owns buffer → left = right) ∧
    (∀ (left right : Handle) (number : Bignum) (value : Int) (after : Heap),
      session.heap.objects.find? left.address = some (.bigInteger number) →
      Heap.Rewrites number.Owns session.heap after →
      left.address ≠ right.address → session.heap.Integer right value →
      after.Integer right value) ∧
    ∀ (calls : List Call) (handle later : Handle) (value : Int),
      session.Admits calls → session.follow handle calls = some later →
      session.heap.Integer handle value →
      (session.invokeAll calls).2.heap.Integer later value := by
  have regular := reached.regular
  refine ⟨?_, ?_, ?_, ?_⟩
  · intro call allocates
    rw [heap_invoke]
    exact call.grows_heapAfter regular allocates.not_changesInPlace
  · intro left right leftNumber rightNumber buffer foundLeft foundRight
    exact regular.unshared foundLeft foundRight
  · intro left right number value after found rewrites different integer
    exact regular.integer_of_rewrites found rewrites different integer
  · intro calls handle later value admits followed integer
    have denotes : session.heap.Denotes handle (.integer value) := integer
    exact denotes_follow regular admits followed (by simp [Cell.tag]) denotes

/-- After a second division by zero all older objects are as they were, and a
collection that moves the dividend does not change its integer. -/
theorem trappedDivision_isolates :
    Reached {} .plain trappedDivision ∧
      trappedDivision.heap.Grows
        (trappedDivision.invoke (.binary .div (Handle.ofAddress 0x1002c)
          (Handle.ofAddress 0x10000))).2.heap ∧
      (trappedDivision.invokeAll
        [.collect, .neg (Handle.ofAddress 0x10000)]).2.heap.Integer
          (Handle.ofAddress 0x10000) (-7) := by
  have dividend :
      trappedDivision.heap.Integer (Handle.ofAddress 0x1002c) (-7) :=
    ⟨⟨1, 4, .negative, some (.startOf (Handle.ofAddress 0x10040))⟩,
      by decide +kernel, by decide +kernel⟩
  have moved :
      trappedDivision.follow (Handle.ofAddress 0x1002c)
        [.collect, .neg (Handle.ofAddress 0x10000)] =
          some (Handle.ofAddress 0x10000) := by
    decide +kernel
  obtain ⟨frames, _, _, keeps⟩ := reached_isolates reached_trappedDivision
  exact ⟨reached_trappedDivision, frames (.binary .div _ _) trivial,
    keeps _ _ _ _ ⟨trivial, trivial, trivial⟩ moved dividend⟩

end Session

end ManagedHeap
