import ManagedHeap.Proofs.Heap.Payloads
import ManagedHeap.Proofs.Host.Isolation

/-!
# Iteration over a run

An iterator returns the bytes of its buffer one after the other, whatever is
called in between: other iterators over the same buffer, requests for space,
arithmetic, and collections that move the iterator and the buffer
(`reached_iterates`). A root is enough to keep an iterator and to find it
again.
-/

namespace ManagedHeap

/-! ## Iterators part way -/

namespace Heap

variable {heap : Heap} {iterator : Handle} {content : Bytes}
  {returned : List UInt8}

/-- An iterator over `content` that has returned the bytes `returned`, the
first ones of it, and stands at the next. -/
structure Iterating (heap : Heap) (iterator : Handle) (content : Bytes)
    (returned : List UInt8) : Prop where
  in_order : returned <+: content.toList
  stands : ∃ position : UInt32, position.toNat = returned.length ∧
    heap.Denotes iterator (.iterator content position)

theorem Iterating.of_denotes
    (denotes : heap.Denotes iterator (.iterator content 0)) :
    heap.Iterating iterator content [] :=
  ⟨List.nil_prefix, 0, rfl, denotes⟩

theorem Iterating.eq_iff_length (iterating :
      heap.Iterating iterator content returned) :
    returned = content.toList ↔ content.size ≤ returned.length := by
  have shorter := iterating.in_order.length_le
  rw [Bytes.length_toList] at shorter
  constructor
  · intro whole
    have sameLength := congrArg List.length whole
    rw [Bytes.length_toList] at sameLength
    exact Nat.le_of_eq sameLength.symm
  · intro enough
    refine iterating.in_order.eq_of_length ?_
    rw [Bytes.length_toList]
    omega

theorem Iterating.isDone_eq (regular : heap.Regular)
    (iterating : heap.Iterating iterator content returned) :
    BlobIterator.isDone iterator heap =
      .ok (decide (returned = content.toList)) := by
  obtain ⟨position, isLength, denotes⟩ := iterating.stands
  have recorded : Object.lengthWord content.size = content.size := by
    obtain ⟨buffer, _, blob⟩ := denotes
    exact Object.lengthWord_of_le (regular.recorded blob)
  rw [BlobIterator.isDone_eq, denotes.iteration_eq]
  show Except.ok
    (decide (Object.lengthWord content.size ≤ position.toNat)) = _
  rw [recorded, isLength, decide_eq_decide.mpr iterating.eq_iff_length]

/-- A step returns the next byte, or is refused when all have been
returned. -/
theorem Iterating.next_cases (regular : heap.Regular)
    (iterating : heap.Iterating iterator content returned) :
    returned = content.toList ∧
        BlobIterator.next iterator heap = .error .iteratorExhausted heap ∨
      ∃ byte after, BlobIterator.next iterator heap = .ok byte after ∧
        after.Iterating iterator content (returned ++ [byte]) := by
  obtain ⟨⟨rest, whole⟩, position, isLength, buffer, array, blob⟩ := iterating
  have next := BlobIterator.next_eq array blob
  cases rest with
  | nil =>
    rw [List.append_nil] at whole
    have past : content.get? position.toNat = none := by
      rw [Bytes.get?_eq, isLength, whole]
      exact List.getElem?_eq_none (Nat.le_refl _)
    rw [BlobIterator.byteAt, past] at next
    exact Or.inl ⟨whole, next⟩
  | cons byte tail =>
    have atPosition : content.get? position.toNat = some byte := by
      rw [Bytes.get?_eq, isLength, ← whole]
      rw [List.getElem?_append_right (Nat.le_refl _), Nat.sub_self]
      rfl
    rw [BlobIterator.byteAt, atPosition] at next
    refine Or.inr ⟨byte, _, next, ⟨tail, ?_⟩, position + 1, ?_, buffer, ?_, ?_⟩
    · rw [← whole, List.append_assoc]
      rfl
    · have bound := regular.tidy.payload_le regular.recorded blob
      have shorter := congrArg List.length whole
      rw [List.length_append, List.length_cons, Bytes.length_toList] at shorter
      have one : (1 : UInt32).toNat = 1 := rfl
      rw [UInt32.toNat_add, List.length_append, List.length_singleton, isLength,
        one]
      simp only [maxAddress] at bound
      omega
    · exact find?_place_self ..
    · rw [find?_place_of_ne]
      · exact blob
      · intro same
        rw [same, array] at blob
        cases blob

end Heap

/-! ## Roots along calls -/

variable {session next : Session} {call : Call} {calls : List Call}
  {slot : RootSlot} {handle iterator later : Handle} {content : Bytes}
  {returned : List UInt8}

/-- An object that is a root is found in its slot after any call that does not
empty the slot, also when the call has moved it. -/
theorem Call.root_heapAfter {heap : Heap} (regular : heap.Regular)
    (filled : heap.root slot = some handle) (keeps : call ≠ .removeRoot slot) :
    ∃ later, call.follow heap handle = some later ∧
      (call.heapAfter heap).root slot = some later := by
  cases collects : call.collects heap with
  | false =>
    have stays : call.follow heap handle = some handle := by
      rw [follow, collects]
      rfl
    refine ⟨handle, stays, ?_⟩
    have effect := effect_heapAfter regular collects
    generalize call.heapAfter heap = after at effect ⊢
    cases effect with
    | grows grows =>
      rw [Heap.root, grows.roots]
      exact filled
    | advances array => exact filled
    | addsRoot root => exact Roots.find?_add filled
    | removesRoot removed =>
      have different : removed ≠ slot :=
        fun same => keeps (congrArg Call.removeRoot same)
      exact (Roots.find?_remove_of_ne different).trans filled
  | true =>
    obtain ⟨marked, outcome, marks, after⟩ :=
      exists_heapAfter_eq_compact regular collects
    have inMarked : handle.address ∈ marked :=
      marks.mpr (.root (Heap.mem_liveRoots_of_root filled))
    refine ⟨(heap.forwarding marked).apply handle, ?_, ?_⟩
    · rw [follow, if_pos collects, outcome]
      exact if_pos inMarked
    · rw [after, Heap.root_compact, filled]
      rfl

namespace Session

private theorem root_invokeAll (regular : session.heap.Regular)
    (admits : session.Admits calls)
    (filled : session.heap.root slot = some handle)
    (keeps : .removeRoot slot ∉ calls) :
    ∃ later, session.follow handle calls = some later ∧
      (session.invokeAll calls).2.heap.root slot = some later := by
  induction calls generalizing session handle with
  | nil => exact ⟨handle, rfl, filled⟩
  | cons call rest inductionHypothesis =>
    obtain ⟨admissible, restAdmits⟩ := admits
    have keepsFirst := List.ne_of_not_mem_cons keeps
    have keepsRest := List.not_mem_of_not_mem_cons keeps
    obtain ⟨middle, followed, filledAfter⟩ :=
      Call.root_heapAfter regular filled keepsFirst.symm
    rw [← heap_invoke] at filledAfter
    obtain ⟨later, followedRest, filledLater⟩ :=
      inductionHypothesis (regular_invoke regular admissible) restAdmits
        filledAfter keepsRest
    refine ⟨later, ?_, filledLater⟩
    rw [follow, followed]
    exact followedRest

end Session

/-! ## Steps -/

/-- The byte of an answered step. -/
def Outcome.byte? : Outcome Answer → Option UInt8
  | .returned (.byte value) => some value
  | _ => none

namespace Session

/-- The byte that a call returns if it is a step of the iterator. -/
def taken (session : Session) (iterator : Handle) (call : Call) : List UInt8 :=
  if call = .iteratorNext iterator then
    (session.invoke call).1.byte?.toList
  else
    []

/-- The bytes that the steps of one iterator return along some calls, for as
long as the iterator is there. -/
def yielded (session : Session) (iterator : Handle) : List Call → List UInt8
  | [] => []
  | call :: rest =>
    session.taken iterator call ++
      match call.follow session.heap iterator with
      | some later => (session.invoke call).2.yielded later rest
      | none => []

/-- A step returns the next byte. When all have been returned it is refused,
and the heap stays as it was. -/
theorem invoke_next_cases (regular : session.heap.Regular)
    (iterating : session.heap.Iterating iterator content returned) :
    returned = content.toList ∧
        session.invoke (.iteratorNext iterator) =
          session.trap Error.iteratorExhausted.message ∨
      ∃ byte after,
        session.invoke (.iteratorNext iterator) =
          (.returned (.byte byte), { session with heap := after }) ∧
        after.Iterating iterator content (returned ++ [byte]) := by
  rcases iterating.next_cases regular with
    ⟨whole, refused⟩ | ⟨byte, after, stepped, advanced⟩
  · have performed : (Call.iteratorNext iterator).perform session.heap =
        .error .iteratorExhausted session.heap := by
      simp only [Call.perform, Functor.map, EStateM.map, refused]
    exact Or.inl ⟨whole, invoke_of_error performed⟩
  · have performed : (Call.iteratorNext iterator).perform session.heap =
        .ok (.byte byte) after := by
      simp only [Call.perform, Functor.map, EStateM.map, stepped]
    exact Or.inr ⟨byte, after, invoke_of_ok performed rfl, advanced⟩

/-- After any call an iterator stands behind the bytes that it has returned
so far. -/
theorem iterating_invoke (regular : session.heap.Regular)
    (followed : call.follow session.heap iterator = some later)
    (iterating : session.heap.Iterating iterator content returned) :
    (session.invoke call).2.heap.Iterating later content
      (returned ++ session.taken iterator call) := by
  by_cases isStep : call = .iteratorNext iterator
  · subst isStep
    obtain rfl : iterator = later := Option.some.inj followed
    rw [taken, if_pos rfl]
    rcases invoke_next_cases regular iterating with
      ⟨_, trapped⟩ | ⟨byte, after, stepped, advanced⟩
    · rw [trapped]
      simpa only [trap, Host.trap, Outcome.byte?, Option.toList_none,
        List.append_nil] using iterating
    · rw [stepped]
      exact advanced
  · obtain ⟨inOrder, position, isLength, denotes⟩ := iterating
    rw [taken, if_neg isStep, List.append_nil, heap_invoke]
    have denotesAfter := Call.denotes_follow regular followed
      (fun same => absurd same isStep) denotes
    exact ⟨inOrder, position, isLength, denotesAfter⟩

private theorem iterating_invokeAll (regular : session.heap.Regular)
    (admits : session.Admits calls)
    (followed : session.follow iterator calls = some later)
    (iterating : session.heap.Iterating iterator content returned) :
    (session.invokeAll calls).2.heap.Iterating later content
      (returned ++ session.yielded iterator calls) := by
  induction calls generalizing session iterator returned with
  | nil =>
    obtain rfl := Option.some.inj followed
    rw [yielded, List.append_nil]
    exact iterating
  | cons call rest inductionHypothesis =>
    obtain ⟨admissible, restAdmits⟩ := admits
    obtain ⟨middle, toMiddle, toLater⟩ := Option.bind_eq_some_iff.mp followed
    rw [yielded, toMiddle, ← List.append_assoc]
    exact inductionHypothesis (regular_invoke regular admissible) restAdmits
      toLater (iterating_invoke regular toMiddle iterating)

/-! ## Whole runs -/

/-- Any number of steps is refused, and changes nothing in the heap. -/
def RefusesSteps (session : Session) (iterator : Handle) : Prop :=
  ∀ count,
    let steps := List.replicate count (.iteratorNext iterator)
    (session.invokeAll steps).1 =
        List.replicate count (.trapped Error.iteratorExhausted.message) ∧
      (session.invokeAll steps).2.heap = session.heap

private theorem refusesSteps_of_exhausted (regular : session.heap.Regular)
    (iterating : session.heap.Iterating iterator content content.toList) :
    session.RefusesSteps iterator := by
  intro count
  induction count generalizing session with
  | zero => exact ⟨rfl, rfl⟩
  | succ count inductionHypothesis =>
    rcases invoke_next_cases regular iterating with
      ⟨_, trapped⟩ | ⟨byte, _, _, advanced⟩
    · let message := Error.iteratorExhausted.message
      let informed : Session :=
        { session with host := session.host.record message }
      obtain ⟨outcomes, unchanged⟩ :=
        @inductionHypothesis informed regular iterating
      simp only [List.replicate_succ, invokeAll, trapped]
      exact ⟨congrArg _ outcomes, unchanged⟩
    · -- There is no byte behind the last one.
      have longer := advanced.in_order.length_le
      rw [List.length_append, List.length_singleton] at longer
      omega

/-- An iterator over `content` has returned the bytes `returned`: they are the
first ones in order, the iterator says that it is done when they are all, a
step returns the next one, and steps after the last are refused and change
nothing. -/
structure Iterates (session : Session) (iterator : Handle) (content : Bytes)
    (returned : List UInt8) : Prop where
  in_order : returned <+: content.toList
  done : session.invoke (.iteratorIsDone iterator) =
    (.returned (.truth (decide (returned = content.toList))), session)
  next : returned ≠ content.toList →
    ∃ byte, (session.invoke (.iteratorNext iterator)).1 =
        .returned (.byte byte) ∧
      returned ++ [byte] <+: content.toList
  exhausted : returned = content.toList → session.RefusesSteps iterator

private theorem iterates_of_iterating (regular : session.heap.Regular)
    (iterating : session.heap.Iterating iterator content returned) :
    session.Iterates iterator content returned where
  in_order := iterating.in_order
  done := by
    have performed : (Call.iteratorIsDone iterator).perform session.heap =
        .ok (.truth (decide (returned = content.toList))) session.heap := by
      simp only [Call.perform, Functor.map, EStateM.map, HeapM.inspect,
        iterating.isDone_eq regular]
    exact invoke_of_ok performed rfl
  next := by
    intro remain
    rcases invoke_next_cases regular iterating with
      ⟨whole, _⟩ | ⟨byte, after, stepped, advanced⟩
    · exact absurd whole remain
    · exact ⟨byte, congrArg Prod.fst stepped, advanced.in_order⟩
  exhausted := by
    intro whole
    rw [whole] at iterating
    exact refusesSteps_of_exhausted regular iterating

variable {config : Config} {host : Host}

private theorem exists_iterating_of_invoke_eq {buffer : Handle}
    (regular : session.heap.Regular)
    (outcome : session.invoke (.blobIterator buffer) =
      (.returned (.handle iterator), next)) :
    ∃ content, session.heap.blob buffer = .ok content ∧
      next.heap.Regular ∧ next.heap.Iterating iterator content [] := by
  have performed :
      Ensures (Call.blobIterator buffer).perform session.heap
        (fun answer after => ∃ created content, answer = .handle created ∧
          session.heap.blob buffer = .ok content ∧ after.Regular ∧
          after.Iterating created content [])
        fun _ _ => True := by
    refine ensures_map.mpr
      ((BlobIterator.makes_create buffer regular).mono ?_ fun _ _ _ => trivial)
    rintro created after ⟨cell, isCell, regularAfter, _, _, denotes, _⟩
    obtain ⟨content, read, rfl⟩ := Except.map_eq_ok_iff.mp isCell
    exact ⟨created, content, rfl, read, regularAfter, .of_denotes denotes⟩
  obtain ⟨created, content, same, read, regularNext, iterating⟩ :=
    performed.of_ok (perform_of_invoke_eq outcome)
  obtain rfl := Answer.handle.inj same
  exact ⟨content, read, regularNext, iterating⟩

/-- An iterator that is made in a reached session returns the bytes of its
buffer in order along any further calls, other iterators, failed calls and
collections included, for as long as it is there. A root keeps it there, and
is where it is found again after collections. -/
theorem reached_iterates (reached : Reached config host session) :
    (∀ buffer iterator next,
      session.invoke (.blobIterator buffer) =
          (.returned (.handle iterator), next) →
        ∃ content, session.heap.blob buffer = .ok content ∧
          ∀ calls later, next.Admits calls →
            next.follow iterator calls = some later →
            (next.invokeAll calls).2.Iterates later content
              (next.yielded iterator calls)) ∧
    ∀ slot handle calls, session.heap.root slot = some handle →
      session.Admits calls → .removeRoot slot ∉ calls →
      ∃ later, session.follow handle calls = some later ∧
        (session.invokeAll calls).2.heap.root slot = some later := by
  have regular := reached.regular
  refine ⟨?_, fun _ _ _ filled admits keeps =>
    root_invokeAll regular admits filled keeps⟩
  intro buffer iterator next outcome
  obtain ⟨content, read, regularNext, iterating⟩ :=
    exists_iterating_of_invoke_eq regular outcome
  refine ⟨content, read, fun calls later admits followed => ?_⟩
  have iteratingLater :=
    iterating_invokeAll regularNext admits followed iterating
  refine iterates_of_iterating ?_ iteratingLater
  exact regular_invokeAll regularNext admits

/-- A text with an iterator over it that is a root. -/
def rootedIterator : Session :=
  ((start {} .plain).invokeAll
    [.version, .textOfString "ab", .blobIterator (Handle.ofAddress 0x1000c),
      .addRoot (Handle.ofAddress 0x10018)]).2

private theorem reached_rootedIterator : Reached {} .plain rootedIterator :=
  have held :
      ((start {} .plain).invokeAll
        [.version, .textOfString "ab",
          .blobIterator (Handle.ofAddress 0x1000c)]).2.heap.Holds
        (Handle.ofAddress 0x10018) :=
    Option.isSome_iff_exists.mp (by decide +kernel)
  .invoke
    (.invoke (.invoke (.invoke .start .version trivial)
      (.textOfString "ab") trivial)
    (.blobIterator (Handle.ofAddress 0x1000c)) trivial)
    (.addRoot (Handle.ofAddress 0x10018)) held

/-- The session with a second iterator over the same text. -/
def twoIterators : Session :=
  (rootedIterator.invoke (.blobIterator (Handle.ofAddress 0x1000c))).2

/-- Both iterators step, and a collection moves them and the text. -/
def interleavedSteps : List Call :=
  [.addRoot (Handle.ofAddress 0x10028),
    .iteratorNext (Handle.ofAddress 0x10028),
    .iteratorNext (Handle.ofAddress 0x10018), .collect,
    .iteratorNext (Handle.ofAddress 0x1001c),
    .iteratorNext (Handle.ofAddress 0x1000c)]

/-- The second iterator has returned the whole text, and the first one is
found where the collection has put it. -/
theorem rootedIterator_iterates :
    Reached {} .plain rootedIterator ∧
      (twoIterators.invokeAll interleavedSteps).2.Iterates
        (Handle.ofAddress 0x1001c) (.ofList [97, 98]) [97, 98] ∧
      ∃ later,
        rootedIterator.follow (Handle.ofAddress 0x10018)
          (.blobIterator (Handle.ofAddress 0x1000c) :: interleavedSteps) =
            some later ∧
        (twoIterators.invokeAll interleavedSteps).2.heap.root 0 =
          some later := by
  obtain ⟨iterates, finds⟩ := reached_iterates reached_rootedIterator
  have created :
      (rootedIterator.invoke (.blobIterator (Handle.ofAddress 0x1000c))).1 =
        .returned (.handle (Handle.ofAddress 0x10028)) := by
    decide +kernel
  have held : twoIterators.heap.Holds (Handle.ofAddress 0x10028) :=
    Option.isSome_iff_exists.mp (by decide +kernel)
  have admits : twoIterators.Admits interleavedSteps :=
    ⟨held, trivial, trivial, trivial, trivial, trivial, trivial⟩
  have text :
      rootedIterator.heap.blob (Handle.ofAddress 0x1000c) =
        .ok (.ofList [97, 98]) := by
    decide +kernel
  have followed :
      twoIterators.follow (Handle.ofAddress 0x10028) interleavedSteps =
        some (Handle.ofAddress 0x1001c) := by
    decide +kernel
  have returned :
      twoIterators.yielded (Handle.ofAddress 0x10028) interleavedSteps =
        [97, 98] := by
    decide +kernel
  have filled :
      rootedIterator.heap.root 0 = some (Handle.ofAddress 0x10018) := by
    decide +kernel
  obtain ⟨content, read, along⟩ :=
    iterates _ _ twoIterators (Prod.ext created rfl)
  obtain rfl := Except.ok.inj (text.symm.trans read)
  have iteratesLater := along _ _ admits followed
  rw [returned] at iteratesLater
  exact ⟨reached_rootedIterator, iteratesLater,
    finds 0 _ _ filled ⟨trivial, admits⟩ (by decide)⟩

end Session

end ManagedHeap
