import ManagedHeap.Proofs.Heap.Payloads
import ManagedHeap.Proofs.Host.Evolution

/-!
# Raw storage

A host that asks for raw storage gets an address and nothing else. In every
reached heap the address of a payload start leads to its buffer and no other
address leads anywhere, so calls on the address go on acting on the same
buffer until a collection runs (`reached_resolvesStorage`).
-/

namespace ManagedHeap

open PayloadPointer (startOf)

/-! ## Storage at an address -/

namespace Heap

/-- Calls on the address of `pointer` act on the buffer of `pointer`, which
holds `content`. -/
structure ActsOn (heap : Heap) (pointer : PayloadPointer) (content : Bytes) :
    Prop where
  holds : heap.blob pointer.buffer = .ok content
  realloc : ∀ oldSize newSize,
    Call.reallocAt pointer.address oldSize newSize heap =
      (PayloadPointer.address <$> Heap.realloc pointer oldSize newSize) heap
  free : ∀ size,
    Call.freeAt pointer.address size heap = Heap.free pointer size heap

variable {heap : Heap}

private theorem actsOn_startOf {buffer : Handle} {content : Bytes}
    (denotes : heap.Denotes buffer (.bytes content)) :
    heap.ActsOn (startOf buffer) content := by
  have resolved : heap.payloadPointerAt (startOf buffer).address =
      .ok (startOf buffer) :=
    payloadPointerAt_of_found denotes
  refine ⟨blob_eq_ok_iff.mpr denotes, ?_, ?_⟩
  · intro oldSize newSize
    simp only [Call.reallocAt, bind, EStateM.bind, HeapM.inspect, resolved,
      Functor.map, EStateM.map]
    cases Heap.realloc (startOf buffer) oldSize newSize heap <;> rfl
  · intro size
    simp only [Call.freeAt, bind, EStateM.bind, HeapM.inspect, resolved]

end Heap

/-! ## Calls that provide storage -/

namespace Call

variable {heap : Heap} {call : Call} {operation : HeapM PayloadPointer}

/-- What a call does for the raw storage whose address it answers. -/
def storage : Call → Option (HeapM PayloadPointer)
  | .calloc count elementSize => some (Heap.calloc count elementSize)
  | .realloc address oldSize newSize => some do
    let owner ← HeapM.inspect (·.payloadPointerAt address)
    Heap.realloc owner oldSize newSize
  | _ => none

private theorem perform_of_storage (provides : call.storage = some operation) :
    call.perform =
      (fun pointer => Answer.address pointer.address) <$> operation := by
  cases call with
  | calloc count elementSize =>
    obtain rfl := Option.some.inj provides
    rfl
  | realloc address oldSize newSize =>
    obtain rfl := Option.some.inj provides
    simp [perform, reallocAt]
  | _ => cases provides

private theorem denotes_push {content : Bytes} {pointer : PayloadPointer}
    (fits : heap.Fits (.blob content))
    (answers : ∀ handle : Handle, handle.address = heap.pointer →
      pointer = startOf handle) :
    ∃ buffer kept, pointer = startOf buffer ∧
      (heap.push (.blob content)).Denotes buffer (.bytes kept) := by
  have atPointer := Handle.address_ofAddress fits.pointer_lt
  have found := Heap.find?_push_self heap (.blob content)
  rw [← atPointer] at found
  exact ⟨_, content, answers _ atPointer, found⟩

/-- The storage that a call provides is a buffer, from its payload start
on. -/
theorem ensures_storage (records : heap.RecordsLengths)
    (provides : call.storage = some operation) :
    Ensures operation heap
      (fun pointer after => ∃ buffer content, pointer = startOf buffer ∧
        after.Denotes buffer (.bytes content))
      (fun _ _ => True) := by
  cases call with
  | calloc count elementSize =>
    obtain rfl := Option.some.inj provides
    refine (Heap.allots_calloc heap count elementSize).mono ?_
      fun _ _ _ => trivial
    intro pointer after allotted
    obtain ⟨fits, rfl, answers⟩ := allotted
    exact denotes_push fits answers
  | realloc address oldSize newSize =>
    obtain rfl := Option.some.inj provides
    rw [ensures_bind, ensures_inspect]
    refine ⟨fun owner resolved => ?_, fun _ _ => trivial⟩
    obtain ⟨atStart, bytes, found⟩ :=
      Heap.exists_blob_of_payloadPointerAt resolved
    refine (Heap.ensures_realloc oldSize newSize found
      (records found)).mono ?_ fun _ _ _ => trivial
    intro pointer after outcome
    rcases outcome with ⟨rfl, rfl⟩ | ⟨content, fits, rfl, answers⟩
    · exact ⟨pointer.buffer, bytes, atStart, found⟩
    · exact denotes_push fits answers
  | _ => cases provides

end Call

/-! ## Sessions -/

namespace Session

variable {config : Config} {host : Host} {session next : Session}
  {call : Call} {calls : List Call}

/-- None of the calls runs a collection. -/
def Uncollected (session : Session) : List Call → Prop
  | [] => True
  | call :: rest => call.collects session.heap = false ∧
    (session.invoke call).2.Uncollected rest

/-- Without a collection every object stays where it is. -/
theorem Uncollected.follow_eq (uncollected : session.Uncollected calls)
    (handle : Handle) : session.follow handle calls = some handle := by
  induction calls generalizing session with
  | nil => rfl
  | cons call rest inductionHypothesis =>
    obtain ⟨stays, restStays⟩ := uncollected
    have followed : call.follow session.heap handle = some handle := by
      rw [Call.follow, stays]
      rfl
    rw [follow, followed]
    exact inductionHypothesis restStays

theorem Reached.packsEmptyBuffers (reached : Reached config host session) :
    session.heap.PacksEmptyBuffers := by
  induction reached with
  | start => exact Heap.packsEmptyBuffers_empty config
  | @invoke session reached call admissible inductionHypothesis =>
    rw [heap_invoke]
    cases collects : call.collects session.heap with
    | false =>
      exact (Call.evolves_heapAfter collects).packsEmptyBuffers
        inductionHypothesis
    | true =>
      obtain ⟨marked, _, _, compacted⟩ :=
        Call.exists_heapAfter_eq_compact reached.regular collects
      rw [compacted]
      exact Heap.packsEmptyBuffers_compact session.heap marked

/-- In every reached heap payloads can be told by their addresses. An address
that a call has answered for raw storage is that of the buffer which the call
provided, and further calls on the address act on that buffer, whatever else
was called since, as long as no collection has run. -/
theorem reached_resolvesStorage (reached : Reached config host session) :
    session.heap.ResolvesPayloads ∧
    ∀ call operation address next,
      Call.storage call = some operation →
      session.invoke call = (.returned (.address address), next) →
      ∃ buffer content,
        operation session.heap = .ok (startOf buffer) next.heap ∧
        (startOf buffer).address = address ∧
        ∀ calls, next.Admits calls → next.Uncollected calls →
          (next.invokeAll calls).2.heap.ActsOn (startOf buffer) content := by
  have regular := reached.regular
  refine ⟨regular.tidy.resolvesPayloads regular.recorded
    reached.packsEmptyBuffers, ?_⟩
  intro call operation address next provides answered
  have performed := perform_of_invoke_eq answered
  rw [Call.perform_of_storage provides] at performed
  cases outcome : operation session.heap with
  | error error after =>
    simp only [Functor.map, EStateM.map, outcome] at performed
    cases performed
  | ok pointer after =>
    simp only [Functor.map, EStateM.map, outcome] at performed
    obtain ⟨buffer, content, rfl, denotes⟩ :=
      (Call.ensures_storage regular.recorded provides).of_ok outcome
    cases performed
    refine ⟨buffer, content, rfl, rfl, fun calls admits uncollected => ?_⟩
    have admissible : call.Admissible session.heap := by
      cases call with
      | addRoot handle => cases provides
      | _ => trivial
    have nextRegular : next.heap.Regular := by
      have kept := regular_invoke regular admissible
      rwa [answered] at kept
    exact Heap.actsOn_startOf (denotes_follow nextRegular admits
      (uncollected.follow_eq buffer) (by simp [Cell.tag]) denotes)

/-- An empty buffer, and right behind it one of three bytes. -/
def paddedStorage : Session :=
  ((start {} .plain).invokeAll [.calloc 0 4, .calloc 3 1]).2

private theorem reached_paddedStorage : Reached {} .plain paddedStorage :=
  .invoke (.invoke .start (.calloc 0 4) trivial) (.calloc 3 1) trivial

/-- The payload of the empty buffer starts where the next object stands, and
still leads to the empty buffer. Storage that has outgrown the second buffer
is found again by its address after other calls. -/
theorem paddedStorage_resolves :
    Reached {} .plain paddedStorage ∧
      (∃ next, paddedStorage.heap.objects.find? 0x10008 = some next) ∧
      paddedStorage.heap.payloadPointerAt 0x10008 =
        .ok (startOf (Handle.ofAddress 0x10000)) ∧
      (paddedStorage.invoke (.realloc 0x10010 3 5)).1 =
        .returned (.address 0x1001c) ∧
      ∃ content,
        ((paddedStorage.invoke (.realloc 0x10010 3 5)).2.invokeAll
          [.ofUInt32 7, .realloc 0x10008 0 9]).2.heap.ActsOn
            (startOf (Handle.ofAddress 0x10014)) content := by
  obtain ⟨resolves, provides⟩ := reached_resolvesStorage reached_paddedStorage
  have emptyBuffer :
      paddedStorage.heap.objects.find? (Handle.ofAddress 0x10000).address =
        some (.blob (Bytes.zeros 0)) := by
    decide +kernel
  have behind : ∃ next,
      paddedStorage.heap.objects.find? 0x10008 = some next :=
    (resolves.empty_next _ _ emptyBuffer (Bytes.size_zeros 0)).resolve_left
      (by decide +kernel)
  have answer : (paddedStorage.invoke (.realloc 0x10010 3 5)).1 =
      .returned (.address 0x1001c) := by
    decide +kernel
  obtain ⟨buffer, content, _, address, acts⟩ :=
    provides (.realloc 0x10010 3 5) _ 0x1001c _ rfl (Prod.ext answer rfl)
  have grown : buffer = Handle.ofAddress 0x10014 :=
    resolves.starts_apart _ _ address
  subst grown
  exact ⟨reached_paddedStorage, behind, resolves.resolves _ _ emptyBuffer,
    answer, content, acts _ ⟨trivial, trivial, trivial⟩
      ⟨by decide +kernel, by decide +kernel, trivial⟩⟩

end Session

end ManagedHeap
