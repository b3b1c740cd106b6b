import ManagedHeap.Proofs.Host.Evolution

/-!
# Histories of a heap

Everything that can be done to a heap, as data, and the heaps that any order
of it leads to (`History.Reached`). Objects may hold anything and refer to
nothing, so a reached heap need not be regular. What a history notes of its
collections is enough to account for every byte.

One step either lets the heap evolve or compacts it (`step_cases`).
-/

namespace ManagedHeap

namespace Heap

/-! ## Operations -/

/-- What can be done to a heap: all calls, and below them the operations on
objects, buffers and storage of any kind. -/
inductive Operation where
  | alloc (object : Object)
  | allocBlob (length : Nat)
  | allocBlobFrom (bytes : Bytes)
  | realloc (pointer : PayloadPointer) (oldSize newSize : Nat)
  | free (pointer : PayloadPointer) (size : Nat)
  | truncateBlob (handle : Handle) (length : Nat)
  | writePayload (pointer : PayloadPointer) (fresh : Bytes)
  | setBignum (handle : Handle) (number : Bignum)
  | replace (handle : Handle) (object : Object)
  | call (request : Call)

namespace Operation

def perform : Operation → HeapM Answer
  | .alloc object => Answer.handle <$> Heap.alloc object
  | .allocBlob length => Answer.handle <$> Heap.allocBlob length
  | .allocBlobFrom bytes => Answer.handle <$> Heap.allocBlobFrom bytes
  | .realloc pointer oldSize newSize =>
    (fun fresh => Answer.address fresh.address) <$>
      Heap.realloc pointer oldSize newSize
  | .free pointer size =>
    (fun _ => Answer.nothing) <$> Heap.free pointer size
  | .truncateBlob handle length =>
    (fun _ => Answer.nothing) <$> Heap.truncateBlob handle length
  | .writePayload pointer fresh =>
    (fun _ => Answer.nothing) <$> Heap.writePayload pointer fresh
  | .setBignum handle number =>
    (fun _ => Answer.nothing) <$> Heap.setBignum handle number
  | .replace handle object =>
    (fun _ => Answer.nothing) <$> Heap.replace handle object
  | .call request => request.perform

/-- What an operation puts in place of another object may replace that one. -/
def Replaces (replaces : Object → Object → Prop) (heap : Heap) :
    Operation → Prop
  | .truncateBlob handle length => ∀ old, heap.blob handle = .ok old →
    replaces (.blob old) (.blob (old.take length))
  | .replace handle object => ∀ old, heap.find handle = .ok old →
    replaces old object
  | _ => True

theorem replaces_trivial {heap : Heap} (operation : Operation) :
    operation.Replaces (fun _ _ => True) heap := by
  cases operation with
  | truncateBlob handle length => exact fun _ _ => trivial
  | replace handle object => exact fun _ _ => trivial
  | _ => trivial

/-- Objects give way only to objects that are no larger, and collections
return. All else may fail. A buffer that is cut short is no larger, unless it
was too long for its length word. -/
def Admissible (heap : Heap) : Operation → Prop
  | .call .collect => HeapM.returns Heap.collect heap = true
  | .call .scheduleCollect => HeapM.returns Heap.scheduleCollect heap = true
  | operation => operation.Replaces Object.Covers heap

/-- Any buffer that is not too long for its length word may be cut short. -/
theorem admissible_truncateBlob {heap : Heap} {handle : Handle} {length : Nat}
    (recorded : ∀ old, heap.blob handle = .ok old → old.size ≤ maxAddress) :
    (truncateBlob handle length).Admissible heap := by
  intro old read
  have shorter : (old.take length).size ≤ old.size := by
    rw [Bytes.size_take]
    exact Nat.min_le_right ..
  exact Object.size_blob_mono shorter (recorded old read)

end Operation

end Heap

/-! ## Histories -/

/-- What is noted of a collection: whether it ran because it was due, the
bytes that it reported as given back, the size that it left, and the bytes
handed out up to then. -/
structure Collected where
  scheduled : Bool
  reclaimed : Nat
  left : Nat
  allocated : Nat
  deriving DecidableEq, Repr

/-- A heap with all collections that it has gone through, the last one
first. -/
structure History where
  heap : Heap
  collections : List Collected

namespace Collected

/-- The note of an operation that has collected. -/
def ofAnswer? (operation : Heap.Operation) (answer : Answer) (after : Heap) :
    Option Collected :=
  match operation, answer with
  | .call .collect, .stats stats =>
    some ⟨false, stats.reclaimed, after.size, after.allocated⟩
  | .call .scheduleCollect, .scheduled (some stats) =>
    some ⟨true, stats.reclaimed, after.size, after.allocated⟩
  | _, _ => none

/-- All bytes that were given back. -/
def totalReclaimed : List Collected → Nat
  | [] => 0
  | last :: earlier => last.reclaimed + totalReclaimed earlier

end Collected

namespace History

def start (config : Config) : History :=
  ⟨Heap.empty config, []⟩

/-- One operation more. What a failed operation did to the heap stays. -/
def after (history : History) (operation : Heap.Operation) : History :=
  match operation.perform history.heap with
  | .ok answer heap =>
    ⟨heap, (Collected.ofAnswer? operation answer heap).toList ++
      history.collections⟩
  | .error _ heap => { history with heap }

/-- A history that admissible operations lead to from an empty heap. -/
inductive Reached (config : Config) : History → Prop where
  | start : Reached config (History.start config)
  | step {history : History} (reached : Reached config history)
      (operation : Heap.Operation)
      (admissible : operation.Admissible history.heap) :
      Reached config (history.after operation)

variable {config : Config} {history : History} {operation : Heap.Operation}

/-! ## One step -/

/-- No collection runs in the step. -/
def Continues (history next : History) : Prop :=
  Heap.Evolves Object.Covers history.heap next.heap ∧
    next.collections = history.collections

/-- The step is a collection, which was due if it was scheduled. -/
def Collects (history next : History) : Prop :=
  ∃ marked scheduled,
    next.heap = history.heap.compact marked ∧
    next.collections =
      ⟨scheduled, (history.heap.collectionStats marked).reclaimed,
        next.heap.size, history.heap.allocated⟩ :: history.collections ∧
    (scheduled = true → history.heap.shouldCollect = true)

/-- A step that is no collection lets the heap evolve, when all that it puts
in place of another object may replace that one. -/
theorem evolves_of_replaces {replaces : Object → Object → Prop}
    (covering : ∀ old new, old.Covers new → replaces old new)
    (replaced : operation.Replaces replaces history.heap)
    (notForced : operation ≠ .call .collect)
    (notScheduled : operation ≠ .call .scheduleCollect) :
    Ensures operation.perform history.heap
      (fun _ after => Heap.Evolves replaces history.heap after)
      (fun _ after => Heap.Evolves replaces history.heap after) := by
  have yielding : ∀ old new, Object.YieldsTo old new → replaces old new :=
    fun old new yields => covering old new yields.covers
  cases operation with
  | alloc object => exact (Heap.evolving_alloc object).map _ history.heap
  | allocBlob length =>
    exact (Heap.evolving_allocBlob length).map _ history.heap
  | allocBlobFrom bytes =>
    exact (Heap.evolving_allocBlobFrom bytes).map _ history.heap
  | realloc pointer oldSize newSize =>
    have evolving := Heap.evolving_realloc pointer oldSize newSize
    exact (evolving.mono yielding).map _ history.heap
  | free pointer size => exact .refl
  | truncateBlob handle length =>
    refine ensures_map.mpr ?_
    rw [Heap.truncateBlob, ensures_bind, ensures_inspect]
    refine ⟨fun old read => ?_, fun _ _ => .refl⟩
    exact .place .refl (Heap.blob_eq_ok_iff.mp read) (replaced old read)
  | writePayload pointer fresh =>
    have evolving := Heap.evolving_writePayload pointer fresh
    exact (evolving.mono yielding).map _ history.heap
  | setBignum handle number =>
    have evolving := Heap.evolving_setBignum handle number
    exact (evolving.mono yielding).map _ history.heap
  | replace handle object =>
    refine ensures_map.mpr ?_
    rw [Heap.replace, ensures_bind, ensures_inspect]
    refine ⟨fun old read => ?_, fun _ _ => .refl⟩
    exact .place .refl (Heap.find_eq_ok_iff.mp read) (replaced old read)
  | call request =>
    have evolving : Heap.Evolving Object.YieldsTo id request.perform := by
      refine Call.evolving_perform ?_ ?_
      · exact fun forced => notForced (congrArg _ forced)
      · exact fun scheduled => notScheduled (congrArg _ scheduled)
    exact evolving.mono yielding history.heap

theorem evolves_of_admissible
    (admissible : operation.Admissible history.heap)
    (notForced : operation ≠ .call .collect)
    (notScheduled : operation ≠ .call .scheduleCollect) :
    Ensures operation.perform history.heap
      (fun _ after => Heap.Evolves Object.Covers history.heap after)
      (fun _ after => Heap.Evolves Object.Covers history.heap after) := by
  refine evolves_of_replaces (fun _ _ covers => covers) ?_ notForced
    notScheduled
  cases operation with
  | call request => trivial
  | _ => exact admissible

theorem ofAnswer?_eq_none (answer : Answer) (after : Heap)
    (notForced : operation ≠ .call .collect)
    (notScheduled : operation ≠ .call .scheduleCollect) :
    Collected.ofAnswer? operation answer after = none := by
  unfold Collected.ofAnswer?
  split
  · exact absurd rfl notForced
  · exact absurd rfl notScheduled
  · rfl

theorem continues_after
    (admissible : operation.Admissible history.heap)
    (notForced : operation ≠ .call .collect)
    (notScheduled : operation ≠ .call .scheduleCollect) :
    history.Continues (history.after operation) := by
  have evolves := evolves_of_admissible admissible notForced notScheduled
  unfold after
  cases outcome : operation.perform history.heap with
  | error error after => exact ⟨evolves.of_error outcome, rfl⟩
  | ok answer after =>
    refine ⟨evolves.of_ok outcome, ?_⟩
    dsimp only
    rw [ofAnswer?_eq_none answer after notForced notScheduled]
    rfl

theorem after_collect {stats : CollectionStats} {after : Heap}
    (outcome : Heap.collect history.heap = .ok stats after) :
    history.after (.call .collect) =
      ⟨after, ⟨false, stats.reclaimed, after.size, after.allocated⟩ ::
        history.collections⟩ := by
  simp only [History.after, Heap.Operation.perform, Call.perform, Functor.map,
    EStateM.map, outcome]
  rfl

theorem after_scheduleCollect {result : Option CollectionStats} {after : Heap}
    (outcome : Heap.scheduleCollect history.heap = .ok result after) :
    history.after (.call .scheduleCollect) =
      ⟨after, (result.map fun stats =>
        ⟨true, stats.reclaimed, after.size, after.allocated⟩).toList ++
          history.collections⟩ := by
  simp only [History.after, Heap.Operation.perform, Call.perform, Functor.map,
    EStateM.map, outcome]
  cases result <;> rfl

/-- A step lets the heap evolve or is a collection. -/
theorem step_cases (admissible : operation.Admissible history.heap) :
    history.Continues (history.after operation) ∨
      history.Collects (history.after operation) := by
  by_cases forced : operation = .call .collect
  · subst forced
    obtain ⟨stats, after, outcome⟩ := HeapM.exists_eq_ok admissible
    obtain ⟨marked, rfl, rfl⟩ := Heap.eq_compact_of_collect_eq_ok outcome
    rw [after_collect outcome]
    exact Or.inr ⟨marked, false, rfl, rfl, fun impossible => nomatch impossible⟩
  by_cases scheduled : operation = .call .scheduleCollect
  · subst scheduled
    obtain ⟨result, after, outcome⟩ := HeapM.exists_eq_ok admissible
    rw [after_scheduleCollect outcome]
    rcases Heap.scheduleCollect_eq_ok_iff.mp outcome with skipped | collected
    · obtain ⟨_, rfl, rfl⟩ := skipped
      exact Or.inl ⟨.refl, rfl⟩
    · obtain ⟨due, stats, rfl, collected⟩ := collected
      obtain ⟨marked, rfl, rfl⟩ := Heap.eq_compact_of_collect_eq_ok collected
      exact Or.inr ⟨marked, true, rfl, rfl, fun _ => due⟩
  · exact Or.inl (continues_after admissible forced scheduled)

/-! ## Many steps -/

def afterAll (history : History) (operations : List Heap.Operation) : History :=
  operations.foldl after history

/-- Operations that may follow a history. -/
def Admits (history : History) : List Heap.Operation → Prop
  | [] => True
  | operation :: rest =>
    operation.Admissible history.heap ∧ (history.after operation).Admits rest

theorem Reached.afterAll {operations : List Heap.Operation}
    (reached : Reached config history) (admits : history.Admits operations) :
    Reached config (history.afterAll operations) := by
  induction operations generalizing history with
  | nil => exact reached
  | cons operation rest inductionHypothesis =>
    obtain ⟨admissible, restAdmits⟩ := admits
    exact inductionHypothesis (reached.step operation admissible) restAdmits

/-! ## What a history keeps -/

theorem Reached.config_eq (reached : Reached config history) :
    history.heap.config = config := by
  induction reached with
  | start => rfl
  | @step history _ operation admissible inductionHypothesis =>
    rcases step_cases admissible with continues | collects
    · exact continues.1.config_eq.trans inductionHypothesis
    · obtain ⟨marked, scheduled, compacted, _⟩ := collects
      rw [compacted]
      exact inductionHypothesis

theorem Reached.tidy (reached : Reached config history) :
    history.heap.Tidy := by
  induction reached with
  | start => exact Heap.tidy_empty config
  | @step history _ operation admissible inductionHypothesis =>
    rcases step_cases admissible with continues | collects
    · exact continues.1.tidy (fun _ _ covers => covers) inductionHypothesis
    · obtain ⟨marked, scheduled, compacted, _⟩ := collects
      rw [compacted]
      exact inductionHypothesis.compact marked

end History

end ManagedHeap
