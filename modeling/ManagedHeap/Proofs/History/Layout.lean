import ManagedHeap.Proofs.History.Operations

/-!
# Layout and accounts over a history

After every step of a history, a failed one included, objects lie apart on
word boundaries between the base and the heap pointer, the pointer is within
the limits, and the bytes handed out are those in use and those that
collections gave back (`reached_accounts`).

Sizes go by length words. A buffer too long for its length word is the one
object that grows when it is cut short, and then it reaches into what is above
it (`cutLong_not_apart`).
-/

namespace ManagedHeap

namespace Heap

variable {heap : Heap}

theorem Tidy.pairwise_apart (tidy : heap.Tidy) :
    heap.objects.entries.Pairwise Apart :=
  tidy.layout.pairwise_end_le.imp Or.inl

theorem Tidy.size_compact_le (tidy : heap.Tidy) (marked : List Nat) :
    (heap.compact marked).size ≤ heap.size :=
  Nat.sub_le_sub_right (tidy.pointer_compact_le marked) heap.base

end Heap

namespace History

variable {config : Config} {history : History}

/-- The bytes handed out are in use or have been given back. -/
theorem Reached.allocated_eq (reached : Reached config history) :
    history.heap.allocated =
      history.heap.size + Collected.totalReclaimed history.collections := by
  induction reached with
  | start => exact (Nat.sub_self (Heap.baseOf config)).symm
  | @step history reached operation admissible inductionHypothesis =>
    have tidy := reached.tidy
    have base_le := tidy.base_le_pointer
    rcases step_cases admissible with continues | collects
    · obtain ⟨evolves, same⟩ := continues
      have base := evolves.base_eq
      have accounted := evolves.accounted
      rw [same]
      simp only [Heap.size] at inductionHypothesis ⊢
      omega
    · obtain ⟨marked, scheduled, compacted, noted, _⟩ := collects
      have smaller := tidy.size_compact_le marked
      have unchanged : (history.heap.compact marked).allocated =
          history.heap.allocated := rfl
      rw [noted, compacted, unchanged, inductionHypothesis]
      simp only [Collected.totalReclaimed, Heap.collectionStats]
      omega

/-- Whatever was done to a heap whose base is an address, and whether it
succeeded: objects lie apart on word boundaries between the base and the heap
pointer, each at an address that has a handle; the pointer is an address
between the base and the limit, or the base where the limit is below it; and
all bytes ever handed out are either in use or were reported as given back. -/
theorem reached_accounts (reached : Reached config history)
    (representable : Heap.baseOf config ≤ maxAddress) :
    (∀ entry ∈ history.heap.objects.entries,
      entry.1 % wordSize = 0 ∧ Heap.baseOf config ≤ entry.1 ∧
      entry.1 + entry.2.size ≤ history.heap.pointer ∧
      ∃ handle : Handle, handle.address = entry.1) ∧
    history.heap.objects.entries.Pairwise Heap.Apart ∧
    Heap.baseOf config ≤ history.heap.pointer ∧
    history.heap.pointer ≤
      max (Heap.baseOf config) config.heapLimit.toNat ∧
    history.heap.pointer ≤ maxAddress ∧
    history.heap.allocated =
      history.heap.size + Collected.totalReclaimed history.collections := by
  have tidy := reached.tidy
  have base : history.heap.base = Heap.baseOf config :=
    congrArg Heap.baseOf reached.config_eq
  have base_le := tidy.base_le_pointer
  have pointer_le := tidy.pointer_le
  rw [base] at base_le pointer_le
  rw [reached.config_eq] at pointer_le
  have limit_le : config.heapLimit.toNat ≤ maxAddress :=
    Nat.le_of_lt_succ config.heapLimit.toNat_lt
  refine ⟨fun entry member => ⟨?_, ?_, ?_, ?_⟩, tidy.pairwise_apart, base_le,
    pointer_le, ?_, reached.allocated_eq⟩
  · exact tidy.layout.aligned entry member
  · rw [← base]
    exact tidy.layout.above_base entry member
  · exact tidy.layout.below_pointer entry member
  · exact tidy.exists_handle member
  · exact Nat.le_trans pointer_le (Nat.max_le.mpr ⟨representable, limit_le⟩)

/-- A buffer cut short below objects that refer to nothing, a request that is
refused, a collection that keeps the buffer only, and a bignum above it. -/
def cutHistory : History :=
  (start { heapBase := 5, heapLimit := 200 }).afterAll [
    .allocBlob 10,
    .truncateBlob (Handle.ofAddress 8) 3,
    .alloc (.array [.pointer (Handle.ofAddress 70), .scalar 1]),
    .alloc (.bigInteger
      { used := 5, storage := some ⟨Handle.ofAddress 28, 3⟩ }),
    .allocBlob 1000,
    .call (.addRoot (Handle.ofAddress 8)),
    .call .collect,
    .call (.ofInt32 (-7))]

private theorem reached_cutHistory :
    Reached { heapBase := 5, heapLimit := 200 } cutHistory := by
  refine Reached.start.afterAll ⟨trivial,
    Heap.Operation.admissible_truncateBlob ?_, trivial, trivial, trivial,
    trivial, show HeapM.returns Heap.collect _ = true by decide +kernel,
    trivial, trivial⟩
  intro old read
  have zeros : (History.after (start { heapBase := 5, heapLimit := 200 })
      (.allocBlob 10)).heap.blob (Handle.ofAddress 8) =
        .ok (Bytes.zeros 10) := by
    decide +kernel
  obtain rfl := Except.ok.inj (zeros.symm.trans read)
  decide +kernel

theorem cutHistory_accounts :
    Reached { heapBase := 5, heapLimit := 200 } cutHistory ∧
      Heap.baseOf { heapBase := 5, heapLimit := 200 } ≤ maxAddress ∧
      cutHistory.heap.objects.entries.map Prod.fst = [8, 20, 40, 64, 76] ∧
      (∀ entry ∈ cutHistory.heap.objects.entries,
        entry.1 + entry.2.size ≤ cutHistory.heap.pointer) ∧
      cutHistory.heap.objects.entries.Pairwise Heap.Apart ∧
      cutHistory.heap.allocated = cutHistory.heap.size + 44 := by
  have representable :
      Heap.baseOf { heapBase := 5, heapLimit := 200 } ≤ maxAddress := by
    decide
  have accounts := reached_accounts reached_cutHistory representable
  obtain ⟨entries, apart, _, _, _, allocated⟩ := accounts
  have reclaimed :
      Collected.totalReclaimed cutHistory.collections = 44 := by
    decide +kernel
  rw [reclaimed] at allocated
  exact ⟨reached_cutHistory, representable, by decide +kernel,
    fun entry member => (entries entry member).2.2.1, apart, allocated⟩

/-! ## Buffers too long for their length words -/

section LongBuffer

variable {object : Object} {handle : Handle} {bytes : Bytes}

private theorem after_alloc (room : history.heap.HasRoom object) :
    history.after (.alloc object) =
      { history with heap := history.heap.push object } := by
  simp only [History.after, Heap.Operation.perform, Functor.map, EStateM.map,
    Heap.alloc_eq_ok room]
  rfl

private theorem after_truncateBlob (read : history.heap.blob handle = .ok bytes)
    (length : Nat) :
    history.after (.truncateBlob handle length) =
      { history with
        heap := history.heap.place handle (.blob (bytes.take length)) } := by
  have outcome : Heap.truncateBlob handle length history.heap = .ok ()
      (history.heap.place handle (.blob (bytes.take length))) := by
    simp only [Heap.truncateBlob, bind, EStateM.bind, HeapM.inspect, read]
    rfl
  simp only [History.after, Heap.Operation.perform, Functor.map, EStateM.map,
    outcome]
  rfl

/-- A buffer with an object above it, cut to 100 bytes. -/
def cutLong (bytes : Bytes) : History :=
  (start {}).afterAll [.alloc (.blob bytes), .alloc (.smallWord 7),
    .truncateBlob (Handle.ofAddress 0x10000) 100]

/-- There is room for a buffer of `2 ^ 32` bytes, since its length word has
nothing of them. -/
theorem heap_cutLong (long : bytes.size = 2 ^ 32) :
    (cutLong bytes).heap =
      (((Heap.empty {}).push (.blob bytes)).push (.smallWord 7)).place
        (Handle.ofAddress 0x10000) (.blob (bytes.take 100)) := by
  have size := Object.size_blob_of_long long
  have room : (Heap.empty {}).HasRoom (.blob bytes) := by
    rw [Heap.HasRoom, size]
    decide
  have roomAbove : ((Heap.empty {}).push (.blob bytes)).HasRoom
      (.smallWord 7) := by
    show Heap.pointer (Heap.empty {}) + (Object.blob bytes).size + 8 ≤
      (Heap.empty {}).config.heapLimit.toNat
    rw [size]
    decide
  have found : (((Heap.empty {}).push (.blob bytes)).push
      (.smallWord 7)).objects.find? (Handle.ofAddress 0x10000).address =
        some (.blob bytes) := by
    rw [Heap.find?_push, if_neg, Heap.find?_push, if_pos (by decide)]
    show ¬(_ = Heap.pointer (Heap.empty {}) + (Object.blob bytes).size)
    rw [size]
    decide
  have first := @after_alloc (start {}) _ room
  have second := @after_alloc ⟨(Heap.empty {}).push (.blob bytes), []⟩ _
    roomAbove
  have cut := @after_truncateBlob
    ⟨((Heap.empty {}).push (.blob bytes)).push (.smallWord 7), []⟩ _ _
    (Heap.blob_eq_ok_iff.mpr found) 100
  simp only [cutLong, afterAll, List.foldl_cons, List.foldl_nil, first]
  exact congrArg History.heap
    ((congrArg (History.after · _) second).trans cut)

/-- Once it is cut, the buffer passes the object above it and the heap
pointer. -/
theorem overlaps_cutLong (long : bytes.size = 2 ^ 32) :
    (∃ entry ∈ (cutLong bytes).heap.objects.entries,
      (cutLong bytes).heap.pointer < entry.1 + entry.2.size) ∧
    ¬(cutLong bytes).heap.objects.entries.Pairwise Heap.Apart := by
  have pushed : ((Heap.empty {}).push (.blob bytes)).pointer = 0x10008 :=
    congrArg (0x10000 + ·) (Object.size_blob_of_long long)
  have pointer : (cutLong bytes).heap.pointer = 0x10010 := by
    rw [heap_cutLong long]
    exact congrArg (· + 8) pushed
  have cut : (0x10000, .blob (bytes.take 100)) ∈
      (cutLong bytes).heap.objects.entries := by
    rw [← Store.find?_eq_some_iff, heap_cutLong long]
    exact Heap.find?_place_self ..
  have above : (0x10008, .smallWord 7) ∈
      (cutLong bytes).heap.objects.entries := by
    rw [← Store.find?_eq_some_iff, heap_cutLong long,
      Heap.find?_place_of_ne _ _ (by decide), ← pushed]
    exact Heap.find?_push_self ..
  have size : (Object.blob (bytes.take 100)).size = 108 := by
    have kept : (bytes.take 100).size = 100 := by
      rw [Bytes.size_take, long]
      rfl
    exact congrArg (fun length =>
      wordSize * Object.blobWords (Object.lengthWord length)) kept
  refine ⟨⟨_, cut, ?_⟩, fun apart => ?_⟩
  · rw [pointer, size]
    exact (by decide : 0x10010 < 0x10000 + 108)
  · have : Std.Symm Heap.Apart := ⟨fun _ _ => Heap.Apart.symm⟩
    rcases apart.forall cut above (by simp) with below | below
    · rw [size] at below
      exact absurd below (by decide : ¬0x10000 + 108 ≤ 0x10008)
    · exact absurd below (by decide : ¬0x10008 + 8 ≤ 0x10000)

/-- A buffer too long for its length word can be cut so that it reaches into
the object above it and past the heap pointer. -/
theorem cutLong_not_apart :
    (∃ entry ∈ (cutLong (Bytes.zeros (2 ^ 32))).heap.objects.entries,
      (cutLong (Bytes.zeros (2 ^ 32))).heap.pointer <
        entry.1 + entry.2.size) ∧
    ¬(cutLong (Bytes.zeros (2 ^ 32))).heap.objects.entries.Pairwise
      Heap.Apart :=
  overlaps_cutLong (Bytes.size_zeros _)

end LongBuffer

end History

end ManagedHeap
