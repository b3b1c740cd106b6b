import ManagedHeap.Proofs.Heap.Regularity

/-!
# Operations that only add objects

Most operations add objects to a regular heap and leave all else as it was,
also when they fail part way (`OnlyAdds`).
-/

namespace ManagedHeap.Heap

variable {α β : Type} {heap : Heap}

/-! ## Composition -/

/-- Whichever way an operation ends, the heap is regular and has only grown. -/
def OnlyAdds (operation : HeapM α) (heap : Heap) : Prop :=
  Ensures operation heap (fun _ after => after.Regular ∧ heap.Grows after)
    fun _ after => after.Regular ∧ heap.Grows after

theorem onlyAdds_pure (regular : heap.Regular) (value : α) :
    OnlyAdds (pure value) heap :=
  ⟨regular, .refl _ _⟩

theorem onlyAdds_inspect
    (regular : heap.Regular) (reader : Heap → Except Error α) :
    OnlyAdds (HeapM.inspect reader) heap := by
  unfold OnlyAdds
  rw [ensures_inspect]
  exact ⟨fun _ _ => ⟨regular, .refl _ _⟩, fun _ _ => ⟨regular, .refl _ _⟩⟩

theorem OnlyAdds.map {operation : HeapM α} (adds : OnlyAdds operation heap)
    (change : α → β) :
    OnlyAdds (change <$> operation) heap := by
  unfold OnlyAdds
  rw [ensures_map]
  exact adds

theorem onlyAdds_read {reader : Heap → Except Error α} {next : α → HeapM β}
    (regular : heap.Regular)
    (rest : ∀ value, reader heap = .ok value → OnlyAdds (next value) heap) :
    OnlyAdds (HeapM.inspect reader >>= next) heap := by
  unfold OnlyAdds
  rw [ensures_bind, ensures_inspect]
  exact ⟨rest, fun _ _ => ⟨regular, .refl _ _⟩⟩

/-! ## Requests for space -/

/-- A new object that refers to existing objects only and claims no digits. -/
theorem Allots.onlyAdds {operation : HeapM α}
    {object : Object} {answers : Handle → α → Prop}
    (allots : Allots operation heap object answers) (regular : heap.Regular)
    (held : ∀ target ∈ object.pointers, heap.Holds target)
    (unclaimed : ∀ number, object = .bigInteger number → number = .empty) :
    OnlyAdds operation heap := by
  refine Ensures.mono allots ?_ ?_
  · rintro _ _ ⟨fits, rfl, _⟩
    exact ⟨regular.push fits held unclaimed,
      regular.tidy.bounded.grows_push object⟩
  · rintro _ _ ⟨_, rfl, _⟩
    exact ⟨regular, .refl _ _⟩

theorem Allots.onlyAdds_blob {operation : HeapM α}
    {bytes : Bytes} {answers : Handle → α → Prop}
    (allots : Allots operation heap (.blob bytes) answers)
    (regular : heap.Regular) :
    OnlyAdds operation heap :=
  allots.onlyAdds regular (by simp [Object.pointers, Object.fields]) (by simp)

theorem onlyAdds_realloc (regular : heap.Regular) (pointer : PayloadPointer)
    (oldSize newSize : Nat) :
    OnlyAdds (realloc pointer oldSize newSize) heap := by
  by_cases isBuffer :
    ∃ bytes, heap.objects.find? pointer.buffer.address = some (.blob bytes)
  · obtain ⟨bytes, found⟩ := isBuffer
    refine (ensures_realloc oldSize newSize found
      (regular.recorded found)).mono ?_ ?_
    · intro fresh after outcome
      rcases outcome with ⟨_, rfl⟩ | ⟨content, fits, rfl, _⟩
      · exact ⟨regular, .refl _ _⟩
      · have pushed := regular.push fits
          (by simp [Object.pointers, Object.fields]) (by simp)
        exact ⟨pushed, regular.tidy.bounded.grows_push (.blob content)⟩
    · rintro _ _ rfl
      exact ⟨regular, .refl _ _⟩
  · refine onlyAdds_read regular fun bytes read => ?_
    exact absurd ⟨bytes, blob_eq_ok_iff.mp read⟩ isBuffer

end ManagedHeap.Heap
