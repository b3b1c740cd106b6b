import ManagedHeap.Heap.Buffers
import ManagedHeap.Proofs.Heap.Allocation

/-!
# Older objects

An operation that writes only to what it has asked for itself leaves all older
objects alone, whatever they hold (`Spared`). Older objects are those below a
frontier that the heap pointer has passed, so an operation may write at and
above the frontier and nowhere else.
-/

namespace ManagedHeap

namespace Heap

/-! ## Frontiers -/

/-- A later heap beyond a frontier: the roots are the same, and so are all
objects below the frontier. -/
structure Spares (frontier : Nat) (before after : Heap) : Prop where
  passed : frontier ≤ after.pointer
  roots : after.roots = before.roots
  below : ∀ address, address < frontier →
    after.objects.find? address = before.objects.find? address

variable {frontier : Nat} {before middle after heap : Heap}

theorem Spares.refl (passed : frontier ≤ heap.pointer) :
    Spares frontier heap heap where
  passed := passed
  roots := rfl
  below := fun _ _ => rfl

theorem Spares.trans (first : Spares frontier before middle)
    (second : Spares frontier middle after) :
    Spares frontier before after where
  passed := second.passed
  roots := second.roots.trans first.roots
  below := fun address older =>
    (second.below address older).trans (first.below address older)

private theorem spares_push
    (passed : frontier ≤ heap.pointer) (object : Object) :
    Spares frontier heap (heap.push object) where
  passed := Nat.le_trans passed (Nat.le_add_right ..)
  roots := rfl
  below := by
    intro address older
    rw [find?_push, if_neg (by omega)]

private theorem spares_place
    (passed : frontier ≤ heap.pointer) {handle : Handle}
    (fresh : frontier ≤ handle.address) (object : Object) :
    Spares frontier heap (heap.place handle object) where
  passed := passed
  roots := rfl
  below := by
    intro address older
    exact find?_place_of_ne heap object (by omega)

/-! ## Operations -/

section Spared

variable {σ α β : Type} {view : σ → Heap} {operation : EStateM Error σ α}
  {state : σ} {returns : α → σ → Prop}

/-- Whichever way an operation ends, it spares what is below the frontier, and
its result has a property. The heap may be a part of what the operation works
on. -/
def Spared (frontier : Nat) (view : σ → Heap) (operation : EStateM Error σ α)
    (state : σ) (returns : α → σ → Prop) : Prop :=
  Ensures operation state
    (fun value after =>
      Spares frontier (view state) (view after) ∧ returns value after)
    (fun _ after => Spares frontier (view state) (view after))

theorem Spared.mono {weaker : α → σ → Prop}
    (spared : Spared frontier view operation state returns)
    (implies : ∀ value after, returns value after → weaker value after) :
    Spared frontier view operation state weaker :=
  Ensures.mono spared
    (fun _ _ returned => returned.imp_right (implies _ _))
    fun _ _ failed => failed

theorem spared_pure {value : α} (passed : frontier ≤ (view state).pointer)
    (returned : returns value state) :
    Spared frontier view (pure value) state returns :=
  ⟨.refl passed, returned⟩

theorem spared_throw {error : Error}
    (passed : frontier ≤ (view state).pointer) :
    Spared frontier view (throw error) state returns :=
  Spares.refl passed

theorem Spared.bind {next : α → EStateM Error σ β} {later : β → σ → Prop}
    (first : Spared frontier view operation state returns)
    (rest : ∀ value middle, frontier ≤ (view middle).pointer →
      returns value middle → Spared frontier view (next value) middle later) :
    Spared frontier view (operation >>= next) state later := by
  unfold Spared at *
  rw [ensures_bind]
  refine first.mono ?_ fun _ _ failed => failed
  intro value middle returned
  obtain ⟨spares, returned⟩ := returned
  refine (rest value middle spares.passed returned).mono ?_ ?_
  · exact fun _ _ second => second.imp_left spares.trans
  · exact fun _ _ second => spares.trans second

end Spared

/-! ## Reading and asking for space -/

variable {α : Type}

theorem spared_inspect (passed : frontier ≤ heap.pointer)
    (reader : Heap → Except Error α) :
    Spared frontier id (HeapM.inspect reader) heap fun value after =>
      after = heap ∧ reader heap = .ok value := by
  unfold Spared
  rw [ensures_inspect]
  exact ⟨fun _ read => ⟨.refl passed, rfl, read⟩, fun _ _ => .refl passed⟩

/-- A read, and what follows it on the same heap. -/
theorem Spared.after_read {β : Type} {reader : Heap → Except Error α}
    {next : α → HeapM β} {returns : β → Heap → Prop}
    (passed : frontier ≤ heap.pointer)
    (rest : ∀ value, reader heap = .ok value →
      Spared frontier id (next value) heap returns) :
    Spared frontier id (HeapM.inspect reader >>= next) heap returns := by
  refine (spared_inspect passed reader).bind ?_
  rintro value _ _ ⟨rfl, read⟩
  exact rest value read

theorem Adds.spared {operation : HeapM α} {object : Object}
    {answers : Handle → α → Prop}
    (adds : Adds operation heap object answers)
    (passed : frontier ≤ heap.pointer) :
    Spared frontier id operation heap fun value after =>
      after = heap.push object ∧ ∃ handle : Handle,
        handle.address = heap.pointer ∧ answers handle value := by
  refine Ensures.mono adds ?_ ?_
  · rintro value _ ⟨room, rfl, answered⟩
    have atPointer := Handle.address_ofAddress room.pointer_lt
    exact ⟨spares_push passed object, rfl, _, atPointer, answered _ atPointer⟩
  · rintro _ _ ⟨rfl, _⟩
    exact .refl passed

/-! ## Changes in place -/

theorem spared_setBignum (passed : frontier ≤ heap.pointer) {handle : Handle}
    (fresh : frontier ≤ handle.address) (number : Bignum) :
    Spared frontier id (setBignum handle number) heap fun _ after =>
      after.bignum handle = .ok number := by
  refine .after_read passed fun _ _ => ⟨spares_place passed fresh _, ?_⟩
  exact bignum_eq_ok_iff.mpr (find?_place_self ..)

theorem spared_writePayload (passed : frontier ≤ heap.pointer)
    {pointer : PayloadPointer} (fresh : frontier ≤ pointer.buffer.address)
    (bytes : Bytes) :
    Spared frontier id (writePayload pointer bytes) heap fun _ _ => True :=
  .after_read passed fun _ _ => ⟨spares_place passed fresh _, trivial⟩

theorem spared_truncateBlob (passed : frontier ≤ heap.pointer)
    {handle : Handle} (fresh : frontier ≤ handle.address) (length : Nat) :
    Spared frontier id (truncateBlob handle length) heap fun _ _ => True :=
  .after_read passed fun _ _ => ⟨spares_place passed fresh _, trivial⟩

/-- Storage is replaced by a new buffer, if at all. -/
theorem spared_realloc (passed : frontier ≤ heap.pointer)
    (pointer : PayloadPointer) (oldSize newSize : Nat) :
    Spared frontier id (realloc pointer oldSize newSize) heap fun later _ =>
      later = pointer ∨ frontier ≤ later.buffer.address := by
  refine .after_read passed fun bytes read => ?_
  split
  · exact spared_pure passed (Or.inl rfl)
  · refine .after_read passed fun kept _ => ?_
    refine ((allots_allocBlob heap newSize).adds.spared passed).bind ?_
    rintro buffer middle middlePassed ⟨_, _, atPointer, rfl⟩
    have fresh : frontier ≤ buffer.address := atPointer ▸ passed
    refine (spared_writePayload middlePassed fresh kept).bind ?_
    exact fun _ _ laterPassed _ => spared_pure laterPassed (Or.inr fresh)

end Heap

end ManagedHeap
