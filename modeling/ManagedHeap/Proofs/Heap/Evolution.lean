import ManagedHeap.Heap.Buffers
import ManagedHeap.Heap.Roots
import ManagedHeap.Proofs.Heap.Layout

/-!
# Heaps that evolve

Between collections a heap changes in three ways only: one more object that
fits, an object in place of another one, another root table (`Evolves`). What
these changes keep is kept by every operation, whatever the objects hold,
whether or not they refer to anything, and also when the operation fails part
way (`Evolving`).
-/

namespace ManagedHeap

/-! ## Objects in place of others -/

namespace Object

/-- An object that takes up as much space as the other one, or more. -/
def Covers (old new : Object) : Prop :=
  new.size ≤ old.size

/-- A byte buffer without payload. -/
def IsEmptyBuffer (object : Object) : Prop :=
  ∃ bytes, object = .blob bytes ∧ bytes.size = 0

/-- What gives way to a new object when a call runs: the new one is no larger,
and it is no empty buffer unless the old one was. -/
structure YieldsTo (old new : Object) : Prop where
  covers : old.Covers new
  empty : new.IsEmptyBuffer → old.IsEmptyBuffer

theorem covers_blob {old new : Bytes}
    (ordered : lengthWord new.size ≤ lengthWord old.size) :
    Covers (.blob old) (.blob new) :=
  Nat.mul_le_mul_left wordSize (blobWords_mono ordered)

theorem yieldsTo_blob {old new : Bytes}
    (ordered : lengthWord new.size ≤ lengthWord old.size)
    (filled : new.size = 0 → old.size = 0) :
    YieldsTo (.blob old) (.blob new) where
  covers := covers_blob ordered
  empty := by
    intro isEmpty
    obtain ⟨bytes, same, noPayload⟩ := isEmpty
    obtain rfl := Object.blob.inj same
    exact ⟨old, rfl, filled noPayload⟩

theorem yieldsTo_bignum (old new : Bignum) :
    YieldsTo (.bigInteger old) (.bigInteger new) where
  covers := Nat.le_refl _
  empty := fun ⟨_, same, _⟩ => nomatch same

theorem yieldsTo_array {old new : List Word}
    (sameLength : new.length = old.length) :
    YieldsTo (.array old) (.array new) where
  covers := by
    have sameSize : (Object.array new).size = (Object.array old).size := by
      rw [size, size, sizeInWords, sizeInWords, wordsBy, wordsBy, sameLength]
    exact Nat.le_of_eq sameSize
  empty := fun ⟨_, same, _⟩ => nomatch same

end Object

namespace Heap

/-! ## Evolution -/

/-- A heap that comes from an earlier one by objects at the pointer that there
was room for, objects in place of others, and changes to the root table. -/
inductive Evolves (replaces : Object → Object → Prop) (before : Heap) :
    Heap → Prop where
  | refl : Evolves replaces before before
  | push {middle : Heap} {object : Object}
      (earlier : Evolves replaces before middle)
      (room : middle.HasRoom object) :
      Evolves replaces before (middle.push object)
  | place {middle : Heap} {handle : Handle} {old new : Object}
      (earlier : Evolves replaces before middle)
      (found : middle.objects.find? handle.address = some old)
      (replaced : replaces old new) :
      Evolves replaces before (middle.place handle new)
  | withRoots {middle : Heap} (earlier : Evolves replaces before middle)
      (roots : List (Option Handle)) :
      Evolves replaces before { middle with roots }

variable {replaces weaker : Object → Object → Prop}
  {before middle after heap : Heap}

theorem Evolves.trans (first : Evolves replaces before middle)
    (second : Evolves replaces middle after) :
    Evolves replaces before after := by
  induction second with
  | refl => exact first
  | push _ room inductionHypothesis => exact .push inductionHypothesis room
  | place _ found replaced inductionHypothesis =>
    exact .place inductionHypothesis found replaced
  | withRoots _ roots inductionHypothesis =>
    exact .withRoots inductionHypothesis roots

theorem Evolves.mono (evolves : Evolves replaces before after)
    (implies : ∀ old new, replaces old new → weaker old new) :
    Evolves weaker before after := by
  induction evolves with
  | refl => exact .refl
  | push _ room inductionHypothesis => exact .push inductionHypothesis room
  | place _ found replaced inductionHypothesis =>
    exact .place inductionHypothesis found (implies _ _ replaced)
  | withRoots _ roots inductionHypothesis =>
    exact .withRoots inductionHypothesis roots

/-! ## What evolution keeps -/

theorem Evolves.config_eq (evolves : Evolves replaces before after) :
    after.config = before.config := by
  induction evolves with
  | refl => rfl
  | push _ _ inductionHypothesis => exact inductionHypothesis
  | place _ _ _ inductionHypothesis => exact inductionHypothesis
  | withRoots _ _ inductionHypothesis => exact inductionHypothesis

theorem Evolves.base_eq (evolves : Evolves replaces before after) :
    after.base = before.base :=
  congrArg baseOf evolves.config_eq

theorem Evolves.lastLive_eq (evolves : Evolves replaces before after) :
    after.lastLive = before.lastLive := by
  induction evolves with
  | refl => rfl
  | push _ _ inductionHypothesis => exact inductionHypothesis
  | place _ _ _ inductionHypothesis => exact inductionHypothesis
  | withRoots _ _ inductionHypothesis => exact inductionHypothesis

/-- Every byte that the pointer has moved is accounted for. -/
theorem Evolves.accounted (evolves : Evolves replaces before after) :
    before.pointer ≤ after.pointer ∧
      after.allocated + before.pointer = before.allocated + after.pointer := by
  induction evolves with
  | refl => exact ⟨Nat.le_refl _, rfl⟩
  | @push middle object _ _ inductionHypothesis =>
    obtain ⟨pointer_le, accounted⟩ := inductionHypothesis
    have pointer : (middle.push object).pointer =
        middle.pointer + object.size := rfl
    have allocated : (middle.push object).allocated =
        middle.allocated + object.size := rfl
    omega
  | place _ _ _ inductionHypothesis => exact inductionHypothesis
  | withRoots _ _ inductionHypothesis => exact inductionHypothesis

theorem Evolves.tidy (evolves : Evolves replaces before after)
    (covers : ∀ old new, replaces old new → old.Covers new)
    (tidy : before.Tidy) : after.Tidy := by
  induction evolves with
  | refl => exact tidy
  | push _ room inductionHypothesis => exact inductionHypothesis.push room
  | place _ found replaced inductionHypothesis =>
    exact inductionHypothesis.place found (covers _ _ replaced)
  | withRoots _ roots inductionHypothesis =>
    exact inductionHypothesis.withRoots roots

/-! ## Operations -/

section Evolving

variable {σ α β : Type} {view : σ → Heap} {operation : EStateM Error σ α}

/-- Whichever way an operation ends, and whatever heap it finds, it leaves one
that has evolved from it. The heap may be a part of what the operation works
on. -/
def Evolving (replaces : Object → Object → Prop) (view : σ → Heap)
    (operation : EStateM Error σ α) : Prop :=
  ∀ state, Ensures operation state
    (fun _ after => Evolves replaces (view state) (view after))
    (fun _ after => Evolves replaces (view state) (view after))

theorem Evolving.mono (evolving : Evolving replaces view operation)
    (implies : ∀ old new, replaces old new → weaker old new) :
    Evolving weaker view operation := by
  intro state
  exact (evolving state).mono (fun _ _ evolves => evolves.mono implies)
    fun _ _ evolves => evolves.mono implies

theorem evolving_pure (value : α) : Evolving replaces view (pure value) :=
  fun _ => .refl

theorem evolving_throw (error : Error) :
    Evolving replaces view (throw error : EStateM Error σ α) :=
  fun _ => .refl

theorem evolving_get : Evolving replaces view get :=
  fun _ => .refl

theorem Evolving.bind {next : α → EStateM Error σ β}
    (first : Evolving replaces view operation)
    (rest : ∀ value, Evolving replaces view (next value)) :
    Evolving replaces view (operation >>= next) := by
  intro state
  rw [ensures_bind]
  refine (first state).mono ?_ fun _ _ evolves => evolves
  intro value middle evolves
  exact (rest value middle).mono (fun _ _ later => evolves.trans later)
    fun _ _ later => evolves.trans later

theorem Evolving.map (evolving : Evolving replaces view operation)
    (change : α → β) :
    Evolving replaces view (change <$> operation) := by
  intro state
  rw [ensures_map]
  exact evolving state

/-- A step that may be left out. -/
theorem Evolving.ite {operation other : EStateM Error σ α} {condition : Prop}
    [Decidable condition] (first : Evolving replaces view operation)
    (second : Evolving replaces view other) :
    Evolving replaces view (if condition then operation else other) := by
  by_cases holds : condition
  · rw [if_pos holds]
    exact first
  · rw [if_neg holds]
    exact second

end Evolving

variable {α : Type}

theorem evolving_inspect (reader : Heap → Except Error α) :
    Evolving replaces id (HeapM.inspect reader) := by
  intro heap
  rw [ensures_inspect]
  exact ⟨fun _ _ => .refl, fun _ _ => .refl⟩

/-- A change that depends on what is read first. -/
theorem evolving_change {reader : Heap → Except Error α}
    {change : α → Heap → Heap}
    (evolves : ∀ heap value, reader heap = .ok value →
      Evolves replaces heap (change value heap)) :
    Evolving replaces id
      (HeapM.inspect reader >>= fun value => modify (change value)) := by
  intro heap
  rw [ensures_bind, ensures_inspect]
  exact ⟨fun value read => evolves heap value read, fun _ _ => .refl⟩

/-! ## Requests for space -/

theorem evolving_of_adds {operation : HeapM α} {object : Object}
    {answers : Heap → Handle → α → Prop}
    (adds : ∀ heap, Adds operation heap object (answers heap)) :
    Evolving replaces id operation := by
  intro heap
  refine Ensures.mono (adds heap) ?_ ?_
  · intro _ after added
    obtain ⟨room, rfl, _⟩ := added
    exact .push .refl room
  · intro _ after refused
    obtain ⟨rfl, _⟩ := refused
    exact .refl

theorem evolving_alloc (object : Object) :
    Evolving replaces id (alloc object) :=
  evolving_of_adds fun heap => adds_alloc heap object

theorem evolving_allocBlob (length : Nat) :
    Evolving replaces id (allocBlob length) :=
  evolving_of_adds fun heap => (allots_allocBlob heap length).adds

theorem evolving_allocBlobFrom (bytes : Bytes) :
    Evolving replaces id (allocBlobFrom bytes) :=
  evolving_of_adds fun heap => (allots_allocBlobFrom heap bytes).adds

theorem evolving_calloc (count elementSize : Nat) :
    Evolving replaces id (calloc count elementSize) :=
  evolving_of_adds fun heap => (allots_calloc heap count elementSize).adds

/-! ## Changes in place -/

theorem evolving_setBignum (handle : Handle) (number : Bignum) :
    Evolving Object.YieldsTo id (setBignum handle number) := by
  refine evolving_change fun heap old read => ?_
  have found := bignum_eq_ok_iff.mp read
  exact .place .refl found (Object.yieldsTo_bignum old number)

theorem evolving_writePayload (pointer : PayloadPointer) (fresh : Bytes) :
    Evolving Object.YieldsTo id (writePayload pointer fresh) := by
  refine evolving_change fun heap bytes read => ?_
  obtain ⟨found, inside⟩ := payloadWithin_eq_ok_iff.mp read
  have sameSize := Bytes.size_overwrite inside
  have sameLength := congrArg Object.lengthWord sameSize
  exact .place .refl found
    (Object.yieldsTo_blob (Nat.le_of_eq sameLength) sameSize.symm.trans)

theorem evolving_realloc (pointer : PayloadPointer) (oldSize newSize : Nat) :
    Evolving Object.YieldsTo id (realloc pointer oldSize newSize) := by
  refine (evolving_inspect _).bind fun bytes => ?_
  refine .ite (evolving_pure _) ?_
  refine (evolving_inspect _).bind fun kept => ?_
  refine (evolving_allocBlob newSize).bind fun buffer => ?_
  exact (evolving_writePayload _ kept).bind fun _ => evolving_pure _

/-! ## Roots -/

theorem evolving_addRoot (handle : Handle) :
    Evolving replaces id (addRoot handle) :=
  fun _ => .withRoots .refl _

theorem evolving_removeRoot (slot : RootSlot) :
    Evolving replaces id (removeRoot slot) :=
  fun _ => .withRoots .refl _

end Heap

end ManagedHeap
