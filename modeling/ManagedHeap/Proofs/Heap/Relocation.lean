import Mathlib.Data.List.Forall2
import ManagedHeap.Heap.Reachability
import ManagedHeap.Proofs.Heap.Pointers

/-!
# Objects that move

When an object stays the same although the objects that it refers to have
moved: every reference and the digit buffer follow, and all else is equal.
`Object.relocate` brings an object into that relation with itself, as long as
the handles that it changes move the same way (`movesTo_relocate`).
-/

namespace ManagedHeap

/-! ## The relation -/

/-- The handle of the same object after addresses have moved. -/
def Handle.MovesTo (forward : Nat → Nat) (old new : Handle) : Prop :=
  new.address = forward old.address

/-- The same field: a scalar is equal, and a reference follows its object. -/
inductive Word.MovesTo (forward : Nat → Nat) : Word → Word → Prop where
  | scalar (value : UInt32) :
    Word.MovesTo forward (.scalar value) (.scalar value)
  | pointer {old new : Handle} (moves : old.MovesTo forward new) :
      Word.MovesTo forward (.pointer old) (.pointer new)

/-- The same place in the same buffer. -/
def PayloadPointer.MovesTo (forward : Nat → Nat) (old new : PayloadPointer) :
    Prop :=
  old.buffer.MovesTo forward new.buffer ∧ new.offset = old.offset

/-- The same control structure over the same buffer. -/
structure Bignum.MovesTo (forward : Nat → Nat) (old new : Bignum) : Prop where
  used : new.used = old.used
  capacity : new.capacity = old.capacity
  sign : new.sign = old.sign
  storage : Option.Rel (PayloadPointer.MovesTo forward) old.storage new.storage

/-- The same object: equal tags, scalars, payloads and control structures, and
references that follow the objects that they refer to. -/
inductive Object.MovesTo (forward : Nat → Nat) : Object → Object → Prop where
  | invalid : Object.MovesTo forward .invalid .invalid
  | record {oldHash newHash : Handle} {oldFields newFields : List Word}
      (hash : oldHash.MovesTo forward newHash)
      (fields : List.Forall₂ (Word.MovesTo forward) oldFields newFields) :
      Object.MovesTo forward (.record oldHash oldFields)
        (.record newHash newFields)
  | objectIndirection {old new : Word} (field : old.MovesTo forward new) :
      Object.MovesTo forward (.objectIndirection old) (.objectIndirection new)
  | array {old new : List Word}
    (elements : List.Forall₂ (Word.MovesTo forward) old new) :
      Object.MovesTo forward (.array old) (.array new)
  | reference (value : UInt32) :
    Object.MovesTo forward (.reference value) (.reference value)
  | int (value : Int64) : Object.MovesTo forward (.int value) (.int value)
  | mutableBox {old new : Word} (field : old.MovesTo forward new) :
      Object.MovesTo forward (.mutableBox old) (.mutableBox new)
  | closure (function : UInt32) {old new : List Word}
      (captured : List.Forall₂ (Word.MovesTo forward) old new) :
      Object.MovesTo forward (.closure function old) (.closure function new)
  | optional {old new : Word} (field : old.MovesTo forward new) :
      Object.MovesTo forward (.optional old) (.optional new)
  | variant
    (label : UInt32) {old new : Word} (field : old.MovesTo forward new) :
      Object.MovesTo forward (.variant label old) (.variant label new)
  | blob (bytes : Bytes) : Object.MovesTo forward (.blob bytes) (.blob bytes)
  | indirection {old new : Word} (field : old.MovesTo forward new) :
      Object.MovesTo forward (.indirection old) (.indirection new)
  | smallWord (value : UInt32) :
    Object.MovesTo forward (.smallWord value) (.smallWord value)
  | bigInteger {old new : Bignum} (number : old.MovesTo forward new) :
      Object.MovesTo forward (.bigInteger old) (.bigInteger new)

/-! ## Relocation -/

variable {forward : Nat → Nat} {change : Handle → Handle}

theorem Word.movesTo_mapHandle {word : Word}
    (moves : ∀ target, word.handle? = some target →
      target.MovesTo forward (change target)) :
    word.MovesTo forward (word.mapHandle change) := by
  cases word with
  | scalar value => exact .scalar value
  | pointer target => exact .pointer (moves target rfl)

theorem Word.forall₂_movesTo_map {words : List Word}
    (moves : ∀ target ∈ words.filterMap Word.handle?,
      target.MovesTo forward (change target)) :
    List.Forall₂ (Word.MovesTo forward) words
      (words.map (Word.mapHandle change)) := by
  rw [List.forall₂_map_right_iff, List.forall₂_same]
  intro word member
  refine Word.movesTo_mapHandle fun target refers => ?_
  exact moves target (List.mem_filterMap.mpr ⟨word, member, refers⟩)

theorem Bignum.movesTo_moveStorage {number : Bignum}
    (moves : ∀ start, number.storage = some start →
      start.buffer.MovesTo forward (change start.buffer)) :
    number.MovesTo forward (number.moveStorage change) := by
  refine ⟨rfl, rfl, rfl, ?_⟩
  cases stored : number.storage with
  | none =>
    simp only [Bignum.moveStorage, stored, Option.map_none]
    exact .none
  | some start =>
    simp only [Bignum.moveStorage, stored, Option.map_some]
    exact .some ⟨moves start stored, rfl⟩

/-- A relocated object is the same object wherever the handles that it holds
move along. -/
theorem Object.movesTo_relocate {object : Object}
    (moves : ∀ target ∈ object.kept, target.MovesTo forward (change target)) :
    object.MovesTo forward (object.relocate change) := by
  have single : ∀ word : Word, object.fields = [word] →
      word.MovesTo forward (word.mapHandle change) := by
    intro word only
    refine Word.movesTo_mapHandle fun target refers => moves target ?_
    simp [Object.kept, Object.pointers, only, refers]
  have several : List.Forall₂ (Word.MovesTo forward) object.fields
      (object.fields.map (Word.mapHandle change)) := by
    refine Word.forall₂_movesTo_map fun target refers => moves target ?_
    simp only [Object.kept, Object.pointers, List.mem_append]
    exact Or.inl (Or.inl refers)
  cases object with
  | invalid => exact .invalid
  | record hash fields =>
    exact .record (moves hash (by simp [kept, pointers])) several
  | objectIndirection field => exact .objectIndirection (single field rfl)
  | array elements => exact .array several
  | reference value => exact .reference value
  | int value => exact .int value
  | mutableBox field => exact .mutableBox (single field rfl)
  | closure function captured => exact .closure function several
  | optional field => exact .optional (single field rfl)
  | variant label field => exact .variant label (single field rfl)
  | blob bytes => exact .blob bytes
  | indirection field => exact .indirection (single field rfl)
  | smallWord value => exact .smallWord value
  | bigInteger number =>
    refine .bigInteger (Bignum.movesTo_moveStorage fun start stored =>
      moves start.buffer ?_)
    simp [kept, digitBuffer, stored]

/-! ## What relocation keeps -/

theorem Object.eq_bigInteger_or_tag_ne (object : Object) :
    (∃ number, object = .bigInteger number) ∨ object.tag ≠ .bigInteger := by
  cases object <;> simp [tag]

/-- Only a bignum has storage to move besides its references. -/
theorem Object.relocate_of_tag_ne {object : Object}
    (other : object.tag ≠ .bigInteger) :
    object.relocate change = object.mapPointers change := by
  cases object with
  | bigInteger number => exact absurd rfl other
  | _ => rfl

@[simp]
theorem Object.size_relocate (object : Object) :
    (object.relocate change).size = object.size := by
  rcases object.eq_bigInteger_or_tag_ne with ⟨number, rfl⟩ | other
  · rfl
  · rw [relocate_of_tag_ne other, size, sizeInWords_mapPointers, size]

theorem Object.pointers_relocate (object : Object) :
    (object.relocate change).pointers = object.pointers.map change := by
  rcases object.eq_bigInteger_or_tag_ne with ⟨number, rfl⟩ | other
  · rfl
  · rw [relocate_of_tag_ne other, pointers_mapPointers]

theorem Object.digitBuffer_relocate (object : Object) :
    (object.relocate change).digitBuffer = object.digitBuffer.map change := by
  cases object with
  | bigInteger number =>
    simp only [relocate, digitBuffer, Bignum.moveStorage, Option.map_map]
    rfl
  | _ => rfl

theorem Object.kept_relocate (object : Object) :
    (object.relocate change).kept = object.kept.map change := by
  rw [kept, kept, pointers_relocate, digitBuffer_relocate, List.map_append,
    Option.toList_map]

/-- Where no handle changes, no object does. -/
theorem Object.relocate_id (object : Object) : object.relocate id = object := by
  rcases object.eq_bigInteger_or_tag_ne with ⟨number, rfl⟩ | other
  · obtain ⟨used, capacity, sign, storage⟩ := number
    cases storage <;> rfl
  · rw [relocate_of_tag_ne other, mapPointers_id]

/-- One move after another is one move. -/
theorem Object.relocate_relocate (first second : Handle → Handle)
    (object : Object) :
    (object.relocate first).relocate second =
      object.relocate (second ∘ first) := by
  rcases object.eq_bigInteger_or_tag_ne with ⟨number, rfl⟩ | other
  · obtain ⟨used, capacity, sign, storage⟩ := number
    cases storage <;> rfl
  · rw [relocate_of_tag_ne other, relocate_of_tag_ne other,
      relocate_of_tag_ne (by rwa [tag_mapPointers]), mapPointers_mapPointers]

theorem Object.relocate_eq_bigInteger_iff {object : Object} {moved : Bignum} :
    object.relocate change = .bigInteger moved ↔
      ∃ number, object = .bigInteger number ∧
        moved = number.moveStorage change := by
  cases object <;> simp [relocate, mapPointers, eq_comm]

theorem Object.relocate_eq_blob_iff {object : Object} {bytes : Bytes} :
    object.relocate change = .blob bytes ↔ object = .blob bytes := by
  cases object <;> simp [relocate, mapPointers]

end ManagedHeap
