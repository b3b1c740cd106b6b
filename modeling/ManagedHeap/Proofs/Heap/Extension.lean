import ManagedHeap.Heap.Soundness

/-!
# Heaps that grow

How a heap differs from an earlier one when objects have only been added above
the heap pointer, apart from changes at some addresses (`Extends`). The two
changes that occur are one more object at the pointer (`push`) and another
object at an address (`place`).
-/

namespace ManagedHeap

namespace Store

private theorem insertEntry_insertEntry (address : Nat) (old new : Object)
    (entries : List (Nat × Object)) :
    insertEntry address new (insertEntry address old entries) =
      insertEntry address new entries := by
  induction entries with
  | nil => simp [insertEntry]
  | cons first tail inductionHypothesis =>
    obtain ⟨head, present⟩ := first
    simp only [insertEntry]
    split
    · simp [insertEntry]
    · split
      · simp [insertEntry]
      · rename_i notBelow notAtHead
        simp [insertEntry, notBelow, notAtHead, inductionHypothesis]

private theorem insert_insert
    (store : Store) (address : Nat) (old new : Object) :
    (store.insert address old).insert address new = store.insert address new :=
  Store.ext (insertEntry_insertEntry address old new store.entries)

end Store

namespace Heap

/-! ## Objects below the pointer -/

/-- Every object ends at or below the heap pointer. -/
def Bounded (heap : Heap) : Prop :=
  ∀ address object, heap.objects.find? address = some object →
    address + object.size ≤ heap.pointer

theorem Bounded.lt {heap : Heap} (bounded : heap.Bounded) {address : Nat}
    {object : Object}
    (found : heap.objects.find? address = some object) :
    address < heap.pointer := by
  have ends := bounded address object found
  have positive := object.size_pos
  omega

theorem Bounded.find?_eq_none
    {heap : Heap} (bounded : heap.Bounded) {address : Nat}
    (above : heap.pointer ≤ address) :
    heap.objects.find? address = none := by
  cases found : heap.objects.find? address with
  | none => rfl
  | some object => exact absurd (bounded.lt found) (Nat.not_lt.mpr above)

theorem SoundLayout.bounded {heap : Heap} (layout : heap.SoundLayout) :
    heap.Bounded :=
  fun _ _ found => layout.below_pointer _ (Store.find?_eq_some_iff.mp found)

/-! ## Extension -/

/-- A later heap: objects at other than the written addresses are unchanged,
new ones lie at or above the old heap pointer, and every byte that the pointer
has moved is accounted for. -/
structure Extends (written : Nat → Prop) (before after : Heap) : Prop where
  config : after.config = before.config
  roots : after.roots = before.roots
  lastLive : after.lastLive = before.lastLive
  pointer_le : before.pointer ≤ after.pointer
  accounted :
    after.allocated + before.pointer = before.allocated + after.pointer
  kept : ∀ {address object}, before.objects.find? address = some object →
    ¬written address → after.objects.find? address = some object
  fresh : ∀ {address object}, after.objects.find? address = some object →
    before.objects.find? address = none → before.pointer ≤ address

/-- A later heap in which all objects are unchanged. -/
abbrev Grows (before after : Heap) : Prop :=
  Extends (fun _ => False) before after

variable {written later : Nat → Prop} {before middle after heap : Heap}

theorem Extends.refl (written : Nat → Prop) (heap : Heap) :
    Extends written heap heap where
  config := rfl
  roots := rfl
  lastLive := rfl
  pointer_le := Nat.le_refl _
  accounted := rfl
  kept := fun found _ => found
  fresh := fun found missing => by
    rw [missing] at found
    cases found

/-- Extensions compose, also when the second one writes to what the first one
has added. -/
theorem Extends.trans
    (bounded : before.Bounded) (first : Extends written before middle)
    (second : Extends later middle after)
    (inside : ∀ address, later address → written address ∨
      before.pointer ≤ address) :
    Extends written before after where
  config := second.config.trans first.config
  roots := second.roots.trans first.roots
  lastLive := second.lastLive.trans first.lastLive
  pointer_le := Nat.le_trans first.pointer_le second.pointer_le
  accounted := by
    have := first.accounted
    have := second.accounted
    omega
  kept := by
    intro address object found unwritten
    refine second.kept (first.kept found unwritten) fun isLater => ?_
    rcases inside address isLater with isWritten | above
    · exact unwritten isWritten
    · exact absurd (bounded.lt found) (Nat.not_lt.mpr above)
  fresh := by
    intro address object found missing
    cases between : middle.objects.find? address with
    | none => exact Nat.le_trans first.pointer_le (second.fresh found between)
    | some _ => exact first.fresh between missing

theorem Grows.trans (first : before.Grows middle)
    (second : middle.Grows after) :
    before.Grows after where
  config := second.config.trans first.config
  roots := second.roots.trans first.roots
  lastLive := second.lastLive.trans first.lastLive
  pointer_le := Nat.le_trans first.pointer_le second.pointer_le
  accounted := by
    have := first.accounted
    have := second.accounted
    omega
  kept :=
    fun found unwritten => second.kept (first.kept found unwritten) unwritten
  fresh := by
    intro address object found missing
    cases between : middle.objects.find? address with
    | none => exact Nat.le_trans first.pointer_le (second.fresh found between)
    | some _ => exact first.fresh between missing

theorem Grows.found (grows : before.Grows after)
    {address : Nat} {object : Object}
    (found : before.objects.find? address = some object) :
    after.objects.find? address = some object :=
  grows.kept found not_false

theorem Extends.limit_eq (extension : Extends written before after) :
    after.config.heapLimit = before.config.heapLimit := by
  rw [extension.config]

theorem Extends.liveRoots_eq (extension : Extends written before after) :
    after.liveRoots = before.liveRoots := by
  rw [liveRoots, liveRoots, extension.roots]

/-! ## One more object -/

/-- The heap with one more object, at its pointer. -/
def push (heap : Heap) (object : Object) : Heap :=
  { heap with
    objects := heap.objects.insert heap.pointer object
    pointer := heap.pointer + object.size
    allocated := heap.allocated + object.size }

theorem find?_push (heap : Heap) (object : Object) (address : Nat) :
    (heap.push object).objects.find? address =
      if address =
        heap.pointer then some object else heap.objects.find? address :=
  Store.find?_insert ..

theorem find?_push_self (heap : Heap) (object : Object) :
    (heap.push object).objects.find? heap.pointer = some object := by
  rw [find?_push, if_pos rfl]

theorem Bounded.grows_push (bounded : heap.Bounded) (object : Object) :
    heap.Grows (heap.push object) where
  config := rfl
  roots := rfl
  lastLive := rfl
  pointer_le := Nat.le_add_right ..
  accounted := by
    show heap.allocated + object.size + heap.pointer =
      heap.allocated + (heap.pointer + object.size)
    omega
  kept := by
    intro address present found _
    rw [find?_push, if_neg (Nat.ne_of_lt (bounded.lt found))]
    exact found
  fresh := by
    intro address present found missing
    rw [find?_push] at found
    split at found
    · rename_i atPointer
      exact Nat.le_of_eq atPointer.symm
    · rw [missing] at found
      cases found

theorem Bounded.push (bounded : heap.Bounded) (object : Object) :
    (heap.push object).Bounded := by
  intro address present found
  rw [find?_push] at found
  show address + present.size ≤ heap.pointer + object.size
  split at found
  · rename_i atPointer
    obtain rfl := Option.some.inj found
    omega
  · have := bounded address present found
    omega

/-! ## Another object at an address -/

theorem find?_place (heap : Heap) (handle : Handle) (object : Object)
    (address : Nat) :
    (heap.place handle object).objects.find? address =
      if address =
        handle.address then some object else heap.objects.find? address :=
  Store.find?_insert ..

theorem find?_place_self (heap : Heap) (handle : Handle) (object : Object) :
    (heap.place handle object).objects.find? handle.address = some object := by
  rw [find?_place, if_pos rfl]

theorem find?_place_of_ne {handle : Handle} {address : Nat} (heap : Heap)
    (object : Object)
    (different : address ≠ handle.address) :
    (heap.place handle object).objects.find? address =
      heap.objects.find? address := by
  rw [find?_place, if_neg different]

theorem extends_place {handle : Handle} {old : Object} (new : Object)
    (found : heap.objects.find? handle.address = some old) :
    Extends (· = handle.address) heap (heap.place handle new) where
  config := rfl
  roots := rfl
  lastLive := rfl
  pointer_le := Nat.le_refl _
  accounted := rfl
  kept := by
    intro address object present elsewhere
    rw [find?_place_of_ne heap new elsewhere]
    exact present
  fresh := by
    intro address object present missing
    rw [find?_place_of_ne heap new] at present
    · rw [missing] at present
      cases present
    · rintro rfl
      rw [missing] at found
      cases found

theorem Bounded.place (bounded : heap.Bounded) {handle : Handle}
    {old new : Object}
    (found : heap.objects.find? handle.address = some old)
    (smaller : new.size ≤ old.size) :
    (heap.place handle new).Bounded := by
  intro address object present
  rw [find?_place] at present
  show address + object.size ≤ heap.pointer
  split at present
  · rename_i atHandle
    obtain rfl := Option.some.inj present
    have := bounded _ old found
    omega
  · exact bounded address object present

theorem place_place (heap : Heap) (handle : Handle) (old new : Object) :
    (heap.place handle old).place handle new = heap.place handle new := by
  simp only [place, Store.insert_insert]

/-- An object of the same size in place of the newest one. -/
theorem place_push
    {handle : Handle} {old new : Object}
    (atPointer : handle.address = heap.pointer)
    (sameSize : new.size = old.size) :
    (heap.push old).place handle new = heap.push new := by
  simp only [place, push, atPointer, Store.insert_insert, sameSize]

end Heap

end ManagedHeap
