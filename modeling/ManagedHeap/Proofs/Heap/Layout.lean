import ManagedHeap.Proofs.Heap.Allocation
import ManagedHeap.Proofs.Heap.Collection

/-!
# Layout under change

The layout of a heap, with where its pointer may stand (`Tidy`), is kept by
every change that heap operations make: one more object that fits, an object
that gives way to one no larger, and compaction.

Changes to byte buffers only are a relation of their own (`Rewrites`), since
the arithmetic layer makes no others.
-/

namespace ManagedHeap.Heap

variable {heap : Heap}

/-! ## Tidy heaps -/

/-- Objects laid out soundly, and a pointer on a word boundary within the
limits. -/
structure Tidy (heap : Heap) : Prop where
  layout : heap.SoundLayout
  base_le_pointer : heap.base ≤ heap.pointer
  pointer_le : heap.pointer ≤ max heap.base heap.config.heapLimit.toNat
  pointer_aligned : heap.pointer % wordSize = 0

theorem Tidy.bounded (tidy : heap.Tidy) : heap.Bounded :=
  tidy.layout.bounded

theorem base_aligned (heap : Heap) : heap.base % wordSize = 0 :=
  Nat.mul_mod_right ..

private theorem size_aligned (object : Object) : object.size % wordSize = 0 :=
  Nat.mul_mod_right ..

/-- An object below the pointer is below the limit, so its address has a
handle. -/
theorem Tidy.exists_handle (tidy : heap.Tidy) {entry : Nat × Object}
    (member : entry ∈ heap.objects.entries) :
    ∃ handle : Handle, handle.address = entry.1 := by
  have ends := tidy.layout.below_pointer entry member
  have starts := tidy.layout.above_base entry member
  have positive := entry.2.size_pos
  have pointer_le := tidy.pointer_le
  have limit := heap.config.heapLimit.toNat_lt
  have address_lt : entry.1 < maxAddress := by
    simp only [maxAddress]
    omega
  exact ⟨⟨entry.1, address_lt⟩, rfl⟩

theorem tidy_empty (config : Config) : (Heap.empty config).Tidy where
  layout := (sound_empty config).layout
  base_le_pointer := Nat.le_refl _
  pointer_le := Nat.le_max_left ..
  pointer_aligned := base_aligned (Heap.empty config)

theorem Tidy.push
    (tidy : heap.Tidy) {object : Object} (room : heap.HasRoom object) :
    (heap.push object).Tidy := by
  have entry_cases : ∀ {address present},
      (address, present) ∈ (heap.push object).objects.entries →
        address = heap.pointer ∧ present = object ∨
          heap.objects.find? address = some present := by
    intro address present member
    have found := Store.find?_eq_some_iff.mpr member
    rw [find?_push] at found
    split at found
    · rename_i atPointer
      exact Or.inl ⟨atPointer, (Option.some.inj found).symm⟩
    · exact Or.inr found
  refine ⟨⟨?_, ?_, ?_, ?_⟩, ?_, ?_, ?_⟩
  · rintro ⟨address, present⟩ member
    rcases entry_cases member with ⟨rfl, rfl⟩ | found
    · exact tidy.pointer_aligned
    · exact tidy.layout.aligned _ (Store.find?_eq_some_iff.mp found)
  · rintro ⟨address, present⟩ member
    rcases entry_cases member with ⟨rfl, rfl⟩ | found
    · exact tidy.base_le_pointer
    · exact tidy.layout.above_base _ (Store.find?_eq_some_iff.mp found)
  · rintro ⟨address, present⟩ member
    exact (tidy.bounded.push object) address present
      (Store.find?_eq_some_iff.mpr member)
  · rintro ⟨left, leftObject⟩ leftMember ⟨right, rightObject⟩ rightMember
      different
    rcases entry_cases leftMember with ⟨rfl, rfl⟩ | leftFound <;>
      rcases entry_cases rightMember with ⟨rfl, rfl⟩ | rightFound
    · exact absurd rfl different
    · exact Or.inr (tidy.bounded _ _ rightFound)
    · exact Or.inl (tidy.bounded _ _ leftFound)
    · exact tidy.layout.apart _ (Store.find?_eq_some_iff.mp leftFound) _
        (Store.find?_eq_some_iff.mp rightFound) different
  · exact Nat.le_trans tidy.base_le_pointer (Nat.le_add_right ..)
  · exact Nat.le_trans room (Nat.le_max_right ..)
  · have aligned := size_aligned object
    have pointer := tidy.pointer_aligned
    show (heap.pointer + object.size) % wordSize = 0
    rw [Nat.add_mod, aligned, pointer]
    rfl

theorem Tidy.place (tidy : heap.Tidy) {handle : Handle} {old new : Object}
    (found : heap.objects.find? handle.address = some old)
    (smaller : new.size ≤ old.size) :
    (heap.place handle new).Tidy := by
  have entry_cases : ∀ {address present},
      (address, present) ∈ (heap.place handle new).objects.entries →
        ∃ earlier, (address, earlier) ∈ heap.objects.entries ∧
          present.size ≤ earlier.size := by
    intro address present member
    have presentFound := Store.find?_eq_some_iff.mpr member
    rw [find?_place] at presentFound
    split at presentFound
    · rename_i atHandle
      obtain rfl := Option.some.inj presentFound
      exact ⟨old, Store.find?_eq_some_iff.mp (atHandle ▸ found), smaller⟩
    · exact ⟨present, Store.find?_eq_some_iff.mp presentFound, Nat.le_refl _⟩
  refine ⟨⟨?_, ?_, ?_, ?_⟩, tidy.base_le_pointer, tidy.pointer_le,
    tidy.pointer_aligned⟩
  · rintro ⟨address, present⟩ member
    obtain ⟨earlier, earlierMember, _⟩ := entry_cases member
    exact tidy.layout.aligned (address, earlier) earlierMember
  · rintro ⟨address, present⟩ member
    obtain ⟨earlier, earlierMember, _⟩ := entry_cases member
    exact tidy.layout.above_base (address, earlier) earlierMember
  · rintro ⟨address, present⟩ member
    exact (tidy.bounded.place found smaller) address present
      (Store.find?_eq_some_iff.mpr member)
  · rintro ⟨left, leftObject⟩ leftMember ⟨right, rightObject⟩ rightMember
      different
    obtain ⟨leftEarlier, leftEarlierMember, leftSmaller⟩ :=
      entry_cases leftMember
    obtain ⟨rightEarlier, rightEarlierMember, rightSmaller⟩ :=
      entry_cases rightMember
    rcases tidy.layout.apart _ leftEarlierMember _ rightEarlierMember
      different with
      before | after
    · left
      show left + leftObject.size ≤ right
      have : left + leftEarlier.size ≤ right := before
      omega
    · right
      show right + rightObject.size ≤ left
      have : right + rightEarlier.size ≤ left := after
      omega

theorem Tidy.withRoots (tidy : heap.Tidy) (roots : List (Option Handle)) :
    Tidy { heap with roots } where
  layout :=
    { aligned := tidy.layout.aligned
      above_base := tidy.layout.above_base
      below_pointer := tidy.layout.below_pointer
      apart := tidy.layout.apart }
  base_le_pointer := tidy.base_le_pointer
  pointer_le := tidy.pointer_le
  pointer_aligned := tidy.pointer_aligned

theorem Tidy.pointer_compact_le (tidy : heap.Tidy) (marked : List Nat) :
    (heap.compact marked).pointer ≤ heap.pointer :=
  tidy.layout.pointer_compact_le tidy.base_le_pointer marked

theorem Tidy.compact (tidy : heap.Tidy) (marked : List Nat) :
    (heap.compact marked).Tidy where
  layout := layout_compact heap marked
  base_le_pointer := Nat.le_add_right ..
  pointer_le := Nat.le_trans (tidy.pointer_compact_le marked) tidy.pointer_le
  pointer_aligned := by
    have base := heap.base_aligned
    have total := Store.totalSize_aligned (heap.objects.survivors marked)
    show (heap.base + Store.totalSize (heap.objects.survivors marked)) %
      wordSize = 0
    rw [Nat.add_mod, base, total]
    rfl

/-- Every byte buffer has its length in its length word. -/
def RecordsLengths (heap : Heap) : Prop :=
  ∀ {address bytes}, heap.objects.find? address = some (.blob bytes) →
    bytes.size ≤ maxAddress

/-- What was taken from a tidy heap was there. -/
theorem Tidy.not_lacks {written : Nat → Prop} {after : Heap} {cost : Nat}
    (tidy : heap.Tidy) (tidyAfter : after.Tidy)
    (extension : Extends written heap after)
    (charged : after.pointer = heap.pointer + cost) :
    ¬heap.Lacks cost := by
  intro lacks
  have base := tidy.base_le_pointer
  have bound := tidyAfter.pointer_le
  have sameBase : after.base = heap.base := by
    rw [Heap.base, Heap.base, extension.config]
  rw [sameBase, extension.limit_eq, charged] at bound
  have positive := lacks.1
  have limit := lacks.2
  omega

/-! ## Changes to byte buffers -/

/-- Some byte buffers with their lengths in their length words are added, and
the bytes of some others change; nothing else does. -/
structure Rewrites (written : Nat → Prop) (before after : Heap) : Prop
    extends Extends written before after where
  bounded : before.Bounded → after.Bounded
  tidy : before.Tidy → after.Tidy
  rewritten : ∀ {address object}, before.objects.find? address = some object →
    after.objects.find? address = some object ∨
      ∃ bytes later, object = .blob bytes ∧
        after.objects.find? address = some (.blob later) ∧
        later.size = bytes.size
  added : ∀ {address object}, after.objects.find? address = some object →
    before.objects.find? address = none →
      ∃ bytes, object = .blob bytes ∧ bytes.size ≤ maxAddress

variable {written later : Nat → Prop} {before middle after : Heap}

theorem Rewrites.refl (written : Nat → Prop) (heap : Heap) :
    Rewrites written heap heap where
  toExtends := .refl written heap
  bounded := id
  tidy := id
  rewritten := Or.inl
  added := fun found missing => by
    rw [missing] at found
    cases found

theorem Rewrites.trans
    (bounded : before.Bounded) (first : Rewrites written before middle)
    (second : Rewrites later middle after)
    (inside : ∀ address, later address → written address ∨
      before.pointer ≤ address) :
    Rewrites written before after where
  toExtends := first.toExtends.trans bounded second.toExtends inside
  bounded := second.bounded ∘ first.bounded
  tidy := second.tidy ∘ first.tidy
  rewritten := by
    intro address object found
    rcases first.rewritten found with same | ⟨bytes, between, rfl, betweenFound,
      betweenSize⟩
    · exact second.rewritten same
    · right
      rcases second.rewritten betweenFound with same
        | ⟨_, last, equal, lastFound, lastSize⟩
      · exact ⟨bytes, between, rfl, same, betweenSize⟩
      · obtain rfl := Object.blob.inj equal
        exact ⟨bytes, last, rfl, lastFound, lastSize.trans betweenSize⟩
  added := by
    intro address object found missing
    cases between : middle.objects.find? address with
    | none => exact second.added found between
    | some present =>
      obtain ⟨bytes, rfl, recorded⟩ := first.added between missing
      rcases second.rewritten between with same
        | ⟨_, last, equal, lastFound, lastSize⟩
      · exact ⟨bytes, Option.some.inj (found.symm.trans same), recorded⟩
      · obtain rfl := Object.blob.inj equal
        exact ⟨last, Option.some.inj (found.symm.trans lastFound),
          lastSize ▸ recorded⟩

theorem Rewrites.mono (rewrites : Rewrites written before after)
    (weaker : ∀ address, written address → later address) :
    Rewrites later before after where
  config := rewrites.config
  roots := rewrites.roots
  lastLive := rewrites.lastLive
  pointer_le := rewrites.pointer_le
  accounted := rewrites.accounted
  kept := fun found unwritten => rewrites.kept found (unwritten ∘ weaker _)
  fresh := rewrites.fresh
  bounded := rewrites.bounded
  tidy := rewrites.tidy
  rewritten := rewrites.rewritten
  added := rewrites.added

theorem Bounded.rewrites_push (bounded : heap.Bounded) {bytes : Bytes}
    (fits : heap.Fits (.blob bytes)) :
    Rewrites (fun _ => False) heap (heap.push (.blob bytes)) where
  toExtends := bounded.grows_push (.blob bytes)
  bounded := fun _ => bounded.push (.blob bytes)
  tidy := fun tidy => tidy.push fits.hasRoom
  rewritten :=
    fun found => Or.inl ((bounded.grows_push (.blob bytes)).found found)
  added := by
    intro address object found missing
    rw [find?_push] at found
    split at found
    · exact ⟨bytes, (Option.some.inj found).symm, Nat.le_of_lt fits.size_lt⟩
    · rw [missing] at found
      cases found

theorem rewrites_place {handle : Handle} {bytes fresh : Bytes}
    (found : heap.objects.find? handle.address = some (.blob bytes))
    (sameSize : fresh.size = bytes.size) :
    Rewrites (· = handle.address) heap (heap.place handle (.blob fresh)) where
  toExtends := extends_place (.blob fresh) found
  bounded :=
    fun bounded =>
      bounded.place found (Nat.le_of_eq (Object.size_blob_congr sameSize))
  tidy :=
    fun tidy =>
      tidy.place found (Nat.le_of_eq (Object.size_blob_congr sameSize))
  rewritten := by
    intro address object present
    rw [find?_place]
    split
    · rename_i atHandle
      rw [atHandle, found] at present
      obtain rfl := Option.some.inj present
      exact Or.inr ⟨bytes, fresh, rfl, rfl, sameSize⟩
    · exact Or.inl present
  added := by
    intro address object present missing
    have elsewhere : address ≠ handle.address := by
      rintro rfl
      rw [missing] at found
      cases found
    rw [find?_place_of_ne heap _ elsewhere, missing] at present
    cases present

end ManagedHeap.Heap
