import ManagedHeap.Proofs.Heap.Checking
import ManagedHeap.Proofs.Heap.Compaction
import ManagedHeap.Proofs.Heap.Marking
import ManagedHeap.Proofs.Heap.Relocation

/-!
# What a collection leaves

On a sound heap a collection succeeds, and the heap after it is what the roots
reached before, moved down without a change of order (`Sound.collect_eq`). It
is sound again (`sound_compact`), so that the check that may follow cannot
fail.
-/

namespace ManagedHeap.Heap

/-! ## Moved heaps -/

/-- One heap is the reached part of another after its objects have moved:
addresses keep their order and do not rise, objects stay the same, and the
root table follows slot by slot. -/
structure Relocates (before after : Heap) (forward : Nat → Nat) : Prop where
  increasing : ∀ left right, before.Reaches left → before.Reaches right →
    left < right →
    forward left < forward right
  lowering : ∀ address, before.Reaches address → forward address ≤ address
  found_iff : ∀ new, (∃ object, after.objects.find? new = some object) ↔
    ∃ address, before.Reaches address ∧ forward address = new
  moved : ∀ address, before.Reaches address → ∃ object moved,
    before.objects.find? address = some object ∧
      after.objects.find? (forward address) = some moved ∧
      object.MovesTo forward moved
  roots :
    List.Forall₂ (Option.Rel (Handle.MovesTo forward)) before.roots after.roots

/-- Where a compaction moves the object at an address. -/
def destination (heap : Heap) (marked : List Nat) (address : Nat) : Nat :=
  ((heap.forwarding marked).find? address).getD address

/-! ## Sound heaps -/

variable {heap : Heap}

theorem SoundLayout.pairwise_end_le (layout : heap.SoundLayout) :
    heap.objects.entries.Pairwise fun left right =>
      left.1 + left.2.size ≤ right.1 :=
  (pairwise_end_le_iff heap.objects.ascending).mpr layout.apart

theorem Sound.soundBignum (sound : heap.Sound) {address : Nat} {number : Bignum}
    (found : heap.objects.find? address = some (.bigInteger number)) :
    heap.SoundBignum number :=
  sound.bignums address number (Store.find?_eq_some_iff.mp found)

theorem Sound.exists_blob (sound : heap.Sound) {address : Nat} {object : Object}
    {buffer : Handle} (found : heap.objects.find? address = some object)
    (isBuffer : object.digitBuffer = some buffer) :
    ∃ bytes, heap.objects.find? buffer.address = some (.blob bytes) := by
  cases object with
  | bigInteger number =>
    obtain ⟨start, stored, rfl⟩ := Option.map_eq_some_iff.mp isBuffer
    obtain ⟨_, bytes, blob, _⟩ := (sound.soundBignum found).stored start stored
    exact ⟨bytes, blob⟩
  | _ => cases isBuffer

theorem Sound.holds_kept (sound : heap.Sound) {address : Nat} {object : Object}
    (found : heap.objects.find? address = some object) {target : Handle}
    (refers : target ∈ object.kept) :
    heap.Holds target := by
  rcases List.mem_append.mp refers with isPointer | isBuffer
  · exact sound.pointers_held _ (Store.find?_eq_some_iff.mp found) target
      isPointer
  · obtain ⟨bytes, blob⟩ :=
      sound.exists_blob found (Option.mem_toList.mp isBuffer)
    exact ⟨_, blob⟩

/-- In a sound heap the roots reach nothing that is missing. -/
theorem Sound.traceable (sound : heap.Sound) : heap.Traceable := by
  refine ⟨?_, fun _ _ _ _ found isBuffer => sound.exists_blob found isBuffer⟩
  intro address reached
  induction reached with
  | root held => exact sound.roots_held _ held
  | reference _ found refers => exact sound.holds_kept found refers

/-! ## Survivors -/

section Compaction

variable {marked : List Nat}

theorem mem_survivors_iff {address : Nat} {object : Object} :
    (address, object) ∈ heap.objects.survivors marked ↔
      heap.objects.find? address = some object ∧ address ∈ marked := by
  simp [Store.survivors, Store.find?_eq_some_iff]

theorem ascending_survivors (heap : Heap) (marked : List Nat) :
    Ascending (heap.objects.survivors marked) :=
  heap.objects.ascending.filter _

theorem SoundLayout.pairwise_survivors
    (layout : heap.SoundLayout) (marked : List Nat) :
    (heap.objects.survivors marked).Pairwise fun left right =>
      left.1 + left.2.size ≤ right.1 :=
  layout.pairwise_end_le.filter _

theorem SoundLayout.base_le_survivors
    (layout : heap.SoundLayout) (marked : List Nat) :
    ∀ entry ∈ heap.objects.survivors marked, heap.base ≤ entry.1 :=
  fun entry member => layout.above_base entry (List.mem_of_mem_filter member)

/-- Whatever is marked, a compaction takes no more space than there was. -/
theorem SoundLayout.pointer_compact_le (layout : heap.SoundLayout)
    (ordered : heap.base ≤ heap.pointer) (marked : List Nat) :
    (heap.compact marked).pointer ≤ heap.pointer :=
  Store.totalSize_le ordered (layout.pairwise_survivors marked)
    (layout.base_le_survivors marked)
    fun entry member =>
      layout.below_pointer entry (List.mem_of_mem_filter member)

theorem size_compact (heap : Heap) (marked : List Nat) :
    (heap.compact marked).size =
      Store.totalSize (heap.objects.survivors marked) :=
  Nat.add_sub_cancel_left ..

theorem find?_compact_eq_some {new : Nat} {moved : Object}
    (found : (heap.compact marked).objects.find? new = some moved) :
    ∃ address object, heap.objects.find? address = some object ∧
      address ∈ marked ∧
      (heap.forwarding marked).find? address = some new ∧
      moved = object.relocate (heap.forwarding marked).apply := by
  have member := Store.find?_eq_some_iff.mp found
  obtain ⟨address, object, entry, forwarded, relocated⟩ :=
    Store.mem_packEntries (ascending_survivors heap marked) member
  obtain ⟨present, inMarked⟩ := mem_survivors_iff.mp entry
  exact ⟨address, object, present, inMarked, forwarded, relocated⟩

/-- A marked object is found after a compaction, at its destination. -/
theorem find?_compact_destination {address : Nat} {object : Object}
    (found : heap.objects.find? address = some object)
    (inMarked : address ∈ marked) :
    (heap.forwarding marked).find? address =
      some (heap.destination marked address) ∧
      (heap.compact marked).objects.find? (heap.destination marked address) =
        some (object.relocate (heap.forwarding marked).apply) := by
  have entry := mem_survivors_iff.mpr ⟨found, inMarked⟩
  obtain ⟨new, forwarded⟩ :
      ∃ new, (heap.forwarding marked).find? address = some new :=
    Forwarding.find?_pack_eq_some entry
  have same : heap.destination marked address = new := by
    rw [destination, forwarded, Option.getD_some]
  rw [same]
  refine ⟨forwarded, ?_⟩
  obtain ⟨other, otherEntry, packed⟩ : ∃ other,
      (address, other) ∈ heap.objects.survivors marked ∧
        (new, other.relocate (heap.forwarding marked).apply) ∈
          (heap.compact marked).objects.entries :=
    Forwarding.mem_packEntries_of_find?_pack forwarded
  have otherFound := (mem_survivors_iff.mp otherEntry).1
  obtain rfl : other = object := Option.some.inj (otherFound.symm.trans found)
  exact Store.find?_eq_some_iff.mpr packed

theorem SoundLayout.destination_le (layout : heap.SoundLayout)
    (marked : List Nat) (address : Nat) :
    heap.destination marked address ≤ address := by
  unfold destination
  cases forwarded : (heap.forwarding marked).find? address with
  | none => exact Nat.le_refl _
  | some new =>
    exact Forwarding.find?_pack_le (layout.pairwise_survivors marked)
      (layout.base_le_survivors marked) forwarded

theorem SoundLayout.apply_movesTo (layout : heap.SoundLayout)
    (marked : List Nat) (handle : Handle) :
    handle.MovesTo (heap.destination marked)
      ((heap.forwarding marked).apply handle) := by
  have lower := layout.destination_le marked handle.address
  have bound := handle.address_lt
  unfold Handle.MovesTo destination Forwarding.apply at *
  cases forwarded : (heap.forwarding marked).find? handle.address with
  | none => rfl
  | some new =>
    rw [forwarded, Option.getD_some] at lower
    exact Handle.address_ofAddress (by omega)

/-- Marked objects end before the destinations of those above them. -/
theorem destination_end_le {left right : Nat} {object other : Object}
    (foundLeft : heap.objects.find? left = some object)
    (leftMarked : left ∈ marked)
    (foundRight : heap.objects.find? right = some other)
    (rightMarked : right ∈ marked)
    (below : left < right) :
    heap.destination marked left + object.size ≤
      heap.destination marked right :=
  Forwarding.find?_pack_lt (ascending_survivors heap marked)
    (mem_survivors_iff.mpr ⟨foundLeft, leftMarked⟩) below
    (find?_compact_destination foundLeft leftMarked).1
    (find?_compact_destination foundRight rightMarked).1

theorem eq_of_destination_eq {left right : Nat} {object other : Object}
    (foundLeft : heap.objects.find? left = some object)
    (leftMarked : left ∈ marked)
    (foundRight : heap.objects.find? right = some other)
    (rightMarked : right ∈ marked)
    (same : heap.destination marked left = heap.destination marked right) :
    left = right := by
  have leftPositive := object.size_pos
  have rightPositive := other.size_pos
  rcases Nat.lt_trichotomy left right with below | equal | above
  · have := destination_end_le foundLeft leftMarked foundRight rightMarked below
    omega
  · exact equal
  · have := destination_end_le foundRight rightMarked foundLeft leftMarked above
    omega

/-! ## The compacted heap -/

/-- Compacting what the roots reach moves exactly that. -/
theorem Sound.relocates_compact (sound : heap.Sound)
    (marks : ∀ {address}, address ∈ marked ↔ heap.Reaches address) :
    heap.Relocates (heap.compact marked) (heap.destination marked) := by
  have present := sound.traceable.present
  have layout := sound.layout
  refine ⟨?_, fun address _ => layout.destination_le marked address, ?_, ?_, ?_⟩
  · intro left right leftReached rightReached below
    obtain ⟨object, foundLeft⟩ := present left leftReached
    obtain ⟨other, foundRight⟩ := present right rightReached
    have ends := destination_end_le foundLeft (marks.mpr leftReached) foundRight
      (marks.mpr rightReached) below
    have positive := object.size_pos
    omega
  · intro new
    constructor
    · rintro ⟨moved, found⟩
      obtain ⟨address, object, _, inMarked, forwarded, _⟩ :=
        find?_compact_eq_some found
      refine ⟨address, marks.mp inMarked, ?_⟩
      simp only [destination, forwarded, Option.getD_some]
    · rintro ⟨address, reached, rfl⟩
      obtain ⟨object, found⟩ := present address reached
      exact ⟨_, (find?_compact_destination found (marks.mpr reached)).2⟩
  · intro address reached
    obtain ⟨object, found⟩ := present address reached
    refine ⟨object, _, found,
      (find?_compact_destination found (marks.mpr reached)).2, ?_⟩
    exact Object.movesTo_relocate fun target _ =>
      layout.apply_movesTo marked target
  · show List.Forall₂ _ heap.roots (heap.roots.map _)
    rw [List.forall₂_map_right_iff, List.forall₂_same]
    intro slot _
    cases slot with
    | none => exact .none
    | some handle => exact .some (layout.apply_movesTo marked handle)

theorem SoundLayout.find?_compact_apply
    (layout : heap.SoundLayout) {handle : Handle} {object : Object}
    (found : heap.objects.find? handle.address = some object)
    (inMarked : handle.address ∈ marked) :
    (heap.compact marked).objects.find?
    ((heap.forwarding marked).apply handle).address =
      some (object.relocate (heap.forwarding marked).apply) := by
  rw [layout.apply_movesTo marked handle]
  exact (find?_compact_destination found inMarked).2

theorem SoundLayout.soundBignum_moveStorage (layout : heap.SoundLayout)
    {number : Bignum} (numberSound : heap.SoundBignum number)
    (kept : ∀ start, number.storage = some start →
      start.buffer.address ∈ marked) :
    (heap.compact marked).SoundBignum
      (number.moveStorage (heap.forwarding marked).apply) := by
  refine ⟨numberSound.used_le_capacity, numberSound.zero_is_nonnegative, ?_, ?_⟩
  · intro unstored
    exact numberSound.unstored_is_zero (Option.map_eq_none_iff.mp unstored)
  · intro moved stored
    obtain ⟨start, oldStored, rfl⟩ := Option.map_eq_some_iff.mp stored
    obtain ⟨offset, bytes, found, enough, top⟩ :=
      numberSound.stored start oldStored
    exact ⟨offset, bytes,
      layout.find?_compact_apply found (kept start oldStored), enough, top⟩

theorem layout_compact (heap : Heap) (marked : List Nat) :
    (heap.compact marked).SoundLayout := by
  -- Every packed entry is a survivor at its destination, so the order of
  -- destinations is all that is needed.
  have entryOf :
      ∀ entry ∈ (heap.compact marked).objects.entries, ∃ address object,
      heap.objects.find? address = some object ∧ address ∈ marked ∧
        entry.1 = heap.destination marked address ∧
        entry.2.size = object.size := by
    intro entry member
    obtain ⟨address, object, found, inMarked, forwarded, relocated⟩ :=
      find?_compact_eq_some (Store.find?_eq_some_iff.mpr member)
    refine ⟨address, object, found, inMarked, ?_, ?_⟩
    · simp only [destination, forwarded, Option.getD_some]
    · rw [relocated, Object.size_relocate]
  refine ⟨?_, ?_, ?_, ?_⟩
  · intro entry member
    refine Store.aligned_of_mem_packEntries ?_ member
    simp only [base, baseOf, wordSize]
    omega
  · intro entry member
    exact Store.le_of_mem_packEntries _ member
  · intro entry member
    obtain ⟨address, object, found, inMarked, atNew, sameSize⟩ :=
      entryOf entry member
    rw [atNew, sameSize]
    exact Store.end_le_of_find?_pack (ascending_survivors heap marked)
      (mem_survivors_iff.mpr ⟨found, inMarked⟩)
      (find?_compact_destination found inMarked).1
  · intro left leftMember right rightMember different
    obtain ⟨a, object, foundA, aMarked, atA, sizeA⟩ := entryOf left leftMember
    obtain ⟨b, other, foundB, bMarked, atB, sizeB⟩ := entryOf right rightMember
    unfold Apart
    rw [sizeA, sizeB, atA, atB]
    rcases Nat.lt_trichotomy a b with below | same | above
    · exact Or.inl (destination_end_le foundA aMarked foundB bMarked below)
    · exact absurd (by rw [atA, atB, same]) different
    · exact Or.inr (destination_end_le foundB bMarked foundA aMarked above)

/-- Compacting what the roots reach leaves a sound heap when nothing that they
reach is missing and the bignums that they reach agree with their storage.
Objects that they do not reach may hold anything. -/
theorem SoundLayout.sound_compact (layout : heap.SoundLayout)
    (traceable : heap.Traceable)
    (bignums : ∀ {address number}, heap.Reaches address →
      heap.objects.find? address = some (.bigInteger number) →
      heap.SoundBignum number)
    (marks : ∀ {address}, address ∈ marked ↔ heap.Reaches address) :
    (heap.compact marked).Sound := by
  have holds : ∀ handle : Handle, heap.Reaches handle.address →
      (heap.compact marked).Holds ((heap.forwarding marked).apply handle) := by
    intro handle reached
    obtain ⟨object, found⟩ := traceable.present _ reached
    exact ⟨_, layout.find?_compact_apply found (marks.mpr reached)⟩
  refine ⟨?_, layout_compact heap marked, ?_, ?_⟩
  · intro handle held
    obtain ⟨slot, inTable, isHandle⟩ := List.mem_filterMap.mp held
    obtain ⟨old, inOld, rfl⟩ := List.mem_map.mp inTable
    obtain ⟨oldHandle, rfl, rfl⟩ := Option.map_eq_some_iff.mp isHandle
    exact holds oldHandle (.root (List.mem_filterMap.mpr ⟨_, inOld, rfl⟩))
  · intro entry member target refers
    obtain ⟨address, object, found, inMarked, _, relocated⟩ :=
      find?_compact_eq_some (Store.find?_eq_some_iff.mpr member)
    rw [relocated, Object.pointers_relocate] at refers
    obtain ⟨old, oldRefers, rfl⟩ := List.mem_map.mp refers
    exact holds old
      (.reference (marks.mp inMarked) found (List.mem_append_left _ oldRefers))
  · intro new number member
    obtain ⟨address, object, found, inMarked, _, relocated⟩ :=
      find?_compact_eq_some (Store.find?_eq_some_iff.mpr member)
    obtain ⟨old, rfl, rfl⟩ :=
      Object.relocate_eq_bigInteger_iff.mp relocated.symm
    have reached := marks.mp inMarked
    refine layout.soundBignum_moveStorage (bignums reached found) ?_
    intro start stored
    refine marks.mpr (.reference reached found ?_)
    simp [Object.kept, Object.digitBuffer, stored]

theorem Sound.sound_compact (sound : heap.Sound)
    (marks : ∀ {address}, address ∈ marked ↔ heap.Reaches address) :
    (heap.compact marked).Sound :=
  sound.layout.sound_compact sound.traceable
    (fun _ found => sound.soundBignum found) marks

end Compaction

/-! ## Collections -/

/-- What a collection reports that keeps the marked objects. -/
def collectionStats (heap : Heap) (marked : List Nat) : CollectionStats where
  live := (heap.compact marked).size
  reclaimed := heap.size - (heap.compact marked).size
  moved := (heap.forwarding marked).moved

/-- A heap that cannot be marked is left alone. -/
theorem collect_of_mark_eq_error {error : Error}
    (failed : heap.mark = .error error) :
    collect heap = .error error heap := by
  show (HeapM.inspect (·.mark) >>= _ : HeapM CollectionStats) heap = _
  simp only [bind, EStateM.bind, HeapM.inspect, failed]

/-- What is marked is compacted, and then passes the check, fails it, or is not
checked. -/
theorem ensures_collect_of_mark_eq_ok {marked : List Nat}
    (outcome : heap.mark = .ok marked) :
    Ensures collect heap
      (fun stats after => after = heap.compact marked ∧
        stats = heap.collectionStats marked ∧
        (heap.config.checkAfterCollection = true → after.check = .ok ()))
      (fun error after => after = heap.compact marked ∧
        heap.config.checkAfterCollection = true ∧
        after.check = .error error) := by
  unfold collect
  rw [ensures_bind, ensures_get]
  refine Ensures.read outcome ?_
  rw [ensures_bind, ensures_set]
  cases checks : heap.config.checkAfterCollection with
  | false => exact ⟨rfl, rfl, fun isTrue => nomatch isTrue⟩
  | true =>
    rw [if_pos rfl, ensures_bind, ensures_inspect]
    exact ⟨fun _ passed => ⟨rfl, rfl, fun _ => passed⟩,
      fun _ failed => ⟨rfl, rfl, failed⟩⟩

/-- What a collection does to any heap: marking fails and nothing has changed,
or what is marked is compacted. -/
theorem ensures_collect (heap : Heap) :
    Ensures collect heap
      (fun stats after => ∃ marked, heap.mark = .ok marked ∧
        after = heap.compact marked ∧ stats = heap.collectionStats marked ∧
        (heap.config.checkAfterCollection = true → after.check = .ok ()))
      (fun error after => heap.mark = .error error ∧ after = heap ∨
        ∃ marked, heap.mark = .ok marked ∧ after = heap.compact marked ∧
          heap.config.checkAfterCollection = true ∧
          after.check = .error error) := by
  cases outcome : heap.mark with
  | error error =>
    unfold Ensures
    rw [collect_of_mark_eq_error outcome]
    exact Or.inl ⟨rfl, rfl⟩
  | ok marked =>
    refine (ensures_collect_of_mark_eq_ok outcome).mono ?_ ?_
    · exact fun _ _ returned => ⟨marked, rfl, returned⟩
    · exact fun _ _ failed => Or.inr ⟨marked, rfl, failed⟩

/-- Whatever the heap holds, a collection that returns has compacted what was
marked. -/
theorem eq_compact_of_collect_eq_ok {stats : CollectionStats} {after : Heap}
    (outcome : collect heap = .ok stats after) :
    ∃ marked, after = heap.compact marked ∧
      stats = heap.collectionStats marked := by
  obtain ⟨marked, _, compacted, counted, _⟩ :=
    (ensures_collect heap).of_ok outcome
  exact ⟨marked, compacted, counted⟩

/-- A scheduled collection runs exactly when it is due, and otherwise changes
nothing. -/
theorem scheduleCollect_eq_ok_iff {result : Option CollectionStats}
    {after : Heap} :
    scheduleCollect heap = .ok result after ↔
      heap.shouldCollect = false ∧ result = none ∧ after = heap ∨
      heap.shouldCollect = true ∧
        ∃ stats, result = some stats ∧ collect heap = .ok stats after := by
  have equation :
      scheduleCollect heap =
        if heap.shouldCollect then (some <$> collect) heap
        else .ok none heap := by
    show (if heap.shouldCollect = true then some <$> collect else pure none :
      HeapM (Option CollectionStats)) heap = _
    cases heap.shouldCollect <;> rfl
  rw [equation]
  cases heap.shouldCollect with
  | false =>
    simp [eq_comm]
  | true =>
    simp only [if_true, Functor.map, EStateM.map]
    cases collect heap with
    | ok stats collected => simp [eq_comm]
    | error error collected => simp

/-- A collection on a sound heap compacts what is marked. -/
theorem Sound.collect_eq_ok {marked : List Nat} (sound : heap.Sound)
    (outcome : heap.mark = .ok marked) :
    collect heap = .ok (heap.collectionStats marked) (heap.compact marked) := by
  have checked : (heap.compact marked).check = .ok () :=
    check_eq_ok_iff.mpr (sound.sound_compact (mem_of_mark_eq_ok_iff outcome))
  have ensured := ensures_collect_of_mark_eq_ok outcome
  cases collected : collect heap with
  | ok stats after =>
    obtain ⟨rfl, rfl, _⟩ := ensured.of_ok collected
    rfl
  | error error after =>
    obtain ⟨rfl, _, failed⟩ := ensured.of_error collected
    cases checked.symm.trans failed

/-- A collection on a sound heap succeeds and compacts what the roots reach. -/
theorem Sound.collect_eq (sound : heap.Sound) :
    ∃ marked stats, (∀ {address}, address ∈ marked ↔ heap.Reaches address) ∧
      heap.mark = .ok marked ∧
      collect heap = .ok stats (heap.compact marked) := by
  obtain ⟨marked, outcome⟩ := exists_mark_eq_ok_iff.mpr sound.traceable
  exact ⟨marked, heap.collectionStats marked, mem_of_mark_eq_ok_iff outcome,
    outcome, sound.collect_eq_ok outcome⟩

/-- A heap that passes the check is collected to its reached part, whatever
its objects refer to and whether the check runs again or not. -/
theorem collect_relocates_reached
    {heap : Heap} (checked : heap.check = .ok ()) :
    ∃ stats after forward, collect heap = .ok stats after ∧
      heap.Relocates after forward := by
  have sound := check_eq_ok_iff.mp checked
  obtain ⟨marked, stats, marks, _, outcome⟩ := sound.collect_eq
  exact ⟨stats, heap.compact marked, heap.destination marked, outcome,
    sound.relocates_compact marks⟩

/-- A record and an array in a circle, and a bignum that they keep, above a
small word that nothing keeps. One root slot is empty. -/
def circularHeap : Heap where
  config := {}
  objects := {
    entries := [
      (0x10000, .smallWord 7),
      (0x10008, .record (Handle.ofAddress 0x10028)
        [.pointer (Handle.ofAddress 0x10034), .scalar 5]),
      (0x1001c, .blob (Bytes.ofList [1, 0, 0, 0])),
      (0x10028, .array [.pointer (Handle.ofAddress 0x10008)]),
      (0x10034, .bigInteger
        { used := 1, capacity := 1,
          storage := some (.startOf (Handle.ofAddress 0x1001c)) })]
    ascending := by simp [Ascending] }
  pointer := 0x10048
  roots := [none, some (Handle.ofAddress 0x10008)]
  lastLive := 0
  allocated := 0x48

theorem circularHeap_relocates :
    circularHeap.check = .ok () ∧
      ∃ stats after forward, collect circularHeap = .ok stats after ∧
        circularHeap.Relocates after forward :=
  have checked : circularHeap.check = .ok () := by decide
  ⟨checked, collect_relocates_reached checked⟩

end ManagedHeap.Heap
