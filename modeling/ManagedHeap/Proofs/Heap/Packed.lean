import ManagedHeap.Proofs.Heap.Collection

/-!
# Packed heaps

A collection leaves its survivors without a gap between the base and the heap
pointer, in the order that they had, and what it reports of them is true. All
of them are reached again, so a second collection finds nothing to do
(`collect_packs`).
-/

namespace ManagedHeap

/-! ## Entries without gaps -/

namespace Store

variable {change : Handle → Handle} {start finish : Nat}
  {entries : List (Nat × Object)}

/-- Some entries fill the bytes from `start` to `finish`: the first one begins
at `start`, every other one where the one before it ends, and the last one ends
at `finish`. -/
def Fills (start finish : Nat) : List (Nat × Object) → Prop
  | [] => start = finish
  | (address, object) :: rest =>
    address = start ∧ Fills (start + object.size) finish rest

private theorem fills_packEntries (change : Handle → Handle) (target : Nat)
    (entries : List (Nat × Object)) :
    Fills target (target + totalSize entries)
      (packEntries change target entries) := by
  induction entries generalizing target with
  | nil => rfl
  | cons first rest inductionHypothesis =>
    obtain ⟨address, object⟩ := first
    refine ⟨rfl, ?_⟩
    rw [Object.size_relocate, totalSize_cons, ← Nat.add_assoc]
    exact inductionHypothesis (target + object.size)

theorem Fills.pack_eq (fills : Fills start finish entries) :
    Forwarding.pack start entries =
      (entries.map Prod.fst).map fun address => (address, address) := by
  induction entries generalizing start with
  | nil => rfl
  | cons first rest inductionHypothesis =>
    obtain ⟨address, object⟩ := first
    obtain ⟨rfl, restFills⟩ := fills
    simp only [Forwarding.pack, inductionHypothesis restFills, List.map_cons]

/-- Entries that fill a range are packed already. -/
theorem Fills.packEntries_eq (fills : Fills start finish entries) :
    packEntries id start entries = entries := by
  induction entries generalizing start with
  | nil => rfl
  | cons first rest inductionHypothesis =>
    obtain ⟨address, object⟩ := first
    obtain ⟨rfl, restFills⟩ := fills
    simp only [packEntries, Object.relocate_id, inductionHypothesis restFills]

theorem Fills.totalSize_eq (fills : Fills start finish entries) :
    start + totalSize entries = finish := by
  induction entries generalizing start with
  | nil => exact fills
  | cons first rest inductionHypothesis =>
    obtain ⟨address, object⟩ := first
    obtain ⟨rfl, restFills⟩ := fills
    rw [totalSize_cons, ← Nat.add_assoc]
    exact inductionHypothesis restFills

end Store

/-! ## Forwarding entry by entry -/

namespace Forwarding

variable {target : Nat} {entries : List (Nat × Object)}

/-- Addresses that all stay forward every handle to itself. -/
theorem apply_self (addresses : List Nat) :
    apply (addresses.map fun address => (address, address)) = id := by
  have stays : ∀ {address new : Nat},
      find? (addresses.map fun address => (address, address)) address =
        some new → new = address := by
    intro address new found
    induction addresses with
    | nil => cases found
    | cons first rest inductionHypothesis =>
      simp only [List.map_cons, find?] at found
      split at found
      · rename_i atFirst
        exact (Option.some.inj found).symm.trans atFirst.symm
      · exact inductionHypothesis found
  funext handle
  unfold apply
  split
  · rename_i new found
    rw [stays found]
    exact Handle.ofAddress_address handle
  · rfl

private theorem moved_self (addresses : List Nat) :
    moved (addresses.map fun address => (address, address)) = 0 := by
  simp [moved]

private theorem pack_eq_map (order : Ascending entries) :
    pack target entries = entries.map fun entry =>
      (entry.1, ((pack target entries).find? entry.1).getD entry.1) := by
  induction entries generalizing target with
  | nil => rfl
  | cons first rest inductionHypothesis =>
    obtain ⟨address, object⟩ := first
    obtain ⟨firstOrder, restOrder⟩ := List.pairwise_cons.mp order
    rw [pack, List.map_cons, find?, if_pos rfl, Option.getD_some]
    congr 1
    rw [inductionHypothesis restOrder]
    refine List.map_congr_left fun entry member => ?_
    have above : address < entry.1 := firstOrder entry member
    rw [← inductionHypothesis restOrder, find?, if_neg (by omega)]

end Forwarding

theorem Store.packEntries_eq_zipWith (change : Handle → Handle) (target : Nat)
    (entries : List (Nat × Object)) :
    packEntries change target entries =
      List.zipWith (fun pair entry => (pair.2, entry.2.relocate change))
        (Forwarding.pack target entries) entries := by
  induction entries generalizing target with
  | nil => rfl
  | cons first rest inductionHypothesis =>
    simp only [packEntries, Forwarding.pack, List.zipWith_cons_cons,
      inductionHypothesis]

namespace Heap

variable {heap : Heap} {marked : List Nat}

/-! ## Survivors -/

private theorem forwarding_eq_map (heap : Heap) (marked : List Nat) :
    heap.forwarding marked =
      (heap.objects.survivors marked).map fun entry =>
        (entry.1, heap.destination marked entry.1) :=
  Forwarding.pack_eq_map (ascending_survivors heap marked)

/-- The entries after a compaction are the survivors one by one, each at its
destination. -/
theorem entries_compact (heap : Heap) (marked : List Nat) :
    (heap.compact marked).objects.entries =
      (heap.objects.survivors marked).map fun entry =>
        (heap.destination marked entry.1,
          entry.2.relocate (heap.forwarding marked).apply) := by
  have packed : Forwarding.pack heap.base (heap.objects.survivors marked) =
      (heap.objects.survivors marked).map fun entry =>
        (entry.1, heap.destination marked entry.1) :=
    forwarding_eq_map heap marked
  show Store.packEntries (heap.forwarding marked).apply heap.base
    (heap.objects.survivors marked) = _
  rw [Store.packEntries_eq_zipWith, packed, List.zipWith_map_left,
    List.zipWith_self]

private theorem moved_forwarding (heap : Heap) (marked : List Nat) :
    (heap.forwarding marked).moved =
      (heap.objects.survivors marked).countP fun entry =>
        heap.destination marked entry.1 ≠ entry.1 := by
  rw [forwarding_eq_map, Forwarding.moved, List.countP_map]
  refine List.countP_congr fun entry _ => ?_
  rw [Function.comp_apply, bne_iff_ne, decide_eq_true_eq, ne_comm]

/-! ## Collecting again -/

/-- The roots reach every object at its new address. -/
theorem SoundLayout.reaches_destination (layout : heap.SoundLayout)
    (marks : ∀ {address}, address ∈ marked ↔ heap.Reaches address)
    {address : Nat} (reached : heap.Reaches address) :
    (heap.compact marked).Reaches (heap.destination marked address) := by
  induction reached with
  | @root handle held =>
    rw [← layout.apply_movesTo marked handle]
    refine .root (List.mem_filterMap.mpr ?_)
    obtain ⟨slot, inTable, isHandle⟩ := List.mem_filterMap.mp held
    exact ⟨_, List.mem_map.mpr ⟨slot, inTable, rfl⟩,
      Option.map_eq_some_iff.mpr ⟨handle, isHandle, rfl⟩⟩
  | @reference source object target reached found refers inductionHypothesis =>
    rw [← layout.apply_movesTo marked target]
    obtain ⟨_, moved⟩ := find?_compact_destination found (marks.mpr reached)
    refine .reference inductionHypothesis moved ?_
    rw [Object.kept_relocate]
    exact List.mem_map.mpr ⟨target, refers, rfl⟩

theorem SoundLayout.reaches_of_mem_compact (layout : heap.SoundLayout)
    (marks : ∀ {address}, address ∈ marked ↔ heap.Reaches address)
    {entry : Nat × Object}
    (member : entry ∈ (heap.compact marked).objects.entries) :
    (heap.compact marked).Reaches entry.1 := by
  rw [entries_compact] at member
  obtain ⟨⟨address, object⟩, survives, rfl⟩ := List.mem_map.mp member
  obtain ⟨_, inMarked⟩ := mem_survivors_iff.mp survives
  exact layout.reaches_destination marks (marks.mp inMarked)

/-- A heap without gaps of which everything is marked stays as it is. -/
theorem compact_eq_self
    (fills : Store.Fills heap.base heap.pointer heap.objects.entries)
    (counted : heap.lastLive = heap.size)
    (all : ∀ entry ∈ heap.objects.entries, entry.1 ∈ marked) :
    heap.compact marked = heap ∧ (heap.forwarding marked).moved = 0 := by
  have survivors :
      heap.objects.survivors marked = heap.objects.entries := by
    refine List.filter_eq_self.mpr fun entry member => ?_
    simpa using all entry member
  have forwarding : heap.forwarding marked =
      (heap.objects.entries.map Prod.fst).map
        fun address => (address, address) := by
    rw [Heap.forwarding, survivors, fills.pack_eq]
  have stays : (heap.forwarding marked).apply = id := by
    rw [forwarding, Forwarding.apply_self]
  have total := fills.totalSize_eq
  refine ⟨?_, by rw [forwarding, Forwarding.moved_self]⟩
  ext1
  · rfl
  · refine Store.ext ?_
    show Store.packEntries _ _ _ = _
    rw [stays, survivors, fills.packEntries_eq]
  · show heap.base + Store.totalSize _ = _
    rw [survivors, total]
  · show heap.roots.map (Option.map _) = _
    rw [stays, Option.map_id_fun, List.map_id_fun, id]
  · show Store.totalSize _ = _
    rw [survivors, counted, size, ← total, Nat.add_sub_cancel_left]
  · rfl

/-! ## Truthful collections -/

/-- What a collection leaves of a heap, and what it says of that. -/
structure Packs (before after : Heap) (stats : CollectionStats)
    (forward : Nat → Nat) (survivors : List (Nat × Object)) : Prop where
  /-- The survivors, in address order, are the objects that the roots reach. -/
  sublist : survivors.Sublist before.objects.entries
  reached : ∀ entry ∈ before.objects.entries,
    entry ∈ survivors ↔ before.Reaches entry.1
  /-- They are all that is left, in their old order, as the same objects. -/
  moved : List.Forall₂
    (fun old new => new.1 = forward old.1 ∧ old.2.MovesTo forward new.2)
    survivors after.objects.entries
  /-- There is no gap between them, nor below or above them. -/
  filled : Store.Fills before.base after.pointer after.objects.entries
  /-- The live bytes are those of the heap after the collection and those of
  the survivors. -/
  live_eq_size : before.base + stats.live = after.pointer
  live_eq_total : stats.live = Store.totalSize survivors
  /-- The bytes given back are the rest of the heap before. -/
  reclaimed : before.base + stats.live + stats.reclaimed = before.pointer
  /-- The objects counted as moved are those whose address has changed. -/
  moved_eq : stats.moved =
    survivors.countP fun entry => forward entry.1 ≠ entry.1

theorem SoundLayout.packs_compact (layout : heap.SoundLayout)
    (ordered : heap.base ≤ heap.pointer)
    (marks : ∀ {address}, address ∈ marked ↔ heap.Reaches address) :
    heap.Packs (heap.compact marked) (heap.collectionStats marked)
      (heap.destination marked) (heap.objects.survivors marked) where
  sublist := List.filter_sublist
  reached := by
    intro entry member
    rw [← marks]
    simp [Store.survivors, member]
  moved := by
    rw [entries_compact, List.forall₂_map_right_iff, List.forall₂_same]
    intro entry _
    refine ⟨rfl, Object.movesTo_relocate fun target _ => ?_⟩
    exact layout.apply_movesTo marked target
  filled := Store.fills_packEntries ..
  live_eq_size := by
    rw [collectionStats, size_compact]
    rfl
  live_eq_total := size_compact heap marked
  reclaimed := by
    have shorter := layout.pointer_compact_le ordered marked
    have left : (heap.compact marked).pointer =
        heap.base + (heap.compact marked).size := by
      rw [size_compact]
      rfl
    have whole : heap.size = heap.pointer - heap.base := rfl
    show heap.base + (heap.compact marked).size +
      (heap.size - (heap.compact marked).size) = heap.pointer
    omega
  moved_eq := moved_forwarding heap marked

/-- On a heap that passes the check, a collection packs what the roots reach
and reports it truly, and a collection right after it finds nothing to give
back, moves nothing and changes nothing. -/
theorem collect_packs {heap : Heap} (checked : heap.check = .ok ())
    (ordered : heap.base ≤ heap.pointer) :
    ∃ stats after forward survivors,
      collect heap = .ok stats after ∧
      heap.Packs after stats forward survivors ∧
      collect after =
        .ok { live := stats.live, reclaimed := 0, moved := 0 } after := by
  have sound := check_eq_ok_iff.mp checked
  obtain ⟨marked, outcome⟩ := exists_mark_eq_ok_iff.mpr sound.traceable
  have marks : ∀ {address}, address ∈ marked ↔ heap.Reaches address :=
    mem_of_mark_eq_ok_iff outcome
  refine ⟨_, _, _, _, sound.collect_eq_ok outcome,
    sound.layout.packs_compact ordered marks, ?_⟩
  have soundAfter := sound.sound_compact marks
  obtain ⟨again, outcomeAgain⟩ :=
    exists_mark_eq_ok_iff.mpr soundAfter.traceable
  have all : ∀ entry ∈ (heap.compact marked).objects.entries,
      entry.1 ∈ again := fun entry member =>
    (mem_of_mark_eq_ok_iff outcomeAgain).mpr
      (sound.layout.reaches_of_mem_compact marks member)
  have fills : Store.Fills (heap.compact marked).base
      (heap.compact marked).pointer (heap.compact marked).objects.entries :=
    Store.fills_packEntries ..
  obtain ⟨same, unmoved⟩ :=
    compact_eq_self fills (size_compact heap marked).symm all
  rw [soundAfter.collect_eq_ok outcomeAgain, collectionStats, same, unmoved,
    Nat.sub_self]
  rfl

/-- A bignum that stays, a small word that nothing keeps, the bignum's digits
in a buffer that was cut short, and above the gap an array and an option in a
circle. -/
def gappedHeap : Heap where
  config := {}
  objects := {
    entries := [
      (0x10000, .bigInteger
        { used := 1, capacity := 1,
          storage := some (.startOf (Handle.ofAddress 0x1001c)) }),
      (0x10014, .smallWord 7),
      (0x1001c, .blob (Bytes.ofList [9, 0, 0, 0, 0])),
      (0x10040, .array [.pointer (Handle.ofAddress 0x1004c)]),
      (0x1004c, .optional (.pointer (Handle.ofAddress 0x10040)))]
    ascending := by simp [Ascending] }
  pointer := 0x10060
  roots :=
    [some (Handle.ofAddress 0x10000), none, some (Handle.ofAddress 0x10040)]
  lastLive := 0
  allocated := 0x60

theorem gappedHeap_packs :
    gappedHeap.check = .ok () ∧ gappedHeap.base ≤ gappedHeap.pointer ∧
      ∃ stats after forward survivors,
        stats = { live := 56, reclaimed := 40, moved := 3 } ∧
        collect gappedHeap = .ok stats after ∧
        gappedHeap.Packs after stats forward survivors ∧
        collect after =
          .ok { live := stats.live, reclaimed := 0, moved := 0 } after := by
  have checked : gappedHeap.check = .ok () := by decide
  have ordered : gappedHeap.base ≤ gappedHeap.pointer := by decide
  have counted : Ensures collect gappedHeap
      (fun stats _ => stats = { live := 56, reclaimed := 40, moved := 3 })
      fun _ _ => False := by
    decide +kernel
  obtain ⟨stats, after, forward, survivors, outcome, packs, again⟩ :=
    collect_packs checked ordered
  exact ⟨checked, ordered, stats, after, forward, survivors,
    counted.of_ok outcome, outcome, packs, again⟩

end Heap

end ManagedHeap
