import ManagedHeap.Proofs.Bignum.Storage
import ManagedHeap.Proofs.Heap.Collection

/-!
# Regular heaps

The invariant of heaps that only runtime operations have changed: the layout
is tidy, buffers are as long as their length words say, nothing dangles,
bignums agree with their storage, and no two of them share a digit buffer
(`Regular`). It implies that the heap is sound, and every
kind of change that the operations make keeps it.
-/

namespace ManagedHeap.Heap

/-- A heap as runtime operations leave it. -/
structure Regular (heap : Heap) : Prop where
  tidy : heap.Tidy
  recorded : heap.RecordsLengths
  roots_held : ∀ handle ∈ heap.liveRoots, heap.Holds handle
  pointers_held : ∀ {address object}, heap.objects.find? address = some object →
    ∀ target ∈ object.pointers, heap.Holds target
  bignums :
    ∀ {address number}, heap.objects.find? address = some (.bigInteger number) →
    heap.SoundBignum number
  unshared : ∀ {left right leftNumber rightNumber buffer},
    heap.objects.find? left = some (.bigInteger leftNumber) →
    heap.objects.find? right = some (.bigInteger rightNumber) →
    leftNumber.Owns buffer → rightNumber.Owns buffer → left = right

variable {heap before after : Heap}

/-! ## Soundness -/

theorem Regular.sound (regular : heap.Regular) : heap.Sound where
  roots_held := regular.roots_held
  layout := regular.tidy.layout
  pointers_held :=
    fun _ member => regular.pointers_held (Store.find?_eq_some_iff.mpr member)
  bignums :=
    fun _ _ member => regular.bignums (Store.find?_eq_some_iff.mpr member)

theorem Regular.check_eq_ok (regular : heap.Regular) : heap.check = .ok () :=
  check_eq_ok_iff.mpr regular.sound

theorem regular_empty (config : Config) : (Heap.empty config).Regular where
  tidy := tidy_empty config
  recorded := fun found => nomatch found
  roots_held := (sound_empty config).roots_held
  pointers_held := fun found => nomatch found
  bignums := fun found => nomatch found
  unshared := fun found => nomatch found

theorem SoundBignum.exists_blob
    {number : Bignum} (sound : heap.SoundBignum number)
    {buffer : Nat} (owns : number.Owns buffer) :
    ∃ bytes, heap.objects.find? buffer = some (.blob bytes) := by
  obtain ⟨start, stored, rfl⟩ := owns
  obtain ⟨_, bytes, found, _⟩ := sound.stored start stored
  exact ⟨bytes, found⟩

theorem Regular.lt_of_owns (regular : heap.Regular) {address buffer : Nat}
    {number : Bignum}
    (found : heap.objects.find? address = some (.bigInteger number))
    (owns : number.Owns buffer) :
    buffer < heap.pointer := by
  obtain ⟨bytes, blob⟩ := (regular.bignums found).exists_blob owns
  exact regular.tidy.bounded.lt blob

private theorem soundBignum_empty (heap : Heap) : heap.SoundBignum .empty where
  used_le_capacity := Nat.le_refl _
  zero_is_nonnegative := fun _ => rfl
  unstored_is_zero := fun _ => rfl
  stored := fun _ stored => nomatch stored

theorem Backs.soundBignum {number : Bignum} (backs : heap.Backs number)
    (unused : number.used = 0)
    (sign : number.sign = .nonnegative) : heap.SoundBignum number where
  used_le_capacity := backs.used_le_capacity
  zero_is_nonnegative := fun _ => sign
  unstored_is_zero := fun _ => unused
  stored := fun start stored => by
    obtain ⟨atStart, bytes, found, room, _⟩ := backs.stored start stored
    exact ⟨atStart, bytes, found, room, fun inUse => absurd unused inUse⟩

/-- A bignum whose buffer has not changed stays sound, and one without digits
needs only the room. -/
theorem SoundBignum.transfer
    {number : Bignum} (sound : before.SoundBignum number)
    (buffers : ∀ {buffer bytes}, number.Owns buffer →
      before.objects.find? buffer = some (.blob bytes) →
        ∃ later, after.objects.find? buffer = some (.blob later) ∧
          later.size = bytes.size ∧
          (later = bytes ∨ number.used = 0)) :
    after.SoundBignum number := by
  refine ⟨sound.used_le_capacity, sound.zero_is_nonnegative,
    sound.unstored_is_zero, ?_⟩
  intro start stored
  obtain ⟨atStart, bytes, found, room, top⟩ := sound.stored start stored
  obtain ⟨later, laterFound, sameSize, sameBytes⟩ :=
    buffers ⟨start, stored, rfl⟩ found
  refine ⟨atStart, later, laterFound, sameSize ▸ room, fun inUse => ?_⟩
  rcases sameBytes with rfl | unused
  · exact top inUse
  · exact absurd unused inUse

/-! ## More objects -/

theorem Holds.push {target : Handle} (bounded : heap.Bounded) (object : Object)
    (held : heap.Holds target) : (heap.push object).Holds target := by
  obtain ⟨present, found⟩ := held
  exact ⟨present, (bounded.grows_push object).found found⟩

theorem Holds.place {target handle : Handle} (object : Object)
    (held : heap.Holds target) :
    (heap.place handle object).Holds target := by
  obtain ⟨present, found⟩ := held
  unfold Holds
  rw [find?_place]
  split
  · exact ⟨object, rfl⟩
  · exact ⟨present, found⟩

/-- One more object that fits and refers to objects only. A new bignum must
not claim digits. -/
theorem Regular.push {object : Object} (regular : heap.Regular)
    (fits : heap.Fits object)
    (held : ∀ target ∈ object.pointers, heap.Holds target)
    (unclaimed : ∀ number, object = .bigInteger number → number = .empty) :
    (heap.push object).Regular := by
  have bounded := regular.tidy.bounded
  have grows := bounded.grows_push object
  have bignum_cases : ∀ {address number},
      (heap.push object).objects.find? address = some (.bigInteger number) →
        number = .empty ∨
          heap.objects.find? address = some (.bigInteger number) := by
    intro address number found
    rw [find?_push] at found
    split at found
    · exact Or.inl (unclaimed number (Option.some.inj found))
    · exact Or.inr found
  refine ⟨regular.tidy.push fits.hasRoom, ?_, ?_, ?_, ?_, ?_⟩
  · intro address bytes found
    rw [find?_push] at found
    split at found
    · obtain rfl := Option.some.inj found
      exact Nat.le_of_lt fits.size_lt
    · exact regular.recorded found
  · exact fun handle isRoot =>
      (regular.roots_held handle isRoot).push bounded object
  · intro address present found target refers
    rw [find?_push] at found
    split at found
    · obtain rfl := Option.some.inj found
      exact (held target refers).push bounded object
    · exact (regular.pointers_held found target refers).push bounded object
  · intro address number found
    rcases bignum_cases found with rfl | earlier
    · exact soundBignum_empty _
    · refine (regular.bignums earlier).transfer fun _ blob => ?_
      exact ⟨_, grows.found blob, rfl, Or.inl rfl⟩
  · intro left right leftNumber rightNumber buffer foundLeft foundRight ownsLeft
      ownsRight
    rcases bignum_cases foundLeft with rfl | earlierLeft
    · exact absurd ownsLeft (Bignum.not_owns_empty buffer)
    · rcases bignum_cases foundRight with rfl | earlierRight
      · exact absurd ownsRight (Bignum.not_owns_empty buffer)
      · exact regular.unshared earlierLeft earlierRight ownsLeft ownsRight

/-! ## Changed objects -/

/-- Another object, no larger, in place of one that is no digit buffer in
use. -/
theorem Regular.place
    {handle : Handle} {old new : Object} (regular : heap.Regular)
    (found : heap.objects.find? handle.address = some old)
    (smaller : new.size ≤ old.size)
    (recorded : ∀ bytes, new = .blob bytes → bytes.size ≤ maxAddress)
    (held : ∀ target ∈ new.pointers, heap.Holds target)
    (free : ∀ {address number},
      heap.objects.find? address = some (.bigInteger number) →
      ¬number.Owns handle.address)
    (claimed : ∀ number, new = .bigInteger number →
      heap.SoundBignum number ∧ ¬number.Owns handle.address ∧
        ∀ {buffer address other}, number.Owns buffer →
          heap.objects.find? address = some (.bigInteger other) →
          other.Owns buffer →
            address = handle.address) :
    (heap.place handle new).Regular := by
  have transfer :
      ∀ {number : Bignum}, heap.SoundBignum number →
        ¬number.Owns handle.address →
      (heap.place handle new).SoundBignum number := by
    intro number sound elsewhere
    refine sound.transfer fun owns blob => ⟨_, ?_, rfl, Or.inl rfl⟩
    rw [find?_place_of_ne heap new]
    · exact blob
    · rintro rfl
      exact elsewhere owns
  refine ⟨regular.tidy.place found smaller, ?_, ?_, ?_, ?_, ?_⟩
  · intro address bytes blob
    rw [find?_place] at blob
    split at blob
    · exact recorded bytes (Option.some.inj blob)
    · exact regular.recorded blob
  · exact fun root isRoot => (regular.roots_held root isRoot).place new
  · intro address present presentFound target refers
    rw [find?_place] at presentFound
    split at presentFound
    · obtain rfl := Option.some.inj presentFound
      exact (held target refers).place _
    · exact (regular.pointers_held presentFound target refers).place new
  · intro address number numberFound
    rw [find?_place] at numberFound
    split at numberFound
    · obtain ⟨sound, elsewhere, _⟩ :=
        claimed number (Option.some.inj numberFound)
      exact transfer sound elsewhere
    · exact transfer (regular.bignums numberFound) (free numberFound)
  · intro left right leftNumber rightNumber buffer foundLeft foundRight ownsLeft
      ownsRight
    rw [find?_place] at foundLeft foundRight
    -- Two bignums could share a buffer only if one of them is the new object.
    split at foundLeft <;> split at foundRight <;> rename_i atLeft atRight
    · exact atLeft.trans atRight.symm
    · obtain ⟨_, _, unshared⟩ := claimed leftNumber (Option.some.inj foundLeft)
      exact absurd (unshared ownsLeft foundRight ownsRight) atRight
    · obtain ⟨_, _, unshared⟩ :=
        claimed rightNumber (Option.some.inj foundRight)
      exact absurd (unshared ownsRight foundLeft ownsLeft) atLeft
    · exact regular.unshared foundLeft foundRight ownsLeft ownsRight

/-- An address with an object that is no byte buffer is no digit buffer. -/
theorem Regular.free_of_not_blob (regular : heap.Regular) {handle : Handle}
    {old : Object}
    (found : heap.objects.find? handle.address = some old)
    (notBlob : ∀ bytes, old ≠ .blob bytes) {address : Nat} {number : Bignum}
    (numberFound : heap.objects.find? address = some (.bigInteger number)) :
    ¬number.Owns handle.address := by
  intro owns
  obtain ⟨bytes, blob⟩ := (regular.bignums numberFound).exists_blob owns
  exact notBlob bytes (Option.some.inj (found.symm.trans blob))

/-- A bignum object takes a sound bignum whose buffer no other object has. -/
theorem Regular.place_bignum
    {handle : Handle} {old new : Bignum} (regular : heap.Regular)
    (found : heap.objects.find? handle.address = some (.bigInteger old))
    (sound : heap.SoundBignum new)
    (unshared : ∀ {buffer address other}, new.Owns buffer →
      heap.objects.find? address = some (.bigInteger other) →
      other.Owns buffer →
        address = handle.address) :
    (heap.place handle (.bigInteger new)).Regular := by
  refine regular.place found (Nat.le_refl _) (by simp)
    (by simp [Object.pointers, Object.fields])
    (regular.free_of_not_blob found (by simp)) ?_
  rintro _ ⟨⟩
  refine ⟨sound, fun owns => ?_, unshared⟩
  obtain ⟨bytes, blob⟩ := sound.exists_blob owns
  cases found.symm.trans blob

/-- Byte buffers may be added and written to, when no bignum object has digits
in use there. -/
theorem Regular.rewrites {written : Nat → Prop} (regular : before.Regular)
    (rewrites : Rewrites written before after)
    (unused : ∀ {address number buffer},
      before.objects.find? address = some (.bigInteger number) →
        number.Owns buffer → written buffer → number.used = 0) :
    after.Regular := by
  have earlier : ∀ {address object}, after.objects.find? address = some object →
      (∀ bytes, object ≠ .blob bytes) →
      before.objects.find? address = some object := by
    intro address object found notBlob
    cases present : before.objects.find? address with
    | none =>
      obtain ⟨bytes, rfl, _⟩ := rewrites.added found present
      exact absurd rfl (notBlob bytes)
    | some old =>
      rcases rewrites.rewritten present with same | ⟨_, later, _, laterFound, _⟩
      · exact same.symm.trans found
      · exact absurd (Option.some.inj (found.symm.trans laterFound))
          (notBlob later)
  have held : ∀ {target}, before.Holds target → after.Holds target := by
    rintro target ⟨object, found⟩
    rcases rewrites.rewritten found with same | ⟨_, later, _, laterFound, _⟩
    · exact ⟨object, same⟩
    · exact ⟨_, laterFound⟩
  refine ⟨rewrites.tidy regular.tidy, ?_, ?_, ?_, ?_, ?_⟩
  · intro address bytes found
    cases present : before.objects.find? address with
    | none =>
      obtain ⟨_, same, recorded⟩ := rewrites.added found present
      obtain rfl := Object.blob.inj same
      exact recorded
    | some old =>
      rcases rewrites.rewritten present with same
        | ⟨_, later, rfl, laterFound, sameSize⟩
      · obtain rfl := Option.some.inj (same.symm.trans found)
        exact regular.recorded present
      · obtain rfl :=
          Object.blob.inj (Option.some.inj (laterFound.symm.trans found))
        exact sameSize ▸ regular.recorded present
  · intro handle isRoot
    rw [rewrites.liveRoots_eq] at isRoot
    exact held (regular.roots_held handle isRoot)
  · intro address object found target refers
    by_cases isBlob : ∃ bytes, object = .blob bytes
    · obtain ⟨bytes, rfl⟩ := isBlob
      simp [Object.pointers, Object.fields] at refers
    · have notBlob : ∀ bytes, object ≠ .blob bytes :=
        fun bytes same => isBlob ⟨bytes, same⟩
      exact held (regular.pointers_held (earlier found notBlob) target refers)
  · intro address number found
    have numberFound := earlier found (by simp)
    refine (regular.bignums numberFound).transfer ?_
    intro buffer bytes owns blob
    rcases rewrites.rewritten blob with same | ⟨_, later, equal, laterFound,
      sameSize⟩
    · exact ⟨_, same, rfl, Or.inl rfl⟩
    · obtain rfl := Object.blob.inj equal
      by_cases isWritten : written buffer
      · exact ⟨later, laterFound, sameSize,
          Or.inr (unused numberFound owns isWritten)⟩
      · exact ⟨_, rewrites.kept blob isWritten, rfl, Or.inl rfl⟩
  · intro left right leftNumber rightNumber buffer foundLeft foundRight
    exact regular.unshared (earlier foundLeft (by simp))
      (earlier foundRight (by simp))

/-! ## Roots and collections -/

theorem Regular.withRoots {roots : List (Option Handle)}
    (regular : heap.Regular)
    (held : ∀ handle ∈ roots.filterMap id, heap.Holds handle) :
    Regular { heap with roots } where
  tidy := regular.tidy.withRoots roots
  recorded := regular.recorded
  roots_held := held
  pointers_held := regular.pointers_held
  bignums := fun found =>
    (regular.bignums found).transfer fun _ blob => ⟨_, blob, rfl, Or.inl rfl⟩
  unshared := regular.unshared

private theorem owns_moveStorage {marked : List Nat}
    (layout : heap.SoundLayout) {number : Bignum} {buffer : Nat}
    (owns : (number.moveStorage (heap.forwarding marked).apply).Owns buffer) :
    ∃ start, number.storage = some start ∧
      heap.destination marked start.buffer.address = buffer := by
  obtain ⟨moved, stored, rfl⟩ := owns
  obtain ⟨start, startStored, rfl⟩ := Option.map_eq_some_iff.mp stored
  exact ⟨start, startStored, (layout.apply_movesTo marked start.buffer).symm⟩

theorem Regular.compact {marked : List Nat} (regular : heap.Regular)
    (marks : ∀ {address}, address ∈ marked ↔ heap.Reaches address) :
    (heap.compact marked).Regular := by
  have sound := regular.sound
  have after := sound.sound_compact marks
  refine ⟨regular.tidy.compact marked, ?_, after.roots_held, ?_, ?_, ?_⟩
  · intro address bytes found
    obtain ⟨old, object, present, _, _, relocated⟩ :=
      find?_compact_eq_some found
    obtain rfl := Object.relocate_eq_blob_iff.mp relocated.symm
    exact regular.recorded present
  · exact fun found => after.pointers_held _ (Store.find?_eq_some_iff.mp found)
  · exact fun found => after.soundBignum found
  · intro left right leftNumber rightNumber buffer foundLeft foundRight ownsLeft
      ownsRight
    obtain ⟨oldLeft, objectLeft, presentLeft, leftMarked, leftForward,
      relocatedLeft⟩ :=
      find?_compact_eq_some foundLeft
    obtain ⟨oldRight, objectRight, presentRight, rightMarked, rightForward,
      relocatedRight⟩ :=
      find?_compact_eq_some foundRight
    obtain ⟨earlierLeft, rfl, rfl⟩ :=
      Object.relocate_eq_bigInteger_iff.mp relocatedLeft.symm
    obtain ⟨earlierRight, rfl, rfl⟩ :=
      Object.relocate_eq_bigInteger_iff.mp relocatedRight.symm
    obtain ⟨startLeft, storedLeft, bufferLeft⟩ :=
      owns_moveStorage sound.layout ownsLeft
    obtain ⟨startRight, storedRight, bufferRight⟩ :=
      owns_moveStorage sound.layout ownsRight
    have digits : ∀ {address number start},
        heap.objects.find? address = some (.bigInteger number) →
          address ∈ marked →
          number.storage = some start →
          start.buffer.address ∈ marked ∧
            ∃ bytes,
              heap.objects.find? start.buffer.address = some (.blob bytes) := by
      intro address number start found inMarked stored
      refine ⟨marks.mpr (.reference (marks.mp inMarked) found ?_),
        (regular.bignums found).exists_blob ⟨start, stored, rfl⟩⟩
      simp [Object.kept, Object.digitBuffer, stored]
    obtain ⟨leftBufferMarked, _, leftBlob⟩ :=
      digits presentLeft leftMarked storedLeft
    obtain ⟨rightBufferMarked, _, rightBlob⟩ :=
      digits presentRight rightMarked storedRight
    have sameBuffer :=
      eq_of_destination_eq leftBlob leftBufferMarked rightBlob rightBufferMarked
      (bufferLeft.trans bufferRight.symm)
    obtain rfl :=
      regular.unshared presentLeft presentRight ⟨startLeft, storedLeft, rfl⟩
      ⟨startRight, storedRight, sameBuffer.symm⟩
    exact Option.some.inj (leftForward.symm.trans rightForward)

end ManagedHeap.Heap
