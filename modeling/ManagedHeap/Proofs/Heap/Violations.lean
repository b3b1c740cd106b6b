import ManagedHeap.Proofs.Heap.Checking

/-!
# What the check reports

The check passes exactly on the sound heaps, and what it reports of any other
heap is a rule that an object there breaks, at the address of that object, or
of a root's target that is missing (`check_judges`).

An object that starts below the end of the one before it in address order
overlaps it, and one that starts below the end of none may still start below
the base: both are reported as the same violation.
-/

namespace ManagedHeap.Heap

/-! ## Broken rules -/

/-- A rule that a bignum breaks. -/
inductive BignumViolates (heap : Heap) (number : Bignum) :
    Violation → Prop where
  | tooManyDigits (beyond : number.capacity < number.used) :
      heap.BignumViolates number .tooManyDigits
  | negativeZero (unused : number.used = 0)
      (negative : number.sign = .negative) :
      heap.BignumViolates number .negativeZero
  | digitsWithoutStorage (unstored : number.storage = none)
      (inUse : number.used ≠ 0) :
      heap.BignumViolates number .digitsWithoutStorage
  | storageOffset {start : PayloadPointer}
      (stored : number.storage = some start)
      (inside : start.offset ≠ 0) :
      heap.BignumViolates number .storageOffset
  | storageWithoutObject {start : PayloadPointer}
      (stored : number.storage = some start)
      (missing : heap.objects.find? start.buffer.address = none) :
      heap.BignumViolates number .storageWithoutObject
  | storageTag {start : PayloadPointer} {target : Object}
      (stored : number.storage = some start)
      (found : heap.objects.find? start.buffer.address = some target)
      (other : target.tag ≠ .blob) :
      heap.BignumViolates number (.storageTag target.tag)
  | storageTooSmall {start : PayloadPointer} {bytes : Bytes}
      (stored : number.storage = some start)
      (found : heap.objects.find? start.buffer.address = some (.blob bytes))
      (short :
        Object.lengthWord bytes.size < Bignum.digitBytes * number.capacity) :
      heap.BignumViolates number .storageTooSmall
  | notClamped {start : PayloadPointer} {bytes : Bytes}
      (stored : number.storage = some start)
      (found : heap.objects.find? start.buffer.address = some (.blob bytes))
      (inUse : number.used ≠ 0)
      (zero : (Digits.decode bytes.toList)[number.used - 1]? = some 0) :
      heap.BignumViolates number .notClamped

/-- A rule that is broken at an address: by the object there, or by a root
that refers to none there. -/
inductive Violates (heap : Heap) : Nat → Violation → Prop where
  | rootWithoutObject {root : Handle} (held : root ∈ heap.liveRoots)
      (missing : ¬heap.Holds root) :
      heap.Violates root.address .rootWithoutObject
  | misaligned {entry : Nat × Object} (member : entry ∈ heap.objects.entries)
      (unaligned : entry.1 % wordSize ≠ 0) :
      heap.Violates entry.1 .misaligned
  | belowBase {entry : Nat × Object} (member : entry ∈ heap.objects.entries)
      (below : entry.1 < heap.base) :
      heap.Violates entry.1 .overlap
  | overlap {entry other : Nat × Object} (member : entry ∈ heap.objects.entries)
      (otherMember : other ∈ heap.objects.entries)
      (different : other.1 ≠ entry.1)
      (overlapping : ¬Apart other entry) :
      heap.Violates entry.1 .overlap
  | pastHeapPointer {entry : Nat × Object}
      (member : entry ∈ heap.objects.entries)
      (past : heap.pointer < entry.1 + entry.2.size) :
      heap.Violates entry.1 .pastHeapPointer
  | danglingField {entry : Nat × Object} {target : Handle}
      (member : entry ∈ heap.objects.entries)
      (refers : target ∈ entry.2.pointers) (missing : ¬heap.Holds target) :
      heap.Violates entry.1 (.danglingField target)
  | bignum {address : Nat} {number : Bignum} {violation : Violation}
      (member : (address, .bigInteger number) ∈ heap.objects.entries)
      (violates : heap.BignumViolates number violation) :
      heap.Violates address violation

variable {heap : Heap}

theorem BignumViolates.not_soundBignum {number : Bignum} {violation : Violation}
    (violates : heap.BignumViolates number violation) :
    ¬heap.SoundBignum number := by
  intro sound
  -- What a sound bignum's storage is, whichever rule on it is broken.
  have storage : ∀ {start target}, number.storage = some start →
      heap.objects.find? start.buffer.address = some target →
      ∃ bytes, target = .blob bytes ∧
        Bignum.digitBytes * number.capacity ≤ Object.lengthWord bytes.size ∧
        (number.used ≠ 0 → ∃ digit,
          (Digits.decode bytes.toList)[number.used - 1]? = some digit ∧
            digit ≠ 0) := by
    intro start target stored found
    obtain ⟨_, bytes, blob, room, top⟩ := sound.stored start stored
    exact ⟨bytes, Option.some.inj (found.symm.trans blob), room, top⟩
  cases violates with
  | tooManyDigits beyond => exact absurd sound.used_le_capacity (by omega)
  | negativeZero unused negative =>
    cases negative.symm.trans (sound.zero_is_nonnegative unused)
  | digitsWithoutStorage unstored inUse =>
    exact inUse (sound.unstored_is_zero unstored)
  | @storageOffset start stored inside =>
    exact inside (sound.stored start stored).1
  | @storageWithoutObject start stored missing =>
    obtain ⟨_, bytes, blob, _⟩ := sound.stored start stored
    cases missing.symm.trans blob
  | storageTag stored found other =>
    obtain ⟨bytes, rfl, _⟩ := storage stored found
    exact other rfl
  | storageTooSmall stored found short =>
    obtain ⟨_, same, room, _⟩ := storage stored found
    obtain rfl := Object.blob.inj same
    omega
  | notClamped stored found inUse zero =>
    obtain ⟨_, same, _, top⟩ := storage stored found
    obtain rfl := Object.blob.inj same
    obtain ⟨digit, isDigit, nonzero⟩ := top inUse
    exact nonzero (Option.some.inj (isDigit.symm.trans zero))

/-- A heap in which a rule is broken is not sound. -/
theorem Violates.not_sound {address : Nat} {violation : Violation}
    (violates : heap.Violates address violation) : ¬heap.Sound := by
  intro sound
  have layout := sound.layout
  cases violates with
  | rootWithoutObject held missing => exact missing (sound.roots_held _ held)
  | misaligned member unaligned => exact unaligned (layout.aligned _ member)
  | belowBase member below =>
    exact absurd (layout.above_base _ member) (by omega)
  | overlap member otherMember different overlapping =>
    exact overlapping (layout.apart _ otherMember _ member different)
  | pastHeapPointer member past =>
    exact absurd (layout.below_pointer _ member) (by omega)
  | danglingField member refers missing =>
    exact missing (sound.pointers_held _ member _ refers)
  | bignum member violates =>
    exact violates.not_soundBignum (sound.bignums _ _ member)

/-! ## Errors of the check -/

/-- The first handle of a list at which no object stands. -/
theorem of_find?_not_contains_eq_some {handles : List Handle}
    {target : Handle}
    (search : (handles.find? fun handle => !heap.contains handle) =
      some target) :
    target ∈ handles ∧ ¬heap.Holds target := by
  have uncontained := List.find?_some search
  rw [← contains_eq_true_iff]
  exact ⟨List.mem_of_find?_eq_some search, by simpa using uncontained⟩

theorem violates_of_checkDigits_eq_error {address : Nat} {number : Bignum}
    {start : PayloadPointer} {bytes : Bytes} {error : Error}
    (bounded : number.used ≤ number.capacity)
    (stored : number.storage = some start)
    (found : heap.objects.find? start.buffer.address = some (.blob bytes))
    (failed : checkDigits address number bytes = .error error) :
    ∃ violation, error = .heapCheck address violation ∧
      heap.BignumViolates number violation := by
  simp only [checkDigits, Except.unit_bind_eq_error_iff, require_eq_error_iff,
    require_eq_ok_iff] at failed
  rcases failed with ⟨short, rfl⟩ | ⟨room, clamped, rfl⟩
  · exact ⟨_, rfl, .storageTooSmall stored found (Nat.lt_of_not_le short)⟩
  · obtain ⟨inUse, isZero⟩ := not_or.mp clamped
    have inside : Bignum.digitBytes * (number.used - 1) + Bignum.digitBytes ≤
        bytes.size := by
      have recorded := Object.lengthWord_le bytes.size
      simp only [Bignum.digitBytes] at room ⊢
      omega
    rw [isZeroDigit_eq_false_iff inside] at isZero
    have available : 4 * (number.used - 1) + 4 ≤ bytes.toList.length := inside
    obtain ⟨_, _, _, _, _, digit⟩ := Digits.getElem?_decode available
    have zero : (Digits.decode bytes.toList)[number.used - 1]? = some 0 := by
      rw [digit, Option.some.injEq]
      by_contra nonzero
      exact isZero ⟨_, digit, nonzero⟩
    exact ⟨_, rfl, .notClamped stored found inUse zero⟩

theorem violates_of_checkStorage_eq_error {address : Nat} {number : Bignum}
    {start : PayloadPointer} {error : Error}
    (bounded : number.used ≤ number.capacity)
    (stored : number.storage = some start)
    (failed : heap.checkStorage address number start = .error error) :
    ∃ violation, error = .heapCheck address violation ∧
      heap.BignumViolates number violation := by
  simp only [checkStorage, Except.unit_bind_eq_error_iff,
    require_eq_error_iff] at failed
  rcases failed with ⟨inside, rfl⟩ | ⟨_, failed⟩
  · exact ⟨_, rfl, .storageOffset stored inside⟩
  · unfold find at failed
    cases found : heap.objects.find? start.buffer.address with
    | none =>
      rw [found] at failed
      obtain rfl := Except.error.inj failed
      exact ⟨_, rfl, .storageWithoutObject stored found⟩
    | some target =>
      rw [found] at failed
      cases target with
      | blob bytes =>
        exact violates_of_checkDigits_eq_error bounded stored found failed
      | _ =>
        obtain rfl := Except.error.inj failed
        exact ⟨_, rfl, .storageTag stored found (by simp [Object.tag])⟩

theorem violates_of_checkBignum_eq_error {address : Nat} {number : Bignum}
    {error : Error}
    (failed : heap.checkBignum address number = .error error) :
    ∃ violation, error = .heapCheck address violation ∧
      heap.BignumViolates number violation := by
  simp only [checkBignum, Except.unit_bind_eq_error_iff, require_eq_error_iff,
    require_eq_ok_iff, Nat.not_le, not_not] at failed
  rcases failed with ⟨beyond, rfl⟩
    | ⟨bounded, ⟨⟨unused, negative⟩, rfl⟩ | ⟨_, failed⟩⟩
  · exact ⟨_, rfl, .tooManyDigits beyond⟩
  · exact ⟨_, rfl, .negativeZero unused negative⟩
  · cases stored : number.storage with
    | none =>
      rw [stored] at failed
      obtain ⟨inUse, rfl⟩ := require_eq_error_iff.mp failed
      exact ⟨_, rfl, .digitsWithoutStorage stored inUse⟩
    | some start =>
      rw [stored] at failed
      exact violates_of_checkStorage_eq_error bounded stored failed

theorem violates_of_checkPointers_eq_error {entry : Nat × Object}
    {error : Error} (member : entry ∈ heap.objects.entries)
    (failed : heap.checkPointers entry.1 entry.2 = .error error) :
    ∃ violation, error = .heapCheck entry.1 violation ∧
      heap.Violates entry.1 violation := by
  unfold checkPointers at failed
  split at failed
  · rename_i target search
    obtain rfl := Except.error.inj failed
    obtain ⟨refers, missing⟩ := of_find?_not_contains_eq_some search
    exact ⟨_, rfl, .danglingField member refers missing⟩
  · cases failed

theorem violates_of_checkObject_eq_error {previousEnd : Nat}
    {entry : Nat × Object} {error : Error}
    (member : entry ∈ heap.objects.entries)
    (overlaps : entry.1 < previousEnd → heap.Violates entry.1 .overlap)
    (failed : heap.checkObject previousEnd entry.1 entry.2 = .error error) :
    ∃ violation, error = .heapCheck entry.1 violation ∧
      heap.Violates entry.1 violation := by
  simp only [checkObject, Except.unit_bind_eq_error_iff, require_eq_error_iff,
    Nat.not_le] at failed
  rcases failed with ⟨unaligned, rfl⟩ | ⟨_, ⟨below, rfl⟩ | ⟨_, failed⟩⟩
  · exact ⟨_, rfl, .misaligned member unaligned⟩
  · exact ⟨_, rfl, overlaps below⟩
  · rcases failed with ⟨past, rfl⟩ | ⟨_, failed | ⟨_, failed⟩⟩
    · exact ⟨_, rfl, .pastHeapPointer member past⟩
    · exact violates_of_checkPointers_eq_error member failed
    · obtain ⟨address, object⟩ := entry
      cases object with
      | bigInteger number =>
        obtain ⟨violation, isError, violates⟩ :=
          violates_of_checkBignum_eq_error failed
        exact ⟨violation, isError, .bignum member violates⟩
      | _ => cases failed

/-- An object that starts below the end of an earlier one overlaps it, so it is
enough to know of the first object that starting too low breaks a rule. -/
theorem violates_of_checkObjects_eq_error {previousEnd : Nat}
    {entries : List (Nat × Object)} {error : Error}
    (order : Ascending entries)
    (members : ∀ entry ∈ entries, entry ∈ heap.objects.entries)
    (overlaps : ∀ entry ∈ entries, entry.1 < previousEnd →
      heap.Violates entry.1 .overlap)
    (failed : heap.checkObjects previousEnd entries = .error error) :
    ∃ address violation, error = .heapCheck address violation ∧
      heap.Violates address violation := by
  induction entries generalizing previousEnd with
  | nil => cases failed
  | cons first rest inductionHypothesis =>
    obtain ⟨firstOrder, restOrder⟩ := List.pairwise_cons.mp order
    have firstMember := members first List.mem_cons_self
    have restMembers : ∀ entry ∈ rest, entry ∈ heap.objects.entries :=
      fun entry member => members entry (List.mem_cons_of_mem _ member)
    rcases Except.unit_bind_eq_error_iff.mp failed with atFirst | ⟨_, inRest⟩
    · obtain ⟨violation, isError, violates⟩ :=
        violates_of_checkObject_eq_error firstMember
          (overlaps first List.mem_cons_self) atFirst
      exact ⟨first.1, violation, isError, violates⟩
    · refine inductionHypothesis restOrder restMembers ?_ inRest
      intro entry member below
      have above : first.1 < entry.1 := firstOrder entry member
      have positive := entry.2.size_pos
      refine .overlap (restMembers entry member) firstMember (by omega) ?_
      rintro (before | after) <;> omega

theorem violates_of_checkRoots_eq_error {error : Error}
    (failed : heap.checkRoots = .error error) :
    ∃ address violation, error = .heapCheck address violation ∧
      heap.Violates address violation := by
  unfold checkRoots at failed
  split at failed
  · rename_i root search
    obtain rfl := Except.error.inj failed
    obtain ⟨held, missing⟩ := of_find?_not_contains_eq_some search
    exact ⟨_, _, rfl, .rootWithoutObject held missing⟩
  · cases failed

theorem violates_of_check_eq_error {error : Error}
    (failed : heap.check = .error error) :
    ∃ address violation, error = .heapCheck address violation ∧
      heap.Violates address violation := by
  rcases Except.unit_bind_eq_error_iff.mp failed with inRoots | ⟨_, inObjects⟩
  · exact violates_of_checkRoots_eq_error inRoots
  · refine violates_of_checkObjects_eq_error heap.objects.ascending
      (fun _ member => member) ?_ inObjects
    exact fun entry member below => .belowBase member below

/-! ## The judgement of the check -/

/-- The highest digit of a bignum decides whether it is sound only when all of
its bytes are there. -/
theorem top_digit_inside {address : Nat} {number : Bignum}
    (inUse : number.used ≠ 0)
    (decided : heap.checkBignum address number = .ok () ∨
      heap.checkBignum address number =
        .error (.heapCheck address .notClamped)) :
    ∃ start bytes, number.storage = some start ∧
      heap.objects.find? start.buffer.address = some (.blob bytes) ∧
      Bignum.digitBytes * (number.used - 1) + Bignum.digitBytes ≤
        bytes.size := by
  have inside : ∀ {bytes : Bytes} {digit : UInt32},
      (Digits.decode bytes.toList)[number.used - 1]? = some digit →
      Bignum.digitBytes * (number.used - 1) + Bignum.digitBytes ≤
        bytes.size := by
    intro bytes digit isDigit
    obtain ⟨bound, _⟩ := List.getElem?_eq_some_iff.mp isDigit
    rw [Digits.length_decode, Bytes.length_toList] at bound
    simp only [Bignum.digitBytes]
    omega
  rcases decided with passed | failed
  · have sound := checkBignum_eq_ok_iff.mp passed
    cases stored : number.storage with
    | none => exact absurd (sound.unstored_is_zero stored) inUse
    | some start =>
      obtain ⟨_, bytes, found, _, top⟩ := sound.stored start stored
      obtain ⟨digit, isDigit, _⟩ := top inUse
      exact ⟨start, bytes, rfl, found, inside isDigit⟩
  · obtain ⟨violation, isError, violates⟩ :=
      violates_of_checkBignum_eq_error failed
    obtain ⟨_, rfl⟩ := Error.heapCheck.inj isError
    cases violates with
    | notClamped stored found _ zero => exact ⟨_, _, stored, found, inside zero⟩

/-- What the check says of a heap. -/
structure Judges (heap : Heap) : Prop where
  passes_iff : heap.check = .ok () ↔ heap.Sound
  /-- An error names a rule and where it is broken. -/
  names_violation : ∀ error, heap.check = .error error →
    ∃ address violation, error = .heapCheck address violation ∧
      heap.Violates address violation
  violated_iff :
    (∃ address violation, heap.Violates address violation) ↔ ¬heap.Sound
  /-- No digit is read past the end of the storage. -/
  reads_inside : ∀ address number, number.used ≠ 0 →
    heap.checkBignum address number = .ok () ∨
        heap.checkBignum address number =
          .error (.heapCheck address .notClamped) →
      ∃ start bytes, number.storage = some start ∧
        heap.objects.find? start.buffer.address = some (.blob bytes) ∧
        Bignum.digitBytes * (number.used - 1) + Bignum.digitBytes ≤ bytes.size

/-- The check decides soundness, and names a broken rule of any other heap. -/
theorem check_judges (heap : Heap) : heap.Judges where
  passes_iff := check_eq_ok_iff
  names_violation _ failed := violates_of_check_eq_error failed
  violated_iff := by
    constructor
    · rintro ⟨_, _, violates⟩
      exact violates.not_sound
    · intro unsound
      cases outcome : heap.check with
      | ok _ => exact absurd (check_eq_ok_iff.mp outcome) unsound
      | error error =>
        obtain ⟨address, violation, _, violates⟩ :=
          violates_of_check_eq_error outcome
        exact ⟨address, violation, violates⟩
  reads_inside _ _ inUse decided := top_digit_inside inUse decided

end ManagedHeap.Heap
