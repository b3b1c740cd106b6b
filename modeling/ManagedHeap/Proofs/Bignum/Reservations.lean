import ManagedHeap.Proofs.Bignum.Inspection
import ManagedHeap.Proofs.Bignum.Usable

/-!
# Reservations

Products, shifts and powers ask for room before they are computed. For a
product and a shift it is enough room, so nothing is allocated any more when
the result is stored (`ReservesEnough`). For a power it is no more than the
power needs, so a power whose room is refused could not have been stored
without asking either (`ReservesLeast`).
-/

namespace ManagedHeap

/-! ## Digits of results -/

namespace Digits

open Positional (bitLength ceilDiv)

theorem count_le_iff {magnitude digits : Nat} :
    count magnitude ≤ digits ↔ magnitude < 2 ^ (32 * digits) := by
  rw [← Positional.bitLength_le_iff, count, ceilDiv]
  omega

/-- A product has at most as many digits as both factors. -/
theorem count_mul_le (left right : Nat) :
    count (left * right) ≤ count left + count right := by
  have leftBound := count_le_iff.mp (Nat.le_refl (count left))
  have rightBound := count_le_iff.mp (Nat.le_refl (count right))
  rw [count_le_iff, Nat.mul_add, Nat.pow_add]
  exact Nat.mul_lt_mul_of_lt_of_lt leftBound rightBound

/-- A shift adds at most the digits that its bits fill. -/
theorem count_mul_two_pow_le (magnitude shift : Nat) :
    count (magnitude * 2 ^ shift) ≤ count magnitude + ceilDiv shift 32 := by
  have bound := count_le_iff.mp (Nat.le_refl (count magnitude))
  have filled : shift ≤ 32 * ceilDiv shift 32 := by
    rw [ceilDiv]
    omega
  rw [count_le_iff, Nat.mul_add, Nat.pow_add]
  calc
    magnitude * 2 ^ shift < 2 ^ (32 * count magnitude) * 2 ^ shift :=
      Nat.mul_lt_mul_of_pos_right bound (Nat.two_pow_pos shift)
    _ ≤ 2 ^ (32 * count magnitude) * 2 ^ (32 * ceilDiv shift 32) :=
      Nat.mul_le_mul_left _ (Nat.pow_le_pow_right (by omega) filled)

/-- A power has at least the bits of that power of the highest bit. -/
theorem le_bitLength_pow {base : Nat} (positive : base ≠ 0) (exponent : Nat) :
    (bitLength base - 1) * exponent + 1 ≤ bitLength (base ^ exponent) := by
  have least := Nat.pow_le_pow_left
    (Positional.two_pow_le_of_bitLength positive) exponent
  have notShort :
      ¬bitLength (base ^ exponent) ≤ (bitLength base - 1) * exponent := by
    rwa [Positional.bitLength_le_iff, Nat.not_lt, Nat.pow_mul]
  omega

end Digits

namespace Bignum

open Positional (bitLength ceilDiv)

private theorem leastPowerDigits_le_count {base : Int} (exponent : Nat)
    (several : 1 < bitLength base.natAbs) :
    leastPowerDigits (bitLength base.natAbs) exponent ≤
      Digits.count (base ^ exponent).natAbs := by
  have nonzero : base.natAbs ≠ 0 := by
    intro zero
    rw [zero] at several
    exact absurd several (by decide)
  have bits := Digits.le_bitLength_pow nonzero exponent
  rw [Int.natAbs_pow, leastPowerDigits, Digits.count, digitBits]
  simp only [ceilDiv]
  omega

/-- The least digits of a power in unsigned 64-bit arithmetic that stops at
the greatest value, cut to the greatest 32-bit value where they exceed it. -/
def saturatedPowerDigits (bits exponent : Nat) : Nat :=
  let greatest := 2 ^ 64 - 1
  let product := min ((bits - 1) * exponent) greatest
  let digits := ceilDiv (min (product + 1) greatest) digitBits
  if digits ≤ maxAddress then digits else maxAddress

/-- Where the arithmetic stops, there are too many digits anyway. -/
theorem saturatedPowerDigits_eq (bits exponent : Nat) :
    saturatedPowerDigits bits exponent = leastPowerDigits bits exponent := by
  unfold saturatedPowerDigits leastPowerDigits
  dsimp only
  rw [← Nat.min_def]
  simp only [maxAddress, digitBits, ceilDiv]
  generalize (bits - 1) * exponent = product
  omega

/-! ## Refused room -/

variable {heap : Heap} {before middle after : Workspace} {value : Int}

private theorem fullSize_blob_le {short long : Bytes}
    (longer : short.size ≤ long.size) :
    (Object.blob short).fullSize ≤ (Object.blob long).fullSize :=
  Nat.mul_le_mul_left wordSize (Object.blobWords_mono longer)

/-- Where one buffer does not fit, a longer one does not either. -/
theorem exists_error_of_allots {operation : HeapM PayloadPointer}
    {short long : Bytes} {answers : Handle → PayloadPointer → Prop}
    (allots : heap.Allots operation (.blob long) answers)
    (noFit : ¬heap.Fits (.blob short)) (longer : short.size ≤ long.size) :
    ∃ error, operation heap = .error error heap ∧ error.IsOutOfMemory := by
  have larger := fullSize_blob_le longer
  cases outcome : operation heap with
  | ok start after =>
    have fits := (allots.of_ok outcome).1
    exact absurd (Nat.le_trans (Nat.add_le_add_left larger _) fits) noFit
  | error error after =>
    obtain ⟨_, rfl, outOfMemory⟩ := allots.of_error outcome
    exact ⟨error, rfl, outOfMemory⟩

private theorem storageSize_le {few many : Nat} (fewer : few ≤ many) :
    storageSize few ≤ storageSize many := by
  simp only [storageSize, digitBytes, maxAddress]
  omega

/-- New storage that does not fit for few digits does not fit for many. -/
theorem exists_error_of_allocateDigits {number : Bignum} {few many : Nat}
    {error : Error} {after : Heap} (backs : heap.Backs number)
    (fewer : few ≤ many)
    (failed : number.allocateDigits few heap = .error error after) :
    error.IsOutOfMemory ∧ after = heap ∧
      ∃ later, number.allocateDigits many heap = .error later heap ∧
        later.IsOutOfMemory := by
  unfold allocateDigits at failed ⊢
  cases stored : number.storage with
  | none =>
    rw [stored] at failed
    obtain ⟨noFit, unchanged, outOfMemory⟩ :=
      (Heap.allots_calloc heap few digitBytes).of_error failed
    refine ⟨outOfMemory, unchanged, ?_⟩
    refine exists_error_of_allots (Heap.allots_calloc heap many digitBytes)
      noFit ?_
    rw [Bytes.size_zeros, Bytes.size_zeros]
    exact Nat.mul_le_mul_right digitBytes fewer
  | some start =>
    rw [stored] at failed
    obtain ⟨atStart, bytes, found, recorded, addressable⟩ :=
      backs.stored start stored
    have room := Object.le_of_le_lengthWord recorded
    have oldSize : storageSize number.capacity = digitBytes * number.capacity :=
      storageSize_of_le (by omega)
    have inside : start.offset + storageSize number.capacity ≤ bytes.size := by
      omega
    have more := storageSize_le fewer
    by_cases enough :
      storageSize few ≤ Object.lengthWord bytes.size - start.offset
    · have stays : Heap.realloc start (storageSize number.capacity)
          (storageSize few) heap = .ok start heap :=
        Heap.realloc_of_le found enough
      cases stays.symm.trans failed
    · have short := Nat.lt_of_not_le enough
      have longer : storageSize number.capacity ≤ storageSize few := by omega
      obtain ⟨noFit, unchanged, outOfMemory⟩ :=
        (Heap.allots_realloc found short longer inside).of_error failed
      refine ⟨outOfMemory, unchanged, ?_⟩
      refine exists_error_of_allots (Heap.allots_realloc found
        (Nat.lt_of_lt_of_le short more) (Nat.le_trans longer more) inside)
        noFit ?_
      have kept :
          (bytes.slice start.offset (storageSize number.capacity)).size ≤
          storageSize few := by
        rw [← Bytes.length_toList, Bytes.toList_slice, List.length_take,
          List.length_drop, Bytes.length_toList]
        omega
      rw [Heap.size_enlarged kept, Heap.size_enlarged (Nat.le_trans kept more)]
      exact more

private theorem grow_of_le
    {count : Nat} (enough : count ≤ before.target.capacity) :
    grow count before = .ok () before := by
  show (if before.target.capacity < count then _ else pure () : DigitM Unit)
    before = _
  rw [if_neg (Nat.not_lt.mpr enough)]
  rfl

private theorem grow_of_lt
    {count : Nat} (short : before.target.capacity < count) :
    grow count before =
      match before.target.allocateDigits count before.heap with
      | .ok start heap => .ok () ⟨heap,
          { before.target with capacity := count, storage := some start }⟩
      | .error error heap => .error error { before with heap } := by
  show (if before.target.capacity < count then
      DigitM.onHeap (before.target.allocateDigits count) >>= _
    else pure () : DigitM Unit) before = _
  rw [if_pos short]
  simp only [bind, EStateM.bind, DigitM.onHeap]
  cases before.target.allocateDigits count before.heap <;> rfl

/-- Room that is refused is refused for more digits too. -/
theorem exists_error_of_grow {few many : Nat} {error : Error}
    (backs : before.heap.Backs before.target) (fewer : few ≤ many)
    (failed : grow few before = .error error after) :
    error.IsOutOfMemory ∧ after = before ∧
      ∃ later, grow many before = .error later before ∧
        later.IsOutOfMemory := by
  by_cases short : before.target.capacity < few
  · rw [grow_of_lt short] at failed
    rw [grow_of_lt (Nat.lt_of_lt_of_le short fewer)]
    cases refused : before.target.allocateDigits few before.heap with
    | ok start heap =>
      rw [refused] at failed
      cases failed
    | error failure heap =>
      rw [refused] at failed
      cases failed
      obtain ⟨outOfMemory, rfl, later, refusedLater, laterOutOfMemory⟩ :=
        exists_error_of_allocateDigits backs fewer refused
      rw [refusedLater]
      exact ⟨outOfMemory, rfl, later, rfl, laterOutOfMemory⟩
  · rw [grow_of_le (Nat.le_of_not_lt short)] at failed
    cases failed

/-- An integer asks for room for its digits before it is written. -/
theorem assign_of_grow_eq_error {error : Error}
    (failed : grow (Digits.count value.natAbs) before = .error error after) :
    assign value before = .error error after := by
  simp only [assign, store, bind, EStateM.bind, failed]

/-! ## Room that is enough -/

/-- No space was taken and every object stands where it stood; the target has
the storage that it had. -/
structure AllocatesNothing (before after : Workspace) : Prop where
  pointer : after.heap.pointer = before.heap.pointer
  allocated : after.heap.allocated = before.heap.allocated
  addresses : ∀ address, (after.heap.objects.find? address).isSome =
    (before.heap.objects.find? address).isSome
  storage : after.target.storage = before.target.storage

theorem Assigns.allocatesNothing (bounded : before.heap.Bounded)
    (assigns : Assigns value 0 before after) :
    AllocatesNothing before after := by
  have same : after.heap.pointer = before.heap.pointer :=
    Nat.le_antisymm assigns.pointer_le assigns.rewrites.pointer_le
  have afterBounded := assigns.rewrites.bounded bounded
  have noneAbove : ∀ {address}, before.heap.pointer ≤ address →
      after.heap.objects.find? address = none :=
    fun above => afterBounded.find?_eq_none (same ▸ above)
  refine ⟨same, ?_, ?_, ?_⟩
  · have accounted := assigns.rewrites.accounted
    omega
  · intro address
    cases found : before.heap.objects.find? address with
    | some object =>
      rcases assigns.rewrites.rewritten found with kept | ⟨_, _, _, later, _⟩
      · rw [kept]
      · rw [later]
        rfl
    | none =>
      cases foundAfter : after.heap.objects.find? address with
      | none => rfl
      | some object =>
        rw [noneAbove (assigns.rewrites.fresh foundAfter found)] at foundAfter
        cases foundAfter
  · rcases assigns.storage with kept | fresh
    · exact kept
    · cases stored : after.target.storage with
      | none =>
        cases storedBefore : before.target.storage with
        | none => rfl
        | some start =>
          have stays := assigns.stays_stored (by rw [storedBefore]; rfl)
          rw [stored] at stays
          cases stays
      | some start =>
        obtain ⟨_, bytes, found, _⟩ := assigns.backs.stored start stored
        rw [noneAbove (fresh _ ⟨start, stored, rfl⟩)] at found
        cases found

/-- An operation asks for room first and stores an integer then, for which the
room is enough. -/
structure ReservesEnough (operation : DigitM Unit) (before : Workspace)
    (room : Nat) (value : Int) : Prop where
  asks_first : operation before = (do grow room; assign value) before
  enough : Digits.count value.natAbs ≤ room
  stores : ∀ middle, grow room before = .ok () middle →
    ∃ after, assign value middle = .ok () after ∧
      AllocatesNothing middle after

theorem reservesEnough {operation : DigitM Unit} {room : Nat}
    (bounded : before.heap.Bounded) (backs : before.heap.Backs before.target)
    (asks_first : operation before = (do grow room; assign value) before)
    (enough : Digits.count value.natAbs ≤ room) :
    ReservesEnough operation before room value where
  asks_first := asks_first
  enough := enough
  stores := by
    intro middle grown
    obtain ⟨widens, capacity⟩ :=
      (ensures_grow room bounded backs).of_ok grown
    have middleBounded := widens.rewrites.bounded bounded
    have fits : Digits.count value.natAbs ≤ middle.target.capacity :=
      capacity ▸ Nat.le_trans enough (Nat.le_max_right ..)
    have stored := ensures_assign value middleBounded widens.backs
    rw [growth_of_le fits] at stored
    obtain ⟨_, after, outcome, assigns⟩ := Ensures.exists_ok
      (stored.mono (fun _ _ assigns => assigns) fun _ _ failed =>
        absurd failed.2.2.1 (Nat.lt_irrefl 0))
    exact ⟨after, outcome, assigns.allocatesNothing middleBounded⟩

/-- An operation asks for room first, for no more than the integer needs that
it stores then. Where the room is refused, there is none for the integer
either. -/
structure ReservesLeast (operation : DigitM Unit) (before : Workspace)
    (room : Nat) (value : Int) : Prop where
  asks_first : operation before = (do grow room; assign value) before
  needed : room ≤ Digits.count value.natAbs
  refused : ∀ error after, grow room before = .error error after →
    error.IsOutOfMemory ∧ after = before ∧
      ∃ later, assign value before = .error later before ∧
        later.IsOutOfMemory

theorem reservesLeast {operation : DigitM Unit} {room : Nat}
    (backs : before.heap.Backs before.target)
    (asks_first : operation before = (do grow room; assign value) before)
    (needed : room ≤ Digits.count value.natAbs) :
    ReservesLeast operation before room value where
  asks_first := asks_first
  needed := needed
  refused := by
    intro error after failed
    obtain ⟨outOfMemory, unchanged, later, refusedLater, laterOutOfMemory⟩ :=
      exists_error_of_grow backs needed failed
    exact ⟨outOfMemory, unchanged, later, assign_of_grow_eq_error refusedLater,
      laterOutOfMemory⟩

/-! ## Operations -/

section Operations

variable {left right operand : Bignum} {x y : Int}

private theorem mul_eq (readLeft : left.value before.heap = .ok x)
    (readRight : right.value before.heap = .ok y) :
    mul left right before =
      (do grow (left.used + right.used); assign (x * y)) before := by
  simp only [mul, bind, EStateM.bind, DigitM.inspect, DigitM.onHeap,
    HeapM.inspect, readLeft, readRight]

private theorem pow_eq
    {exponent : Nat} (read : operand.value before.heap = .ok x)
    (several : 1 < bitLength x.natAbs) (more : 1 < exponent) :
    pow operand exponent before =
      (do
        grow (leastPowerDigits (bitLength x.natAbs) exponent)
        assign (x ^ exponent)) before := by
  simp only [pow, bind, EStateM.bind, DigitM.inspect, DigitM.onHeap,
    HeapM.inspect, read, if_pos (And.intro several more)]

/-- Room that is there is only looked at. -/
theorem reserve_of_le {count : Nat} (backs : before.heap.Backs before.target)
    (enough : count ≤ before.target.capacity) :
    reserve count before = .ok () before := by
  have within : before.target.writtenSpan count ≤ before.target.capacity :=
    Nat.max_le.mpr ⟨enough, backs.used_le_capacity⟩
  simp only [reserve, bind, EStateM.bind, grow_of_le enough]
  show (if 0 < before.target.writtenSpan count then
      DigitM.inspect (before.target.digitsStart _) >>= _
    else pure () : DigitM Unit) before = _
  split
  · obtain ⟨start, bytes, stored, atStart, found, claimed⟩ :=
      backs.exists_start (by omega)
    have room := Nat.le_trans (Nat.mul_le_mul_left digitBytes within) claimed
    simp only [DigitM.inspect, bind, EStateM.bind, DigitM.onHeap, HeapM.inspect,
      digitsStart_eq_ok stored atStart found room]
    rfl
  · rfl

/-- The room that a shift asks for; zero needs none. -/
def shiftReservation (used : Nat) (operand : Int) (count : Nat) : Nat :=
  if operand = 0 then 0 else used + ceilDiv count digitBits

private theorem count_shifted_le (operand : Int) (count : Nat) :
    Digits.count (operand * 2 ^ count).natAbs ≤
      Digits.count operand.natAbs + ceilDiv count digitBits := by
  rw [Int.natAbs_mul, Int.natAbs_pow]
  exact Digits.count_mul_two_pow_le operand.natAbs count

/-- A shift makes sure of its digits a second time, in room that is there
already. -/
theorem shiftLeft_eq (bounded : before.heap.Bounded)
    (backs : before.heap.Backs before.target) (count : Nat)
    (read : operand.value before.heap = .ok x)
    (used : operand.used = Digits.count x.natAbs) :
    shiftLeft operand count before =
      (do
        grow (shiftReservation operand.used x count)
        assign (x * 2 ^ count)) before := by
  have nonnegative : ¬(count : Int) < 0 := by omega
  simp only [shiftLeft, shiftReservation, bind, EStateM.bind,
    if_neg nonnegative, DigitM.inspect, DigitM.onHeap, HeapM.inspect, read,
    Int.toNat_natCast]
  by_cases zero : x = 0
  · rw [if_pos zero, if_pos zero]
    simp only [grow_of_le (Nat.zero_le _), zero, Int.zero_mul]
  · simp only [if_neg zero]
    have digits : ceilDiv (bitLength x.natAbs + count) digitBits ≤
        operand.used + ceilDiv count digitBits := by
      rw [used, Digits.count, digitBits]
      simp only [ceilDiv]
      omega
    cases grown : grow (operand.used + ceilDiv count digitBits) before with
    | error error after => simp [EStateM.bind, grown]
    | ok _ middle =>
      obtain ⟨widens, capacity⟩ := (ensures_grow _ bounded backs).of_ok grown
      have there := reserve_of_le widens.backs
        (Nat.le_trans digits (capacity ▸ Nat.le_max_right ..))
      simp [EStateM.bind, grown, there]

end Operations

/-! ## Any heap -/

/-- What the products, shifts and powers of two bignums ask for, in a
workspace. The sums of digits do not leave 32 bits, and the bound on a power
is the one of saturating 64-bit arithmetic. -/
structure ReservesSoundly (left right : Bignum) (before : Workspace) :
    Prop where
  mul : ReservesEnough (mul left right) before (left.used + right.used)
    (left.integer before.heap * right.integer before.heap)
  mul_lt : left.used + right.used < 2 ^ 32
  shiftLeft : ∀ count : Nat, ReservesEnough (left.shiftLeft count) before
    (shiftReservation left.used (left.integer before.heap) count)
    (left.integer before.heap * 2 ^ count)
  shiftLeft_lt : ∀ count < 2 ^ 31,
    left.used + ceilDiv count digitBits < 2 ^ 32
  pow : ∀ exponent, 1 < bitLength (left.integer before.heap).natAbs →
    1 < exponent → ReservesLeast (left.pow exponent) before
      (saturatedPowerDigits (bitLength (left.integer before.heap).natAbs)
        exponent)
      (left.integer before.heap ^ exponent)

variable {target left right : Bignum}

private theorem used_eq_count {number : Bignum} (usable : heap.Usable number) :
    number.used = Digits.count (number.integer heap).natAbs := by
  obtain ⟨digits, read, length, last⟩ := usable.exists_digits
  have value := (Heap.value_of_digits read).symm.trans usable.value_eq
  rw [← Except.ok.inj value, Heap.natAbs_apply, ← length,
    Digits.length_eq_count last]

/-- Digits that are there lie below the top address. -/
theorem used_lt {number : Bignum} (backs : heap.Backs number) :
    number.used < 2 ^ 30 := by
  have claimed := backs.used_le_capacity
  cases stored : number.storage with
  | none =>
    rw [backs.unstored stored] at claimed
    omega
  | some start =>
    obtain ⟨_, bytes, _, room, addressable⟩ := backs.stored start stored
    simp only [digitBytes, maxAddress] at room addressable
    omega

/-- In a heap that passes the check, with a heap pointer of 32 bits, whatever
is asked for before a product or a shift is computed is enough for it, and
whatever is asked for before a power is computed is needed for it, for usable
operands of all sizes and any usable target. -/
theorem reservations_sound (checked : heap.check = .ok ())
    (addressable : heap.pointer ≤ maxAddress) (usable : heap.Usable target)
    (leftUsable : heap.Usable left) (rightUsable : heap.Usable right) :
    ReservesSoundly left right ⟨heap, target⟩ := by
  have bounded := (Heap.check_eq_ok_iff.mp checked).layout.bounded
  have backs := usable.backs bounded addressable
  have leftUsed := used_eq_count leftUsable
  have rightUsed := used_eq_count rightUsable
  have leftBound := used_lt (leftUsable.backs bounded addressable)
  have rightBound := used_lt (rightUsable.backs bounded addressable)
  constructor
  · refine reservesEnough bounded backs
      (mul_eq leftUsable.value_eq rightUsable.value_eq) ?_
    rw [leftUsed, rightUsed, Int.natAbs_mul]
    exact Digits.count_mul_le ..
  · omega
  · intro count
    refine reservesEnough bounded backs
      (shiftLeft_eq bounded backs count leftUsable.value_eq leftUsed) ?_
    unfold shiftReservation
    split
    · rename_i zero
      simp only at zero ⊢
      rw [zero, Int.zero_mul]
      exact Nat.le_refl 0
    · rw [leftUsed]
      exact count_shifted_le ..
  · intro count small
    simp only [ceilDiv, digitBits]
    omega
  · intro exponent several more
    rw [saturatedPowerDigits_eq]
    exact reservesLeast backs (pow_eq leftUsable.value_eq several more)
      (leastPowerDigits_le_count exponent several)

/-- Seven and minus two, with minus two as the target. There is room for their
product, and none for the 313 digits that seven to the power of 5000 has at
least. -/
theorem seven_reservations :
    pairHeap.check = .ok () ∧ pairHeap.pointer ≤ maxAddress ∧
      pairHeap.Usable minusTwo ∧ pairHeap.Usable seven ∧
      ReservesSoundly seven minusTwo ⟨pairHeap, minusTwo⟩ ∧
      (∃ middle after, grow 2 ⟨pairHeap, minusTwo⟩ = .ok () middle ∧
        assign (seven.integer pairHeap * minusTwo.integer pairHeap) middle =
          .ok () after ∧ AllocatesNothing middle after) ∧
      ∃ error, assign (seven.integer pairHeap ^ 5000) ⟨pairHeap, minusTwo⟩ =
        .error error ⟨pairHeap, minusTwo⟩ ∧ error.IsOutOfMemory := by
  have checked : pairHeap.check = .ok () := by decide
  have addressable : pairHeap.pointer ≤ maxAddress := by decide
  have sound := reservations_sound checked addressable usable_minusTwo
    usable_seven usable_minusTwo
  have grows : Ensures (grow 2) ⟨pairHeap, minusTwo⟩ (fun _ _ => True)
      (fun _ _ => False) := by
    decide +kernel
  have isSeven : seven.integer pairHeap = 7 := by decide +kernel
  have crowded : Ensures (grow (saturatedPowerDigits 3 5000))
      ⟨pairHeap, minusTwo⟩ (fun _ _ => False) (fun _ _ => True) := by
    decide +kernel
  have power := sound.pow 5000 (by rw [isSeven]; decide) (by decide)
  refine ⟨checked, addressable, usable_minusTwo, usable_seven, sound, ?_, ?_⟩
  · obtain ⟨_, middle, grown, _⟩ := grows.exists_ok
    obtain ⟨after, stored, nothing⟩ := sound.mul.stores middle grown
    exact ⟨middle, after, grown, stored, nothing⟩
  · cases refused : grow (saturatedPowerDigits 3 5000)
        ⟨pairHeap, minusTwo⟩ with
    | ok _ middle => exact (crowded.of_ok refused).elim
    | error error after =>
      have bits : Positional.bitLength (seven.integer pairHeap).natAbs = 3 := by
        rw [isSeven]
        decide
      rw [bits] at power
      exact (power.refused error after refused).2.2

end Bignum

end ManagedHeap
