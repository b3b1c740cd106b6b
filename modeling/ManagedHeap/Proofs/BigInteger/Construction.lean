import ManagedHeap.Proofs.BigInteger.Results
import ManagedHeap.Proofs.Bignum.Inspection

/-!
# Constructed big integers

Big integers of machine integers and of numerals. A negative machine integer
is stored as its bit pattern first, from which a power of two is then taken.
-/

namespace ManagedHeap.BigInteger

open Bignum (Fills Assigns Widens Spends growth growthVia)

variable {heap : Heap} {workspace : Workspace} {cost : Nat} {x : Int}

/-! ## Unsigned numbers and numerals -/

theorem builds_ofUInt32 (value : UInt32) (regular : heap.Regular) :
    Builds (ofUInt32 value) heap (.ok value.toNat)
      (allocationSize heap.config.precision.toNat +
        growth heap.config.precision.toNat (Digits.count value.toNat)) := by
  refine builds_build regular fun {workspace handle} blank capacity => ?_
  rw [← capacity]
  exact delivers_of_fills blank.backs
    (Bignum.fills_setUnsigned32 value blank.regular.tidy.bounded blank.backs)

theorem builds_ofUInt64 (value : UInt64) (regular : heap.Regular) :
    Builds (ofUInt64 value) heap (.ok value.toNat)
      (allocationSize heap.config.precision.toNat +
        growth heap.config.precision.toNat (Digits.count value.toNat)) := by
  refine builds_build regular fun {workspace handle} blank capacity => ?_
  rw [← capacity]
  exact delivers_of_fills blank.backs
    (Bignum.fills_setUnsigned64 value blank.regular.tidy.bounded blank.backs)

def decimalResult (text : String) : Except Error Int :=
  Bignum.numeralResult (Numeral.read? 10 text)

theorem builds_ofDecimal (text : String) (regular : heap.Regular) :
    Builds (ofDecimal text) heap (decimalResult text)
      (allocationSize heap.config.precision.toNat +
        Bignum.resultGrowth heap.config.precision.toNat
          (decimalResult text)) := by
  refine builds_build regular fun {workspace handle} blank capacity => ?_
  rw [← capacity]
  exact delivers_of_fills blank.backs
    (Bignum.fills_readNumeral 10 text blank.regular.tidy.bounded blank.backs)

/-! ## Signed numbers -/

/-- What the power of two costs that is taken from a bit pattern. -/
def detourCost (bits : Nat) : Nat :=
  Bignum.bufferSize 1 + growthVia 1 (bits / Bignum.digitBits + 1) (2 ^ bits)

/-- A change to other buffers leaves the target as it is. -/
theorem widens_of_rewrites
    {later : Heap} (backs : workspace.heap.Backs workspace.target)
    (rewrites : Heap.Rewrites (fun _ => False) workspace.heap later)
    (pointer : later.pointer = workspace.heap.pointer + cost) :
    Widens cost workspace ⟨later, workspace.target⟩ := by
  have found :
      ∀ {start : PayloadPointer}, workspace.target.storage = some start →
      later.objects.find? start.buffer.address =
        workspace.heap.objects.find? start.buffer.address := by
    intro start stored
    obtain ⟨_, bytes, present, _⟩ := backs.stored start stored
    rw [present, rewrites.kept present not_false]
  refine ⟨⟨rewrites.mono fun _ => False.elim, Nat.le_refl _,
    ⟨backs.used_le_capacity, backs.unstored, ?_⟩, Or.inl rfl,
    Nat.le_of_eq pointer,
    fun trims => ⟨?_, pointer⟩, id⟩, rewrites, rfl, rfl, ?_,
    fun _ _ stored _ => Or.inl stored⟩
  · intro start stored
    rw [found stored]
    exact backs.stored start stored
  · intro start bytes stored present
    exact trims start bytes stored ((found stored).symm.trans present)
  · refine Heap.storedBytes_congr ?_
    rintro _ ⟨start, stored, rfl⟩
    exact found stored

private theorem value_eq_of_widens
    {later : Workspace} (widens : Widens cost workspace later) :
    later.target.value later.heap = workspace.target.value workspace.heap := by
  rw [Bignum.value, Bignum.value, Bignum.magnitude, Bignum.magnitude,
    widens.storedBytes, widens.sign]

/-- A power of two in storage of its own. -/
theorem ensures_powerOfTwo (bits : Nat) (bounded : heap.Bounded) :
    Ensures
      (do
        let start ← Bignum.zero 1
        DigitM.build start (Bignum.setPowerOfTwo bits))
      heap
      (fun power after => Heap.Rewrites (fun _ => False) heap after ∧
        power.value after = .ok (2 ^ bits) ∧
        after.pointer = heap.pointer + detourCost bits)
      (fun error after =>
        Heap.Rewrites (fun _ => False) heap after ∧ error.IsOutOfMemory ∧
        heap.config.heapLimit.toNat < heap.pointer + detourCost bits) := by
  rw [ensures_bind]
  refine (Bignum.allots_zero heap 1).mono ?_ ?_
  · rintro start middle ⟨fits, rfl, answers⟩
    have atPointer := Handle.address_ofAddress fits.pointer_lt
    obtain rfl := answers _ atPointer
    have addressable := fits.size_lt
    rw [Bytes.size_zeros] at addressable
    obtain ⟨backs, trims⟩ :=
      Bignum.backs_zero (atPointer ▸ Heap.find?_push_self heap _) addressable
    have pushed := bounded.rewrites_push fits
    have size :
        (heap.push (.blob (Bytes.zeros (1 * Bignum.digitBytes)))).pointer =
        heap.pointer + Bignum.bufferSize 1 := by
      rw [← Bignum.size_zeros_eq, fits.pointer_push]
    rw [ensures_build]
    refine (Bignum.fills_setPowerOfTwo bits (pushed.bounded bounded) backs).mono
      ?_ ?_
    · rintro _ later ⟨_, ⟨⟩, assigns⟩
      refine ⟨pushed.trans bounded assigns.rewrites ?_, assigns.value_eq, ?_⟩
      · rintro _ ⟨_, ⟨⟩, rfl⟩
        exact Or.inr (Nat.le_of_eq atPointer.symm)
      · have charged := (assigns.exact trims).2
        rw [charged, size, detourCost, Nat.add_assoc]
    · rintro error later
        (⟨impossible, _⟩ | ⟨⟨spent, widens⟩, outOfMemory, _, limit⟩)
      · cases impossible
      · refine ⟨pushed.trans bounded widens.untouched fun _ =>
          Or.inl, outOfMemory, ?_⟩
        rw [pushed.limit_eq, size] at limit
        rwa [detourCost, ← Nat.add_assoc]
  · rintro error after ⟨noFit, rfl, outOfMemory⟩
    have short := Nat.lt_of_not_le noFit
    rw [Bignum.size_zeros_eq] at short
    refine ⟨.refl _ _, outOfMemory, ?_⟩
    rw [detourCost]
    omega

/-- The power of two that is subtracted takes buffers of its own, and the
difference goes where the minuend was. -/
theorem delivers_subtractPowerOfTwo
    (bits : Nat) (bounded : workspace.heap.Bounded)
    (backs : workspace.heap.Backs workspace.target)
    (read : workspace.target.value workspace.heap = .ok x)
    (enough : Digits.count (x - 2 ^ bits).natAbs ≤ workspace.target.capacity) :
    Delivers (subtractPowerOfTwo bits) workspace
      (.ok (x - 2 ^ bits)) (detourCost bits) := by
  have power := ensures_powerOfTwo bits bounded
  have failed : ∀ (error : Error) (after : Heap),
      Heap.Rewrites (fun _ => False) workspace.heap after ∧
        error.IsOutOfMemory ∧
        workspace.heap.config.heapLimit.toNat <
          workspace.heap.pointer + detourCost bits →
      (∃ spent, Spends spent workspace ⟨after, workspace.target⟩) ∧
        ((.ok (x - 2 ^ bits) : Except Error Int) = .error error ∧
            after.pointer = workspace.heap.pointer + detourCost bits ∨
          error.IsOutOfMemory ∧
            workspace.heap.config.heapLimit.toNat <
              workspace.heap.pointer + detourCost bits) := by
    rintro error after ⟨rewrites, outOfMemory, limit⟩
    have pointer := (Nat.add_sub_of_le rewrites.pointer_le).symm
    exact ⟨⟨_, (widens_of_rewrites backs rewrites pointer).toSpends⟩,
      Or.inr ⟨outOfMemory, limit⟩⟩
  unfold Delivers subtractPowerOfTwo
  simp only [ensures_bind, ensures_onHeap, ensures_get]
  refine (ensures_bind.mp power).mono (fun start middle built =>
    built.mono ?_ failed) failed
  rintro number later ⟨rewrites, readPower, pointer⟩
  have widens := widens_of_rewrites backs rewrites pointer
  have readTarget := (value_eq_of_widens widens).trans read
  have fills :=
    Bignum.fills_sub (rewrites.bounded bounded) widens.backs readTarget
      readPower
  rw [Bignum.growth_of_le enough] at fills
  refine Ensures.mono fills ?_ ?_
  · rintro _ after ⟨value, isValue, assigns⟩
    have whole := widens.toSpends.assigns bounded assigns
    rw [Nat.add_zero] at whole
    exact ⟨value, isValue, whole⟩
  · rintro error after (⟨impossible, _⟩ | ⟨_, _, positive, _⟩)
    · cases impossible
    · exact absurd positive (Nat.lt_irrefl 0)

/-- A pattern in the target, from which a power of two is taken when the
number is negative. -/
theorem delivers_signed {pattern : DigitM Unit}
    {negative : Prop} [Decidable negative] {y : Int}
    (bits : Nat) (bounded : workspace.heap.Bounded)
    (fills : Fills pattern workspace (.ok x)
      (growth workspace.target.capacity (Digits.count x.natAbs)))
    (isValue : y = if negative then x - 2 ^ bits else x)
    (fewer : Digits.count y.natAbs ≤ Digits.count x.natAbs) :
    Delivers (do pattern; if negative then subtractPowerOfTwo bits) workspace
      (.ok y)
      (growth workspace.target.capacity (Digits.count x.natAbs) +
        if negative then detourCost bits else 0) := by
  unfold Delivers
  rw [ensures_bind]
  refine Ensures.mono fills ?_ ?_
  · rintro _ middle ⟨_, ⟨⟩, assigns⟩
    by_cases isNegative : negative
    · rw [if_pos isNegative] at isValue
      subst isValue
      simp only [if_pos isNegative]
      have enough :=
        Nat.le_trans fewer (assigns.used ▸ assigns.backs.used_le_capacity)
      refine Ensures.mono
        (delivers_subtractPowerOfTwo bits (assigns.rewrites.bounded bounded)
        assigns.backs assigns.value_eq enough) ?_ ?_
      · rintro _ after ⟨value, same, further⟩
        exact ⟨value, same, assigns.toSpends.assigns bounded further⟩
      · rintro error after ⟨⟨spent, further⟩, failure⟩
        refine ⟨⟨_, assigns.toSpends.trans bounded further⟩,
          failure.imp (nomatch ·.1) ?_⟩
        rintro ⟨outOfMemory, limit⟩
        rw [assigns.rewrites.limit_eq] at limit
        have := assigns.pointer_le
        exact ⟨outOfMemory, by omega⟩
    · rw [if_neg isNegative] at isValue
      simp only [if_neg isNegative]
      exact ⟨y, rfl, isValue ▸ assigns⟩
  · rintro error after
      (⟨impossible, _⟩ | ⟨⟨spent, widens⟩, outOfMemory, _, limit⟩)
    · cases impossible
    · exact ⟨⟨spent, widens.toSpends⟩, Or.inr ⟨outOfMemory, by omega⟩⟩

/-- What a signed number takes from the heap, from its bit pattern. -/
def signedCost (precision bits : Nat) (pattern : Nat) (negative : Prop)
    [Decidable negative] : Nat :=
  allocationSize precision +
    (growth precision (Digits.count (pattern : Int).natAbs) +
      if negative then detourCost bits else 0)

/-- A negative number is its bit pattern less a power of two, and no longer
than the pattern. -/
theorem toInt_eq_of_pattern {width : Nat} (pattern : BitVec width)
    {negative : Prop} [Decidable negative]
    (sign : negative ↔ pattern.toInt < 0) :
    pattern.toInt = (if negative then (pattern.toNat : Int) - 2 ^ width
        else (pattern.toNat : Int)) ∧
      pattern.toInt.natAbs ≤ pattern.toNat := by
  have signed := pattern.toInt_eq_toNat_cond
  have bound := pattern.isLt
  have power : ((2 ^ width : Nat) : Int) = 2 ^ width := Int.natCast_pow 2 width
  by_cases below : pattern.toInt < 0
  · rw [if_pos (sign.mpr below), ← power]
    split at signed <;> omega
  · rw [if_neg (below ∘ sign.mp)]
    split at signed <;> omega

private theorem toInt_eq_of_int32 (value : Int32) :
    value.toInt = (if value < 0 then (value.toUInt32.toNat : Int) - 2 ^ 32
        else (value.toUInt32.toNat : Int)) ∧
      value.toInt.natAbs ≤ value.toUInt32.toNat := by
  refine toInt_eq_of_pattern value.toBitVec ?_
  rw [Int32.lt_iff_toInt_lt, Int32.toInt_zero]
  rfl

private theorem toInt_eq_of_int64 (value : Int64) :
    value.toInt = (if value < 0 then (value.toUInt64.toNat : Int) - 2 ^ 64
        else (value.toUInt64.toNat : Int)) ∧
      value.toInt.natAbs ≤ value.toUInt64.toNat := by
  refine toInt_eq_of_pattern value.toBitVec ?_
  rw [Int64.lt_iff_toInt_lt, Int64.toInt_zero]
  rfl

theorem builds_ofInt32 (value : Int32) (regular : heap.Regular) :
    Builds (ofInt32 value) heap (.ok value.toInt)
      (signedCost heap.config.precision.toNat 32 value.toUInt32.toNat
        (value < 0)) := by
  refine builds_build regular fun {workspace handle} blank capacity => ?_
  have bounded := blank.regular.tidy.bounded
  rw [← capacity]
  obtain ⟨isValue, fewer⟩ := toInt_eq_of_int32 value
  refine delivers_signed 32 bounded ?_ isValue (Digits.count_le_count fewer)
  exact Bignum.fills_setUnsigned32 value.toUInt32 bounded blank.backs

theorem builds_ofInt64 (value : Int64) (regular : heap.Regular) :
    Builds (ofInt64 value) heap (.ok value.toInt)
      (signedCost heap.config.precision.toNat 64 value.toUInt64.toNat
        (value < 0)) := by
  refine builds_build regular fun {workspace handle} blank capacity => ?_
  have bounded := blank.regular.tidy.bounded
  rw [← capacity]
  obtain ⟨isValue, fewer⟩ := toInt_eq_of_int64 value
  refine delivers_signed 64 bounded ?_ isValue (Digits.count_le_count fewer)
  exact Bignum.fills_setUnsigned64 value.toUInt64 bounded blank.backs

end ManagedHeap.BigInteger
