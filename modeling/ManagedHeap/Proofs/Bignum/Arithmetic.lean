import ManagedHeap.Bignum.Arithmetic
import ManagedHeap.Bignum.Division
import ManagedHeap.Proofs.Bignum.Composition
import ManagedHeap.Proofs.Bignum.Writing

/-!
# Exact arithmetic

Every operation on bignums in memory makes its target stand for the exact
integer, or fails and leaves the target with the integer that it had
(`Fills`). It fails only with the error that its operands ask for, or when
what it takes from the heap does not fit.
-/

namespace ManagedHeap.Bignum

variable {before middle after : Workspace} {cost laterCost : Nat} {value : Int}

/-! ## Results and failures -/

/-- An operation makes the target stand for `result` and takes `cost` bytes
from the heap, or fails with the error of `result` before it changes anything,
or for want of `cost` bytes. -/
def Fills (operation : DigitM Unit)
    (before : Workspace) (result : Except Error Int)
    (cost : Nat) : Prop :=
  Ensures operation before
    (fun _ after =>
      ∃ value, result = .ok value ∧ Assigns value cost before after)
    (fun error after =>
      (result = .error error ∧ after = before ∧ cost = 0) ∨
        (∃ spent, Widens spent before after) ∧ error.IsOutOfMemory ∧
          before.heap.Lacks cost)

private theorem fills_error {operation : DigitM Unit} {error : Error}
    (outcome : operation before = .error error before) :
    Fills operation before (.error error) 0 := by
  unfold Fills Ensures
  rw [outcome]
  exact Or.inl ⟨rfl, rfl, rfl⟩

theorem Fills.congr {operation other : DigitM Unit} {result : Except Error Int}
    (fills : Fills operation before result cost)
    (same : other before = operation before) :
    Fills other before result cost := by
  unfold Fills Ensures at *
  rwa [same]

/-- Room for more digits is made first, or cannot be made. -/
def Roomy (operation : DigitM Unit) (before : Workspace) (count : Nat) : Prop :=
  Ensures operation before
    (fun _ after => Widens (growth before.target.capacity count) before after ∧
      after.target.capacity = max before.target.capacity count)
    (fun error after => after = before ∧ error.IsOutOfMemory ∧
      before.heap.Lacks (growth before.target.capacity count))

private theorem fills_assign (value : Int) (bounded : before.heap.Bounded)
    (backs : before.heap.Backs before.target) :
    Fills (assign value) before (.ok value)
      (growth before.target.capacity (Digits.count value.natAbs)) := by
  refine (ensures_assign value bounded backs).mono ?_ ?_
  · exact fun _ after assigns => ⟨value, rfl, assigns⟩
  · rintro error after ⟨rfl, outOfMemory, lacks⟩
    exact Or.inr ⟨⟨0, .refl backs⟩, outOfMemory, lacks⟩

theorem Roomy.fills {first second : DigitM Unit}
    {count : Nat} (bounded : before.heap.Bounded)
    (backs : before.heap.Backs before.target) (roomy : Roomy first before count)
    (next : ∀ middle : Workspace, middle.heap.Bounded →
      middle.heap.Backs middle.target →
      middle.target.capacity = max before.target.capacity count →
        Fills second middle (.ok value) laterCost) :
    Fills (do first; second) before (.ok value)
      (growth before.target.capacity count + laterCost) := by
  unfold Fills
  rw [ensures_bind]
  refine roomy.mono ?_ ?_
  · rintro _ middle ⟨widens, capacity⟩
    refine (next middle (widens.rewrites.bounded bounded) widens.backs
      capacity).mono ?_ ?_
    · rintro _ after ⟨_, same, assigns⟩
      exact ⟨_, same, widens.toSpends.assigns bounded assigns⟩
    · rintro error after
        (⟨impossible, _⟩ | ⟨⟨spent, later⟩, outOfMemory, positive, limit⟩)
      · cases impossible
      · rw [widens.rewrites.limit_eq] at limit
        have := widens.pointer_le
        exact Or.inr ⟨⟨_, widens.trans bounded later⟩, outOfMemory,
          by omega, by omega⟩
  · rintro error after ⟨rfl, outOfMemory, positive, limit⟩
    exact Or.inr ⟨⟨0, .refl backs⟩, outOfMemory, by omega, by omega⟩

private theorem roomy_grow (count : Nat) (bounded : before.heap.Bounded)
    (backs : before.heap.Backs before.target) :
    Roomy (grow count) before count :=
  ensures_grow count bounded backs

/-- Room that was just made can be written to. -/
theorem roomy_reserve (count : Nat) (bounded : before.heap.Bounded)
    (backs : before.heap.Backs before.target) :
    Roomy (reserve count) before count := by
  unfold Roomy reserve
  simp only [ensures_bind, ensures_get]
  refine (ensures_grow count bounded backs).mono ?_ fun _ _ failed => failed
  rintro _ middle ⟨widens, capacity⟩
  by_cases positive : 0 < middle.target.writtenSpan count
  · have within : middle.target.writtenSpan count ≤ middle.target.capacity :=
      Nat.max_le.mpr ⟨capacity ▸ Nat.le_max_right ..,
        widens.backs.used_le_capacity⟩
    obtain ⟨start, bytes, stored, atStart, found, claimed⟩ :=
      widens.backs.exists_start (by omega)
    have room := Nat.le_trans (Nat.mul_le_mul_left digitBytes within) claimed
    rw [if_pos positive]
    exact Ensures.readDigits (digitsStart_eq_ok stored atStart found room)
      ⟨widens, capacity⟩
  · rw [if_neg positive]
    exact ⟨widens, capacity⟩

/-! ## Constants -/

theorem fills_setUnsigned32 (number : UInt32) (bounded : before.heap.Bounded)
    (backs : before.heap.Backs before.target) :
    Fills (setUnsigned32 number) before (.ok number.toNat)
      (growth before.target.capacity (Digits.count number.toNat)) := by
  rw [setUnsigned32, store_eq_assign]
  exact fills_assign _ bounded backs

theorem fills_setUnsigned64 (number : UInt64) (bounded : before.heap.Bounded)
    (backs : before.heap.Backs before.target) :
    Fills (setUnsigned64 number) before (.ok number.toNat)
      (growth before.target.capacity (Digits.count number.toNat)) := by
  rw [setUnsigned64, store_eq_assign]
  exact fills_assign _ bounded backs

/-- What an integer takes from the heap when room for `count` digits is made
first. -/
def growthVia (capacity count : Nat) (value : Int) : Nat :=
  growth capacity count + growth (max capacity count)
    (Digits.count value.natAbs)

theorem fills_setPowerOfTwo (exponent : Nat) (bounded : before.heap.Bounded)
    (backs : before.heap.Backs before.target) :
    Fills (setPowerOfTwo exponent) before (.ok (2 ^ exponent))
      (growthVia before.target.capacity
        (exponent / digitBits + 1) (2 ^ exponent)) := by
  unfold setPowerOfTwo growthVia
  refine (roomy_reserve _ bounded backs).fills bounded backs
    fun middle bounded backs capacity => ?_
  rw [store_eq_assign, ← capacity]
  exact fills_assign _ bounded backs

/-! ## Ring operations -/

section Operands

variable {left right operand : Bignum} {x y : Int}

theorem fills_add
    (bounded : before.heap.Bounded) (backs : before.heap.Backs before.target)
    (readLeft : left.value before.heap = .ok x)
    (readRight : right.value before.heap = .ok y) :
    Fills (add left right) before (.ok (x + y))
      (growth before.target.capacity (Digits.count (x + y).natAbs)) := by
  unfold Fills add
  refine Ensures.readDigits readLeft (Ensures.readDigits readRight ?_)
  exact fills_assign _ bounded backs

theorem fills_sub
    (bounded : before.heap.Bounded) (backs : before.heap.Backs before.target)
    (readLeft : left.value before.heap = .ok x)
    (readRight : right.value before.heap = .ok y) :
    Fills (sub left right) before (.ok (x - y))
      (growth before.target.capacity (Digits.count (x - y).natAbs)) := by
  unfold Fills sub
  refine Ensures.readDigits readLeft (Ensures.readDigits readRight ?_)
  exact fills_assign _ bounded backs

theorem fills_mul
    (bounded : before.heap.Bounded) (backs : before.heap.Backs before.target)
    (readLeft : left.value before.heap = .ok x)
    (readRight : right.value before.heap = .ok y) :
    Fills (mul left right) before (.ok (x * y))
      (growthVia before.target.capacity (left.used + right.used) (x * y)) := by
  unfold Fills mul growthVia
  refine Ensures.readDigits readLeft (Ensures.readDigits readRight ?_)
  refine (roomy_grow _ bounded backs).fills bounded backs
    fun middle bounded backs capacity => ?_
  rw [← capacity]
  exact fills_assign _ bounded backs

private theorem magnitude_of_value
    {heap : Heap} (read : operand.value heap = .ok x) :
    ∃ magnitude, operand.magnitude heap = .ok magnitude ∧
      operand.sign.apply magnitude = x :=
  Except.map_eq_ok_iff.mp read

private theorem apply_flip (sign : Sign) (magnitude : Nat) :
    sign.flip.apply magnitude = -sign.apply magnitude := by
  cases sign <;> simp [Sign.flip, Sign.apply]

private theorem apply_nonnegative (sign : Sign) (magnitude : Nat) :
    Sign.nonnegative.apply magnitude = (sign.apply magnitude).natAbs := by
  cases sign <;> simp [Sign.apply]

theorem fills_neg
    (bounded : before.heap.Bounded) (backs : before.heap.Backs before.target)
    (read : operand.value before.heap = .ok x) :
    Fills (neg operand) before (.ok (-x))
      (growth before.target.capacity (Digits.count (-x).natAbs)) := by
  obtain ⟨magnitude, readMagnitude, rfl⟩ := magnitude_of_value read
  unfold Fills neg
  refine Ensures.readDigits readMagnitude ?_
  rw [store_eq_assign, apply_flip]
  exact fills_assign _ bounded backs

theorem fills_abs
    (bounded : before.heap.Bounded) (backs : before.heap.Backs before.target)
    (read : operand.value before.heap = .ok x) :
    Fills (abs operand) before (.ok x.natAbs)
      (growth before.target.capacity (Digits.count x.natAbs)) := by
  obtain ⟨magnitude, readMagnitude, rfl⟩ := magnitude_of_value read
  unfold Fills abs
  refine Ensures.readDigits readMagnitude ?_
  rw [store_eq_assign, apply_nonnegative operand.sign]
  exact fills_assign _ bounded backs

/-! ## Powers and shifts -/

/-- The digits that room is made for before a power is computed. -/
def powerRoom (base : Int) (exponent : Nat) : Nat :=
  let bits := Positional.bitLength base.natAbs
  if 1 < bits ∧ 1 < exponent then leastPowerDigits bits exponent else 0

private theorem growthVia_zero (capacity : Nat) (value : Int) :
    growthVia capacity 0 value =
      growth capacity (Digits.count value.natAbs) := by
  simp [growthVia, growth]

theorem fills_pow (exponent : Nat) (bounded : before.heap.Bounded)
    (backs : before.heap.Backs before.target)
    (read : operand.value before.heap = .ok x) :
    Fills (pow operand exponent) before (.ok (x ^ exponent))
      (growthVia before.target.capacity (powerRoom x exponent)
        (x ^ exponent)) := by
  unfold Fills pow powerRoom
  refine Ensures.readDigits read ?_
  dsimp only
  split
  · refine (roomy_grow _ bounded backs).fills bounded backs
      fun middle bounded backs capacity => ?_
    rw [← capacity]
    exact fills_assign _ bounded backs
  · rw [growthVia_zero]
    exact fills_assign _ bounded backs

/-- The digits that room is made for before a number of `used` digits is
shifted. -/
def shiftRoom (used count : Nat) : Nat :=
  used + Positional.ceilDiv count digitBits

/-- The digits of a shifted number. -/
def shiftedDigits (operand : Int) (count : Nat) : Nat :=
  Positional.ceilDiv (Positional.bitLength operand.natAbs + count) digitBits

/-- What a shifted number takes from the heap. -/
def shiftGrowth (capacity used : Nat) (operand : Int) (count : Nat) : Nat :=
  if operand = 0 then
    0
  else
    growth capacity (shiftRoom used count) +
      growthVia (max capacity (shiftRoom used count))
        (shiftedDigits operand count)
        (operand * 2 ^ count)

theorem fills_shiftLeft (count : Nat) (bounded : before.heap.Bounded)
    (backs : before.heap.Backs before.target)
    (read : operand.value before.heap = .ok x) :
    Fills (shiftLeft operand count) before (.ok (x * 2 ^ count))
      (shiftGrowth before.target.capacity operand.used x count) := by
  unfold Fills shiftLeft shiftGrowth
  rw [if_neg (by omega)]
  refine Ensures.readDigits read ?_
  split
  · rename_i zero
    subst zero
    have nothing :
        growth before.target.capacity (Digits.count (0 : Int).natAbs) = 0 := by
      rw [Int.natAbs_zero, Digits.count_zero, growth,
        if_neg (Nat.not_lt_zero _)]
    rw [Int.zero_mul, ← nothing]
    exact fills_assign 0 bounded backs
  · refine (roomy_grow _ bounded backs).fills bounded backs
      fun middle bounded backs capacity => ?_
    unfold growthVia
    rw [← capacity]
    refine (roomy_reserve _ bounded backs).fills bounded backs
      fun last bounded backs capacity => ?_
    rw [← capacity]
    exact fills_assign _ bounded backs

theorem fills_shiftLeft_of_neg
    {count : Int} (operand : Bignum) (negative : count < 0) :
    Fills (shiftLeft operand count) before
      (.error (.arithmetic .invalidOperand)) 0 := by
  refine fills_error ?_
  rw [shiftLeft, if_pos negative]
  rfl

/-! ## Division -/

private theorem used_ne_zero {heap : Heap} (read : operand.value heap = .ok x)
    (nonzero : x ≠ 0) :
    operand.used ≠ 0 := by
  intro unused
  refine nonzero (Except.ok.inj (read.symm.trans ?_))
  rw [Bignum.value, Bignum.magnitude, Heap.storedBytes_of_unused heap unused]
  have nothing : Bytes.empty.toNat = 0 := by
    rw [Bytes.toNat_eq]
    rfl
  cases operand.sign <;> simp [Except.map, nothing, Sign.apply]

theorem divisionOperands_eq {heap : Heap} (readLeft : left.value heap = .ok x)
    (readRight : right.value heap = .ok y) :
    divisionOperands left right heap =
      if y = 0 then .error (.arithmetic .invalidOperand) else .ok (x, y) := by
  unfold divisionOperands
  split
  · rename_i zero
    by_cases unused : right.used = 0 <;>
      simp [require, unused, readLeft, readRight, zero, bind, Except.bind]
  · rename_i nonzero
    simp [require, used_ne_zero readRight nonzero, readLeft, readRight, nonzero,
      bind, Except.bind,
      pure, Except.pure]

/-- What a division makes of its exact result. -/
def divisionResult (divisor : Int) (result : Int) : Except Error Int :=
  if divisor = 0 then .error (.arithmetic .invalidOperand) else .ok result

/-- What a result takes from the heap; a failure takes nothing. -/
def resultGrowth (capacity : Nat) : Except Error Int → Nat
  | .ok value => growth capacity (Digits.count value.natAbs)
  | .error _ => 0

/-- A division with one output answers its exact result, if there is one. -/
theorem fills_of_division {operation : DigitM Unit} (result : Int → Int → Int)
    (bounded : before.heap.Bounded) (backs : before.heap.Backs before.target)
    (readLeft : left.value before.heap = .ok x)
    (readRight : right.value before.heap = .ok y)
    (sequence : operation =
      DigitM.inspect (divisionOperands left right) >>= fun operands =>
        assign (result operands.1 operands.2)) :
    Fills operation before (divisionResult y (result x y))
      (resultGrowth before.target.capacity
        (divisionResult y (result x y))) := by
  have operands := divisionOperands_eq readLeft readRight
  unfold divisionResult
  split at operands
  · rw [if_pos ‹_›]
    refine fills_error ?_
    simp only [sequence, bind, EStateM.bind, DigitM.inspect, DigitM.onHeap,
      HeapM.inspect, operands]
  · rw [if_neg ‹_›]
    refine (fills_assign _ bounded backs).congr ?_
    simp only [sequence, bind, EStateM.bind, DigitM.inspect, DigitM.onHeap,
      HeapM.inspect, operands]

theorem fills_quotient
    (bounded : before.heap.Bounded) (backs : before.heap.Backs before.target)
    (readLeft : left.value before.heap = .ok x)
    (readRight : right.value before.heap = .ok y) :
    Fills (quotient left right) before (divisionResult y (x.tdiv y))
      (resultGrowth before.target.capacity (divisionResult y (x.tdiv y))) :=
  fills_of_division Int.tdiv bounded backs readLeft readRight
    (quotient_eq_sequence left right)

theorem fills_remainder
    (bounded : before.heap.Bounded) (backs : before.heap.Backs before.target)
    (readLeft : left.value before.heap = .ok x)
    (readRight : right.value before.heap = .ok y) :
    Fills (remainder left right) before (divisionResult y (x.tmod y))
      (resultGrowth before.target.capacity (divisionResult y (x.tmod y))) :=
  fills_of_division Int.tmod bounded backs readLeft readRight
    (remainder_eq_sequence left right)

end Operands

/-! ## Numerals -/

/-- What reading a numeral makes of the numeral. -/
def numeralResult : Option Int → Except Error Int
  | none => .error (.arithmetic .invalidOperand)
  | some value => .ok value

theorem fills_readNumeral
    (radix : Nat) (text : String) (bounded : before.heap.Bounded)
    (backs : before.heap.Backs before.target) :
    Fills (readNumeral radix text) before
      (numeralResult (Numeral.read? radix text))
      (resultGrowth before.target.capacity
        (numeralResult (Numeral.read? radix text))) := by
  unfold readNumeral
  cases Numeral.read? radix text with
  | none => exact fills_error rfl
  | some value => exact fills_assign value bounded backs

end ManagedHeap.Bignum
