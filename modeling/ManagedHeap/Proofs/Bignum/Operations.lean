import ManagedHeap.Proofs.Bignum.Usable

/-!
# Operations as data

The operations of the arithmetic layer that write one target, over operands of
any kind (`Operation`), and with them the growth of a target (`Change`). On
bignums they are performed, on integers they have a result, and performing one
fills its target with the result (`fills_perform`). Of whatever a change does,
the storage and the soundness of the target remain (`Settles`).
-/

namespace ManagedHeap.Bignum

/-! ## Operations -/

/-- What makes a target stand for an integer. -/
inductive Operation (ω : Type) where
  | setUnsigned32 (number : UInt32)
  | setUnsigned64 (number : UInt64)
  | setPowerOfTwo (exponent : Nat)
  | readNumeral (radix : Nat) (text : String)
  | neg (operand : ω)
  | abs (operand : ω)
  | add (left right : ω)
  | sub (left right : ω)
  | mul (left right : ω)
  | quotient (dividend divisor : ω)
  | remainder (dividend divisor : ω)
  | pow (base : ω) (exponent : Nat)
  | shiftLeft (operand : ω) (count : Int)

namespace Operation

variable {ω ψ : Type}

def operands : Operation ω → List ω
  | .setUnsigned32 _ | .setUnsigned64 _ | .setPowerOfTwo _
  | .readNumeral _ _ => []
  | .neg operand | .abs operand | .pow operand _ | .shiftLeft operand _ =>
    [operand]
  | .add left right | .sub left right | .mul left right
  | .quotient left right | .remainder left right => [left, right]

/-- The same operation on other operands. -/
def map (move : ω → ψ) : Operation ω → Operation ψ
  | .setUnsigned32 number => .setUnsigned32 number
  | .setUnsigned64 number => .setUnsigned64 number
  | .setPowerOfTwo exponent => .setPowerOfTwo exponent
  | .readNumeral radix text => .readNumeral radix text
  | .neg operand => .neg (move operand)
  | .abs operand => .abs (move operand)
  | .add left right => .add (move left) (move right)
  | .sub left right => .sub (move left) (move right)
  | .mul left right => .mul (move left) (move right)
  | .quotient dividend divisor => .quotient (move dividend) (move divisor)
  | .remainder dividend divisor =>
    .remainder (move dividend) (move divisor)
  | .pow base exponent => .pow (move base) exponent
  | .shiftLeft operand count => .shiftLeft (move operand) count

theorem operands_map (move : ω → ψ) (operation : Operation ω) :
    (operation.map move).operands = operation.operands.map move := by
  cases operation <;> rfl

def perform : Operation Bignum → DigitM Unit
  | .setUnsigned32 number => Bignum.setUnsigned32 number
  | .setUnsigned64 number => Bignum.setUnsigned64 number
  | .setPowerOfTwo exponent => Bignum.setPowerOfTwo exponent
  | .readNumeral radix text => Bignum.readNumeral radix text
  | .neg operand => Bignum.neg operand
  | .abs operand => Bignum.abs operand
  | .add left right => Bignum.add left right
  | .sub left right => Bignum.sub left right
  | .mul left right => Bignum.mul left right
  | .quotient dividend divisor => Bignum.quotient dividend divisor
  | .remainder dividend divisor => Bignum.remainder dividend divisor
  | .pow base exponent => Bignum.pow base exponent
  | .shiftLeft operand count => Bignum.shiftLeft operand count

/-- The exact integer, or the error that the operands ask for. -/
def result : Operation Int → Except Error Int
  | .setUnsigned32 number => .ok number.toNat
  | .setUnsigned64 number => .ok number.toNat
  | .setPowerOfTwo exponent => .ok (2 ^ exponent)
  | .readNumeral radix text => numeralResult (Numeral.read? radix text)
  | .neg operand => .ok (-operand)
  | .abs operand => .ok operand.natAbs
  | .add left right => .ok (left + right)
  | .sub left right => .ok (left - right)
  | .mul left right => .ok (left * right)
  | .quotient dividend divisor =>
    divisionResult divisor (dividend.tdiv divisor)
  | .remainder dividend divisor =>
    divisionResult divisor (dividend.tmod divisor)
  | .pow base exponent => .ok (base ^ exponent)
  | .shiftLeft operand count =>
    if count < 0 then
      .error (.arithmetic .invalidOperand)
    else
      .ok (operand * 2 ^ count.toNat)

/-- Operands are refused for one reason only. -/
theorem eq_invalidOperand_of_result {operation : Operation Int} {error : Error}
    (refused : operation.result = .error error) :
    error = .arithmetic .invalidOperand := by
  cases operation with
  | readNumeral radix text =>
    rw [result] at refused
    cases read : Numeral.read? radix text with
    | none =>
      rw [read] at refused
      exact (Except.error.inj refused).symm
    | some value =>
      rw [read] at refused
      cases refused
  | quotient dividend divisor =>
    rw [result, divisionResult] at refused
    split at refused
    · exact (Except.error.inj refused).symm
    · cases refused
  | remainder dividend divisor =>
    rw [result, divisionResult] at refused
    split at refused
    · exact (Except.error.inj refused).symm
    · cases refused
  | shiftLeft operand count =>
    rw [result] at refused
    split at refused
    · exact (Except.error.inj refused).symm
    · cases refused
  | _ => cases refused

end Operation

variable {before after : Workspace} {operation : Operation Bignum}

/-- An operation fills its target with its result, whichever storage the
target and the operands have. -/
theorem fills_perform {integers : Bignum → Int}
    (bounded : before.heap.Bounded) (backs : before.heap.Backs before.target)
    (reads : ∀ operand ∈ operation.operands,
      operand.value before.heap = .ok (integers operand)) :
    ∃ cost,
      Fills operation.perform before (operation.map integers).result cost := by
  cases operation with
  | setUnsigned32 number => exact ⟨_, fills_setUnsigned32 number bounded backs⟩
  | setUnsigned64 number => exact ⟨_, fills_setUnsigned64 number bounded backs⟩
  | setPowerOfTwo exponent =>
    exact ⟨_, fills_setPowerOfTwo exponent bounded backs⟩
  | readNumeral radix text =>
    exact ⟨_, fills_readNumeral radix text bounded backs⟩
  | neg operand =>
    have read := reads operand (by simp [Operation.operands])
    exact ⟨_, fills_neg bounded backs read⟩
  | abs operand =>
    have read := reads operand (by simp [Operation.operands])
    exact ⟨_, fills_abs bounded backs read⟩
  | add left right =>
    have readLeft := reads left (by simp [Operation.operands])
    have readRight := reads right (by simp [Operation.operands])
    exact ⟨_, fills_add bounded backs readLeft readRight⟩
  | sub left right =>
    have readLeft := reads left (by simp [Operation.operands])
    have readRight := reads right (by simp [Operation.operands])
    exact ⟨_, fills_sub bounded backs readLeft readRight⟩
  | mul left right =>
    have readLeft := reads left (by simp [Operation.operands])
    have readRight := reads right (by simp [Operation.operands])
    exact ⟨_, fills_mul bounded backs readLeft readRight⟩
  | quotient dividend divisor =>
    have readDividend := reads dividend (by simp [Operation.operands])
    have readDivisor := reads divisor (by simp [Operation.operands])
    exact ⟨_, fills_quotient bounded backs readDividend readDivisor⟩
  | remainder dividend divisor =>
    have readDividend := reads dividend (by simp [Operation.operands])
    have readDivisor := reads divisor (by simp [Operation.operands])
    exact ⟨_, fills_remainder bounded backs readDividend readDivisor⟩
  | pow base exponent =>
    have read := reads base (by simp [Operation.operands])
    exact ⟨_, fills_pow exponent bounded backs read⟩
  | shiftLeft operand count =>
    have read := reads operand (by simp [Operation.operands])
    simp only [Operation.map, Operation.result, Operation.perform]
    by_cases negative : count < 0
    · rw [if_pos negative]
      exact ⟨_, fills_shiftLeft_of_neg operand negative⟩
    · rw [if_neg negative]
      obtain ⟨places, rfl⟩ := Int.eq_ofNat_of_zero_le (Int.not_lt.mp negative)
      exact ⟨_, fills_shiftLeft places bounded backs read⟩

/-! ## Changes -/

/-- What is done to one target: room is made, or an operation gives it an
integer. -/
inductive Change (ω : Type) where
  | grow (count : Nat)
  | compute (operation : Operation ω)

namespace Change

variable {ω ψ : Type}

def operands : Change ω → List ω
  | .grow _ => []
  | .compute operation => operation.operands

/-- The same change with other operands. -/
def map (move : ω → ψ) : Change ω → Change ψ
  | .grow count => .grow count
  | .compute operation => .compute (operation.map move)

theorem operands_map (move : ω → ψ) (change : Change ω) :
    (change.map move).operands = change.operands.map move := by
  cases change with
  | grow count => rfl
  | compute operation => exact operation.operands_map move

def perform : Change Bignum → DigitM Unit
  | .grow count => Bignum.grow count
  | .compute operation => operation.perform

end Change

/-! ## What a step leaves -/

/-- The target keeps its storage or has newer storage, nothing else is written,
and a sound bignum stays sound. -/
structure Settles (before after : Workspace) : Prop where
  spends : ∃ cost, Spends cost before after
  soundBignum : before.heap.SoundBignum before.target →
    after.heap.SoundBignum after.target

theorem Assigns.settles {value : Int} {cost : Nat}
    (assigns : Assigns value cost before after) :
    Settles before after where
  spends := ⟨cost, assigns.toSpends⟩
  soundBignum := fun _ => assigns.soundBignum

/-- A wider bignum has the digits that it had. -/
theorem Widens.digits_eq {cost : Nat} (widens : Widens cost before after) :
    after.target.digits after.heap = before.target.digits before.heap := by
  rw [digits, digits, widens.storedBytes]

theorem Widens.usable {cost : Nat} (widens : Widens cost before after)
    (usable : before.heap.Usable before.target) :
    after.heap.Usable after.target := by
  obtain ⟨digits, read, _, last⟩ := usable.exists_digits
  exact widens.backs.usable (widens.digits_eq.trans read) last

theorem Widens.settles {cost : Nat} (widens : Widens cost before after) :
    Settles before after where
  spends := ⟨cost, widens.toSpends⟩
  soundBignum := by
    intro sound
    obtain ⟨digits, read, _, last⟩ := sound.exists_digits
    have usable := widens.backs.usable (widens.digits_eq.trans read) last
    refine usable.soundBignum fun unused => ?_
    rw [widens.sign]
    exact sound.zero_is_nonnegative (widens.used.symm.trans unused)

variable {change : Change Bignum}

/-- A change gives the target its storage and its digits, or fails and makes
at most room. -/
theorem ensures_change
    (bounded : before.heap.Bounded) (backs : before.heap.Backs before.target)
    (reads : ∀ operand ∈ change.operands, before.heap.Usable operand) :
    Ensures change.perform before
      (fun _ after => Settles before after)
      (fun error after => (∃ spent, Widens spent before after) ∧
        (error.IsOutOfMemory ∨ error = .arithmetic .invalidOperand)) := by
  cases change with
  | grow count =>
    apply (ensures_grow count bounded backs).mono
    · exact fun _ after widened => widened.1.settles
    · intro error after failed
      obtain ⟨unchanged, outOfMemory, _⟩ := failed
      rw [unchanged]
      exact ⟨⟨0, .refl backs⟩, Or.inl outOfMemory⟩
  | compute operation =>
    obtain ⟨cost, fills⟩ := fills_perform bounded backs
      fun operand member => (reads operand member).value_eq
    apply Ensures.mono fills
    · intro _ after filled
      obtain ⟨value, _, assigns⟩ := filled
      exact assigns.settles
    · intro error after failed
      rcases failed with refused | outOfMemory
      · obtain ⟨isError, unchanged, _⟩ := refused
        rw [unchanged]
        exact ⟨⟨0, .refl backs⟩,
          Or.inr (Operation.eq_invalidOperand_of_result isError)⟩
      · exact ⟨outOfMemory.1, Or.inl outOfMemory.2.1⟩

end ManagedHeap.Bignum
