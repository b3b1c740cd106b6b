import ManagedHeap.BigInteger.Basic

/-!
# What bignum operations are made of

All arithmetic on bignums reads its operands, makes room in the target and
stores a value there (`DigitM.Composed`). What these parts keep and sequences
hand on is kept by every operation, by induction on how it is composed.

Division writes its outputs in a workspace of its own. With a single output it
is such a sequence too (`quotient_eq_sequence`, `remainder_eq_sequence`).
-/

namespace ManagedHeap

namespace DigitM

/-! ## Composed operations -/

/-- Operations on a target that only read, make room in the target and store
values there, one after the other. They may also work on another bignum of
their own before they go on. -/
inductive Composed : {α : Type} → DigitM α → Prop where
  | pure {α : Type} (value : α) : Composed (Pure.pure value)
  | throw {α : Type} (error : Error) : Composed (throw error : DigitM α)
  | bind {α β : Type} {operation : DigitM α} {next : α → DigitM β}
      (first : Composed operation) (rest : ∀ value, Composed (next value)) :
      Composed (operation >>= next)
  | get : Composed (MonadState.get : DigitM Workspace)
  | inspect {α : Type} (reader : Heap → Except Error α) :
      Composed (inspect reader)
  | grow (count : Nat) : Composed (Bignum.grow count)
  | reserve (count : Nat) : Composed (Bignum.reserve count)
  | store (sign : Sign) (magnitude : Nat) :
      Composed (Bignum.store sign magnitude)
  | aside (precision : Nat) {operation : DigitM Unit}
      (composed : Composed operation) :
      Composed (onHeap (Bignum.zero precision) >>= fun start =>
        onHeap (build start operation))

end DigitM

namespace Bignum

open DigitM (Composed)

private theorem composed_assign (value : Int) : Composed (assign value) :=
  .store _ _

/-! ## Arithmetic -/

private theorem composed_setPowerOfTwo (exponent : Nat) :
    Composed (setPowerOfTwo exponent) :=
  .bind (.reserve _) fun _ => .store _ _

theorem composed_add (left right : Bignum) : Composed (add left right) :=
  .bind (.inspect _) fun _ => .bind (.inspect _) fun _ => composed_assign _

theorem composed_sub (left right : Bignum) : Composed (sub left right) :=
  .bind (.inspect _) fun _ => .bind (.inspect _) fun _ => composed_assign _

theorem composed_mul (left right : Bignum) : Composed (mul left right) := by
  refine .bind (.inspect _) fun _ => .bind (.inspect _) fun _ => ?_
  exact .bind (.grow _) fun _ => composed_assign _

theorem composed_neg (operand : Bignum) : Composed (neg operand) :=
  .bind (.inspect _) fun _ => .store _ _

theorem composed_abs (operand : Bignum) : Composed (abs operand) :=
  .bind (.inspect _) fun _ => .store _ _

theorem composed_pow (base : Bignum) (exponent : Nat) :
    Composed (pow base exponent) := by
  refine .bind (.inspect _) fun _ => ?_
  dsimp only
  split
  · exact .bind (.grow _) fun _ => composed_assign _
  · exact composed_assign _

theorem composed_shiftLeft (operand : Bignum) (count : Int) :
    Composed (shiftLeft operand count) := by
  unfold shiftLeft
  split
  · exact .throw _
  · refine .bind (.inspect _) fun _ => ?_
    dsimp only
    split
    · exact composed_assign 0
    · refine .bind (.grow _) fun _ => ?_
      exact .bind (.reserve _) fun _ => composed_assign _

theorem composed_readNumeral (radix : Nat) (text : String) :
    Composed (readNumeral radix text) := by
  unfold readNumeral
  cases Numeral.read? radix text with
  | none => exact .throw _
  | some value => exact composed_assign value

/-! ## Division with one output -/

theorem quotient_eq_sequence (dividend divisor : Bignum) :
    quotient dividend divisor =
      DigitM.inspect (divisionOperands dividend divisor) >>= fun operands =>
        assign (operands.1.tdiv operands.2) := by
  funext workspace
  simp only [quotient, divide, DivisionM.inspect, DigitM.inspect,
    DigitM.onHeap, HeapM.inspect, bind, EStateM.bind]
  cases divisionOperands dividend divisor workspace.heap with
  | error error => rfl
  | ok operands =>
    simp only [DivisionM.onQuotient, DivisionM.onRemainder]
    cases assign (operands.1.tdiv operands.2) workspace <;> rfl

theorem remainder_eq_sequence (dividend divisor : Bignum) :
    remainder dividend divisor =
      DigitM.inspect (divisionOperands dividend divisor) >>= fun operands =>
        assign (operands.1.tmod operands.2) := by
  funext workspace
  simp only [remainder, divide, DivisionM.inspect, DigitM.inspect,
    DigitM.onHeap, HeapM.inspect, bind, EStateM.bind]
  cases divisionOperands dividend divisor workspace.heap with
  | error error => rfl
  | ok operands =>
    simp only [DivisionM.onQuotient, DivisionM.onRemainder]
    cases assign (operands.1.tmod operands.2) workspace <;> rfl

theorem composed_quotient (dividend divisor : Bignum) :
    Composed (quotient dividend divisor) := by
  rw [quotient_eq_sequence]
  exact .bind (.inspect _) fun _ => composed_assign _

theorem composed_remainder (dividend divisor : Bignum) :
    Composed (remainder dividend divisor) := by
  rw [remainder_eq_sequence]
  exact .bind (.inspect _) fun _ => composed_assign _

end Bignum

/-! ## Signed bit patterns -/

/-- The power of two that is subtracted is a bignum of its own. -/
theorem BigInteger.composed_subtractPowerOfTwo (bits : Nat) :
    DigitM.Composed (subtractPowerOfTwo bits) := by
  have power := DigitM.Composed.aside 1 (Bignum.composed_setPowerOfTwo bits)
  have difference : ∀ number : Bignum, DigitM.Composed
      (get >>= fun workspace : Workspace => workspace.target.sub number) :=
    fun number => .bind .get fun workspace =>
      workspace.target.composed_sub number
  have composed := DigitM.Composed.bind power difference
  rwa [bind_assoc] at composed

end ManagedHeap
