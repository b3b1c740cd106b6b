import ManagedHeap.Bignum.Storage

/-!
# Bignum division

Truncating division of bignums in memory. Quotient and remainder are two
targets, and either may be left out. The quotient is written first.
-/

namespace ManagedHeap

/-- The heap, and the bignums that a division writes. -/
@[ext]
structure DivisionWorkspace where
  heap : Heap
  quotient : Option Bignum
  remainder : Option Bignum

abbrev DivisionM (α : Type) : Type :=
  EStateM Error DivisionWorkspace α

namespace DivisionM

/-- Runs a digit operation on the quotient, if it is wanted. -/
def onQuotient (operation : DigitM Unit) : DivisionM Unit := fun workspace =>
  match workspace.quotient with
  | none => .ok () workspace
  | some target =>
    match operation ⟨workspace.heap, target⟩ with
    | .ok _ after =>
      .ok ()
        { workspace with heap := after.heap, quotient := some after.target }
    | .error error after =>
      .error error
        { workspace with heap := after.heap, quotient := some after.target }

/-- Runs a digit operation on the remainder, if it is wanted. -/
def onRemainder (operation : DigitM Unit) : DivisionM Unit := fun workspace =>
  match workspace.remainder with
  | none => .ok () workspace
  | some target =>
    match operation ⟨workspace.heap, target⟩ with
    | .ok _ after =>
      .ok ()
        { workspace with heap := after.heap, remainder := some after.target }
    | .error error after =>
      .error error
        { workspace with heap := after.heap, remainder := some after.target }

def inspect {α : Type} (reader : Heap → Except Error α) : DivisionM α :=
  fun workspace =>
  match reader workspace.heap with
  | .ok value => .ok value workspace
  | .error error => .error error workspace

end DivisionM

namespace Bignum

/-- The dividend and the divisor as integers. Zero is no divisor. -/
def divisionOperands (dividend divisor : Bignum) (heap : Heap) :
    Except Error (Int × Int) := do
  require (divisor.used ≠ 0) (.arithmetic .invalidOperand)
  let dividendValue ← dividend.value heap
  let divisorValue ← divisor.value heap
  require (divisorValue ≠ 0) (.arithmetic .invalidOperand)
  return (dividendValue, divisorValue)

/-- The targets become the quotient, truncated toward zero, and the remainder,
which has the sign of the dividend. -/
def divide (dividend divisor : Bignum) : DivisionM Unit := do
  let (dividendValue, divisorValue) ← DivisionM.inspect
    (divisionOperands dividend divisor)
  DivisionM.onQuotient (assign (dividendValue.tdiv divisorValue))
  DivisionM.onRemainder (assign (dividendValue.tmod divisorValue))

/-- The target becomes the quotient; the remainder is not asked for. -/
def quotient (dividend divisor : Bignum) : DigitM Unit := fun workspace =>
  match divide dividend divisor
    ⟨workspace.heap, some workspace.target, none⟩ with
  | .ok _ after => .ok () ⟨after.heap, after.quotient.getD workspace.target⟩
  | .error error after =>
    .error error ⟨after.heap, after.quotient.getD workspace.target⟩

/-- The target becomes the remainder; the quotient is not asked for. -/
def remainder (dividend divisor : Bignum) : DigitM Unit := fun workspace =>
  match divide dividend divisor
    ⟨workspace.heap, none, some workspace.target⟩ with
  | .ok _ after => .ok () ⟨after.heap, after.remainder.getD workspace.target⟩
  | .error error after =>
    .error error ⟨after.heap, after.remainder.getD workspace.target⟩

end Bignum

end ManagedHeap
