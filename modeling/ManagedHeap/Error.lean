import ManagedHeap.Tag
import ManagedHeap.Handle

/-!
# Errors

What can go wrong, by cause, and the text of each cause. No failure is
recoverable for the host: the text is what its trap reports, so it names the
rule that was broken.
-/

namespace ManagedHeap

/-! ## Causes -/

/-- The rule that an identity text breaks. -/
inductive IdentityFault where
  | tooShort
  | scheme
  | notUppercaseHex
  | oddHexDigits
  | checksumMismatch
  deriving DecidableEq, Repr

/-- Why the arithmetic layer refuses. Of these only `invalidOperand` arises
here: exhaustion is reported by the heap, and no operation iterates without a
bound. -/
inductive ArithmeticFault where
  | outOfMemory
  | invalidOperand
  | iterationLimit
  deriving DecidableEq, Repr

/-- The machine integers that a bignum can be narrowed to. -/
inductive MachineInteger where
  | unsigned32
  | signed32
  | unsigned64
  | signed64
  deriving DecidableEq, Repr

/-- What is wrong with the structure of the heap. -/
inductive Violation where
  | rootWithoutObject
  | misaligned
  | overlap
  | pastHeapPointer
  | danglingField (target : Handle)
  | tooManyDigits
  | negativeZero
  | digitsWithoutStorage
  | storageOffset
  | storageTag (found : Tag)
  | storageWithoutObject
  | storageTooSmall
  | notClamped
  | malformedIterator
  | described (reason : String)
  deriving DecidableEq, Repr

/-- Every failure of the runtime. -/
inductive Error where
  | identity (fault : IdentityFault)
  | arithmetic (fault : ArithmeticFault)
  | overflow (target : MachineInteger)
  | iteratorExhausted
  | outOfMemory (requested available : Nat)
  | invalidHandle (raw : Nat)
  | tagMismatch (expected found : Tag)
  | payloadBounds (offset length size : Nat)
  | heapCheck (address : Nat) (violation : Violation)
  deriving DecidableEq, Repr

/-! ## Texts -/

/-- The rule in the words of the identity codec. -/
def IdentityFault.message : IdentityFault → String
  | .tooShort => "too short for an ic: URL"
  | .scheme => "Wrong URL scheme (not 'ic:')"
  | .notUppercaseHex => "Not all uppercase hex digit"
  | .oddHexDigits => "Not an even number of hex digits"
  | .checksumMismatch => "CRC-8 mismatch"

/-- The status in words. -/
def ArithmeticFault.message : ArithmeticFault → String
  | .outOfMemory => "out of memory"
  | .invalidOperand => "invalid operand"
  | .iterationLimit => "maximum iterations reached"

/-- The short name of a machine integer. -/
def MachineInteger.name : MachineInteger → String
  | .unsigned32 => "u32"
  | .signed32 => "i32"
  | .unsigned64 => "u64"
  | .signed64 => "i64"

/-- The violation in words. -/
def Violation.message : Violation → String
  | .rootWithoutObject => "root does not point at an object"
  | .misaligned => "misaligned object"
  | .overlap => "object overlaps its predecessor"
  | .pastHeapPointer => "object extends past the heap pointer"
  | .danglingField target => "dangling field " ++ target.describe
  | .tooManyDigits => "bignum uses more digits than allocated"
  | .negativeZero => "negative zero"
  | .digitsWithoutStorage => "bignum has digits but no storage"
  | .storageOffset => "digit pointer is not at the start of its buffer"
  | .storageTag found => "digit pointer targets a " ++ found.name ++ " object"
  | .storageWithoutObject => "digit pointer targets no object"
  | .storageTooSmall => "digit buffer smaller than allocation"
  | .notClamped => "bignum is not clamped"
  | .malformedIterator => "malformed blob iterator"
  | .described reason => reason

/-- The text that a trap reports. -/
def Error.message : Error → String
  | .identity fault => "blob_of_principal: " ++ fault.message
  | .arithmetic fault => "bigint: " ++ fault.message
  | .overflow target => "bigint: value does not fit in " ++ target.name
  | .iteratorExhausted => "blob_iter_next: iterator exhausted"
  | .outOfMemory requested available =>
    "out of memory: requested " ++ Numeral.decimal requested ++ " bytes, " ++
      Numeral.decimal available ++ " available"
  | .invalidHandle raw => "invalid heap handle: " ++ Numeral.hexadecimal raw
  | .tagMismatch expected found =>
    "tag mismatch: expected " ++ expected.name ++ ", found " ++ found.name
  | .payloadBounds offset length size =>
    "payload access out of bounds: " ++ Numeral.decimal offset ++ "+" ++
      Numeral.decimal length ++ " exceeds " ++ Numeral.decimal size
  | .heapCheck address violation =>
    "heap check failed at " ++ Numeral.hexadecimal address ++ ": " ++
      violation.message

/-! ## Rules that must hold -/

/-- Succeeds exactly when `condition` holds. -/
def require (condition : Prop) [Decidable condition] (error : Error) :
    Except Error Unit :=
  if condition then .ok () else .error error

theorem require_eq_ok_iff {condition : Prop} [Decidable condition]
    {error : Error} :
    require condition error = .ok () ↔ condition := by
  unfold require
  split <;> simp_all

end ManagedHeap
