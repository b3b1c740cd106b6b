import ManagedHeap.Bytes.Transducer

/-!
# Hexadecimal bytes

Two digits for each byte, high digit first. Digits of either case are read;
the case that is written is chosen. Digits are bytes themselves, as in text.
-/

namespace ManagedHeap.Hex

/-! ## Writing -/

/-- The case of the letters A to F. -/
inductive LetterCase where
  | upper
  | lower
  deriving DecidableEq, Repr

/-- The letter A in some case. -/
def LetterCase.first : LetterCase → UInt8
  | .upper => 0x41
  | .lower => 0x61

/-- The digit of a value below 16. -/
def digit (letters : LetterCase) (value : UInt8) : UInt8 :=
  if value < 10 then 0x30 + value else letters.first + (value - 10)

def encodeByte (letters : LetterCase) (byte : UInt8) : List UInt8 :=
  [digit letters (byte / 16), digit letters (byte % 16)]

def encode (letters : LetterCase) (bytes : List UInt8) : List UInt8 :=
  bytes.flatMap (encodeByte letters)

/-- Puts the digits of a byte sequence at the end. -/
def encodeOnto (letters : LetterCase) (bytes written : Bytes) : Bytes :=
  bytes.transduceOnto (fun (_ : Unit) byte => ((), encodeByte letters byte))
    () written

@[simp]
theorem toList_encodeOnto (letters : LetterCase) (bytes written : Bytes) :
    (encodeOnto letters bytes written).toList =
      written.toList ++ encode letters bytes.toList := by
  rw [encodeOnto, Bytes.toList_transduceOnto]
  congr 1
  induction bytes.toList with
  | nil => rfl
  | cons head tail inductionHypothesis =>
    rw [Bytes.expand, inductionHypothesis]
    rfl

/-! ## Reading -/

/-- Why some digits spell no bytes. -/
inductive Fault where
  | oddLength
  | invalidDigit (found : UInt8) (position : Nat)
  deriving DecidableEq, Repr

/-- The value of a digit of either case. -/
def value? (digit : UInt8) : Option UInt8 :=
  if 0x30 ≤ digit ∧ digit ≤ 0x39 then
    some (digit - 0x30)
  else if 0x41 ≤ digit ∧ digit ≤ 0x46 then
    some (digit - 0x41 + 10)
  else if 0x61 ≤ digit ∧ digit ≤ 0x66 then
    some (digit - 0x61 + 10)
  else
    none

def valueAt (digit : UInt8) (position : Nat) : Except Fault UInt8 :=
  match value? digit with
  | some value => .ok value
  | none => .error (.invalidDigit digit position)

/-- Reads digits in pairs, the first of which stands at `position`. -/
def decodePairs (position : Nat) : List UInt8 → Except Fault (List UInt8)
  | high :: low :: rest => do
    let highValue ← valueAt high position
    let lowValue ← valueAt low (position + 1)
    let tail ← decodePairs (position + 2) rest
    return (16 * highValue + lowValue) :: tail
  | _ => .ok []

/-- The bytes that some digits spell. -/
def decode (digits : List UInt8) : Except Fault (List UInt8) :=
  if digits.length % 2 = 0 then
    decodePairs 0 digits
  else
    .error .oddLength

/-! ## Reading digits that are known to be digits -/

/-- Takes in one digit: the first of a pair is kept, the second completes a
byte. -/
def decodeStep (pending : Option UInt8) (digit : UInt8) :
    Option UInt8 × List UInt8 :=
  let value := (value? digit).getD 0
  match pending with
  | none => (some value, [])
  | some high => (none, [16 * high + value])

def decodeBytes (digits : Bytes) : Bytes :=
  digits.transduceOnto decodeStep none .empty

theorem decodePairs_eq {digits : List UInt8} (position : Nat)
    (valid : ∀ digit ∈ digits, (value? digit).isSome)
    (even : digits.length % 2 = 0) :
    decodePairs position digits =
      .ok (Bytes.expand decodeStep none digits) := by
  fun_induction decodePairs position digits with
  | case1 position high low rest inductionHypothesis =>
    obtain ⟨highValue, highEq⟩ :=
      Option.isSome_iff_exists.mp (valid high (by simp))
    obtain ⟨lowValue, lowEq⟩ :=
      Option.isSome_iff_exists.mp (valid low (by simp))
    have restEq := inductionHypothesis
      (fun digit member => valid digit (by simp [member]))
      (by simp only [List.length_cons] at even; omega)
    simp only [valueAt, highEq, lowEq, restEq, Bytes.expand, decodeStep,
      Option.getD_some,
      List.nil_append, List.singleton_append]
    rfl
  | case2 digits position noPair =>
    rcases digits with _ | ⟨high, _ | ⟨low, rest⟩⟩
    · rfl
    · cases even
    · exact absurd rfl (noPair high low rest)

/-- Digits in pairs spell the same bytes in memory as in a list. -/
theorem decode_eq {digits : Bytes}
    (valid : ∀ digit ∈ digits.toList, (value? digit).isSome)
    (even : digits.size % 2 = 0) :
    decode digits.toList = .ok (decodeBytes digits).toList := by
  rw [decode, if_pos (by rwa [Bytes.length_toList]), decodePairs_eq 0 valid
    (by rwa [Bytes.length_toList]), decodeBytes, Bytes.toList_transduceOnto,
      Bytes.toList_empty,
    List.nil_append]

end ManagedHeap.Hex
