import ManagedHeap.Positional.ByHalves

/-!
# Numerals

Signed numerals in the bases 2 to 36, and hexadecimal addresses.

`read?` accepts an optional single sign and one or more digits of either case,
and nothing else; `write` gives the lower-case numeral without leading zeros.
-/

namespace ManagedHeap.Numeral

/-! ## Digits -/

/-- The bases in which a numeral can be read or written. -/
def IsRadix (radix : Nat) : Prop :=
  2 ≤ radix ∧ radix ≤ 36

instance (radix : Nat) : Decidable (IsRadix radix) :=
  inferInstanceAs (Decidable (2 ≤ radix ∧ radix ≤ 36))

/-- The value of an ASCII digit or letter: letters of either case follow 9. -/
def digitValue? (character : Char) : Option Nat :=
  if '0' ≤ character ∧ character ≤ '9' then
    some (character.toNat - '0'.toNat)
  else if 'a' ≤ character ∧ character ≤ 'z' then
    some (character.toNat - 'a'.toNat + 10)
  else if 'A' ≤ character ∧ character ≤ 'Z' then
    some (character.toNat - 'A'.toNat + 10)
  else
    none

/-- The value of a character that is a digit in `radix`. -/
def digitBelow? (radix : Nat) (character : Char) : Option Nat :=
  (digitValue? character).filter (· < radix)

/-- The digit of a value below 36, in lower case. -/
def digitChar (value : Nat) : Char :=
  if value < 10 then
    Char.ofNat ('0'.toNat + value)
  else
    Char.ofNat ('a'.toNat + (value - 10))

/-! ## Reading -/

/-- Takes one sign off the front: whether it was a minus, and what follows
it. -/
def splitSign : List Char → Bool × List Char
  | '-' :: body => (true, body)
  | '+' :: body => (false, body)
  | body => (false, body)

/-- Reads one or more digits, most significant first. -/
def readMagnitude? (radix : Nat) (body : List Char) : Option Nat :=
  if body.isEmpty then
    none
  else
    (body.mapM (digitBelow? radix)).map fun places =>
      Positional.ofDigitsByHalves radix places.reverse

def readList? (radix : Nat) (characters : List Char) : Option Int :=
  if IsRadix radix then
    let (negative, body) := splitSign characters
    (readMagnitude? radix body).map fun magnitude =>
      if negative then -(magnitude : Int) else (magnitude : Int)
  else
    none

/-- Reads a numeral in `radix`. There is none outside the bases 2 to 36. -/
def read? (radix : Nat) (text : String) : Option Int :=
  readList? radix text.toList

/-! ## Writing -/

/-- The digits of a magnitude, most significant first; zero is written with
one digit. -/
def magnitudeList (radix magnitude : Nat) : List Char :=
  if magnitude = 0 then
    ['0']
  else
    ((Positional.digitsByHalves radix magnitude).map digitChar).reverse

def writeList (radix : Nat) (value : Int) : List Char :=
  if value < 0 then
    '-' :: magnitudeList radix value.natAbs
  else
    magnitudeList radix value.natAbs

/-- The numeral of a value: lower-case digits, and a minus in front of
negative values only. -/
def write (radix : Nat) (value : Int) : String :=
  String.ofList (writeList radix value)

def decimal (value : Int) : String :=
  write 10 value

/-- An address as it appears in messages, in lower-case hexadecimal. -/
def hexadecimal (address : Nat) : String :=
  "0x" ++ write 16 address

end ManagedHeap.Numeral
