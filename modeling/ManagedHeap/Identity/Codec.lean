import ManagedHeap.Checksum
import ManagedHeap.Error
import ManagedHeap.Hex

/-!
# Identity text

The textual form of an identity is `ic:`, the payload in upper-case
hexadecimal, and two more digits for the payload's checksum. Reading takes the
scheme in either case and checks one rule after the other; the first one
broken is reported.
-/

namespace ManagedHeap.Identity

/-! ## Writing -/

def scheme : List UInt8 :=
  [0x69, 0x63, 0x3a]

def encode (payload : List UInt8) : List UInt8 :=
  scheme ++ Hex.encode .upper payload ++
    Hex.encodeByte .upper (Checksum.crc8 payload)

/-! ## Reading -/

/-- The scheme and the checksum digits. -/
def leastLength : Nat := 5

/-- An ASCII letter in lower case; other bytes stay as they are. -/
def lowercase (byte : UInt8) : UInt8 :=
  if 0x41 ≤ byte ∧ byte ≤ 0x5a then byte + 0x20 else byte

/-- A digit that the written form uses. -/
def isUppercaseHex (byte : UInt8) : Bool :=
  (0x30 ≤ byte && byte ≤ 0x39) || (0x41 ≤ byte && byte ≤ 0x46)

/-- The text starts with the scheme, its letters in either case. -/
def startsWithScheme (text : List UInt8) : Bool :=
  (text.take 3).map lowercase == scheme

/-- The payload of some digits, of which the last two are the checksum. -/
def decodeDigits (digits : List UInt8) : Except IdentityFault (List UInt8) :=
  let payloadDigits := digits.take (digits.length - 2)
  let checksumDigits := digits.drop (digits.length - 2)
  if payloadDigits.length % 2 ≠ 0 then
    .error .oddHexDigits
  else
    match Hex.decode payloadDigits, Hex.decode checksumDigits with
    | .ok payload, .ok checksum =>
      if [Checksum.crc8 payload] =
        checksum then .ok payload else .error .checksumMismatch
    | _, _ => .error .notUppercaseHex

def decode (text : List UInt8) : Except IdentityFault (List UInt8) :=
  let digits := text.drop 3
  if text.length < leastLength then
    .error .tooShort
  else if startsWithScheme text = false then
    .error .scheme
  else if digits.all isUppercaseHex = false then
    .error .notUppercaseHex
  else
    decodeDigits digits

/-! ## In memory -/

def encodeBytes (payload : Bytes) : Bytes :=
  (Hex.encodeOnto .upper payload (.ofList scheme)).pushAll
    (Hex.encodeByte .upper (Checksum.crc8Bytes payload))

@[simp]
theorem toList_encodeBytes (payload : Bytes) :
    (encodeBytes payload).toList = encode payload.toList := by
  rw [encodeBytes, Bytes.toList_pushAll, Hex.toList_encodeOnto,
    Bytes.toList_ofList,
    Checksum.crc8Bytes_eq, encode]

/-- The payload of some digits, of which the last two are the checksum. All
are digits. -/
def decodeDigitBytes (digits : Bytes) : Except IdentityFault Bytes :=
  let payloadDigits := digits.take (digits.size - 2)
  if payloadDigits.size % 2 ≠ 0 then
    .error .oddHexDigits
  else
    let payload := Hex.decodeBytes payloadDigits
    let checksum := Hex.decodeBytes (digits.slice (digits.size - 2) 2)
    if [Checksum.crc8Bytes payload] = checksum.toList then
      .ok payload
    else
      .error .checksumMismatch

def decodeBytes (text : Bytes) : Except IdentityFault Bytes :=
  let digits := text.slice 3 (text.size - 3)
  if text.size < leastLength then
    .error .tooShort
  else if startsWithScheme (text.take 3).toList = false then
    .error .scheme
  else if digits.all isUppercaseHex = false then
    .error .notUppercaseHex
  else
    decodeDigitBytes digits

private theorem isSome_value?_of_isUppercaseHex
    {byte : UInt8} (upper : isUppercaseHex byte = true) :
    (Hex.value? byte).isSome := by
  simp only [isUppercaseHex, Bool.or_eq_true, Bool.and_eq_true,
    decide_eq_true_eq] at upper
  unfold Hex.value?
  rcases upper with decimal | letter
  · rw [if_pos decimal]
    rfl
  · by_cases decimal : 0x30 ≤ byte ∧ byte ≤ 0x39
    · rw [if_pos decimal]
      rfl
    · rw [if_neg decimal, if_pos letter]
      rfl

private theorem decodeDigitBytes_eq {digits : Bytes} (long : 2 ≤ digits.size)
    (upper : ∀ digit ∈ digits.toList, isUppercaseHex digit = true) :
    (decodeDigitBytes digits).map Bytes.toList =
      decodeDigits digits.toList := by
  have payloadList : (digits.take (digits.size - 2)).toList =
      digits.toList.take (digits.toList.length - 2) := by
    rw [Bytes.toList_take, Bytes.length_toList]
  have checksumList : (digits.slice (digits.size - 2) 2).toList =
      digits.toList.drop (digits.toList.length - 2) := by
    rw [Bytes.toList_slice, Bytes.length_toList]
    apply List.take_of_length_le
    rw [List.length_drop, Bytes.length_toList]
    omega
  have payloadSize : (digits.take (digits.size - 2)).size =
      (digits.toList.take (digits.toList.length - 2)).length := by
    rw [← payloadList, Bytes.length_toList]
  unfold decodeDigitBytes decodeDigits
  simp only [payloadSize]
  split
  · rfl
  · rename_i even
    have payloadRead : Hex.decode (digits.take (digits.size - 2)).toList =
        .ok (Hex.decodeBytes (digits.take (digits.size - 2))).toList := by
      apply Hex.decode_eq
      · intro digit member
        rw [payloadList] at member
        exact isSome_value?_of_isUppercaseHex
          (upper digit (List.mem_of_mem_take member))
      · rw [payloadSize]
        omega
    have checksumRead : Hex.decode (digits.slice (digits.size - 2) 2).toList =
        .ok (Hex.decodeBytes (digits.slice (digits.size - 2) 2)).toList := by
      apply Hex.decode_eq
      · intro digit member
        rw [checksumList] at member
        exact isSome_value?_of_isUppercaseHex
          (upper digit (List.mem_of_mem_drop member))
      · rw [← Bytes.length_toList, checksumList, List.length_drop,
          Bytes.length_toList]
        omega
    rw [payloadList] at payloadRead
    rw [checksumList] at checksumRead
    simp only [payloadRead, checksumRead, Checksum.crc8Bytes_eq]
    split <;> rfl

/-- Reading in memory gives what reading the list of bytes gives. -/
theorem decodeBytes_eq (text : Bytes) :
    (decodeBytes text).map Bytes.toList = decode text.toList := by
  have digitList :
      (text.slice 3 (text.size - 3)).toList = text.toList.drop 3 := by
    rw [Bytes.toList_slice]
    apply List.take_of_length_le
    apply Nat.le_of_eq
    rw [List.length_drop, Bytes.length_toList]
  have schemeRead :
      startsWithScheme (text.take 3).toList = startsWithScheme text.toList := by
    rw [startsWithScheme, startsWithScheme, Bytes.toList_take, List.take_take,
      Nat.min_self]
  have digitsRead : (text.slice 3 (text.size - 3)).all isUppercaseHex =
      (text.toList.drop 3).all isUppercaseHex := by
    rw [Bytes.all_eq, digitList]
  have lengths :
      text.toList.length < leastLength ↔ text.size < leastLength := by
    rw [Bytes.length_toList]
  unfold decodeBytes decode
  dsimp only
  by_cases short : text.size < leastLength
  · rw [if_pos short, if_pos (lengths.mpr short)]
    rfl
  rw [if_neg short, if_neg (mt lengths.mp short), schemeRead]
  by_cases otherScheme : startsWithScheme text.toList = false
  · rw [if_pos otherScheme, if_pos otherScheme]
    rfl
  rw [if_neg otherScheme, if_neg otherScheme, digitsRead]
  by_cases otherDigits : (text.toList.drop 3).all isUppercaseHex = false
  · rw [if_pos otherDigits, if_pos otherDigits]
    rfl
  rw [if_neg otherDigits, if_neg otherDigits]
  rw [← digitList]
  apply decodeDigitBytes_eq
  · rw [← Bytes.length_toList, digitList, List.length_drop, Bytes.length_toList]
    simp only [leastLength] at short
    omega
  · rw [digitList]
    exact List.all_eq_true.mp (by simpa using otherDigits)

end ManagedHeap.Identity
