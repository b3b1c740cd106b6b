import ManagedHeap.Bytes
import ManagedHeap.Positional.ByHalves

/-!
# Numbers in bytes

Natural numbers as byte sequences, low byte first.

`toNat` is positional notation in base 256 (`toNat_eq`), and `ofNat` writes a
number in a given count of bytes (`toList_ofNat`), from which it is read back
if it fits (`toNat_ofNat`). Long sequences are cut in the middle, as in
`Positional.ofDigitsByHalves`.
-/

namespace ManagedHeap.Bytes

open Positional

/-- So few bytes are converted one by one. Their number fits into one machine
word. -/
def fewBytes : Nat := 7

/-- The number that a list of bytes denotes, low byte first. -/
def numberOf (values : List UInt8) : Nat :=
  ofDigits 256 (values.map UInt8.toNat)

theorem numberOf_append (low high : List UInt8) :
    numberOf (low ++ high) =
      numberOf low + 256 ^ low.length * numberOf high := by
  rw [numberOf, List.map_append, ofDigits_append, List.length_map, numberOf,
    numberOf]

/-! ## From bytes to numbers -/

/-- The number in the `count` bytes from `start` on. -/
def readFrom (bytes : Bytes) (start : Nat) : Nat → Nat
  | 0 => 0
  | count + 1 =>
    ((bytes.get? start).getD 0).toNat + 256 * readFrom bytes (start + 1) count

def readByHalves (bytes : Bytes) (start count : Nat) : Nat :=
  if count ≤ fewBytes then
    readFrom bytes start count
  else
    let half := count / 2
    readByHalves bytes start half +
      (readByHalves bytes (start + half) (count - half)) <<< (8 * half)
termination_by count
decreasing_by all_goals simp only [fewBytes] at *; omega

/-- The number that a byte sequence denotes, low byte first. -/
def toNat (bytes : Bytes) : Nat :=
  readByHalves bytes 0 bytes.size

private theorem two_pow_eight_mul (count : Nat) :
    2 ^ (8 * count) = 256 ^ count :=
  Nat.pow_mul 2 8 count

private theorem readFrom_eq
    {bytes : Bytes} {start count : Nat} (inside : start + count ≤ bytes.size) :
    readFrom bytes start count =
      numberOf ((bytes.toList.drop start).take count) := by
  induction count generalizing start with
  | zero => rfl
  | succ count inductionHypothesis =>
    have present : start < bytes.toList.length := by
      rw [length_toList]
      omega
    rw [readFrom, inductionHypothesis (by omega), get?_eq,
      List.getElem?_eq_getElem present,
      List.drop_eq_getElem_cons present, List.take_succ_cons]
    rfl

private theorem readByHalves_eq {bytes : Bytes} {start count : Nat}
    (inside : start + count ≤ bytes.size) :
    readByHalves bytes start count =
      numberOf ((bytes.toList.drop start).take count) := by
  fun_induction readByHalves bytes start count with
  | case1 => exact readFrom_eq inside
  | case2 start count many half lowHypothesis highHypothesis =>
    have halves : half + (count - half) = count := by
      simp only [half]
      omega
    have length : ((bytes.toList.drop start).take half).length = half := by
      rw [List.length_take, List.length_drop, length_toList]
      omega
    rw [lowHypothesis (by omega), highHypothesis (by omega), Nat.shiftLeft_eq,
      two_pow_eight_mul, Nat.mul_comm]
    conv =>
      rhs; rw [← halves, List.take_add, numberOf_append, length, List.drop_drop]

theorem toNat_eq (bytes : Bytes) : bytes.toNat = numberOf bytes.toList := by
  rw [toNat, readByHalves_eq (by omega), List.drop_zero, ← length_toList,
    List.take_length]

/-! ## From numbers to bytes -/

/-- Puts the `count` low bytes of a number at the end, low byte first. -/
def pushLow (content : ByteArray) : Nat → Nat → ByteArray
  | 0, _ => content
  | count + 1, number =>
    pushLow (content.push (UInt8.ofNat number)) count (number / 256)

def pushByHalves (content : ByteArray) (count number : Nat) : ByteArray :=
  if count ≤ fewBytes then
    pushLow content count number
  else
    let half := count / 2
    let low := number &&& (2 ^ (8 * half) - 1)
    pushByHalves (pushByHalves content half low)
      (count - half) (number >>> (8 * half))
termination_by count
decreasing_by all_goals simp only [fewBytes] at *; omega

/-- The `count` low bytes of a number, low byte first. -/
def ofNat (count number : Nat) : Bytes :=
  ⟨pushByHalves ByteArray.empty count number⟩

def ofPlaces (places : List Nat) : List UInt8 :=
  places.map UInt8.ofNat

private theorem toList_pushLow (content : ByteArray) (count number : Nat) :
    (pushLow content count number).data.toList =
      content.data.toList ++ ofPlaces (lowDigits 256 count number) := by
  induction count generalizing content number with
  | zero => simp [pushLow, lowDigits, ofPlaces]
  | succ count inductionHypothesis =>
    have lowest : UInt8.ofNat number = UInt8.ofNat (number % 256) := by
      apply UInt8.toNat_inj.mp
      simp only [UInt8.toNat_ofNat', Nat.reducePow, Nat.mod_mod]
    rw [pushLow, inductionHypothesis, lowDigits, ofPlaces, ofPlaces,
      List.map_cons,
      ByteArray.data_push, Array.toList_push, List.append_assoc,
      List.singleton_append, lowest]

private theorem toList_pushByHalves (content : ByteArray) (count number : Nat) :
    (pushByHalves content count number).data.toList =
      content.data.toList ++ ofPlaces (lowDigits 256 count number) := by
  fun_induction pushByHalves content count number with
  | case1 => exact toList_pushLow ..
  | case2 content count number many half low lowHypothesis _ highHypothesis =>
    have halves : half + (count - half) = count := by
      simp only [half]
      omega
    rw [highHypothesis, lowHypothesis, List.append_assoc,
      Nat.shiftRight_eq_div_pow]
    simp only [low, Nat.and_two_pow_sub_one_eq_mod, two_pow_eight_mul]
    conv => rhs; rw [← halves, lowDigits_add, ofPlaces, List.map_append]
    rfl

theorem toList_ofNat (count number : Nat) :
    (ofNat count number).toList = ofPlaces (lowDigits 256 count number) := by
  rw [toList, ofNat, toList_pushByHalves]
  rfl

@[simp]
theorem size_ofNat (count number : Nat) :
    (ofNat count number).size = count := by
  rw [← length_toList, toList_ofNat, ofPlaces, List.length_map,
    length_lowDigits]

/-- So many bytes keep the number modulo that power of 256. -/
theorem toNat_ofNat (count number : Nat) :
    (ofNat count number).toNat = number % 256 ^ count := by
  have inRange : ∀ place ∈ lowDigits 256 count number,
      (UInt8.toNat ∘ UInt8.ofNat) place = place := by
    intro place member
    exact UInt8.toNat_ofNat_of_lt' (lt_of_mem_lowDigits (by decide) member)
  rw [toNat_eq, toList_ofNat, numberOf, ofPlaces, List.map_map,
    List.map_congr_left inRange,
    List.map_id', ofDigits_lowDigits]

end ManagedHeap.Bytes
