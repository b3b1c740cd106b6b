import ManagedHeap.Bignum.Digits

/-!
# Digits in storage

Single digits of a byte sequence, and the length of the digits of a magnitude:
a magnitude has the fewest digits that hold it, so the highest of them is not
zero (`getLast?_ne_zero`).
-/

namespace ManagedHeap.Digits

open Positional

/-! ## Single digits -/

theorem ofBytes_eq_zero_iff (first second third fourth : UInt8) :
    ofBytes first second third fourth = 0 ↔
      first = 0 ∧ second = 0 ∧ third = 0 ∧ fourth = 0 := by
  have value := toNat_ofBytes first second third fourth
  constructor
  · intro zero
    rw [zero, UInt32.toNat_zero] at value
    refine ⟨?_, ?_, ?_, ?_⟩ <;> apply UInt8.toNat_inj.mp <;>
      rw [UInt8.toNat_zero] <;> omega
  · rintro ⟨rfl, rfl, rfl, rfl⟩
    rfl

theorem getElem?_decode {values : List UInt8} {index : Nat}
    (inside : 4 * index + 4 ≤ values.length) :
    ∃ first second third fourth,
      (values.drop (4 * index)).take 4 = [first, second, third, fourth] ∧
        (decode values)[index]? = some (ofBytes first second third fourth) := by
  induction index generalizing values with
  | zero =>
    match values, inside with
    | first :: second :: third :: fourth :: rest, _ =>
      exact ⟨first, second, third, fourth, by simp, by simp [decode]⟩
  | succ index inductionHypothesis =>
    match values, inside with
    | first :: second :: third :: fourth :: rest, inside =>
      have insideRest : 4 * index + 4 ≤ rest.length := by
        simp only [List.length_cons] at inside
        omega
      obtain ⟨a, b, c, d, bytes, digit⟩ := inductionHypothesis insideRest
      refine ⟨a, b, c, d, ?_, ?_⟩
      · rw [← bytes, Nat.mul_succ]
        rfl
      · rw [decode, List.getElem?_cons_succ]
        exact digit

theorem length_decode (values : List UInt8) :
    (decode values).length = values.length / 4 := by
  fun_induction decode values with
  | case1 first second third fourth rest inductionHypothesis =>
    simp only [List.length_cons, inductionHypothesis]
    omega
  | case2 values noDigit =>
    rcases values with _
      | ⟨first, _ | ⟨second, _ | ⟨third, _ | ⟨fourth, rest⟩⟩⟩⟩
    · rfl
    · simp
    · simp
    · simp
    · exact absurd rfl (noDigit first second third fourth rest)

theorem decode_take (values : List UInt8) (number : Nat) :
    decode (values.take (4 * number)) = (decode values).take number := by
  induction number generalizing values with
  | zero => simp [decode]
  | succ number inductionHypothesis =>
    match values with
    | [] => simp [decode]
    | [_] => simp [decode, Nat.mul_succ]
    | [_, _] => simp [decode, Nat.mul_succ]
    | [_, _, _] => simp [decode, Nat.mul_succ]
    | first :: second :: third :: fourth :: rest =>
      have rest := inductionHypothesis rest
      simp only [Nat.mul_succ, List.take_succ_cons, decode, rest]

/-! ## How many digits -/

theorem two_pow_bitLength_le {magnitude : Nat} (positive : magnitude ≠ 0) :
    2 ^ (bitLength magnitude - 1) ≤ magnitude := by
  rw [bitLength, if_neg positive, Nat.add_sub_cancel]
  exact Nat.log2_self_le positive

theorem count_zero : count 0 = 0 := rfl

theorem count_eq_zero_iff {magnitude : Nat} :
    count magnitude = 0 ↔ magnitude = 0 := by
  constructor
  · intro none
    have bound := lt_radix_pow_count magnitude
    rw [none, Nat.pow_zero] at bound
    omega
  · rintro rfl
    exact count_zero

theorem radix_pow_count_le {magnitude : Nat} (positive : magnitude ≠ 0) :
    radix ^ (count magnitude - 1) ≤ magnitude := by
  have bits : 32 * (count magnitude - 1) ≤ bitLength magnitude - 1 := by
    simp only [count, ceilDiv]
    omega
  calc
    radix ^ (count magnitude - 1) = 2 ^ (32 * (count magnitude - 1)) :=
      (Nat.pow_mul ..).symm
    _ ≤ 2 ^ (bitLength magnitude - 1) := Nat.pow_le_pow_right (by omega) bits
    _ ≤ magnitude := two_pow_bitLength_le positive

/-! ## The highest digit -/

private theorem ofDigits_lt {base : Nat} {places : List Nat}
    (inRange : ∀ place ∈ places, place < base) :
    ofDigits base places < base ^ places.length := by
  induction places with
  | nil => exact Nat.one_pos
  | cons head tail inductionHypothesis =>
    have bound := inRange head List.mem_cons_self
    have higher : ofDigits base tail + 1 ≤ base ^ tail.length :=
      inductionHypothesis fun place member =>
        inRange place (List.mem_cons_of_mem _ member)
    have product := Nat.mul_le_mul_left base higher
    have split :
        ofDigits base (head :: tail) = head + base * ofDigits base tail := rfl
    rw [List.length_cons, Nat.pow_succ', split]
    rw [Nat.mul_add, Nat.mul_one] at product
    omega

theorem toNat_lt (digits : List UInt32) :
    toNat digits < radix ^ digits.length := by
  have inRange : ∀ place ∈ digits.map UInt32.toNat, place < radix := by
    intro place member
    obtain ⟨digit, _, rfl⟩ := List.mem_map.mp member
    exact digit.toNat_lt
  simpa [toNat] using ofDigits_lt inRange

theorem toNat_append (low high : List UInt32) :
    toNat (low ++ high) = toNat low + radix ^ low.length * toNat high := by
  rw [toNat, List.map_append, ofDigits_append, List.length_map, toNat, toNat]

private theorem toNat_concat_zero (digits : List UInt32) :
    toNat (digits ++ [0]) = toNat digits := by
  rw [toNat_append]
  have zero : toNat [0] = 0 := rfl
  rw [zero, Nat.mul_zero, Nat.add_zero]

theorem getLast?_ne_zero {digits : List UInt32}
    (length : digits.length = count (toNat digits)) :
    digits.getLast? ≠ some 0 := by
  intro last
  obtain ⟨lower, rfl⟩ := List.getLast?_eq_some_iff.mp last
  have positive : toNat (lower ++ [0]) ≠ 0 := by
    intro zero
    rw [zero, count_zero, List.length_append] at length
    simp at length
  have least := radix_pow_count_le positive
  rw [← length, List.length_append, List.length_singleton, Nat.add_sub_cancel,
    toNat_concat_zero] at least
  exact absurd (toNat_lt lower) (Nat.not_lt.mpr least)

/-- Digits that do not end in zero are as many as their magnitude has. -/
theorem length_eq_count {digits : List UInt32}
    (last : digits.getLast? ≠ some 0) :
    digits.length = count (toNat digits) := by
  rcases List.eq_nil_or_concat digits with rfl | ⟨lower, top, equal⟩
  · rfl
  · rw [List.concat_eq_append] at equal
    subst equal
    have below := toNat_lt (lower ++ [top])
    have topPositive : 1 ≤ top.toNat := by
      have different : top ≠ 0 := by
        rintro rfl
        simp at last
      have : top.toNat ≠ 0 := fun zero => different (UInt32.toNat_inj.mp zero)
      omega
    have topValue : toNat [top] = top.toNat := by
      simp [toNat, ofDigits]
    have least : radix ^ lower.length ≤ toNat (lower ++ [top]) := by
      rw [toNat_append, topValue]
      calc
        radix ^ lower.length = radix ^ lower.length * 1 := (Nat.mul_one _).symm
        _ ≤ radix ^ lower.length * top.toNat :=
          Nat.mul_le_mul_left _ topPositive
        _ ≤ toNat lower + radix ^ lower.length * top.toNat := Nat.le_add_left ..
    have positive : toNat (lower ++ [top]) ≠ 0 := by
      have := Nat.pow_pos (n := lower.length) (show 0 < radix by decide)
      omega
    have enough := lt_radix_pow_count (toNat (lower ++ [top]))
    have few := radix_pow_count_le positive
    have large : 1 < radix := by decide
    have first :=
      (Nat.pow_lt_pow_iff_right large).mp (Nat.lt_of_le_of_lt least enough)
    have second :=
      (Nat.pow_lt_pow_iff_right large).mp (Nat.lt_of_le_of_lt few below)
    rw [List.length_append, List.length_singleton] at second ⊢
    omega

/-- The top one of some digits in use is the last of them. -/
theorem exists_top_ne_zero_iff {digits : List UInt32}
    {used : Nat} (positive : used ≠ 0)
    (enough : used ≤ digits.length) :
    (∃ digit, digits[used - 1]? = some digit ∧ digit ≠ 0) ↔
      (digits.take used).getLast? ≠ some 0 := by
  have inside : used - 1 < digits.length := by omega
  have last : (digits.take used).getLast? = some digits[used - 1] := by
    rw [List.getLast?_eq_getElem?, List.length_take, Nat.min_eq_left enough,
      List.getElem?_take,
      if_pos (by omega), List.getElem?_eq_getElem inside]
  rw [last, List.getElem?_eq_getElem inside]
  simp

end ManagedHeap.Digits

namespace ManagedHeap.Bytes

open Positional

/-! ## The bytes of a number -/

theorem numberOf_lt (values : List UInt8) :
    numberOf values < 256 ^ values.length := by
  have inRange : ∀ place ∈ values.map UInt8.toNat, place < 256 := by
    intro place member
    obtain ⟨byte, _, rfl⟩ := List.mem_map.mp member
    exact byte.toNat_lt
  simpa [numberOf] using Digits.ofDigits_lt inRange

theorem toList_ofNat_zero (count : Nat) :
    (ofNat count 0).toList = List.replicate count 0 := by
  rw [toList_ofNat]
  induction count with
  | zero => rfl
  | succ count inductionHypothesis =>
    rw [lowDigits, ofPlaces, List.map_cons, List.replicate_succ,
      ← inductionHypothesis, ofPlaces]
    rfl

/-- Bytes above those that a number needs are zero. -/
theorem toList_ofNat_add
    {first number : Nat} (second : Nat) (fits : number < 256 ^ first) :
    (ofNat (first + second) number).toList =
      (ofNat first number).toList ++ List.replicate second 0 := by
  rw [toList_ofNat, lowDigits_add, Nat.mod_eq_of_lt fits, Nat.div_eq_of_lt fits,
    ofPlaces,
    List.map_append, toList_ofNat, ← toList_ofNat_zero, toList_ofNat, ofPlaces,
    ofPlaces]

end ManagedHeap.Bytes
