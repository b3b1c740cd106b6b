import ManagedHeap.Positional

/-!
# Positional notation by halves

The conversions of positional notation for numbers of many digits. Lists and
numbers are cut in the middle, so that the work is that of a few
multiplications and divisions of the full size instead of one for each digit.

Each conversion gives what the one from digit to digit gives:
`ofDigitsByHalves_eq`, `lowDigitsByHalves_eq` and `digitsByHalves_eq`.
-/

namespace ManagedHeap.Positional

/-- So few digits are converted one by one. -/
def fewDigits : Nat := 8

/-! ## From digits to numbers -/

/-- The number that a list of digits denotes, least significant digit first. -/
def ofDigitsByHalves (base : Nat) (places : List Nat) : Nat :=
  if places.length ≤ fewDigits then
    ofDigits base places
  else
    let half := places.length / 2
    ofDigitsByHalves base (places.take half) +
      base ^ half * ofDigitsByHalves base (places.drop half)
termination_by places.length
decreasing_by all_goals simp only [fewDigits, List.length_take,
  List.length_drop] at *; omega

theorem ofDigits_append (base : Nat) (low high : List Nat) :
    ofDigits base (low ++ high) =
      ofDigits base low + base ^ low.length * ofDigits base high := by
  induction low with
  | nil => simp [ofDigits]
  | cons head tail inductionHypothesis =>
    simp only [ofDigits, List.cons_append, List.foldr_cons]
      at inductionHypothesis ⊢
    rw [inductionHypothesis, List.length_cons, Nat.mul_add, Nat.pow_succ',
      Nat.mul_assoc, Nat.add_assoc]

theorem ofDigitsByHalves_eq (base : Nat) (places : List Nat) :
    ofDigitsByHalves base places = ofDigits base places := by
  fun_induction ofDigitsByHalves base places with
  | case1 => rfl
  | case2 places many half lowHypothesis highHypothesis =>
    have length : (places.take half).length = half := by
      simp only [List.length_take, half]
      omega
    rw [lowHypothesis, highHypothesis]
    conv =>
      rhs; rw [← List.take_append_drop half places, ofDigits_append, length]

/-! ## From numbers to digits -/

/-- The `count` lowest digits of `number`, least significant first. -/
def lowDigitsByHalves (base count number : Nat) : List Nat :=
  if count ≤ fewDigits then
    lowDigits base count number
  else
    let half := count / 2
    let power := base ^ half
    lowDigitsByHalves base half (number % power) ++
      lowDigitsByHalves base (count - half) (number / power)
termination_by count
decreasing_by all_goals simp only [fewDigits] at *; omega

theorem lowDigits_add (base first second number : Nat) :
    lowDigits base (first + second) number =
      lowDigits base first (number % base ^ first) ++
        lowDigits base second (number / base ^ first) := by
  induction first generalizing number with
  | zero => simp [lowDigits]
  | succ first inductionHypothesis =>
    rw [Nat.succ_add, lowDigits, inductionHypothesis, lowDigits,
      List.cons_append, Nat.pow_succ',
      Nat.mod_mul_right_mod, Nat.mod_mul_right_div_self, Nat.div_div_eq_div_mul]

theorem lowDigitsByHalves_eq (base count number : Nat) :
    lowDigitsByHalves base count number = lowDigits base count number := by
  fun_induction lowDigitsByHalves base count number with
  | case1 => rfl
  | case2 count number many half power lowHypothesis highHypothesis =>
    rw [lowHypothesis, highHypothesis, ← lowDigits_add]
    congr 1
    simp only [half]
    omega

/-! ## Without leading zeros -/

/-- The list without zeros at its end. -/
def dropFinalZeros (places : List Nat) : List Nat :=
  (places.reverse.dropWhile (· == 0)).reverse

/-- Places enough for all digits of `number`: each has at least as many bits
as `base`, less one. -/
def enoughPlaces (base number : Nat) : Nat :=
  ceilDiv (bitLength number) base.log2

/-- The digits of `number` in `base`, least significant first, without leading
zeros. -/
def digitsByHalves (base number : Nat) : List Nat :=
  if base < 2 then
    []
  else
    dropFinalZeros (lowDigitsByHalves base (enoughPlaces base number) number)

private theorem dropFinalZeros_cons (head : Nat) (tail : List Nat) :
    dropFinalZeros (head :: tail) =
      if dropFinalZeros tail = [] ∧
        head = 0 then [] else head :: dropFinalZeros tail := by
  simp only [dropFinalZeros, List.reverse_cons, List.dropWhile_append,
    List.isEmpty_iff, List.reverse_eq_nil_iff]
  by_cases allZero : tail.reverse.dropWhile (· == 0) = []
  · by_cases zero : head = 0 <;> simp [allZero, zero]
  · simp [allZero]

theorem digits_eq_nil_iff {base number : Nat} (enough : 2 ≤ base) :
    digits base number = [] ↔ number = 0 := by
  constructor
  · intro empty
    have value := ofDigits_digits enough number
    rw [empty] at value
    exact value.symm
  · rintro rfl
    exact digits_zero base

private theorem dropFinalZeros_lowDigits {base count number : Nat}
    (enough : 2 ≤ base) (bound : number < base ^ count) :
    dropFinalZeros (lowDigits base count number) = digits base number := by
  induction count generalizing number with
  | zero =>
    obtain rfl : number = 0 := by simpa using bound
    rw [digits_zero]
    rfl
  | succ count inductionHypothesis =>
    have higherBound : number / base < base ^ count :=
      Nat.div_lt_of_lt_mul (by rwa [Nat.pow_succ'] at bound)
    simp only [lowDigits, dropFinalZeros_cons, inductionHypothesis higherBound,
      digits_eq_nil_iff enough]
    by_cases zero : number = 0
    · subst zero
      rw [if_pos (by simp), digits_zero]
    · have leading := digits_of_pos enough (Nat.pos_of_ne_zero zero)
      rw [leading, if_neg]
      rintro ⟨noHigher, noLowest⟩
      have parts := Nat.mod_add_div number base
      rw [noHigher, noLowest] at parts
      omega

private theorem lt_pow_enoughPlaces
    {base : Nat} (enough : 2 ≤ base) (number : Nat) :
    number < base ^ enoughPlaces base number := by
  have bits : 1 ≤ base.log2 := (Nat.le_log2 (by omega)).mpr (by omega)
  have covered : bitLength number ≤ base.log2 * enoughPlaces base number := by
    have parts := Nat.div_add_mod (bitLength number + base.log2 - 1) base.log2
    have rest :=
      Nat.mod_lt (bitLength number + base.log2 - 1)
        (show base.log2 > 0 by omega)
    simp only [enoughPlaces, ceilDiv]
    omega
  calc
    number < 2 ^ bitLength number := lt_two_pow_bitLength number
    _ ≤ 2 ^ (base.log2 * enoughPlaces base number) :=
      Nat.pow_le_pow_right (by omega) covered
    _ = (2 ^ base.log2) ^ enoughPlaces base number := Nat.pow_mul ..
    _ ≤ base ^ enoughPlaces base number :=
      Nat.pow_le_pow_left (Nat.log2_self_le (by omega)) _

theorem digitsByHalves_eq (base number : Nat) :
    digitsByHalves base number = digits base number := by
  unfold digitsByHalves
  split
  · rename_i small
    rw [digits, if_pos (Or.inr small)]
  · rename_i large
    rw [lowDigitsByHalves_eq]
    exact dropFinalZeros_lowDigits (by omega)
      (lt_pow_enoughPlaces (by omega) number)

end ManagedHeap.Positional
