/-!
# Positional notation

Positional notation of natural numbers, least significant digit first.

`digits base number` holds no leading zero, and `ofDigits base` undoes it in
every base from two on. `lowDigits base count number` has a given length; in
so many places a smaller number is complete (`ofDigits_lowDigits`). Bignum
storage uses base `2 ^ 32`, numerals use the bases 2 to 36.
-/

namespace ManagedHeap

/-- Powers with natural exponents are those of the core library, whatever
algebra is imported. -/
@[default_instance 10000]
instance (priority := 10000) instCorePow {α : Type} [NatPow α] : Pow α Nat :=
  instPowNat

end ManagedHeap

namespace ManagedHeap.Positional

/-! ## Digits of a number -/

/-- The digits of `number` in `base`, least significant first. Zero has none,
and so has every number in a base below two. -/
def digits (base number : Nat) : List Nat :=
  if number = 0 ∨ base < 2 then
    []
  else
    number % base :: digits base (number / base)
termination_by number
decreasing_by exact Nat.div_lt_self (by omega) (by omega)

/-- The number that a list of digits denotes, least significant digit first. -/
def ofDigits (base : Nat) (places : List Nat) : Nat :=
  places.foldr (fun place higher => place + base * higher) 0

theorem digits_zero (base : Nat) : digits base 0 = [] := by
  rw [digits, if_pos (Or.inl rfl)]

theorem digits_of_pos {base number : Nat}
    (enough : 2 ≤ base) (positive : 0 < number) :
    digits base number = number % base :: digits base (number / base) := by
  rw [digits, if_neg (by omega)]

/-- Writing a number in positional notation and reading it back gives the
number. -/
theorem ofDigits_digits {base : Nat} (enough : 2 ≤ base) (number : Nat) :
    ofDigits base (digits base number) = number := by
  induction number using Nat.strongRecOn with
  | _ number inductionHypothesis =>
    by_cases zero : number = 0
    · subst zero
      rw [digits_zero]
      rfl
    · have smaller : number / base < number :=
        Nat.div_lt_self (by omega) (by omega)
      have tail := inductionHypothesis _ smaller
      rw [digits_of_pos enough (by omega)]
      simp only [ofDigits, List.foldr_cons] at tail ⊢
      rw [tail]
      exact Nat.mod_add_div number base

/-! ## A given number of places -/

/-- The `count` lowest digits of `number`, least significant first, with zeros
where `number` has no digits left. -/
def lowDigits (base : Nat) : Nat → Nat → List Nat
  | 0, _ => []
  | count + 1, number => number % base :: lowDigits base count (number / base)

theorem length_lowDigits (base count number : Nat) :
    (lowDigits base count number).length = count := by
  induction count generalizing number with
  | zero => rfl
  | succ count inductionHypothesis =>
    rw [lowDigits, List.length_cons, inductionHypothesis]

theorem lt_of_mem_lowDigits {base count number place : Nat}
    (positive : 0 < base) (member : place ∈ lowDigits base count number) :
    place < base := by
  induction count generalizing number with
  | zero => cases member
  | succ count inductionHypothesis =>
    rcases List.mem_cons.mp member with lowest | higher
    · exact lowest ▸ Nat.mod_lt number positive
    · exact inductionHypothesis higher

/-- So many places keep the number modulo that power of the base. -/
theorem ofDigits_lowDigits (base count number : Nat) :
    ofDigits base (lowDigits base count number) = number % base ^ count := by
  induction count generalizing number with
  | zero =>
    simp only [lowDigits, ofDigits, List.foldr_nil, Nat.pow_zero, Nat.mod_one]
  | succ count inductionHypothesis =>
    have higher := inductionHypothesis (number / base)
    simp only [lowDigits, ofDigits, List.foldr_cons] at higher ⊢
    rw [higher, Nat.pow_succ', Nat.mod_mul]

/-! ## Length in bits -/

/-- The number of binary places of `number`; zero has none. -/
def bitLength (number : Nat) : Nat :=
  if number = 0 then 0 else number.log2 + 1

theorem lt_two_pow_bitLength (number : Nat) :
    number < 2 ^ bitLength number := by
  unfold bitLength
  split
  · omega
  · exact Nat.lt_log2_self

def ceilDiv (number divisor : Nat) : Nat :=
  (number + divisor - 1) / divisor

end ManagedHeap.Positional
