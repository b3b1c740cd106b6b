import Mathlib.Data.List.TakeWhile
import ManagedHeap.Proofs.Numeral.Grammar

/-!
# Canonical numerals

A numeral is canonical when its letters are small, no zero stands in front of
other digits, and its only mark is the minus of a negative value
(`IsCanonical`). Every value has exactly one canonical text in every base, and
that text is written for it (`write_eq_iff`). Any other numeral is brought to
that form without changing its value (`normalise`).
-/

namespace ManagedHeap

variable {radix : Nat}

/-! ## Canonical forms -/

namespace RadixNumeral

structure IsCanonical (numeral : RadixNumeral radix) : Prop where
  small : ∀ digit ∈ numeral.digits, digit.character.isUpper = false
  leading : numeral.leading.place.val = 0 → numeral.following = []
  mark : numeral.mark = .none ∨ numeral.mark = .minus ∧ numeral.value < 0

/-- The numeral with small letters, without zeros in front, without a plus, and
without a minus where no digit but zeros follows. -/
def normalise (numeral : RadixNumeral radix) : RadixNumeral radix :=
  match numeral.digits.dropWhile fun digit => digit.place.val = 0 with
  | [] => ⟨.none, numeral.leading.lower, []⟩
  | first :: rest =>
    ⟨if numeral.mark = .minus then .minus else .none, first.lower,
      rest.map WrittenDigit.lower⟩

end RadixNumeral

/-! ## Small letters -/

namespace WrittenDigit

private theorem isUpper_character_lower (valid : Numeral.IsRadix radix)
    (digit : WrittenDigit radix) :
    digit.lower.character.isUpper = false :=
  of_base36 (fun digit => digit.lower.character.isUpper = false)
    (by decide) valid digit

/-- A character that is no capital letter is written with a small letter. -/
theorem character_lower (valid : Numeral.IsRadix radix)
    {digit : WrittenDigit radix} (small : digit.character.isUpper = false) :
    digit.lower.character = digit.character :=
  of_base36
    (fun digit =>
      digit.character.isUpper = false →
        digit.lower.character = digit.character)
    (by decide) valid digit small

private theorem digitChar_place (digit : WrittenDigit radix) :
    Numeral.digitChar digit.place.val = digit.lower.character := by
  unfold Numeral.digitChar character
  split
  · rename_i decimal
    exact (if_pos decimal).symm
  · rename_i letter
    exact ((if_neg letter).trans (if_neg Bool.false_ne_true)).symm

end WrittenDigit

/-! ## Digits of a magnitude -/

namespace Positional

/-- Digits below the base that do not end in zero are those of the number that
they denote. -/
theorem digits_ofDigits {base : Nat} (enough : 2 ≤ base) {places : List Nat}
    (inRange : ∀ place ∈ places, place < base)
    (last : places.getLast? ≠ some 0) :
    digits base (ofDigits base places) = places := by
  induction places with
  | nil => exact digits_zero base
  | cons head tail inductionHypothesis =>
    have headBound := inRange head List.mem_cons_self
    have tailRange : ∀ place ∈ tail, place < base :=
      fun place member => inRange place (List.mem_cons_of_mem _ member)
    have tailLast : tail.getLast? ≠ some 0 := by
      cases tail with
      | nil => simp
      | cons second rest => simpa using last
    have higher := inductionHypothesis tailRange tailLast
    have parts : ofDigits base (head :: tail) =
        head + base * ofDigits base tail := rfl
    have positive : 0 < ofDigits base (head :: tail) := by
      apply Nat.pos_of_ne_zero
      intro zero
      have noHead : head = 0 := by omega
      have noTail : ofDigits base tail = 0 := by
        have product : base * ofDigits base tail = 0 := by omega
        rcases Nat.mul_eq_zero.mp product with noBase | noTail
        · omega
        · exact noTail
      rw [noTail, digits_zero] at higher
      rw [← higher, noHead] at last
      exact last rfl
    rw [digits_of_pos enough positive, parts, Nat.add_mul_mod_self_left,
      Nat.mod_eq_of_lt headBound, Nat.add_mul_div_left _ _ (by omega),
      Nat.div_eq_of_lt headBound, Nat.zero_add, higher]

private theorem lt_of_mem_digits {base number place : Nat}
    (member : place ∈ digits base number) : place < base := by
  fun_induction digits base number with
  | case1 => cases member
  | case2 number more inductionHypothesis =>
    rcases List.mem_cons.mp member with lowest | higher
    · exact lowest ▸ Nat.mod_lt number (by omega)
    · exact inductionHypothesis higher

private theorem getLast?_digits_ne_zero (base number : Nat) :
    (digits base number).getLast? ≠ some 0 := by
  fun_induction digits base number with
  | case1 => simp
  | case2 number more inductionHypothesis =>
    cases higher : digits base (number / base) with
    | nil =>
      -- Without higher digits the number is its own lowest digit.
      have small : number / base = 0 :=
        (digits_eq_nil_iff (by omega)).mp higher
      have parts := Nat.mod_add_div number base
      rw [small, Nat.mul_zero, Nat.add_zero] at parts
      rw [List.getLast?_singleton, parts]
      simp only [ne_eq, Option.some.injEq]
      omega
    | cons second rest =>
      rw [higher] at inductionHypothesis
      simpa using inductionHypothesis

end Positional

namespace RadixNumeral

open Numeral

variable {value : Int}

/-! ## Writing -/

section Leading

variable {leading : WrittenDigit radix}
  {following : List (WrittenDigit radix)}

private theorem digits_count (valid : IsRadix radix)
    (nonzero : leading.place.val ≠ 0) :
    Positional.digits radix (count (leading :: following)) =
      (places (leading :: following)).reverse := by
  have inRange : ∀ place ∈ (places (leading :: following)).reverse,
      place < radix := by
    intro place member
    obtain ⟨digit, _, rfl⟩ := List.mem_map.mp (List.mem_reverse.mp member)
    exact digit.place.isLt
  have last : (places (leading :: following)).reverse.getLast? ≠ some 0 := by
    rw [List.getLast?_reverse]
    simpa [places] using nonzero
  have written := Positional.digits_ofDigits valid.1 inRange last
  rwa [ofDigits_reverse_places] at written

private theorem count_ne_zero (valid : IsRadix radix)
    (nonzero : leading.place.val ≠ 0) : count (leading :: following) ≠ 0 := by
  intro zero
  have written : Positional.digits radix (count (leading :: following)) =
      (places (leading :: following)).reverse := digits_count valid nonzero
  rw [zero, Positional.digits_zero] at written
  simp [places] at written

private theorem magnitudeList_count (valid : IsRadix radix)
    (nonzero : leading.place.val ≠ 0) :
    magnitudeList radix (count (leading :: following)) =
      (leading :: following).map fun digit => digit.lower.character := by
  rw [magnitudeList, if_neg (count_ne_zero valid nonzero),
    Positional.digitsByHalves_eq, digits_count valid nonzero,
    List.map_reverse, List.reverse_reverse, places, List.map_map]
  exact List.map_congr_left fun digit _ => digit.digitChar_place

end Leading

private theorem magnitudeList_of_canonical (valid : IsRadix radix)
    {numeral : RadixNumeral radix} (canonical : numeral.IsCanonical) :
    magnitudeList radix numeral.magnitude =
      numeral.digits.map WrittenDigit.character := by
  have small : numeral.digits.map (fun digit => digit.lower.character) =
      numeral.digits.map WrittenDigit.character :=
    List.map_congr_left fun digit member =>
      WrittenDigit.character_lower valid (canonical.small digit member)
  by_cases zero : numeral.leading.place.val = 0
  · have single : numeral.digits = [numeral.leading] := by
      rw [digits, canonical.leading zero]
    have nothing : numeral.magnitude = 0 := by
      rw [magnitude, single]
      simp [count, zero]
    rw [← small, single, nothing, List.map_singleton,
      ← WrittenDigit.digitChar_place, zero]
    rfl
  · rw [← small]
    exact magnitudeList_count valid zero

private theorem write_of_canonical (valid : IsRadix radix)
    {numeral : RadixNumeral radix} (canonical : numeral.IsCanonical) :
    write radix numeral.value = numeral.text := by
  have digits := magnitudeList_of_canonical valid canonical
  rw [← numeral.natAbs_value] at digits
  rw [write, writeList, text, digits]
  rcases canonical.mark with unmarked | ⟨minus, negative⟩
  · have above : ¬numeral.value < 0 := by
      rw [value, unmarked]
      exact Int.not_lt.mpr (Int.natCast_nonneg _)
    rw [if_neg above, unmarked]
    rfl
  · rw [if_pos negative, minus]
    rfl

/-! ## One canonical numeral for each value -/

private theorem exists_digits_of_magnitude
    (valid : IsRadix radix) {magnitude : Nat}
    (positive : magnitude ≠ 0) :
    ∃ (leading : WrittenDigit radix) (following : List (WrittenDigit radix)),
      leading.place.val ≠ 0 ∧
      count (leading :: following) = magnitude ∧
      ∀ digit ∈ leading :: following, digit.lower = digit := by
  have enough : 2 ≤ radix := valid.1
  have inRange : ∀ place ∈ (Positional.digits radix magnitude).reverse,
      place < radix := fun place member =>
    Positional.lt_of_mem_digits (List.mem_reverse.mp member)
  let digits : List (WrittenDigit radix) :=
    (Positional.digits radix magnitude).reverse.pmap
      (fun place below => ⟨⟨place, below⟩, false⟩) inRange
  have arePlaces :
      places digits = (Positional.digits radix magnitude).reverse := by
    simp [places, digits, List.map_pmap]
  have denotes : count digits = magnitude := by
    rw [← ofDigits_reverse_places, arePlaces, List.reverse_reverse,
      Positional.ofDigits_digits enough]
  have small : ∀ digit ∈ digits, digit.lower = digit := by
    intro digit member
    obtain ⟨place, _, rfl⟩ := List.mem_pmap.mp member
    rfl
  have last := Positional.getLast?_digits_ne_zero radix magnitude
  rw [← List.head?_reverse, ← arePlaces] at last
  generalize digits = written at denotes small last
  cases written with
  | nil => exact absurd denotes.symm positive
  | cons leading following =>
    refine ⟨leading, following, ?_, denotes, small⟩
    intro zero
    rw [places, List.map_cons, zero] at last
    exact last rfl

theorem exists_canonical (valid : IsRadix radix) (value : Int) :
    ∃ numeral : RadixNumeral radix,
      numeral.IsCanonical ∧ numeral.value = value := by
  by_cases zero : value = 0
  · have positive : 0 < radix := Nat.lt_of_lt_of_le (by decide) valid.1
    let digit : WrittenDigit radix := ⟨⟨0, positive⟩, false⟩
    refine ⟨⟨.none, digit, []⟩, ⟨?_, fun _ => rfl, Or.inl rfl⟩, zero.symm⟩
    intro other member
    obtain rfl := List.mem_singleton.mp member
    exact digit.isUpper_character_lower valid
  · obtain ⟨leading, following, nonzero, denotes, small⟩ :=
      exists_digits_of_magnitude valid (Int.natAbs_ne_zero.mpr zero)
    let numeral : RadixNumeral radix :=
      ⟨if value < 0 then .minus else .none, leading, following⟩
    have isValue : numeral.value = value := by
      have magnitude : numeral.magnitude = value.natAbs := denotes
      rw [RadixNumeral.value, magnitude]
      by_cases negative : value < 0
      · have minus : numeral.mark = .minus := if_pos negative
        rw [minus]
        dsimp only
        omega
      · have unmarked : numeral.mark = .none := if_neg negative
        rw [unmarked]
        dsimp only
        omega
    refine ⟨numeral, ⟨?_, fun isZero => absurd isZero nonzero, ?_⟩, isValue⟩
    · intro digit member
      rw [← small digit member]
      exact digit.isUpper_character_lower valid
    · rw [isValue]
      by_cases negative : value < 0
      · exact Or.inr ⟨if_pos negative, negative⟩
      · exact Or.inl (if_neg negative)

/-- What is written for a value is its only canonical numeral. -/
theorem write_eq_iff (valid : IsRadix radix) {text : String} :
    write radix value = text ↔
      ∃ numeral : RadixNumeral radix, numeral.IsCanonical ∧
        numeral.value = value ∧ numeral.text = text := by
  constructor
  · intro written
    obtain ⟨numeral, canonical, isValue⟩ := exists_canonical valid value
    refine ⟨numeral, canonical, isValue, ?_⟩
    rw [← written, ← isValue, write_of_canonical valid canonical]
  · intro spelled
    obtain ⟨numeral, canonical, isValue, isText⟩ := spelled
    rw [← isValue, ← isText, write_of_canonical valid canonical]

/-- A value is read back from what is written for it. -/
theorem read?_write (valid : IsRadix radix) (value : Int) :
    read? radix (write radix value) = some value := by
  obtain ⟨numeral, _, isValue, isText⟩ := (write_eq_iff valid).mp rfl
  rw [← isText, read?_text valid, isValue]

/-! ## Normal forms of numerals -/

private theorem count_dropWhile (digits : List (WrittenDigit radix)) :
    count (digits.dropWhile fun digit => digit.place.val = 0) =
      count digits := by
  induction digits with
  | nil => rfl
  | cons digit rest inductionHypothesis =>
    by_cases zero : digit.place.val = 0
    · have skipped : count (digit :: rest) = count rest := by
        simp [count, zero]
      rw [List.dropWhile_cons_of_pos (by simpa using zero),
        inductionHypothesis, skipped]
    · rw [List.dropWhile_cons_of_neg (by simpa using zero)]

private theorem count_lower (digits : List (WrittenDigit radix)) :
    count (digits.map WrittenDigit.lower) = count digits := by
  rw [count, List.foldl_map]
  rfl

/-- The two forms that a normalised numeral may have: a bare zero, or digits
that begin with none. -/
theorem normalise_cases (numeral : RadixNumeral radix) :
    numeral.magnitude = 0 ∧ numeral.leading.place.val = 0 ∧
        numeral.normalise = ⟨.none, numeral.leading.lower, []⟩ ∨
      ∃ first rest, first.place.val ≠ 0 ∧
        count (first :: rest) = numeral.magnitude ∧
        numeral.normalise =
          ⟨if numeral.mark = .minus then .minus else .none, first.lower,
            rest.map WrittenDigit.lower⟩ := by
  have kept := count_dropWhile numeral.digits
  unfold normalise
  cases dropped :
      numeral.digits.dropWhile fun digit => digit.place.val = 0 with
  | nil =>
    left
    rw [dropped] at kept
    have zeros := List.dropWhile_eq_nil_iff.mp dropped
    have leading := zeros numeral.leading List.mem_cons_self
    exact ⟨kept.symm, of_decide_eq_true leading, rfl⟩
  | cons first rest =>
    right
    rw [dropped] at kept
    have heads := List.head?_dropWhile_not
      (fun digit : WrittenDigit radix => decide (digit.place.val = 0))
      numeral.digits
    rw [dropped] at heads
    exact ⟨first, rest, of_decide_eq_false heads, kept, rfl⟩

theorem value_normalise (numeral : RadixNumeral radix) :
    numeral.normalise.value = numeral.value := by
  rcases numeral.normalise_cases with
    ⟨nothing, leading, isForm⟩ | ⟨first, rest, _, denotes, isForm⟩
  · have bare : numeral.normalise.magnitude = 0 := by
      rw [isForm]
      simp [magnitude, digits, count, WrittenDigit.lower, leading]
    have unmarked : numeral.normalise.mark = .none := by rw [isForm]
    rw [value, value, bare, nothing, unmarked]
    cases numeral.mark <;> rfl
  · have same : numeral.normalise.magnitude = numeral.magnitude := by
      rw [isForm, ← denotes, ← count_lower]
      rfl
    have mark : numeral.normalise.mark =
        if numeral.mark = .minus then .minus else .none := by rw [isForm]
    rw [value, value, same, mark]
    cases numeral.mark <;> rfl

theorem isCanonical_normalise (valid : IsRadix radix)
    (numeral : RadixNumeral radix) : numeral.normalise.IsCanonical := by
  have sameValue := numeral.value_normalise
  rcases numeral.normalise_cases with
    ⟨nothing, leading, isForm⟩ | ⟨first, rest, nonzero, denotes, isForm⟩
  · rw [isForm]
    refine ⟨?_, fun _ => rfl, Or.inl rfl⟩
    intro digit member
    obtain rfl := List.mem_singleton.mp member
    exact numeral.leading.isUpper_character_lower valid
  · have lowered : numeral.normalise.digits =
        (first :: rest).map WrittenDigit.lower := by rw [isForm]; rfl
    refine ⟨?_, ?_, ?_⟩
    · intro digit member
      rw [lowered] at member
      obtain ⟨written, _, rfl⟩ := List.mem_map.mp member
      exact written.isUpper_character_lower valid
    · rw [isForm]
      exact fun zero => absurd zero nonzero
    · rw [sameValue]
      have positive : numeral.magnitude ≠ 0 := by
        rw [← denotes]
        exact count_ne_zero valid nonzero
      by_cases minus : numeral.mark = .minus
      · right
        refine ⟨by rw [isForm]; exact if_pos minus, ?_⟩
        rw [value, minus]
        dsimp only
        omega
      · left
        rw [isForm]
        exact if_neg minus

/-- What is written for the value of a numeral is the numeral normalised. -/
theorem write_value (valid : IsRadix radix)
    (numeral : RadixNumeral radix) :
    write radix numeral.value = numeral.normalise.text := by
  rw [← numeral.value_normalise]
  exact write_of_canonical valid (numeral.isCanonical_normalise valid)

end RadixNumeral

end ManagedHeap
