import Mathlib.Tactic.IntervalCases
import ManagedHeap.Proofs.Numeral.Grammar

/-!
# Decimal numerals

A decimal numeral is at most one sign and one or more digits, and its value is
found digit by digit (`DecimalNumeral`). It is the numeral of base 10, where no
digit is a letter, so the reader accepts exactly the texts of decimal numerals
(`read?_text`, `read?_eq_none_iff`). What is written for a value is its
canonical numeral (`decimal_eq_toString`).
-/

namespace ManagedHeap

/-! ## Numerals -/

/-- A decimal numeral: at most one sign, and one or more digits, most
significant first. -/
structure DecimalNumeral where
  mark : SignMark
  leading : Fin 10
  following : List (Fin 10)
  deriving DecidableEq, Repr

namespace DecimalNumeral

def characterOf (digit : Fin 10) : Char :=
  Char.ofNat ('0'.toNat + digit)

def digits (numeral : DecimalNumeral) : List (Fin 10) :=
  numeral.leading :: numeral.following

def text (numeral : DecimalNumeral) : String :=
  String.ofList (numeral.mark.characters ++ numeral.digits.map characterOf)

/-- Each digit counts ten times what the digit after it counts. -/
def magnitude (numeral : DecimalNumeral) : Nat :=
  numeral.digits.foldl (fun higher digit => 10 * higher + digit.val) 0

def value (numeral : DecimalNumeral) : Int :=
  match numeral.mark with
  | .minus => -numeral.magnitude
  | _ => numeral.magnitude

theorem characterOf_ne_minus (digit : Fin 10) : characterOf digit ≠ '-' := by
  revert digit
  decide

/-! ## Base 10 -/

/-- No digit of base 10 is a letter. -/
theorem characterOf_place (digit : WrittenDigit 10) :
    characterOf digit.place = digit.character := by
  rw [WrittenDigit.character, if_pos digit.place.isLt]
  rfl

private def toRadix (numeral : DecimalNumeral) : RadixNumeral 10 :=
  ⟨numeral.mark, ⟨numeral.leading, false⟩,
    numeral.following.map fun digit => ⟨digit, false⟩⟩

private def ofRadix (numeral : RadixNumeral 10) : DecimalNumeral :=
  ⟨numeral.mark, numeral.leading.place,
    numeral.following.map WrittenDigit.place⟩

private theorem digits_toRadix (numeral : DecimalNumeral) :
    numeral.toRadix.digits = numeral.digits.map fun digit => ⟨digit, false⟩ :=
  rfl

private theorem digits_ofRadix (numeral : RadixNumeral 10) :
    (ofRadix numeral).digits = numeral.digits.map WrittenDigit.place := rfl

private theorem text_toRadix (numeral : DecimalNumeral) :
    numeral.toRadix.text = numeral.text := by
  have characters : numeral.toRadix.digits.map WrittenDigit.character =
      numeral.digits.map characterOf := by
    rw [digits_toRadix, List.map_map]
    exact List.map_congr_left fun digit _ => (characterOf_place _).symm
  rw [RadixNumeral.text, characters]
  rfl

private theorem text_ofRadix (numeral : RadixNumeral 10) :
    (ofRadix numeral).text = numeral.text := by
  have characters : (ofRadix numeral).digits.map characterOf =
      numeral.digits.map WrittenDigit.character := by
    rw [digits_ofRadix, List.map_map]
    exact List.map_congr_left fun digit _ => characterOf_place digit
  rw [text, characters]
  rfl

private theorem value_toRadix (numeral : DecimalNumeral) :
    numeral.toRadix.value = numeral.value := by
  have magnitude : numeral.toRadix.magnitude = numeral.magnitude := by
    rw [RadixNumeral.magnitude, digits_toRadix, RadixNumeral.count,
      List.foldl_map]
    rfl
  rw [RadixNumeral.value, magnitude]
  rfl

end DecimalNumeral

namespace Numeral

variable {numeral : DecimalNumeral} {text : String} {value : Int}

/-! ## Reading -/

theorem read?_text (numeral : DecimalNumeral) :
    read? 10 numeral.text = some numeral.value := by
  rw [← numeral.text_toRadix, ← numeral.value_toRadix]
  exact RadixNumeral.read?_text (by decide) numeral.toRadix

theorem read?_eq_none_iff :
    read? 10 text = none ↔ ∀ numeral : DecimalNumeral, numeral.text ≠ text := by
  rw [RadixNumeral.read?_eq_none_iff]
  constructor
  · intro refused numeral isText
    exact refused
      ⟨by decide, numeral.toRadix, numeral.text_toRadix.trans isText⟩
  · intro unspelled accepted
    obtain ⟨_, numeral, isText⟩ := accepted
    exact unspelled (.ofRadix numeral)
      ((DecimalNumeral.text_ofRadix numeral).trans isText)

/-! ## Writing -/

private theorem digitChar_eq {place : Nat} (small : place < 10) :
    Numeral.digitChar place = Nat.digitChar place := by
  interval_cases place <;> rfl

private theorem magnitudeList_eq_toDigits (magnitude : Nat) :
    magnitudeList 10 magnitude = Nat.toDigits 10 magnitude := by
  induction magnitude using Nat.strongRecOn with
  | _ magnitude inductionHypothesis =>
    rw [Nat.toDigits_eq_if (by decide)]
    by_cases zero : magnitude = 0
    · subst zero
      rfl
    · -- Both put the last digit behind the numeral of the tenth part, which
      -- is left out where it is zero.
      have last := digitChar_eq (Nat.mod_lt magnitude (by decide : 0 < 10))
      have parts := Positional.digits_of_pos (by decide : 2 ≤ 10)
        (Nat.pos_of_ne_zero zero)
      rw [magnitudeList, if_neg zero, Positional.digitsByHalves_eq, parts,
        List.map_cons, List.reverse_cons, last]
      by_cases small : magnitude < 10
      · rw [if_pos small, Nat.mod_eq_of_lt small, Nat.div_eq_of_lt small,
          Positional.digits_zero]
        rfl
      · have higher := inductionHypothesis (magnitude / 10) (by omega)
        have further : magnitude / 10 ≠ 0 := by omega
        rw [magnitudeList, if_neg further, Positional.digitsByHalves_eq]
          at higher
        rw [if_neg small, higher]

/-- A value is written as its canonical numeral. -/
theorem decimal_eq_toString (value : Int) : decimal value = toString value := by
  rw [decimal, write, writeList, Int.toString_eq_repr, Int.repr_eq_if]
  by_cases negative : value < 0
  · have below : ¬0 ≤ value := Int.not_le.mpr negative
    have size : (-value).toNat = value.natAbs := by omega
    rw [if_pos negative, if_neg below, size, magnitudeList_eq_toDigits,
      Nat.repr_eq_ofList_toDigits]
    exact String.toList_injective (by simp)
  · have above : 0 ≤ value := Int.not_lt.mp negative
    have size : value.toNat = value.natAbs := by omega
    rw [if_neg negative, if_pos above, size, magnitudeList_eq_toDigits,
      Nat.repr_eq_ofList_toDigits]

end Numeral

end ManagedHeap
