import ManagedHeap.Numeral

/-!
# Numerals in any base

A numeral is at most one sign and one or more digits below its base, in letters
of either case from ten on. Its value is found digit by digit
(`RadixNumeral`). The reader accepts the texts of numerals, with their values
(`read?_text`), and no others (`read?_eq_none_iff`), and in no base but those
from 2 to 36.
-/

namespace ManagedHeap

/-! ## Numerals -/

/-- What stands in front of the digits of a numeral. -/
inductive SignMark where
  | none
  | plus
  | minus
  deriving DecidableEq, Repr

def SignMark.characters : SignMark → List Char
  | .none => []
  | .plus => ['+']
  | .minus => ['-']

/-- A digit as it is written: its place among the digits of the base, and the
case of its letter. A digit below ten is no letter. -/
structure WrittenDigit (radix : Nat) where
  place : Fin radix
  upper : Bool
  deriving DecidableEq, Repr

/-- At most one sign, and one or more digits, most significant first. -/
structure RadixNumeral (radix : Nat) where
  mark : SignMark
  leading : WrittenDigit radix
  following : List (WrittenDigit radix)
  deriving DecidableEq, Repr

variable {radix : Nat}

def WrittenDigit.character (digit : WrittenDigit radix) : Char :=
  if digit.place.val < 10 then
    Char.ofNat ('0'.toNat + digit.place.val)
  else if digit.upper then
    Char.ofNat ('A'.toNat + (digit.place.val - 10))
  else
    Char.ofNat ('a'.toNat + (digit.place.val - 10))

namespace RadixNumeral

def digits (numeral : RadixNumeral radix) : List (WrittenDigit radix) :=
  numeral.leading :: numeral.following

def text (numeral : RadixNumeral radix) : String :=
  String.ofList
    (numeral.mark.characters ++ numeral.digits.map WrittenDigit.character)

/-- What digits count: each counts as often as the base says what the digit
after it counts. -/
def count (digits : List (WrittenDigit radix)) : Nat :=
  digits.foldl (fun higher digit => radix * higher + digit.place.val) 0

def magnitude (numeral : RadixNumeral radix) : Nat :=
  count numeral.digits

def value (numeral : RadixNumeral radix) : Int :=
  match numeral.mark with
  | .minus => -numeral.magnitude
  | _ => numeral.magnitude

theorem natAbs_value (numeral : RadixNumeral radix) :
    numeral.value.natAbs = numeral.magnitude := by
  unfold value
  split
  · rw [Int.natAbs_neg, Int.natAbs_natCast]
  · exact Int.natAbs_natCast _

end RadixNumeral

/-! ## Digits -/

namespace WrittenDigit

/-- The same digit with a small letter. -/
def lower (digit : WrittenDigit radix) : WrittenDigit radix :=
  { digit with upper := false }

/-- A property of all characters that are digits in base 36 holds of the
digits in a smaller base, which are among them. -/
theorem of_base36 (property : WrittenDigit 36 → Prop)
    (all : ∀ place upper, property ⟨place, upper⟩)
    (valid : Numeral.IsRadix radix) (digit : WrittenDigit radix) :
    property ⟨digit.place.castLE valid.2, digit.upper⟩ :=
  all _ _

private theorem character_ne_minus (valid : Numeral.IsRadix radix)
    (digit : WrittenDigit radix) : digit.character ≠ '-' :=
  of_base36 (fun digit => digit.character ≠ '-') (by decide)
    valid digit

private theorem character_ne_plus (valid : Numeral.IsRadix radix)
    (digit : WrittenDigit radix) : digit.character ≠ '+' :=
  of_base36 (fun digit => digit.character ≠ '+') (by decide)
    valid digit

private theorem digitValue?_character (valid : Numeral.IsRadix radix)
    (digit : WrittenDigit radix) :
    Numeral.digitValue? digit.character = some digit.place.val :=
  of_base36
    (fun digit =>
      Numeral.digitValue? digit.character = some digit.place.val)
    (by decide) valid digit

end WrittenDigit

namespace RadixNumeral

open Numeral

variable {text : String} {value : Int}

/-! ## Reading digits -/

private theorem digitBelow?_character (valid : IsRadix radix)
    (digit : WrittenDigit radix) :
    digitBelow? radix digit.character = some digit.place.val := by
  rw [digitBelow?, digit.digitValue?_character valid, Option.filter_some,
    if_pos (decide_eq_true digit.place.isLt)]

/-- A character with a value is the digit of that value, in one of the two
cases. -/
theorem exists_upper_of_digitValue? {character : Char} {place : Nat}
    (read : digitValue? character = some place) (below : place < radix) :
    ∃ upper, (WrittenDigit.mk ⟨place, below⟩ upper).character = character := by
  unfold digitValue? at read
  unfold WrittenDigit.character
  split at read
  · rename_i decimal
    have low : '0'.toNat ≤ character.toNat := decimal.1
    have high : character.toNat ≤ '9'.toNat := decimal.2
    obtain rfl := Option.some.inj read
    refine ⟨false, ?_⟩
    rw [if_pos (Nat.lt_of_le_of_lt (Nat.sub_le_sub_right high _) (by decide)),
      Nat.add_sub_cancel' low, Char.ofNat_toNat]
  · split at read
    · rename_i small
      have low : 'a'.toNat ≤ character.toNat := small.1
      obtain rfl := Option.some.inj read
      refine ⟨false, ?_⟩
      rw [if_neg (Nat.not_lt.mpr (Nat.le_add_left ..)),
        if_neg Bool.false_ne_true, Nat.add_sub_cancel,
        Nat.add_sub_cancel' low, Char.ofNat_toNat]
    · split at read
      · rename_i large
        have low : 'A'.toNat ≤ character.toNat := large.1
        obtain rfl := Option.some.inj read
        refine ⟨true, ?_⟩
        rw [if_neg (Nat.not_lt.mpr (Nat.le_add_left ..)), if_pos rfl,
          Nat.add_sub_cancel, Nat.add_sub_cancel' low, Char.ofNat_toNat]
      · cases read

private theorem exists_digit_of_digitBelow? {character : Char} {place : Nat}
    (read : digitBelow? radix character = some place) :
    ∃ digit : WrittenDigit radix,
      digit.character = character ∧ digit.place.val = place := by
  rw [digitBelow?, Option.filter_eq_some_iff] at read
  obtain ⟨found, small⟩ := read
  have below : place < radix := of_decide_eq_true small
  obtain ⟨upper, isCharacter⟩ := exists_upper_of_digitValue? found below
  exact ⟨⟨⟨place, below⟩, upper⟩, isCharacter, rfl⟩

/-- The places of some digits. -/
def places (digits : List (WrittenDigit radix)) : List Nat :=
  digits.map fun digit => digit.place.val

private theorem mapM_digitBelow? (valid : IsRadix radix)
    (digits : List (WrittenDigit radix)) :
    (digits.map WrittenDigit.character).mapM (digitBelow? radix) =
      some (places digits) := by
  induction digits with
  | nil => rfl
  | cons digit rest inductionHypothesis =>
    simp only [List.map_cons, List.mapM_cons, digitBelow?_character valid,
      inductionHypothesis]
    rfl

private theorem exists_digits_of_mapM {body : List Char} {read : List Nat}
    (isRead : body.mapM (digitBelow? radix) = some read) :
    ∃ digits : List (WrittenDigit radix),
      digits.map WrittenDigit.character = body := by
  induction body generalizing read with
  | nil => exact ⟨[], rfl⟩
  | cons character rest inductionHypothesis =>
    rw [List.mapM_cons, Option.bind_eq_bind, Option.bind_eq_some_iff] at isRead
    obtain ⟨first, readFirst, isRest⟩ := isRead
    rw [Option.bind_eq_bind, Option.bind_eq_some_iff] at isRest
    obtain ⟨others, readOthers, _⟩ := isRest
    obtain ⟨digit, isCharacter, _⟩ := exists_digit_of_digitBelow? readFirst
    obtain ⟨digits, areRest⟩ := inductionHypothesis readOthers
    refine ⟨digit :: digits, ?_⟩
    rw [List.map_cons, isCharacter, areRest]

/-- Positional notation, taken from the most significant digit. -/
theorem ofDigits_reverse_places (digits : List (WrittenDigit radix)) :
    Positional.ofDigits radix (places digits).reverse =
      count digits := by
  rw [Positional.ofDigits, List.foldr_reverse, places, List.foldl_map,
    count]
  simp only [Nat.add_comm]

private theorem readMagnitude?_digits (valid : IsRadix radix)
    (numeral : RadixNumeral radix) :
    readMagnitude? radix (numeral.digits.map WrittenDigit.character) =
      some numeral.magnitude := by
  have filled :
      (numeral.digits.map WrittenDigit.character).isEmpty = false := rfl
  rw [readMagnitude?, filled, mapM_digitBelow? valid]
  simp only [Option.map_some, Positional.ofDigitsByHalves_eq,
    ofDigits_reverse_places]
  rfl

/-! ## Reading signs -/

private theorem splitSign_of_ne {first : Char} {rest : List Char}
    (notMinus : first ≠ '-') (notPlus : first ≠ '+') :
    splitSign (first :: rest) = (false, first :: rest) := by
  unfold splitSign
  split
  · rename_i same
    exact absurd (List.cons.inj same).1 notMinus
  · rename_i same
    exact absurd (List.cons.inj same).1 notPlus
  · rfl

private theorem splitSign_text (valid : IsRadix radix)
    (numeral : RadixNumeral radix) :
    splitSign
        (numeral.mark.characters ++
          numeral.digits.map WrittenDigit.character) =
      (decide (numeral.mark = .minus),
        numeral.digits.map WrittenDigit.character) := by
  obtain ⟨mark, leading, following⟩ := numeral
  cases mark with
  | none =>
    exact splitSign_of_ne (leading.character_ne_minus valid)
      (leading.character_ne_plus valid)
  | plus => rfl
  | minus => rfl

private theorem exists_mark (characters : List Char) :
    ∃ mark : SignMark,
      characters = mark.characters ++ (splitSign characters).2 := by
  unfold splitSign
  split
  · exact ⟨.minus, rfl⟩
  · exact ⟨.plus, rfl⟩
  · exact ⟨.none, rfl⟩

/-! ## Reading numerals -/

theorem read?_text (valid : IsRadix radix) (numeral : RadixNumeral radix) :
    read? radix numeral.text = some numeral.value := by
  rw [read?, text, String.toList_ofList, readList?,
    if_pos valid, splitSign_text valid]
  simp only [readMagnitude?_digits valid, value]
  cases numeral.mark <;> rfl

private theorem exists_digits_of_readMagnitude?
    {body : List Char} {magnitude : Nat}
    (read : readMagnitude? radix body = some magnitude) :
    ∃ leading following,
      (leading :: following : List (WrittenDigit radix)).map
        WrittenDigit.character = body := by
  rw [readMagnitude?] at read
  by_cases bare : body.isEmpty = true
  · rw [if_pos bare] at read
    cases read
  · rw [if_neg bare, Option.map_eq_some_iff] at read
    obtain ⟨places, readPlaces, _⟩ := read
    obtain ⟨digits, areBody⟩ := exists_digits_of_mapM readPlaces
    cases digits with
    | nil => exact absurd (by rw [← areBody]; rfl) bare
    | cons leading following => exact ⟨leading, following, areBody⟩

private theorem exists_numeral_of_read? (read : read? radix text = some value) :
    IsRadix radix ∧ ∃ numeral : RadixNumeral radix, numeral.text = text := by
  rw [read?, readList?] at read
  by_cases valid : IsRadix radix
  · rw [if_pos valid] at read
    obtain ⟨mark, whole⟩ := exists_mark text.toList
    cases readBody : readMagnitude? radix (splitSign text.toList).2 with
    | none =>
      simp only [readBody] at read
      cases read
    | some magnitude =>
      obtain ⟨leading, following, areBody⟩ :=
        exists_digits_of_readMagnitude? readBody
      refine ⟨valid, ⟨mark, leading, following⟩, ?_⟩
      rw [RadixNumeral.text, digits, areBody, ← whole,
        String.ofList_toList]
  · rw [if_neg valid] at read
    cases read

/-- Only the texts of numerals in the base are read. -/
theorem read?_eq_none_iff :
    read? radix text = none ↔
      ¬(IsRadix radix ∧
        ∃ numeral : RadixNumeral radix, numeral.text = text) := by
  constructor
  · intro unread accepted
    obtain ⟨valid, numeral, isText⟩ := accepted
    rw [← isText, read?_text valid numeral] at unread
    cases unread
  · intro refused
    cases read : read? radix text with
    | none => rfl
    | some value => exact absurd (exists_numeral_of_read? read) refused

end RadixNumeral

end ManagedHeap
