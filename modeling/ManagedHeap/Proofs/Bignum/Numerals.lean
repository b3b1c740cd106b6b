import ManagedHeap.Proofs.Bignum.Inspection
import ManagedHeap.Proofs.Bignum.Operations
import ManagedHeap.Proofs.Numeral.Canonical

/-!
# Numerals of bignums

A bignum is read from the texts of numerals and from no others, in the bases
from 2 to 36, and written as the one numeral that its integer has in normal
form. So what was written reads as the same integer, and what was read is
written in its normal form (`numerals_round_trip`).
-/

namespace ManagedHeap.Bignum

open Numeral (IsRadix)

variable {heap : Heap} {before : Workspace} {number target : Bignum}
  {radix : Nat}

/-! ## Reading -/

/-- What reading a text does to a bignum: a numeral is accepted when there is
memory for its digits, and any other text is refused. -/
structure ReadsText (radix : Nat) (text : String) (before : Workspace) :
    Prop where
  accepted : IsRadix radix → ∀ numeral : RadixNumeral radix,
    numeral.text = text →
      Ensures (readNumeral radix text) before
        (fun _ after =>
          after.target.value after.heap = .ok numeral.value ∧
            after.heap.SoundBignum after.target ∧
            (numeral.value = 0 → after.target.sign = .nonnegative) ∧
            after.target.toNumeral radix after.heap =
              .ok numeral.normalise.text)
        (fun error after => after = before ∧ error.IsOutOfMemory ∧
          before.heap.Lacks (growth before.target.capacity
            (Digits.count numeral.magnitude)))
  refused :
    ¬(IsRadix radix ∧ ∃ numeral : RadixNumeral radix, numeral.text = text) →
      readNumeral radix text before =
        .error (.arithmetic .invalidOperand) before

private theorem readNumeral_text (valid : IsRadix radix)
    (numeral : RadixNumeral radix) :
    readNumeral radix numeral.text = assign numeral.value := by
  rw [readNumeral, RadixNumeral.read?_text valid]

private theorem readNumeral_write (valid : IsRadix radix) (value : Int) :
    readNumeral radix (Numeral.write radix value) = assign value := by
  rw [readNumeral, RadixNumeral.read?_write valid]

private theorem readNumeral_of_not_text {text : String}
    (noNumeral :
      ¬(IsRadix radix ∧ ∃ numeral : RadixNumeral radix, numeral.text = text))
    (before : Workspace) :
    readNumeral radix text before =
      .error (.arithmetic .invalidOperand) before := by
  rw [readNumeral, RadixNumeral.read?_eq_none_iff.mpr noNumeral]
  rfl

theorem readsText (radix : Nat) (text : String)
    (bounded : before.heap.Bounded) (backs : before.heap.Backs before.target) :
    ReadsText radix text before where
  accepted := by
    intro valid numeral isText
    rw [← isText, readNumeral_text valid, ← numeral.natAbs_value]
    apply (ensures_assign numeral.value bounded backs).mono
    · intro _ after assigns
      have read := assigns.value_eq
      have sign := assigns.sign
      refine ⟨read, assigns.soundBignum, ?_, ?_⟩
      · intro zero
        rw [sign, zero]
        rfl
      · rw [toNumeral_eq valid read, RadixNumeral.write_value valid]
    · exact fun _ _ failed => failed
  refused := fun noNumeral => readNumeral_of_not_text noNumeral before

/-! ## Writing -/

/-- What a bignum is written as: the one normal numeral of its integer. Any
bignum that the text is read into comes to stand for that integer. -/
structure WritesText (radix : Nat) (number : Bignum) (heap : Heap) : Prop where
  canonical : ∃ numeral : RadixNumeral radix, numeral.IsCanonical ∧
    numeral.value = number.integer heap ∧
      number.toNumeral radix heap = .ok numeral.text
  unique : ∀ numeral : RadixNumeral radix, numeral.IsCanonical →
    numeral.value = number.integer heap →
      number.toNumeral radix heap = .ok numeral.text
  readBack : ∀ text target, number.toNumeral radix heap = .ok text →
    heap.Usable target →
      Ensures (readNumeral radix text) ⟨heap, target⟩
        (fun _ after =>
          after.target.value after.heap = .ok (number.integer heap))
        (fun error after => after = ⟨heap, target⟩ ∧ error.IsOutOfMemory)

theorem writesText (bounded : heap.Bounded)
    (addressable : heap.pointer ≤ maxAddress) (usable : heap.Usable number)
    (valid : IsRadix radix) :
    WritesText radix number heap := by
  have written := toNumeral_eq valid usable.value_eq
  obtain ⟨numeral, canonical, isValue, isText⟩ :=
    (RadixNumeral.write_eq_iff valid).mp
      (Eq.refl (Numeral.write radix (number.integer heap)))
  constructor
  · exact ⟨numeral, canonical, isValue, isText ▸ written⟩
  · intro other otherCanonical otherValue
    have same := (RadixNumeral.write_eq_iff valid).mpr
      ⟨other, otherCanonical, otherValue, rfl⟩
    rw [written, same]
  · intro text target isWritten usableTarget
    obtain rfl := Except.ok.inj (written.symm.trans isWritten)
    have backs := usableTarget.backs bounded addressable
    rw [readNumeral_write valid]
    apply (ensures_assign (number.integer heap) bounded backs).mono
    · exact fun _ _ assigns => assigns.value_eq
    · exact fun _ _ failed => ⟨failed.1, failed.2.1⟩

/-! ## Any heap -/

/-- In a heap that passes the check, with a heap pointer of 32 bits: every text
is read as `ReadsText` says, in any base, and every bignum is written as
`WritesText` says in any base that has numerals. -/
theorem numerals_round_trip (checked : heap.check = .ok ())
    (addressable : heap.pointer ≤ maxAddress) :
    (∀ target, heap.Usable target → ∀ radix text,
      ReadsText radix text ⟨heap, target⟩) ∧
    ∀ number, heap.Usable number → ∀ radix, IsRadix radix →
      WritesText radix number heap := by
  have bounded := (Heap.check_eq_ok_iff.mp checked).layout.bounded
  constructor
  · intro target usable radix text
    exact readsText radix text bounded (usable.backs bounded addressable)
  · intro number usable radix valid
    exact writesText bounded addressable usable valid

/-- Seven gives way to a hexadecimal numeral with zeros in front and letters of
both cases. -/
theorem pairHeap_numerals_round_trip :
    pairHeap.check = .ok () ∧ pairHeap.pointer ≤ maxAddress ∧
      (∀ radix text, ReadsText radix text ⟨pairHeap, seven⟩) ∧
      WritesText 16 minusTwo pairHeap ∧
      Ensures (readNumeral 16 "-00fFe") ⟨pairHeap, seven⟩
        (fun _ after => after.target.toNumeral 16 after.heap = .ok "-ffe")
        (fun _ _ => False) := by
  have checked : pairHeap.check = .ok () := by decide
  have addressable : pairHeap.pointer ≤ maxAddress := by decide
  obtain ⟨reads, writes⟩ := numerals_round_trip checked addressable
  exact ⟨checked, addressable, reads seven usable_seven,
    writes minusTwo usable_minusTwo 16 (by decide), by decide +kernel⟩

end ManagedHeap.Bignum
