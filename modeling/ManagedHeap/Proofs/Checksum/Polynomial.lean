import Mathlib
import ManagedHeap.Checksum
import ManagedHeap.Proofs.Hex

/-!
# The checksum as a remainder

Bits are the coefficients of polynomials over the field of two elements, the
first bit that of the highest power. The checksum of a byte sequence is what
remains of its polynomial, moved up by eight places, modulo `generator`
(`residue_crc8`). So a sequence that ends in its own checksum is a multiple of
the generator (`generator_dvd_iff`), and the generator divides neither a
burst of at most eight places nor an odd number of set bits.
-/

namespace ManagedHeap.Checksum

open Polynomial

/-! ## Bits -/

/-- The bits of a byte, the most significant one first. -/
def byteBits (byte : UInt8) : List Bool :=
  (List.range 8).map byte.toBitVec.getMsbD

/-- The bits of a byte sequence, in the order in which they are read. -/
def bits (bytes : List UInt8) : List Bool :=
  bytes.flatMap byteBits

@[simp]
theorem length_byteBits (byte : UInt8) : (byteBits byte).length = 8 := by
  simp [byteBits]

@[simp]
theorem bits_nil : bits [] = [] := rfl

@[simp]
theorem bits_cons (byte : UInt8) (bytes : List UInt8) :
    bits (byte :: bytes) = byteBits byte ++ bits bytes := rfl

private theorem bits_append (first second : List UInt8) :
    bits (first ++ second) = bits first ++ bits second :=
  List.flatMap_append

@[simp]
theorem length_bits (bytes : List UInt8) :
    (bits bytes).length = 8 * bytes.length := by
  induction bytes with
  | nil => rfl
  | cons head tail inductionHypothesis =>
    rw [bits_cons, List.length_append, length_byteBits, inductionHypothesis,
      List.length_cons]
    omega

theorem byteBits_injective : Function.Injective byteBits := by
  intro left right same
  have places := List.map_inj_left.mp same
  exact UInt8.toBitVec_inj.mp <| BitVec.eq_of_getMsbD_eq fun place below =>
    places place (List.mem_range.mpr below)

theorem bits_injective : Function.Injective bits := by
  intro left
  induction left with
  | nil =>
    intro right same
    obtain _ | ⟨head, tail⟩ := right
    · rfl
    · cases congrArg List.length same
  | cons head tail inductionHypothesis =>
    intro right same
    obtain _ | ⟨other, rest⟩ := right
    · cases congrArg List.length same
    obtain ⟨sameByte, sameRest⟩ := List.append_inj same (by simp)
    rw [byteBits_injective sameByte, inductionHypothesis sameRest]

theorem true_mem_bits {byte : UInt8} {bytes : List UInt8}
    (member : byte ∈ bytes) (nonzero : byte ≠ 0) : true ∈ bits bytes := by
  refine List.mem_flatMap.mpr ⟨byte, member, ?_⟩
  by_contra clear
  refine nonzero (byteBits_injective ?_)
  have zeros : byteBits byte = List.replicate 8 false :=
    List.eq_replicate_iff.mpr ⟨length_byteBits byte, fun bit found =>
      Bool.eq_false_of_not_eq_true fun set => clear (set ▸ found)⟩
  rw [zeros]
  decide

theorem byteBits_xor (left right : UInt8) :
    byteBits (left ^^^ right) =
      List.zipWith (· ^^ ·) (byteBits left) (byteBits right) := by
  simp [byteBits, List.zipWith_map_left, List.zipWith_map_right]

theorem bits_xor {left right : List UInt8} (same : left.length = right.length) :
    bits (List.zipWith (· ^^^ ·) left right) =
      List.zipWith (· ^^ ·) (bits left) (bits right) := by
  induction left generalizing right with
  | nil => simp
  | cons head tail inductionHypothesis =>
    obtain _ | ⟨other, rest⟩ := right
    · cases same
    have tails := inductionHypothesis (Nat.succ.inj same)
    rw [List.zipWith_cons_cons, bits_cons, bits_cons, bits_cons, tails,
      byteBits_xor, List.zipWith_append (by simp)]

/-! ## Polynomials -/

/-- A bit as an element of the field of two elements. -/
def coefficient (bit : Bool) : ZMod 2 :=
  if bit then 1 else 0

/-- The polynomial with the given coefficients, the highest power first. -/
noncomputable def polynomialOf : List Bool → (ZMod 2)[X]
  | [] => 0
  | bit :: rest => C (coefficient bit) * X ^ rest.length + polynomialOf rest

@[simp]
theorem polynomialOf_nil : polynomialOf [] = 0 := rfl

private theorem polynomialOf_cons (bit : Bool) (rest : List Bool) :
    polynomialOf (bit :: rest) =
      C (coefficient bit) * X ^ rest.length + polynomialOf rest := rfl

private theorem coefficient_xor (left right : Bool) :
    coefficient (left ^^ right) = coefficient left + coefficient right := by
  revert left right
  decide

private theorem coefficient_and (left right : Bool) :
    coefficient (left && right) = coefficient left * coefficient right := by
  revert left right
  decide

private theorem coefficient_injective : Function.Injective coefficient := by
  decide

private theorem polynomialOf_append (first second : List Bool) :
    polynomialOf (first ++ second) =
      polynomialOf first * X ^ second.length + polynomialOf second := by
  induction first with
  | nil => simp
  | cons head tail inductionHypothesis =>
    rw [List.cons_append, polynomialOf_cons, polynomialOf_cons,
      inductionHypothesis, List.length_append, pow_add]
    ring

theorem polynomialOf_xor {left right : List Bool}
    (same : left.length = right.length) :
    polynomialOf (List.zipWith (· ^^ ·) left right) =
      polynomialOf left + polynomialOf right := by
  induction left generalizing right with
  | nil =>
    rw [List.length_nil, eq_comm, List.length_eq_zero_iff] at same
    simp [same]
  | cons head tail inductionHypothesis =>
    obtain _ | ⟨other, rest⟩ := right
    · cases same
    have tails : tail.length = rest.length := Nat.succ.inj same
    rw [List.zipWith_cons_cons, polynomialOf_cons, polynomialOf_cons,
      polynomialOf_cons, inductionHypothesis tails, List.length_zipWith,
      tails, min_self, coefficient_xor, C_add]
    ring

private theorem polynomialOf_map_and (bit : Bool) (places : List Bool) :
    polynomialOf (places.map (bit && ·)) =
      C (coefficient bit) * polynomialOf places := by
  induction places with
  | nil => simp
  | cons head tail inductionHypothesis =>
    rw [List.map_cons, polynomialOf_cons, polynomialOf_cons,
      inductionHypothesis, List.length_map, coefficient_and, C_mul]
    ring

theorem degree_polynomialOf_lt (places : List Bool) :
    (polynomialOf places).degree < places.length := by
  induction places with
  | nil => simp
  | cons head tail inductionHypothesis =>
    have longer : (tail.length : WithBot ℕ) < (head :: tail).length := by
      exact_mod_cast Nat.lt_succ_self tail.length
    refine (degree_add_le _ _).trans_lt (max_lt ?_ ?_)
    · exact (degree_C_mul_X_pow_le _ _).trans_lt longer
    · exact inductionHypothesis.trans longer

/-- Coefficient lists of one length are told apart by their polynomials. -/
theorem eq_of_polynomialOf_eq {left right : List Bool}
    (sameLength : left.length = right.length)
    (same : polynomialOf left = polynomialOf right) : left = right := by
  induction left generalizing right with
  | nil => exact (List.length_eq_zero_iff.mp sameLength.symm).symm
  | cons head tail inductionHypothesis =>
    obtain _ | ⟨other, rest⟩ := right
    · cases sameLength
    have tails : tail.length = rest.length := Nat.succ.inj sameLength
    have noHigher (places : List Bool) :
        (polynomialOf places).coeff places.length = 0 :=
      coeff_eq_zero_of_degree_lt (degree_polynomialOf_lt places)
    -- The highest coefficients agree, and with them the remaining sums.
    have highest := congrArg (coeff · tail.length) same
    simp only [polynomialOf_cons, coeff_add, coeff_C_mul_X_pow, if_true, tails,
      noHigher rest, add_zero] at highest
    rw [← tails, noHigher tail, add_zero] at highest
    obtain rfl := coefficient_injective highest
    rw [polynomialOf_cons, polynomialOf_cons, tails] at same
    rw [inductionHypothesis tails (add_left_cancel same)]

theorem polynomialOf_eq_zero {places : List Bool} (clear : true ∉ places) :
    polynomialOf places = 0 := by
  induction places with
  | nil => rfl
  | cons head tail inductionHypothesis =>
    rw [List.mem_cons, not_or] at clear
    obtain rfl : head = false := by simpa using Ne.symm clear.1
    rw [polynomialOf_cons, inductionHypothesis clear.2]
    simp [coefficient]

private theorem eval_one_polynomialOf (places : List Bool) :
    (polynomialOf places).eval 1 = places.count true := by
  induction places with
  | nil => simp
  | cons head tail inductionHypothesis =>
    rw [polynomialOf_cons, eval_add, inductionHypothesis, List.count_cons]
    cases head <;> simp [coefficient, add_comm]

/-! ## The generator -/

/-- The polynomial of the checksum with its leading term. -/
noncomputable def generator : (ZMod 2)[X] :=
  X ^ 8 + polynomialOf (byteBits polynomial)

theorem generator_eq : generator = X ^ 8 + X ^ 2 + X + 1 := by
  have isBits : byteBits polynomial =
      [false, false, false, false, false, true, true, true] := by decide
  rw [generator, isBits]
  simp [polynomialOf_cons, coefficient]
  ring

theorem degree_generator : generator.degree = 8 := by
  rw [generator_eq]
  compute_degree!

theorem monic_generator : generator.Monic := by
  rw [generator_eq]
  monicity!

private theorem isCoprime_generator_X_pow (places : ℕ) :
    IsCoprime generator (X ^ places) := by
  refine IsCoprime.pow_right ⟨1, -(X ^ 7 + X + 1), ?_⟩
  rw [generator_eq]
  ring

private theorem eval_one_generator : generator.eval 1 = 0 := by
  rw [generator_eq]
  simp only [eval_add, eval_pow, eval_X, eval_one]
  decide

/-- Windows of eight places are told apart modulo the generator, wherever they
stand. -/
theorem eq_of_generator_dvd {left right : List Bool} (places : ℕ)
    (sameLength : left.length = right.length) (short : left.length ≤ 8)
    (divides : generator ∣
      (polynomialOf left - polynomialOf right) * X ^ places) :
    left = right := by
  have difference := (isCoprime_generator_X_pow places).dvd_of_dvd_mul_right
    divides
  have low : (polynomialOf left - polynomialOf right).degree <
      generator.degree := by
    rw [degree_generator]
    have bound : (left.length : WithBot ℕ) ≤ 8 := by exact_mod_cast short
    refine (degree_sub_le _ _).trans_lt (max_lt ?_ ?_)
    · exact (degree_polynomialOf_lt left).trans_le bound
    · exact (degree_polynomialOf_lt right).trans_le (sameLength ▸ bound)
  refine eq_of_polynomialOf_eq sameLength (sub_eq_zero.mp ?_)
  by_contra nonzero
  exact monic_generator.not_dvd_of_degree_lt nonzero low difference

/-! ## The register -/

/-- The residue of a polynomial modulo the generator. -/
noncomputable abbrev residue : (ZMod 2)[X] →+* AdjoinRoot generator :=
  AdjoinRoot.mk generator

private theorem byteBits_eq_cons (byte : UInt8) :
    byteBits byte = byte.toBitVec.msb :: (byteBits byte).tail := rfl

private theorem byteBits_shift (remainder : UInt8) :
    byteBits (shift remainder) =
      List.zipWith (· ^^ ·) ((byteBits remainder).tail ++ [false])
        ((byteBits polynomial).map (remainder.toBitVec.msb && ·)) := by
  refine byte_below remainder remainder.toNat_lt ?_
  decide +kernel

/-- A shift moves the remainder up by one place modulo the generator. -/
theorem residue_shift (remainder : UInt8) :
    residue (polynomialOf (byteBits (shift remainder))) =
      residue (polynomialOf (byteBits remainder)) * residue X := by
  rw [byteBits_shift, polynomialOf_xor (by simp), polynomialOf_map_and,
    polynomialOf_append, ← map_mul]
  conv_rhs => rw [byteBits_eq_cons, polynomialOf_cons, List.length_tail]
  rw [AdjoinRoot.mk_eq_mk]
  -- The top place leaves to `X ^ 8`, and the generator takes it back.
  set top := C (coefficient remainder.toBitVec.msb)
  set rest := polynomialOf (byteBits remainder).tail
  have clear : polynomialOf [false] = 0 := polynomialOf_eq_zero (by simp)
  have twice : top * X ^ 8 + top * X ^ 8 = 0 := CharTwo.add_self_eq_zero _
  refine ⟨top, ?_⟩
  rw [generator, clear]
  simp only [length_byteBits, List.length_singleton]
  linear_combination -twice

private theorem residue_shiftByte (remainder : UInt8) :
    residue (polynomialOf (byteBits (shiftByte remainder))) =
      residue (polynomialOf (byteBits remainder)) * residue X ^ 8 := by
  rw [shiftByte]
  iterate 8 rw [residue_shift]
  ring

private theorem residue_step (remainder byte : UInt8) :
    residue (polynomialOf (byteBits (step remainder byte))) =
      residue (polynomialOf (byteBits remainder) +
        polynomialOf (byteBits byte)) * residue X ^ 8 := by
  rw [step, residue_shiftByte, byteBits_xor, polynomialOf_xor (by simp)]

/-- The register holds what it held, moved up by the places of the bytes, and
the bytes moved up by eight places. -/
theorem residue_foldl (remainder : UInt8) (bytes : List UInt8) :
    residue (polynomialOf (byteBits (bytes.foldl step remainder))) =
      residue (polynomialOf (byteBits remainder)) *
          residue X ^ (8 * bytes.length) +
        residue (polynomialOf (bits bytes)) * residue X ^ 8 := by
  induction bytes generalizing remainder with
  | nil => simp
  | cons head tail inductionHypothesis =>
    rw [List.foldl_cons, inductionHypothesis, residue_step, bits_cons,
      polynomialOf_append, length_bits, List.length_cons, map_add, map_add,
      map_mul, map_pow]
    ring

/-- The checksum is the polynomial of the bytes, moved up by eight places,
modulo the generator. -/
theorem residue_crc8 (bytes : List UInt8) :
    residue (polynomialOf (byteBits (crc8 bytes))) =
      residue (polynomialOf (bits bytes)) * residue X ^ 8 := by
  have zero : polynomialOf (byteBits 0) = 0 := polynomialOf_eq_zero (by decide)
  rw [crc8, residue_foldl, zero, map_zero, zero_mul, zero_add]

/-- The multiples of the generator are the sequences that end in their own
checksum. -/
theorem generator_dvd_iff {payload : List UInt8} {checksum : UInt8} :
    generator ∣ polynomialOf (bits (payload ++ [checksum])) ↔
      crc8 payload = checksum := by
  have register : residue (polynomialOf (bits (payload ++ [checksum]))) =
      residue (polynomialOf (byteBits (crc8 payload)) -
        polynomialOf (byteBits checksum)) := by
    have ends : bits [checksum] = byteBits checksum := List.append_nil _
    rw [bits_append, ends, polynomialOf_append, length_byteBits,
      CharTwo.sub_eq_add, map_add, map_add, map_mul, map_pow, ← residue_crc8]
  rw [← AdjoinRoot.mk_eq_zero, register, AdjoinRoot.mk_eq_zero]
  constructor
  · intro divides
    refine byteBits_injective
      (eq_of_generator_dvd 0 (by simp) (by simp) ?_)
    rwa [pow_zero, mul_one]
  · rintro rfl
    rw [sub_self]
    exact dvd_zero _

/-! ## Errors -/

/-- The set places all lie within eight consecutive places. -/
def IsBurst (places : List Bool) : Prop :=
  ∃ start, ∀ place, places[place]? = some true →
    start ≤ place ∧ place < start + 8

/-- Before and after some eight places of a burst no place is set. -/
theorem IsBurst.exists_window {places : List Bool} (burst : IsBurst places) :
    ∃ before window after, places = before ++ (window ++ after) ∧
      true ∉ before ∧ window.length ≤ 8 ∧ true ∉ after := by
  obtain ⟨start, within⟩ := burst
  refine ⟨places.take start, (places.drop start).take 8,
    (places.drop start).drop 8, ?_, ?_, by simp, ?_⟩
  · rw [List.take_append_drop, List.take_append_drop]
  · intro member
    obtain ⟨place, found⟩ := List.mem_iff_getElem?.mp member
    rw [List.getElem?_take] at found
    split at found
    · have bounds := within place found
      omega
    · cases found
  · intro member
    obtain ⟨place, found⟩ := List.mem_iff_getElem?.mp member
    rw [List.drop_drop, List.getElem?_drop] at found
    have bounds := within _ found
    omega

theorem not_generator_dvd_of_isBurst {places : List Bool}
    (set : true ∈ places) (burst : IsBurst places) :
    ¬generator ∣ polynomialOf places := by
  intro divides
  obtain ⟨before, window, after, rfl, clearBefore, short, clearAfter⟩ :=
    burst.exists_window
  have inWindow : true ∈ window := by
    rw [List.mem_append, List.mem_append] at set
    tauto
  -- The window would be that of an error without set places.
  have clear : polynomialOf (List.replicate window.length false) = 0 :=
    polynomialOf_eq_zero (by simp)
  rw [polynomialOf_append, polynomialOf_append,
    polynomialOf_eq_zero clearBefore, polynomialOf_eq_zero clearAfter,
    zero_mul, zero_add, add_zero, ← sub_zero (polynomialOf _),
    ← clear] at divides
  rw [eq_of_generator_dvd _ (by simp) short divides] at inWindow
  simp at inWindow

theorem not_generator_dvd_of_odd {places : List Bool}
    (odd : Odd (places.count true)) : ¬generator ∣ polynomialOf places := by
  rintro ⟨quotient, isProduct⟩
  have atOne := congrArg (eval 1) isProduct
  rw [eval_mul, eval_one_generator, zero_mul, eval_one_polynomialOf,
    ZMod.natCast_eq_zero_iff_even] at atOne
  exact Nat.not_even_iff_odd.mpr odd atOne

/-- Two multiples of the generator do not differ in one window of eight
places. -/
theorem eq_of_generator_dvd_window {before left right after : List Bool}
    (sameLength : left.length = right.length) (short : left.length ≤ 8)
    (leftDivides : generator ∣ polynomialOf (before ++ (left ++ after)))
    (rightDivides : generator ∣ polynomialOf (before ++ (right ++ after))) :
    left = right := by
  refine eq_of_generator_dvd after.length sameLength short ?_
  have difference := dvd_sub leftDivides rightDivides
  simp only [polynomialOf_append, List.length_append, sameLength] at difference
  convert difference using 1
  ring

end ManagedHeap.Checksum
