import ManagedHeap.Proofs.Checksum.Polynomial

/-!
# Division by the generator

The checksum of a byte sequence is the remainder of its polynomial, moved up
by eight places, on division by the generator (`polynomialOf_crc8`). Division
is linear, so checksums of exclusive ors are exclusive ors of checksums
(`crc8_xor`), and a sequence that ends in its own checksum leaves nothing
(`crc8_append_crc8`).
-/

namespace ManagedHeap.Checksum

open Polynomial

variable {left right : List UInt8}

private theorem degree_byteBits_lt (byte : UInt8) :
    (polynomialOf (byteBits byte)).degree < 8 := by
  have bound := degree_polynomialOf_lt (byteBits byte)
  rwa [length_byteBits] at bound

private theorem polynomialOf_byteBits_injective :
    Function.Injective fun byte => polynomialOf (byteBits byte) := by
  intro first second same
  exact byteBits_injective (eq_of_polynomialOf_eq (by simp) same)

/-- The checksum is a remainder: it has the residue of the dividend and a
degree below that of the generator. -/
theorem polynomialOf_crc8 (bytes : List UInt8) :
    polynomialOf (byteBits (crc8 bytes)) =
      (polynomialOf (bits bytes) * X ^ 8) %ₘ generator := by
  have reduced : polynomialOf (byteBits (crc8 bytes)) %ₘ generator =
      polynomialOf (byteBits (crc8 bytes)) := by
    rw [modByMonic_eq_self_iff monic_generator, degree_generator]
    exact degree_byteBits_lt (crc8 bytes)
  have residues := residue_crc8 bytes
  rw [← map_pow, ← map_mul, AdjoinRoot.mk_eq_mk] at residues
  rw [← reduced]
  exact modByMonic_eq_of_dvd_sub monic_generator residues

theorem crc8_append_crc8 (bytes : List UInt8) :
    crc8 (bytes ++ [crc8 bytes]) = 0 := by
  have divides := generator_dvd_iff.mpr (rfl : crc8 bytes = crc8 bytes)
  apply polynomialOf_byteBits_injective
  show polynomialOf (byteBits _) = polynomialOf (byteBits 0)
  have zero : polynomialOf (byteBits 0) = 0 :=
    polynomialOf_eq_zero (by decide)
  rw [polynomialOf_crc8, zero, modByMonic_eq_zero_iff_dvd monic_generator]
  exact divides.mul_right _

theorem crc8_xor (same : left.length = right.length) :
    crc8 (List.zipWith (· ^^^ ·) left right) = crc8 left ^^^ crc8 right := by
  apply polynomialOf_byteBits_injective
  show polynomialOf (byteBits _) = polynomialOf (byteBits _)
  rw [byteBits_xor, polynomialOf_xor (by simp), polynomialOf_crc8,
    polynomialOf_crc8, polynomialOf_crc8, bits_xor same,
    polynomialOf_xor (by rw [length_bits, length_bits, same]), add_mul,
    add_modByMonic]

/-- The checksum is the remainder of the bytes, moved up by eight places, on
division by the generator. So a sequence followed by its checksum has the
checksum zero, and sequences of one length are added place by place when their
checksums are. -/
theorem crc8_is_remainder :
    (∀ bytes,
      (polynomialOf (byteBits (crc8 bytes))).degree < 8 ∧
      polynomialOf (byteBits (crc8 bytes)) =
        (polynomialOf (bits bytes) * X ^ 8) %ₘ (X ^ 8 + X ^ 2 + X + 1)) ∧
    (∀ bytes, crc8 (bytes ++ [crc8 bytes]) = 0) ∧
    (∀ left right, left.length = right.length →
      crc8 (List.zipWith (· ^^^ ·) left right) = crc8 left ^^^ crc8 right) ∧
    ∀ bytes, crc8Bytes bytes = crc8 bytes.toList := by
  refine ⟨fun bytes => ⟨degree_byteBits_lt _, ?_⟩, crc8_append_crc8,
    fun _ _ => crc8_xor, crc8Bytes_eq⟩
  rw [polynomialOf_crc8, generator_eq]

/-- The sequences `12 34` and `AB CD`, added place by place. -/
theorem twoSequences_added :
    crc8 [0xb9, 0xf9] = crc8 [0x12, 0x34] ^^^ crc8 [0xab, 0xcd] := by
  obtain ⟨_, _, sums, _⟩ := crc8_is_remainder
  exact sums [0x12, 0x34] [0xab, 0xcd] rfl

end ManagedHeap.Checksum
