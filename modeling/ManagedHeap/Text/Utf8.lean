import ManagedHeap.Positional

/-!
# Text as UTF-8 bytes

Text lives in byte buffers as UTF-8. `encode` gives the bytes of a text.
`decode` reads any bytes: where they are no UTF-8, each longest piece that
could begin a character, or else each single byte, becomes one replacement
character.
-/

namespace ManagedHeap.Utf8

/-! ## Writing -/

def encode (text : String) : List UInt8 :=
  text.toList.flatMap String.utf8EncodeChar

/-! ## Reading -/

/-- The character that stands for bytes that are no UTF-8. -/
def replacement : Char := '\ufffd'

/-- What must follow a lead byte: how many continuation bytes, and the range
of the first of them. The narrow ranges exclude overlong forms, surrogates and
values past the last character. -/
structure SequenceShape where
  continuations : Nat
  low : UInt8
  high : UInt8
  deriving DecidableEq, Repr

/-- The shape of the sequence that a byte from 128 on begins. -/
def shapeOf? (lead : UInt8) : Option SequenceShape :=
  if lead < 0xc2 then none
  else if lead < 0xe0 then some ⟨1, 0x80, 0xbf⟩
  else if lead = 0xe0 then some ⟨2, 0xa0, 0xbf⟩
  else if lead = 0xed then some ⟨2, 0x80, 0x9f⟩
  else if lead < 0xf0 then some ⟨2, 0x80, 0xbf⟩
  else if lead = 0xf0 then some ⟨3, 0x90, 0xbf⟩
  else if lead < 0xf4 then some ⟨3, 0x80, 0xbf⟩
  else if lead = 0xf4 then some ⟨3, 0x80, 0x8f⟩
  else none

/-- The value bits of a lead byte. -/
def leadBits (lead : UInt8) (continuations : Nat) : Nat :=
  lead.toNat % 2 ^ (6 - continuations)

/-- Reads the continuation bytes of a character whose value so far is `value`,
the next of them in a given range: the character, or a replacement for what
was read, and the bytes not read. -/
def readContinuations :
    Nat → UInt8 → UInt8 → Nat → List UInt8 → Char × List UInt8
  | 0, _, _, value, bytes => (Char.ofNat value, bytes)
  | _ + 1, _, _, _, [] => (replacement, [])
  | remaining + 1, low, high, value, byte :: rest =>
    if low ≤ byte ∧ byte ≤ high then
      readContinuations remaining 0x80 0xbf (64 * value + byte.toNat % 64) rest
    else
      (replacement, byte :: rest)

private theorem length_readContinuations
    (remaining : Nat) (low high : UInt8) (value : Nat)
    (bytes : List UInt8) :
    (readContinuations remaining low high value bytes).2.length ≤
      bytes.length := by
  fun_induction readContinuations remaining low high value bytes with
  | case1 => exact Nat.le_refl _
  | case2 => exact Nat.le_refl _
  | case3 remaining low high value byte rest within inductionHypothesis =>
    exact Nat.le_succ_of_le inductionHypothesis
  | case4 => exact Nat.le_refl _

def decodeList : List UInt8 → List Char
  | [] => []
  | lead :: rest =>
    if lead < 0x80 then
      Char.ofNat lead.toNat :: decodeList rest
    else
      match shapeOf? lead with
      | none => replacement :: decodeList rest
      | some shape =>
        let read := readContinuations shape.continuations shape.low shape.high
          (leadBits lead shape.continuations) rest
        read.1 :: decodeList read.2
termination_by bytes => bytes.length
decreasing_by
  · exact Nat.lt_succ_self _
  · exact Nat.lt_succ_self _
  · exact Nat.lt_succ_of_le (length_readContinuations _ _ _ _ _)

def decode (bytes : List UInt8) : String :=
  String.ofList (decodeList bytes)

end ManagedHeap.Utf8
