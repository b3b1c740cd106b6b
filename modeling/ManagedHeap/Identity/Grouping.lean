import ManagedHeap.Bytes.Transducer
import ManagedHeap.Identity.Codec
import ManagedHeap.Positional

/-!
# Grouped text

For display, base-32 text is written in lower case with a hyphen between
groups of five characters.
-/

namespace ManagedHeap.Identity

/-- Characters in one group. -/
def groupLength : Nat := 5

def hyphen : UInt8 := 0x2d

/-- Writes text after `filled` characters of the current group. A hyphen
stands before the character that opens the next group, so none stands at the
end. -/
def groupFrom (filled : Nat) : List UInt8 → List UInt8
  | [] => []
  | head :: tail =>
    if filled = groupLength then
      hyphen :: lowercase head :: groupFrom 1 tail
    else
      lowercase head :: groupFrom (filled + 1) tail

/-- The grouped form of some text. -/
def group (text : List UInt8) : List UInt8 :=
  groupFrom 0 text

/-! ## In memory -/

/-- Writes one character after `filled` characters of the current group: how
many the group then has, and what is written. -/
def groupStep (filled : Nat) (byte : UInt8) : Nat × List UInt8 :=
  if filled = groupLength then
    (1, [hyphen, lowercase byte])
  else
    (filled + 1, [lowercase byte])

def groupBytes (text : Bytes) : Bytes :=
  text.transduceOnto groupStep 0 .empty

private theorem expand_groupStep (filled : Nat) (text : List UInt8) :
    Bytes.expand groupStep filled text = groupFrom filled text := by
  induction text generalizing filled with
  | nil => rfl
  | cons head tail inductionHypothesis =>
    rw [Bytes.expand, groupFrom, groupStep]
    split <;> rw [inductionHypothesis] <;> rfl

@[simp]
theorem toList_groupBytes (text : Bytes) :
    (groupBytes text).toList = group text.toList := by
  rw [groupBytes, Bytes.toList_transduceOnto, expand_groupStep]
  rfl

/-- Room that is enough for the grouped form of `length` characters. It is a
natural number: a buffer may have no such length. -/
def groupedCapacity (length : Nat) : Nat :=
  (groupLength + 1) * Positional.ceilDiv length groupLength

end ManagedHeap.Identity
