import ManagedHeap.Handle

/-!
# Limits

The limits within which a heap and its bignums work. Keeping to them is the
heap's part.
-/

namespace ManagedHeap

/-- Limits of a runtime. -/
structure Config where
  /-- Address of the first heap object, before rounding up to a word. -/
  heapBase : UInt32 := 0x10000
  /-- Highest address that the heap may grow to. -/
  heapLimit : UInt32 := 64 * 1024 * 1024
  /-- Digits that a fresh bignum has room for. -/
  precision : UInt32 := 4
  /-- The heap is checked after every collection. -/
  checkAfterCollection : Bool := true
  /-- Bytes that the heap must grow by before a scheduled collection runs. -/
  minGrowth : UInt32 := 1024 * 1024
  deriving DecidableEq, Repr

end ManagedHeap
