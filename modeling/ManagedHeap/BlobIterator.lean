import ManagedHeap.Heap.Allocation

/-!
# Blob iteration

An iterator is an array of two elements: the byte buffer and the position of
the next byte.
-/

namespace ManagedHeap.BlobIterator

/-- The buffer and the position of an iterator. -/
def state (iterator : Handle) (heap : Heap) : Except Error (Handle × UInt32) :=
  match heap.find iterator with
  | .ok (.array [.pointer buffer, .scalar position]) => .ok (buffer, position)
  | .ok (.array _) => .error (.heapCheck iterator.address .malformedIterator)
  | .ok other => .error (.tagMismatch .array other.tag)
  | .error error => .error error

/-- An iterator at the first byte of a buffer. -/
def create (buffer : Handle) : HeapM Handle := do
  let _ ← HeapM.inspect (·.blob buffer)
  Heap.alloc (.array [.pointer buffer, .scalar 0])

def isDone (iterator : Handle) (heap : Heap) : Except Error Bool := do
  let (buffer, position) ← state iterator heap
  let bytes ← heap.blob buffer
  return Object.lengthWord bytes.size ≤ position.toNat

/-- The byte at the position of an iterator, with what the iterator holds
after it. -/
def current (iterator : Handle) (heap : Heap) :
    Except Error (UInt8 × Object) := do
  let (buffer, position) ← state iterator heap
  let bytes ← heap.blob buffer
  match bytes.get? position.toNat with
  | some byte => return (byte, .array [.pointer buffer, .scalar (position + 1)])
  | none => throw .iteratorExhausted

/-- Returns the byte at the position of an iterator and moves on. -/
def next (iterator : Handle) : HeapM UInt8 := do
  let (byte, advanced) ← HeapM.inspect (current iterator)
  modify (·.place iterator advanced)
  return byte

end ManagedHeap.BlobIterator
