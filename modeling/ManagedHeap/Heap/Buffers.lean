import ManagedHeap.Heap.Allocation

/-!
# Storage for the arithmetic layer

The memory interface of the arithmetic layer: zeroed storage, storage that
grows or is replaced, and release. All storage is byte buffers of the heap. A
replaced or released buffer is abandoned and left to the collector.
-/

namespace ManagedHeap.Heap

/-- Zeroed storage for `count` elements of `elementSize` bytes. A product
beyond 32 bits fits into no heap. -/
def calloc (count elementSize : Nat) : HeapM PayloadPointer := do
  HeapM.inspect fun heap =>
    require (count * elementSize ≤ maxAddress)
      (.outOfMemory (count * elementSize) heap.available)
  let buffer ← allocBlob (count * elementSize)
  return PayloadPointer.startOf buffer

/-- Storage of `newSize` bytes whose first `oldSize` bytes are those at
`pointer`. The storage stays where it is when the buffer, by its length word,
is long enough from the pointer on. -/
def realloc (pointer : PayloadPointer) (oldSize newSize : Nat) :
    HeapM PayloadPointer := do
  let bytes ← HeapM.inspect (·.blob pointer.buffer)
  if newSize ≤ Object.lengthWord bytes.size - pointer.offset then
    return pointer
  else
    let kept ← HeapM.inspect (·.payload pointer oldSize)
    let buffer ← allocBlob newSize
    let fresh := PayloadPointer.startOf buffer
    writePayload fresh kept
    return fresh

/-- Gives storage back. The collector finds it, so nothing is done here. -/
def free (_pointer : PayloadPointer) (_size : Nat) : HeapM Unit :=
  pure ()

/-- The payload start at an address, when a byte buffer stands one header
below it. -/
def payloadPointerAt (heap : Heap) (address : Nat) :
    Except Error PayloadPointer :=
  match PayloadPointer.ofAddress? address with
  | none => .error (.invalidHandle address)
  | some pointer =>
    match heap.tag pointer.buffer with
    | .ok .blob => .ok pointer
    | .ok found => .error (.tagMismatch .blob found)
    | .error error => .error error

end ManagedHeap.Heap
