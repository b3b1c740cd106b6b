import ManagedHeap.Heap.Basic

/-!
# Allocation

Allocation: objects are handed out one after the other from the heap pointer.
A request fails exactly when it does not fit below the limit, and a failed
request changes nothing.
-/

namespace ManagedHeap.Heap

/-! ## Reservation -/

/-- The bytes of `words` words, when that many fit below the limit. -/
def reserve (heap : Heap) (words : Nat) : Except Error Nat :=
  let requested := wordSize * words
  if requested ≤ heap.available then
    .ok requested
  else
    .error (.outOfMemory requested heap.available)

/-- Hands out `words` words and returns their address. -/
def allocWords (words : Nat) : HeapM Nat := do
  let requested ← HeapM.inspect (·.reserve words)
  modifyGet fun heap =>
    (heap.pointer,
      { heap with
        pointer := heap.pointer + requested
        allocated := heap.allocated + requested })

/-! ## Objects -/

/-- Allocates an object. -/
def alloc (object : Object) : HeapM Handle := do
  let address ← allocWords object.sizeInWords
  let handle := Handle.ofAddress address
  modify (·.place handle object)
  return handle

/-- Allocates a byte buffer of zeros. The buffer is built only after its space
is known to fit. -/
def allocBlob (length : Nat) : HeapM Handle := do
  let _ ← HeapM.inspect (·.reserve (Object.blobWords length))
  alloc (.blob (Bytes.zeros length))

/-- Allocates a byte buffer with the given content. A content whose length is
no 32-bit number does not fit into any heap. -/
def allocBlobFrom (bytes : Bytes) : HeapM Handle := do
  HeapM.inspect fun heap =>
    require (bytes.size ≤ maxAddress) (.outOfMemory bytes.size heap.available)
  alloc (.blob bytes)

end ManagedHeap.Heap
