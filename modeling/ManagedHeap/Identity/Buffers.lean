import ManagedHeap.Heap.Allocation
import ManagedHeap.Identity.Grouping

/-!
# Identity text in byte buffers

Each operation reads one buffer and allocates another; the buffer that it
reads is left alone.
-/

namespace ManagedHeap.Identity

/-- The payload of the identity text in a buffer. -/
def toBlob (text : Handle) : HeapM Handle := do
  let bytes ← HeapM.inspect (·.blob text)
  match decodeBytes bytes with
  | .ok payload => Heap.allocBlobFrom payload
  | .error fault => throw (.identity fault)

/-- The identity text of the payload in a buffer. -/
def ofBlob (payload : Handle) : HeapM Handle := do
  let bytes ← HeapM.inspect (·.blob payload)
  Heap.allocBlobFrom (encodeBytes bytes)

/-- The length of the buffer that is reserved for the grouped form of `length`
characters: that of the room that is enough, kept to 32 bits. -/
def reservedLength (length : Nat) : Nat :=
  Object.lengthWord (groupedCapacity length)

/-- The grouped form of the text in a buffer. Room for the longest grouped
form is reserved and then cut to the bytes written. Where that room has a
length of more than 32 bits, less is reserved than is written, and the write
that leaves the buffer stops the operation. -/
def ofBase32 (text : Handle) : HeapM Handle := do
  let bytes ← HeapM.inspect (·.blob text)
  let grouped := groupBytes bytes
  let result ← Heap.allocBlob (reservedLength bytes.size)
  Heap.writePayload (PayloadPointer.startOf result) grouped
  Heap.truncateBlob result grouped.size
  return result

end ManagedHeap.Identity
