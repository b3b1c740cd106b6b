import ManagedHeap.Config
import ManagedHeap.Error
import ManagedHeap.Store

/-!
# The heap

The managed heap: its state, typed access to its objects, and changes in
place.

Objects are handed out from a pointer that only a collection moves back.
Access fails when no object starts at the handle's address, and typed access
also when the object has another tag.
-/

namespace ManagedHeap

/-! ## State -/

/-- The heap: its objects, the next free address, the table of roots with
empty slots, the live bytes that the last collection left, and the bytes
handed out so far. That count is a natural number here; a counter of 64 bits
would overflow in the end. -/
@[ext]
structure Heap where
  config : Config
  objects : Store
  pointer : Nat
  roots : List (Option Handle)
  lastLive : Nat
  allocated : Nat

/-- An operation that may change the heap, also when it fails. -/
abbrev HeapM (α : Type) : Type :=
  EStateM Error Heap α

/-- An operation that only reads the heap. -/
def HeapM.inspect {α : Type} (reader : Heap → Except Error α) :
    HeapM α := fun heap =>
  match reader heap with
  | .ok value => .ok value heap
  | .error error => .error error heap

namespace Heap

/-- The address of the first object: the configured base rounded up to a
word. A base above `0xFFFFFFFC` becomes `2 ^ 32` here; in 32-bit arithmetic
its rounding overflows. -/
def baseOf (config : Config) : Nat :=
  wordSize * bytesToWords config.heapBase.toNat

def empty (config : Config) : Heap where
  config := config
  objects := .empty
  pointer := baseOf config
  roots := []
  lastLive := 0
  allocated := 0

def base (heap : Heap) : Nat :=
  baseOf heap.config

/-- Bytes between the base and the next free address. -/
def size (heap : Heap) : Nat :=
  heap.pointer - heap.base

/-- Bytes left below the limit. -/
def available (heap : Heap) : Nat :=
  heap.config.heapLimit.toNat - heap.pointer

def objectCount (heap : Heap) : Nat :=
  heap.objects.size

/-! ## Reading -/

def find (heap : Heap) (handle : Handle) : Except Error Object :=
  match heap.objects.find? handle.address with
  | some object => .ok object
  | none => .error (.invalidHandle handle.raw)

def tag (heap : Heap) (handle : Handle) : Except Error Tag :=
  (heap.find handle).map Object.tag

/-- The payload of a byte buffer. -/
def blob (heap : Heap) (handle : Handle) : Except Error Bytes :=
  match heap.find handle with
  | .ok (.blob bytes) => .ok bytes
  | .ok other => .error (.tagMismatch .blob other.tag)
  | .error error => .error error

def bignum (heap : Heap) (handle : Handle) : Except Error Bignum :=
  match heap.find handle with
  | .ok (.bigInteger number) => .ok number
  | .ok other => .error (.tagMismatch .bigInteger other.tag)
  | .error error => .error error

/-- The payload of the buffer under a pointer, when `length` bytes from the
pointer lie in it. -/
def payloadWithin (heap : Heap) (pointer : PayloadPointer) (length : Nat) :
    Except Error Bytes :=
  match heap.blob pointer.buffer with
  | .ok bytes =>
    if pointer.offset + length ≤ bytes.size then
      .ok bytes
    else
      .error (.payloadBounds pointer.offset length
        (Object.lengthWord bytes.size))
  | .error error => .error error

/-- The `length` payload bytes from a pointer on. -/
def payload (heap : Heap) (pointer : PayloadPointer) (length : Nat) :
    Except Error Bytes :=
  (heap.payloadWithin pointer length).map fun bytes =>
    bytes.slice pointer.offset length

theorem size_of_payload {heap : Heap} {pointer : PayloadPointer} {length : Nat}
    {bytes : Bytes}
    (read : heap.payload pointer length = .ok bytes) :
    bytes.size = length := by
  unfold payload payloadWithin at read
  split at read
  · split at read
    · rename_i buffer found inside
      obtain rfl := Except.ok.inj read
      rw [← Bytes.length_toList, Bytes.toList_slice, List.length_take,
        List.length_drop, Bytes.length_toList]
      omega
    · cases read
  · cases read

/-! ## Changes in place -/

/-- The heap with another object at the address of `handle`. No space is
reserved. -/
def place (heap : Heap) (handle : Handle) (object : Object) : Heap :=
  { heap with objects := heap.objects.insert handle.address object }

def replace (handle : Handle) (object : Object) : HeapM Unit := do
  let _ ← HeapM.inspect (·.find handle)
  modify (·.place handle object)

/-- Stores a bignum back into its object. -/
def setBignum (handle : Handle) (number : Bignum) : HeapM Unit := do
  let _ ← HeapM.inspect (·.bignum handle)
  modify (·.place handle (.bigInteger number))

/-- Shortens a byte buffer; a buffer that is short enough stays as it is. -/
def truncateBlob (handle : Handle) (length : Nat) : HeapM Unit := do
  let bytes ← HeapM.inspect (·.blob handle)
  modify (·.place handle (.blob (bytes.take length)))

/-- Writes bytes into the payload of a buffer. -/
def writePayload (pointer : PayloadPointer) (fresh : Bytes) : HeapM Unit := do
  let bytes ← HeapM.inspect (·.payloadWithin pointer fresh.size)
  modify (·.place pointer.buffer (.blob (bytes.overwrite pointer.offset fresh)))

end Heap

end ManagedHeap
