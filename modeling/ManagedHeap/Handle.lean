import ManagedHeap.Numeral

/-!
# Handles, words and payload pointers

Addresses of heap objects: handles, field words and pointers into the payload
of a byte buffer.

A handle is written as its address plus one, so the written value 0 names no
object and handles differ from word-aligned scalars.
-/

namespace ManagedHeap

/-! ## Word arithmetic -/

/-- Bytes in one heap word. -/
def wordSize : Nat := 4

/-- The greatest unsigned 32-bit value, the top of the address range. -/
def maxAddress : Nat := 2 ^ 32 - 1

/-- The number of whole words that hold a number of bytes. -/
def bytesToWords (bytes : Nat) : Nat :=
  Positional.ceilDiv bytes wordSize

/-! ## Handles -/

/-- A reference to the heap object that starts at `address`. The top address
of the 32-bit range has no handle, because a handle is written as its address
plus one. -/
@[ext]
structure Handle where
  address : Nat
  address_lt : address < maxAddress
  deriving DecidableEq, Repr

namespace Handle

/-- The written form of a handle. -/
def raw (handle : Handle) : Nat :=
  handle.address + 1

/-- The handle of the object at `address`, for every address that has one. -/
def ofAddress? (address : Nat) : Option Handle :=
  if bound : address < maxAddress then some ⟨address, bound⟩ else none

/-- The handle with the written form `raw`; 0 is written for no handle. -/
def ofRaw? (raw : Nat) : Option Handle :=
  if raw = 0 then none else ofAddress? (raw - 1)

/-- The handle of the object at `address`. The top address, which no object
can have, is taken for the address below it. -/
def ofAddress (address : Nat) : Handle :=
  ⟨min address (maxAddress - 1), by unfold maxAddress; omega⟩

/-- How a handle appears in messages. -/
def describe (handle : Handle) : String :=
  "Handle(" ++ Numeral.hexadecimal handle.raw ++ ")"

theorem address_ofAddress {address : Nat} (bound : address < maxAddress) :
    (ofAddress address).address = address := by
  simp only [ofAddress]
  omega

@[simp]
theorem ofAddress_address (handle : Handle) :
    ofAddress handle.address = handle :=
  Handle.ext (address_ofAddress handle.address_lt)

/-- Every handle is read back from its written form. -/
theorem ofRaw?_raw (handle : Handle) :
    ofRaw? handle.raw = some handle := by
  simp [ofRaw?, raw, ofAddress?, handle.address_lt]

end Handle

/-! ## Field words -/

/-- A field of a heap object: a plain scalar or a reference. -/
inductive Word where
  | scalar (value : UInt32)
  | pointer (target : Handle)
  deriving DecidableEq, Repr

namespace Word

/-- The object that a field refers to. -/
def handle? : Word → Option Handle
  | .scalar _ => none
  | .pointer target => some target

/-- Changes the reference in a field and leaves scalars alone. -/
def mapHandle (change : Handle → Handle) : Word → Word
  | .scalar value => .scalar value
  | .pointer target => .pointer (change target)

theorem handle?_mapHandle (change : Handle → Handle) (word : Word) :
    (word.mapHandle change).handle? = word.handle?.map change := by
  cases word <;> rfl

end Word

/-! ## Payload pointers -/

/-- A pointer into the payload of a byte buffer: the buffer and a distance in
bytes, so that the pointer can follow the buffer when it moves. -/
@[ext]
structure PayloadPointer where
  buffer : Handle
  offset : Nat
  deriving DecidableEq, Repr

namespace PayloadPointer

/-- Bytes between the start of a byte buffer and its payload: the tag word and
the length word. -/
def headerSize : Nat := 2 * wordSize

/-- The pointer to the first payload byte of `buffer`. -/
def startOf (buffer : Handle) : PayloadPointer :=
  ⟨buffer, 0⟩

/-- The address of the byte that the pointer stands at. -/
def address (pointer : PayloadPointer) : Nat :=
  pointer.buffer.address + headerSize + pointer.offset

/-- The payload start whose address is `address`, one header above the object
that it belongs to. Whether a byte buffer stands there is for the heap to
say. -/
def ofAddress? (address : Nat) : Option PayloadPointer :=
  if headerSize ≤ address then
    (Handle.ofAddress? (address - headerSize)).map startOf
  else
    none

/-- The same place in another buffer. -/
def retarget (pointer : PayloadPointer) (buffer : Handle) : PayloadPointer :=
  { pointer with buffer }

end PayloadPointer

end ManagedHeap
