import ManagedHeap.Heap.Roots

/-!
# The heap check

The heap check: every root refers to an object, objects are aligned and lie
apart in address order between the base and the heap pointer, no reference
dangles, and every bignum has sound storage. The first violation found is
reported with the address of the object that it concerns.
-/

namespace ManagedHeap.Heap

/-! ## References -/

def contains (heap : Heap) (handle : Handle) : Bool :=
  (heap.objects.find? handle.address).isSome

def checkRoots (heap : Heap) : Except Error Unit :=
  match heap.liveRoots.find? fun root => !heap.contains root with
  | some root => .error (.heapCheck root.address .rootWithoutObject)
  | none => .ok ()

/-- No reference of the object at `address` dangles. -/
def checkPointers (heap : Heap) (address : Nat) (object : Object) :
    Except Error Unit :=
  match object.pointers.find? fun target => !heap.contains target with
  | some target => .error (.heapCheck address (.danglingField target))
  | none => .ok ()

/-! ## Bignums -/

/-- The digit at position `index` of a digit buffer is zero. -/
def isZeroDigit (bytes : Bytes) (index : Nat) : Bool :=
  (bytes.slice (Bignum.digitBytes * index) Bignum.digitBytes).toList.all
  (· == 0)

/-- The digit buffer of a bignum holds all that the bignum claims, by its
length word, and its top digit is not zero. -/
def checkDigits (address : Nat) (number : Bignum) (bytes : Bytes) :
    Except Error Unit := do
  require (Bignum.digitBytes * number.capacity ≤ Object.lengthWord bytes.size)
    (.heapCheck address .storageTooSmall)
  require (number.used = 0 ∨ isZeroDigit bytes (number.used - 1) = false)
    (.heapCheck address .notClamped)

/-- The storage of a bignum is the start of a byte buffer. -/
def checkStorage (heap : Heap) (address : Nat) (number : Bignum)
    (start : PayloadPointer) :
    Except Error Unit := do
  require (start.offset = 0) (.heapCheck address .storageOffset)
  match heap.find start.buffer with
  | .ok (.blob bytes) => checkDigits address number bytes
  | .ok other => .error (.heapCheck address (.storageTag other.tag))
  | .error _ => .error (.heapCheck address .storageWithoutObject)

def checkBignum (heap : Heap) (address : Nat) (number : Bignum) :
    Except Error Unit := do
  require (number.used ≤ number.capacity) (.heapCheck address .tooManyDigits)
  require (¬(number.used = 0 ∧ number.sign = .negative))
    (.heapCheck address .negativeZero)
  match number.storage with
  | none => require (number.used = 0) (.heapCheck address .digitsWithoutStorage)
  | some start => checkStorage heap address number start

/-! ## Objects -/

/-- The object at `address` is sound and starts at or above the end of the
object before it. -/
def checkObject (heap : Heap) (previousEnd address : Nat) (object : Object) :
    Except Error Unit := do
  require (address % wordSize = 0) (.heapCheck address .misaligned)
  require (previousEnd ≤ address) (.heapCheck address .overlap)
  require (address + object.size ≤ heap.pointer)
    (.heapCheck address .pastHeapPointer)
  checkPointers heap address object
  match object with
  | .bigInteger number => checkBignum heap address number
  | _ => .ok ()

/-- The objects of a list of entries are sound, one after the other. -/
def checkObjects (heap : Heap) (previousEnd : Nat) :
    List (Nat × Object) → Except Error Unit
  | [] => .ok ()
  | (address, object) :: rest => do
    checkObject heap previousEnd address object
    checkObjects heap (address + object.size) rest

/-- Checks every root and every object, and reports the first violation. -/
def check (heap : Heap) : Except Error Unit := do
  checkRoots heap
  checkObjects heap heap.base heap.objects.entries

end ManagedHeap.Heap
