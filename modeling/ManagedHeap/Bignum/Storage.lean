import ManagedHeap.Bignum.Digits
import ManagedHeap.Heap.Buffers

/-!
# Bignums in memory

Bignums in memory: room for digits, reading them and writing them.

Operations run in a workspace, which holds the heap and the bignum being
written, the target. Both keep their changes when an operation fails. Operands
are read before storage is asked for, so the target may share its storage with
an operand.
-/

namespace ManagedHeap

/-! ## Workspace -/

/-- The heap, and the bignum that an operation writes. -/
@[ext]
structure Workspace where
  heap : Heap
  target : Bignum

abbrev DigitM (α : Type) : Type :=
  EStateM Error Workspace α

namespace DigitM

/-- Runs a heap operation and leaves the target alone. -/
def onHeap {α : Type} (operation : HeapM α) : DigitM α := fun workspace =>
  match operation workspace.heap with
  | .ok value heap => .ok value { workspace with heap }
  | .error error heap => .error error { workspace with heap }

def inspect {α : Type} (reader : Heap → Except Error α) : DigitM α :=
  onHeap (HeapM.inspect reader)

def setTarget (target : Bignum) : DigitM Unit :=
  modify fun workspace => { workspace with target }

/-- Runs an operation on a target of its own and returns the target. When the
operation fails, only its changes to the heap remain. -/
def build (start : Bignum) (operation : DigitM Unit) : HeapM Bignum :=
  fun heap =>
  match operation ⟨heap, start⟩ with
  | .ok _ after => .ok after.target after.heap
  | .error error after => .error error after.heap

end DigitM

namespace Bignum

/-! ## Reading -/

/-- The bytes of the digits in use. -/
def storedBytes (number : Bignum) (heap : Heap) : Except Error Bytes :=
  if number.used = 0 then
    .ok .empty
  else
    match number.storage with
    | none => .error (.arithmetic .invalidOperand)
    | some start => heap.payload start (digitBytes * number.used)

/-- The digits in use, as they stand in storage. -/
def digits (number : Bignum) (heap : Heap) : Except Error (List UInt32) :=
  (number.storedBytes heap).map fun bytes => Digits.decode bytes.toList

def magnitude (number : Bignum) (heap : Heap) : Except Error Nat :=
  (number.storedBytes heap).map Bytes.toNat

/-- The integer that a bignum stands for. -/
def value (number : Bignum) (heap : Heap) : Except Error Int :=
  (number.magnitude heap).map number.sign.apply

theorem size_of_storedBytes {number : Bignum} {heap : Heap} {bytes : Bytes}
    (stored : number.storedBytes heap = .ok bytes) :
    bytes.size = digitBytes * number.used := by
  unfold storedBytes at stored
  split at stored
  · rename_i unused
    obtain rfl := Except.ok.inj stored
    rw [unused]
    rfl
  · split at stored
    · cases stored
    · exact Heap.size_of_payload stored

theorem magnitude_eq (number : Bignum) (heap : Heap) :
    number.magnitude heap = (number.digits heap).map Digits.toNat := by
  unfold magnitude digits
  cases stored : number.storedBytes heap with
  | error failure => rfl
  | ok bytes =>
    have whole : bytes.toList.length % 4 = 0 := by
      rw [Bytes.length_toList, size_of_storedBytes stored, digitBytes]
      omega
    simp only [Except.map, Digits.toNat_decode whole, Bytes.toNat_eq]

/-! ## Room -/

/-- Bytes of storage for some digits. A size beyond 32 bits is cut to the
greatest one, which no heap can hold. -/
def storageSize (count : Nat) : Nat :=
  min (digitBytes * count) maxAddress

/-- Zero with room for `precision` digits. -/
def zero (precision : Nat) : HeapM Bignum := do
  let start ← Heap.calloc precision digitBytes
  return { capacity := precision, storage := some start }

/-- Storage for `count` digits that keeps the digits of `number`. -/
def allocateDigits (number : Bignum) (count : Nat) : HeapM PayloadPointer :=
  match number.storage with
  | some start =>
    Heap.realloc start (storageSize number.capacity) (storageSize count)
  | none => Heap.calloc count digitBytes

/-- Makes room in the target for at least `count` digits. -/
def grow (count : Nat) : DigitM Unit := do
  let target := (← get).target
  if target.capacity < count then
    let start ← DigitM.onHeap (target.allocateDigits count)
    DigitM.setTarget { target with capacity := count, storage := some start }

/-! ## Writing -/

/-- Where the first `span` digits of a bignum stand. -/
def digitsStart (number : Bignum) (span : Nat) (heap : Heap) :
    Except Error PayloadPointer :=
  match number.storage with
  | none => .error (.arithmetic .invalidOperand)
  | some start => (heap.payloadWithin start (digitBytes * span)).map fun _ =>
    start

/-- Writes a magnitude over the first `span` digits of a bignum. Its bytes are
built only after their place is known to exist. -/
def writeMagnitude (number : Bignum) (span magnitude : Nat) : HeapM Unit := do
  let start ← HeapM.inspect (number.digitsStart span)
  Heap.writePayload start (Bytes.ofNat (digitBytes * span) magnitude)

/-- How many digits a new value of `count` digits is written over: the value's
own, and those that are in use and have to be cleared. -/
def writtenSpan (target : Bignum) (count : Nat) : Nat :=
  max count target.used

/-- Makes room for a value of `count` digits and makes sure that it can be
written. -/
def reserve (count : Nat) : DigitM Unit := do
  grow count
  let target := (← get).target
  let span := target.writtenSpan count
  if 0 < span then
    let _ ← DigitM.inspect (target.digitsStart span)

/-- Gives the target a sign and a magnitude. Digits that the target had above
the magnitude are cleared, and zero takes no sign. The digits are counted by a
natural number here; a count of 32 bits would be wrong from `2 ^ 32` digits
on. -/
def store (sign : Sign) (magnitude : Nat) : DigitM Unit := do
  let count := Digits.count magnitude
  grow count
  let target := (← get).target
  let span := target.writtenSpan count
  if 0 < span then
    DigitM.onHeap (target.writeMagnitude span magnitude)
  DigitM.setTarget
    { target with
      used := count
      sign := if magnitude = 0 then .nonnegative else sign }

/-- Makes the target stand for an integer. -/
def assign (value : Int) : DigitM Unit :=
  store (Sign.ofInt value) value.natAbs

end Bignum

end ManagedHeap
