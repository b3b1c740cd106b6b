import ManagedHeap.BigInteger.Narrowing
import ManagedHeap.BlobIterator
import ManagedHeap.Heap.Collection
import ManagedHeap.Identity.Buffers
import ManagedHeap.Text.Buffers

/-!
# Calls

Everything that a host can ask of the runtime, as data: a call with its
arguments, what it answers, and how it is performed on the heap. Programs of a
host are lists of calls.
-/

namespace ManagedHeap

/-! ## Families of calls -/

/-- Operations on two big integers with a big integer as result. -/
inductive BinaryOperation where
  | add
  | sub
  | mul
  | div
  | rem
  | pow
  deriving DecidableEq, Repr

def BinaryOperation.perform : BinaryOperation → Handle → Handle → HeapM Handle
  | .add => BigInteger.add
  | .sub => BigInteger.sub
  | .mul => BigInteger.mul
  | .div => BigInteger.div
  | .rem => BigInteger.rem
  | .pow => BigInteger.pow

/-! ## Calls and answers -/

/-- A call with its arguments. The three calls on raw storage speak of
addresses. -/
inductive Call where
  | identityToBlob (text : Handle)
  | identityOfBlob (payload : Handle)
  | identityOfBase32 (text : Handle)
  | textOfString (text : String)
  | version
  | blobBytes (blob : Handle)
  | blobIterator (blob : Handle)
  | iteratorIsDone (iterator : Handle)
  | iteratorNext (iterator : Handle)
  | ofUInt32 (value : UInt32)
  | ofInt32 (value : Int32)
  | ofUInt64 (value : UInt64)
  | ofInt64 (value : Int64)
  | ofDecimal (text : String)
  | toDecimal (operand : Handle)
  | wrap (target : MachineInteger) (operand : Handle)
  | narrow (target : MachineInteger) (operand : Handle)
  | compare (comparison : BigInteger.Comparison) (left right : Handle)
  | binary (operation : BinaryOperation) (left right : Handle)
  | neg (operand : Handle)
  | abs (operand : Handle)
  | shiftLeft (operand : Handle) (count : Int32)
  | isNegative (operand : Handle)
  | bitCount (operand : Handle)
  | calloc (count elementSize : Nat)
  | realloc (address oldSize newSize : Nat)
  | free (address size : Nat)
  | addRoot (handle : Handle)
  | root (slot : RootSlot)
  | removeRoot (slot : RootSlot)
  | collect
  | scheduleCollect
  deriving DecidableEq, Repr

/-- What a call answers. -/
inductive Answer where
  | handle (handle : Handle)
  | truth (value : Bool)
  | byte (value : UInt8)
  | bytes (value : Bytes)
  | text (value : String)
  | uint32 (value : UInt32)
  | int32 (value : Int32)
  | uint64 (value : UInt64)
  | int64 (value : Int64)
  | count (value : Nat)
  | address (value : Nat)
  | slot (slot : RootSlot)
  | slotContent (held : Option Handle)
  | stats (stats : CollectionStats)
  | scheduled (stats : Option CollectionStats)
  | nothing
  deriving DecidableEq, Repr

/-! ## Narrowing -/

/-- The value of a big integer modulo the range of a machine integer. -/
def MachineInteger.wrap (target : MachineInteger) (operand : Handle)
    (heap : Heap) :
    Except Error Answer :=
  match target with
  | .unsigned32 => (BigInteger.toUInt32 operand heap).map Answer.uint32
  | .signed32 => (BigInteger.toInt32 operand heap).map Answer.int32
  | .unsigned64 => (BigInteger.toUInt64 operand heap).map Answer.uint64
  | .signed64 => (BigInteger.toInt64 operand heap).map Answer.int64

/-- The value of a big integer as a machine integer, if it is in range. -/
def MachineInteger.narrow (target : MachineInteger) (operand : Handle)
    (heap : Heap) :
    Except Error Answer :=
  match target with
  | .unsigned32 => (BigInteger.toUInt32Checked operand heap).map Answer.uint32
  | .signed32 => (BigInteger.toInt32Checked operand heap).map Answer.int32
  | .unsigned64 => (BigInteger.toUInt64Checked operand heap).map Answer.uint64
  | .signed64 => (BigInteger.toInt64Checked operand heap).map Answer.int64

/-! ## Performing a call -/

namespace Call

/-- Replaces the buffer at a payload address by storage of another size, and
answers its address. -/
def reallocAt (address oldSize newSize : Nat) : HeapM Nat := do
  let pointer ← HeapM.inspect (·.payloadPointerAt address)
  let fresh ← Heap.realloc pointer oldSize newSize
  return fresh.address

/-- Gives back the buffer at a payload address. -/
def freeAt (address size : Nat) : HeapM Unit := do
  let pointer ← HeapM.inspect (·.payloadPointerAt address)
  Heap.free pointer size

def perform : Call → HeapM Answer
  | .identityToBlob text => Answer.handle <$> Identity.toBlob text
  | .identityOfBlob payload => Answer.handle <$> Identity.ofBlob payload
  | .identityOfBase32 text => Answer.handle <$> Identity.ofBase32 text
  | .textOfString text => Answer.handle <$> Text.ofString text
  | .version => Answer.handle <$> Text.version
  | .blobBytes blob => Answer.bytes <$> HeapM.inspect (·.blob blob)
  | .blobIterator blob => Answer.handle <$> BlobIterator.create blob
  | .iteratorIsDone iterator =>
    Answer.truth <$> HeapM.inspect (BlobIterator.isDone iterator)
  | .iteratorNext iterator => Answer.byte <$> BlobIterator.next iterator
  | .ofUInt32 value => Answer.handle <$> BigInteger.ofUInt32 value
  | .ofInt32 value => Answer.handle <$> BigInteger.ofInt32 value
  | .ofUInt64 value => Answer.handle <$> BigInteger.ofUInt64 value
  | .ofInt64 value => Answer.handle <$> BigInteger.ofInt64 value
  | .ofDecimal text => Answer.handle <$> BigInteger.ofDecimal text
  | .toDecimal operand =>
    Answer.text <$> HeapM.inspect (BigInteger.toDecimal operand)
  | .wrap target operand => HeapM.inspect (target.wrap operand)
  | .narrow target operand => HeapM.inspect (target.narrow operand)
  | .compare comparison left right =>
    Answer.truth <$> HeapM.inspect (BigInteger.compare comparison left right)
  | .binary operation left right =>
    Answer.handle <$> operation.perform left right
  | .neg operand => Answer.handle <$> BigInteger.neg operand
  | .abs operand => Answer.handle <$> BigInteger.abs operand
  | .shiftLeft operand count =>
    Answer.handle <$> BigInteger.shiftLeft operand count.toInt
  | .isNegative operand =>
    Answer.truth <$> HeapM.inspect (BigInteger.isNegative operand)
  | .bitCount operand =>
    Answer.count <$> HeapM.inspect (BigInteger.bitCount operand)
  | .calloc count elementSize =>
    (fun pointer => Answer.address pointer.address) <$>
      Heap.calloc count elementSize
  | .realloc address oldSize newSize =>
    Answer.address <$> reallocAt address oldSize newSize
  | .free address size => (fun _ => Answer.nothing) <$> freeAt address size
  | .addRoot handle => Answer.slot <$> Heap.addRoot handle
  | .root slot => (fun heap => Answer.slotContent (heap.root slot)) <$> get
  | .removeRoot slot => Answer.slotContent <$> Heap.removeRoot slot
  | .collect => Answer.stats <$> Heap.collect
  | .scheduleCollect => Answer.scheduled <$> Heap.scheduleCollect

/-- A root was asked for whose slot is empty. -/
def asksEmptySlot : Call → Answer → Bool
  | .root _, .slotContent none => true
  | _, _ => false

end Call

end ManagedHeap
