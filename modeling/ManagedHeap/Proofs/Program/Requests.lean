import ManagedHeap.Host.Call

/-!
# Programs

A program is a list of requests that never hold a handle: each reads its
operands from root slots, and each new object becomes a root at once. A run
performs the requests of a program with collections anywhere between them, and
what it observes is free of addresses.
-/

namespace ManagedHeap.Program

/-! ## Requests -/

/-- New objects that take no operand. -/
inductive Source where
  | bytes (content : Bytes)
  | text (content : String)
  | uint32 (value : UInt32)
  | int32 (value : Int32)
  | uint64 (value : UInt64)
  | int64 (value : Int64)
  | decimal (numeral : String)

/-- New objects that take one operand. -/
inductive Conversion where
  | identityToBlob
  | identityOfBlob
  | identityOfBase32
  | blobIterator
  | neg
  | abs
  | shiftLeft (count : Int32)

/-- Data that is read from one operand. -/
inductive Query where
  | blobBytes
  | iteratorIsDone
  | toDecimal
  | wrap (target : MachineInteger)
  | narrow (target : MachineInteger)
  | isNegative
  | bitCount

inductive Request where
  | create (source : Source)
  | convert (conversion : Conversion) (operand : RootSlot)
  | combine (operation : BinaryOperation) (left right : RootSlot)
  | read (query : Query) (operand : RootSlot)
  | compare (comparison : BigInteger.Comparison) (left right : RootSlot)
  | next (iterator : RootSlot)

/-! ## Performing a request -/

def Source.perform : Source → HeapM Handle
  | .bytes content => Heap.allocBlobFrom content
  | .text content => Text.ofString content
  | .uint32 value => BigInteger.ofUInt32 value
  | .int32 value => BigInteger.ofInt32 value
  | .uint64 value => BigInteger.ofUInt64 value
  | .int64 value => BigInteger.ofInt64 value
  | .decimal numeral => BigInteger.ofDecimal numeral

def Conversion.perform : Conversion → Handle → HeapM Handle
  | .identityToBlob, operand => Identity.toBlob operand
  | .identityOfBlob, operand => Identity.ofBlob operand
  | .identityOfBase32, operand => Identity.ofBase32 operand
  | .blobIterator, operand => BlobIterator.create operand
  | .neg, operand => BigInteger.neg operand
  | .abs, operand => BigInteger.abs operand
  | .shiftLeft count, operand => BigInteger.shiftLeft operand count.toInt

def Query.perform (query : Query) (operand : Handle) (heap : Heap) :
    Except Error Answer :=
  match query with
  | .blobBytes => (heap.blob operand).map .bytes
  | .iteratorIsDone => (BlobIterator.isDone operand heap).map .truth
  | .toDecimal => (BigInteger.toDecimal operand heap).map .text
  | .wrap target => target.wrap operand heap
  | .narrow target => target.narrow operand heap
  | .isNegative => (BigInteger.isNegative operand heap).map .truth
  | .bitCount => (BigInteger.bitCount operand heap).map .count

/-- Makes the new object of an operation a root, and answers its slot. -/
def rooted (operation : HeapM Handle) : HeapM Answer := do
  let handle ← operation
  let slot ← Heap.addRoot handle
  return .slot slot

/-- A request on the objects that the slots hold, when none of its slots is
empty. -/
def Request.operation (held : RootSlot → Option Handle) :
    Request → Option (HeapM Answer)
  | .create source => some (rooted source.perform)
  | .convert conversion operand =>
    (held operand).map fun handle => rooted (conversion.perform handle)
  | .combine operation left right =>
    (held left).bind fun leftHandle => (held right).map fun rightHandle =>
      rooted (operation.perform leftHandle rightHandle)
  | .read query operand =>
    (held operand).map fun handle => HeapM.inspect (query.perform handle)
  | .compare comparison left right =>
    (held left).bind fun leftHandle => (held right).map fun rightHandle =>
      HeapM.inspect fun heap =>
        (BigInteger.compare comparison leftHandle rightHandle heap).map .truth
  | .next iterator =>
    (held iterator).map fun handle => Answer.byte <$> BlobIterator.next handle

/-! ## Observations -/

/-- What is seen of a request: its answer, its error, or that one of its slots
is empty. -/
inductive Observation where
  | answered (answer : Answer)
  | failed (error : Error)
  | emptySlot
  deriving DecidableEq

/-- The observation reports exhausted memory. -/
def Observation.isOutOfMemory : Observation → Bool
  | .failed (.outOfMemory _ _) => true
  | _ => false

/-- Performs a request: what is seen of it, and the heap after it. -/
def Request.perform (request : Request) (heap : Heap) : Observation × Heap :=
  match request.operation heap.root with
  | none => (.emptySlot, heap)
  | some operation =>
    match operation heap with
    | .ok answer after => (.answered answer, after)
    | .error error after => (.failed error, after)

/-! ## Runs -/

inductive Collection where
  | forced
  | scheduled

/-- Collects, and drops the statistics. -/
def Collection.perform : Collection → HeapM Unit
  | .forced => do
    let _ ← Heap.collect
    return ()
  | .scheduled => do
    let _ ← Heap.scheduleCollect
    return ()

inductive Move where
  | request (step : Request)
  | collect (collection : Collection)

/-- Performs a step of a run: what is seen of it, and the heap after it. A
collection is seen only when it fails. -/
def Move.perform (move : Move) (heap : Heap) : List Observation × Heap :=
  match move with
  | .request step =>
    let (observation, after) := step.perform heap
    ([observation], after)
  | .collect collection =>
    match collection.perform heap with
    | .ok _ after => ([], after)
    | .error error after => ([.failed error], after)

/-- All that is seen of a run. -/
def observations : List Move → Heap → List Observation
  | [], _ => []
  | move :: rest, heap =>
    let (seen, after) := move.perform heap
    seen ++ observations rest after

/-- The program of a run: its requests in order. -/
def requests : List Move → List Request
  | [] => []
  | .request step :: rest => step :: requests rest
  | .collect _ :: rest => requests rest

/-- No request of a run wants for memory. -/
def Suffices (heap : Heap) (run : List Move) : Prop :=
  ∀ observation ∈ observations run heap, observation.isOutOfMemory = false

instance (heap : Heap) (run : List Move) : Decidable (Suffices heap run) :=
  inferInstanceAs (Decidable (∀ observation ∈ observations run heap, _))

end ManagedHeap.Program
