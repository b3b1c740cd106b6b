import ManagedHeap.Proofs.BigInteger.Cells
import ManagedHeap.Proofs.BlobIterator
import ManagedHeap.Proofs.Identity.Buffers
import ManagedHeap.Proofs.Program.Requests

/-!
# Programs on cells

What each request does, said of the cells in the root slots alone: no address,
heap limit or layout takes part (`Request.interpret`). What a request takes
from the heap depends on the cells and on the configured precision
(`Request.cost`).
-/

namespace ManagedHeap.Program

open Bignum (growth)
open BigInteger (allocationSize)
open Heap (Makes charge)

variable {heap : Heap} {handle left right : Handle}
  {cell leftCell rightCell : Cell}

/-! ## New objects -/

def Source.result : Source → Except Error Cell
  | .bytes content => .ok (.bytes content)
  | .text content => .ok (.bytes (Bytes.ofList (Utf8.encode content)))
  | .uint32 value => .ok (.integer value.toNat)
  | .int32 value => .ok (.integer value.toInt)
  | .uint64 value => .ok (.integer value.toNat)
  | .int64 value => .ok (.integer value.toInt)
  | .decimal numeral => (BigInteger.decimalResult numeral).map .integer

def Source.cost (precision : Nat) : Source → Nat
  | .bytes content => (Object.blob content).fullSize
  | .text content =>
    (Object.blob (Bytes.ofList (Utf8.encode content))).fullSize
  | .uint32 value =>
    allocationSize precision + growth precision (Digits.count value.toNat)
  | .int32 value =>
    BigInteger.signedCost precision 32 value.toUInt32.toNat (value < 0)
  | .uint64 value =>
    allocationSize precision + growth precision (Digits.count value.toNat)
  | .int64 value =>
    BigInteger.signedCost precision 64 value.toUInt64.toNat (value < 0)
  | .decimal numeral =>
    allocationSize precision + Bignum.resultGrowth precision
      (BigInteger.decimalResult numeral)

theorem Source.makes (source : Source) (regular : heap.Regular) :
    Makes source.perform heap source.result
      (source.cost heap.config.precision.toNat) := by
  cases source with
  | bytes content => exact Heap.makes_allocBlobFrom regular content
  | text content => exact Heap.makes_allocBlobFrom regular _
  | uint32 value => exact (BigInteger.builds_ofUInt32 value regular).makes
  | int32 value => exact (BigInteger.builds_ofInt32 value regular).makes
  | uint64 value => exact (BigInteger.builds_ofUInt64 value regular).makes
  | int64 value => exact (BigInteger.builds_ofInt64 value regular).makes
  | decimal numeral => exact (BigInteger.builds_ofDecimal numeral regular).makes

/-- What a conversion makes of a cell. -/
def Conversion.result (conversion : Conversion) (cell : Cell) :
    Except Error Cell :=
  match conversion with
  | .identityToBlob =>
    cell.asBytes >>= fun bytes => (Identity.decoded bytes).map .bytes
  | .identityOfBlob =>
    cell.asBytes >>= fun bytes => .ok (.bytes (Identity.encodeBytes bytes))
  | .identityOfBase32 =>
    cell.asBytes >>= fun bytes => (Identity.grouped bytes).map .bytes
  | .blobIterator => cell.asBytes >>= fun bytes => .ok (.iterator bytes 0)
  | .neg => (cell.asInteger >>= fun x => .ok (-x)).map .integer
  | .abs => (cell.asInteger >>= fun x => .ok (x.natAbs : Int)).map .integer
  | .shiftLeft count =>
    (cell.asInteger >>= fun x => BigInteger.shiftResult x count.toInt).map
      .integer

def Conversion.cost (precision : Nat) (conversion : Conversion) (cell : Cell) :
    Nat :=
  match conversion with
  | .identityToBlob => charge cell.asBytes fun bytes =>
    charge (Identity.decoded bytes) fun payload =>
      (Object.blob payload).fullSize
  | .identityOfBlob => charge cell.asBytes fun bytes =>
    (Object.blob (Identity.encodeBytes bytes)).fullSize
  | .identityOfBase32 => charge cell.asBytes fun bytes =>
    (Identity.reservation bytes).fullSize
  | .blobIterator => charge cell.asBytes fun _ => 4 * wordSize
  | .neg => charge cell.asInteger fun x =>
    allocationSize precision + growth precision (Digits.count (-x).natAbs)
  | .abs => charge cell.asInteger fun x =>
    allocationSize precision + growth precision (Digits.count x.natAbs)
  | .shiftLeft count => charge cell.asInteger fun x =>
    allocationSize precision + BigInteger.shiftCost precision x count.toInt

theorem Conversion.makes (conversion : Conversion) (regular : heap.Regular)
    (denotes : heap.Denotes handle cell) :
    Makes (conversion.perform handle) heap (conversion.result cell)
      (conversion.cost heap.config.precision.toNat cell) := by
  unfold Conversion.result Conversion.cost
  rw [← denotes.blob_eq, ← denotes.integer_eq]
  cases conversion with
  | identityToBlob => exact Identity.makes_toBlob handle regular
  | identityOfBlob => exact Identity.makes_ofBlob handle regular
  | identityOfBase32 => exact Identity.makes_ofBase32 handle regular
  | blobIterator => exact BlobIterator.makes_create handle regular
  | neg => exact BigInteger.makes_unary regular (BigInteger.builds_neg regular)
  | abs => exact BigInteger.makes_unary regular (BigInteger.builds_abs regular)
  | shiftLeft count =>
    exact BigInteger.makes_unary regular
      (BigInteger.builds_shiftLeft count.toInt regular)

/-! ## Data -/

def Query.result (query : Query) (cell : Cell) : Except Error Answer :=
  match query with
  | .blobBytes => cell.asBytes.map .bytes
  | .iteratorIsDone =>
    cell.asIterator.map fun state =>
      .truth (decide (Object.lengthWord state.1.size ≤ state.2.toNat))
  | .toDecimal => cell.asInteger >>= fun x => .ok (.text (Numeral.decimal x))
  | .wrap target => cell.asInteger >>= fun x => .ok (target.wrapped x)
  | .narrow target => cell.asInteger >>= target.narrowed
  | .isNegative => cell.asInteger >>= fun x => .ok (.truth (decide (x < 0)))
  | .bitCount =>
    cell.asInteger >>= fun x => .ok (.count (Positional.bitLength x.natAbs))

theorem Query.perform_eq (query : Query) (regular : heap.Regular)
    (denotes : heap.Denotes handle cell) :
    query.perform handle heap = query.result cell := by
  unfold Query.result
  rw [← denotes.blob_eq, ← denotes.integer_eq, ← denotes.iteration_eq]
  cases query with
  | blobBytes => rfl
  | iteratorIsDone =>
    rw [perform, BlobIterator.isDone_eq]
    cases heap.iteration handle <;> rfl
  | wrap target => exact target.wrap_eq_read regular
  | narrow target => exact target.narrow_eq_read regular
  | toDecimal =>
    refine BigInteger.read_eq regular ?_ fun integer => ?_
    · intro error failed
      rw [perform, BigInteger.toDecimal, failed]
      rfl
    · rw [perform, BigInteger.toDecimal_eq regular integer]
      rfl
  | isNegative =>
    refine BigInteger.read_eq regular ?_ fun integer => ?_
    · intro error failed
      rw [perform, BigInteger.isNegative, failed]
      rfl
    · rw [perform, BigInteger.isNegative_eq regular integer]
      rfl
  | bitCount =>
    refine BigInteger.read_eq regular ?_ fun integer => ?_
    · intro error failed
      rw [perform, BigInteger.bitCount, failed]
      rfl
    · rw [perform, BigInteger.bitCount_eq regular integer]
      rfl

def compared (comparison : BigInteger.Comparison) (left right : Cell) :
    Except Error Answer := do
  let x ← left.asInteger
  let y ← right.asInteger
  return .truth (comparison.holds (Ord.compare x y))

theorem compare_eq_compared
    (comparison : BigInteger.Comparison) (regular : heap.Regular)
    (leftDenotes : heap.Denotes left leftCell)
    (rightDenotes : heap.Denotes right rightCell) :
    (BigInteger.compare comparison left right heap).map .truth =
      compared comparison leftCell rightCell := by
  unfold compared
  rw [BigInteger.compare_eq_read comparison regular, ← leftDenotes.integer_eq,
    ← rightDenotes.integer_eq]
  cases heap.integer left with
  | error error => rfl
  | ok x => cases heap.integer right <;> rfl

/-! ## Requests -/

/-- What a request does to the cells of the root slots. -/
inductive Effect where
  | make (result : Except Error Cell)
  | tell (result : Except Error Answer)
  | advance (iterator : RootSlot) (result : Except Error (UInt8 × Cell))

/-- What a step returns from a cell, and the cell after it. -/
def stepped (cell : Cell) : Except Error (UInt8 × Cell) := do
  let (content, position) ← cell.asIterator
  let byte ← BlobIterator.byteAt content position
  return (byte, .iterator content (position + 1))

theorem stepped_iterator (content : Bytes) (position : UInt32) :
    stepped (.iterator content position) =
      (BlobIterator.byteAt content position).map fun byte =>
        (byte, .iterator content (position + 1)) := by
  show (BlobIterator.byteAt content position >>= _) = _
  cases BlobIterator.byteAt content position <;> rfl

/-- What a request does, when none of its slots is empty. -/
def Request.effect (cells : List Cell) : Request → Option Effect
  | .create source => some (.make source.result)
  | .convert conversion operand =>
    cells[operand]?.map fun cell => .make (conversion.result cell)
  | .combine operation left right =>
    cells[left]?.bind fun leftCell => cells[right]?.map fun rightCell =>
      .make ((operation.outcome leftCell.asInteger rightCell.asInteger).map
        .integer)
  | .read query operand =>
    cells[operand]?.map fun cell => .tell (query.result cell)
  | .compare comparison left right =>
    cells[left]?.bind fun leftCell => cells[right]?.map fun rightCell =>
      .tell (compared comparison leftCell rightCell)
  | .next iterator =>
    cells[iterator]?.map fun cell => .advance iterator (stepped cell)

/-- What a request takes from the heap. -/
def Request.cost (precision : Nat) (cells : List Cell) : Request → Nat
  | .create source => source.cost precision
  | .convert conversion operand =>
    cells[operand]?.elim 0 (conversion.cost precision)
  | .combine operation left right =>
    cells[left]?.elim 0 fun leftCell => cells[right]?.elim 0 fun rightCell =>
      operation.charged precision leftCell.asInteger rightCell.asInteger
  | .read .. => 0
  | .compare .. => 0
  | .next _ => 0

/-- What is seen of an effect, and the cells after it. -/
def Effect.apply (cells : List Cell) : Effect → Observation × List Cell
  | .make (.ok cell) => (.answered (.slot cells.length), cells ++ [cell])
  | .tell (.ok answer) => (.answered answer, cells)
  | .advance iterator (.ok (byte, cell)) =>
    (.answered (.byte byte), cells.set iterator cell)
  | .make (.error error) => (.failed error, cells)
  | .tell (.error error) => (.failed error, cells)
  | .advance _ (.error error) => (.failed error, cells)

/-- What is seen of a request, and the cells after it. -/
def Request.interpret (request : Request) (cells : List Cell) :
    Observation × List Cell :=
  match request.effect cells with
  | none => (.emptySlot, cells)
  | some effect => effect.apply cells

def interpretations : List Request → List Cell → List Observation
  | [], _ => []
  | request :: rest, cells =>
    let (observation, after) := request.interpret cells
    observation :: interpretations rest after

end ManagedHeap.Program
