import ManagedHeap.Proofs.Bignum.Composition
import ManagedHeap.Proofs.Host.Soundness

/-!
# What calls are made of

Apart from a few calls that change objects or roots in place, all of them read
the heap, ask for space and fill what they were given (`HeapM.Composed`).
Nothing here depends on what the heap holds.
-/

namespace ManagedHeap

/-! ## Composed operations -/

/-- Operations on the heap that only read and ask for space, one after the
other. A new big integer and a new grouped text are also written to. -/
inductive HeapM.Composed : {α : Type} → HeapM α → Prop where
  | pure {α : Type} (value : α) : Composed (Pure.pure value)
  | throw {α : Type} (error : Error) : Composed (throw error : HeapM α)
  | bind {α β : Type} {operation : HeapM α} {next : α → HeapM β}
      (first : Composed operation) (rest : ∀ value, Composed (next value)) :
      Composed (operation >>= next)
  | get : Composed (MonadState.get : HeapM Heap)
  | inspect {α : Type} (reader : Heap → Except Error α) :
      Composed (inspect reader)
  | request {α : Type} {operation : HeapM α} {object : Object}
      {answers : Heap → Handle → α → Prop}
      (adds : ∀ heap, Heap.Adds operation heap object (answers heap)) :
      Composed operation
  | realloc (pointer : PayloadPointer) (oldSize newSize : Nat) :
      Composed (Heap.realloc pointer oldSize newSize)
  | grouped (text : Handle) : Composed (Identity.ofBase32 text)
  | build {operation : DigitM Unit} (composed : operation.Composed) :
      Composed (BigInteger.build operation)

theorem HeapM.Composed.map {α β : Type} {operation : HeapM α}
    (composed : operation.Composed) (change : α → β) :
    HeapM.Composed (change <$> operation) := by
  rw [← bind_pure_comp]
  exact .bind composed fun _ => .pure _

open HeapM (Composed)

namespace Heap

theorem composed_alloc (object : Object) : Composed (alloc object) :=
  .request fun heap => adds_alloc heap object

theorem composed_allocBlob (length : Nat) : Composed (allocBlob length) :=
  .request fun heap => (allots_allocBlob heap length).adds

theorem composed_allocBlobFrom (bytes : Bytes) :
    Composed (allocBlobFrom bytes) :=
  .request fun heap => (allots_allocBlobFrom heap bytes).adds

private theorem composed_calloc (count elementSize : Nat) :
    Composed (calloc count elementSize) :=
  .request fun heap => (allots_calloc heap count elementSize).adds

end Heap

/-! ## Big integers -/

namespace BigInteger

/-- A bit pattern, and a power of two subtracted from it when the number is
negative. -/
theorem composed_signed {condition : Prop} [Decidable condition]
    {pattern : DigitM Unit} (bits : Nat) (composed : pattern.Composed) :
    Composed (build do
      pattern
      if condition then
        subtractPowerOfTwo bits) := by
  refine .build (.bind composed fun _ => ?_)
  split
  · exact composed_subtractPowerOfTwo bits
  · exact .pure _

private theorem composed_unary {operation : Bignum → DigitM Unit}
    (composed : ∀ number, (operation number).Composed) (operand : Handle) :
    Composed (unary operation operand) :=
  .bind (.inspect _) fun number => .build (composed number)

private theorem composed_binary {operation : Bignum → Bignum → DigitM Unit}
    (composed : ∀ left right, (operation left right).Composed)
    (left right : Handle) :
    Composed (binary operation left right) :=
  .bind (.inspect _) fun leftNumber => .bind (.inspect _) fun rightNumber =>
    .build (composed leftNumber rightNumber)

theorem composed_perform (operation : BinaryOperation) (left right : Handle) :
    Composed (operation.perform left right) := by
  cases operation with
  | add => exact composed_binary Bignum.composed_add left right
  | sub => exact composed_binary Bignum.composed_sub left right
  | mul => exact composed_binary Bignum.composed_mul left right
  | div => exact composed_binary Bignum.composed_quotient left right
  | rem => exact composed_binary Bignum.composed_remainder left right
  | pow =>
    exact .bind (.inspect _) fun count =>
      composed_unary (fun number => number.composed_pow count.toNat) left

end BigInteger

theorem Identity.composed_toBlob (text : Handle) : Composed (toBlob text) := by
  refine .bind (.inspect _) fun bytes => ?_
  cases decodeBytes bytes with
  | ok payload => exact Heap.composed_allocBlobFrom payload
  | error fault => exact .throw _

/-! ## Calls -/

namespace Call

theorem composed_perform {call : Call} (adds : ¬call.ChangesInPlace) :
    Composed call.perform := by
  cases call with
  | identityToBlob text => exact (Identity.composed_toBlob text).map _
  | identityOfBlob payload =>
    have encoded : Composed (Identity.ofBlob payload) :=
      .bind (.inspect _) fun _ => Heap.composed_allocBlobFrom _
    exact encoded.map _
  | identityOfBase32 text => exact (Composed.grouped text).map _
  | textOfString text => exact (Heap.composed_allocBlobFrom _).map _
  | version => exact (Heap.composed_allocBlobFrom _).map _
  | blobBytes blob => exact (Composed.inspect _).map _
  | blobIterator blob =>
    have created : Composed (BlobIterator.create blob) :=
      .bind (.inspect _) fun _ => Heap.composed_alloc _
    exact created.map _
  | iteratorIsDone iterator => exact (Composed.inspect _).map _
  | ofUInt32 value => exact (Composed.build (.store _ _)).map _
  | ofInt32 value =>
    exact (BigInteger.composed_signed 32 (.store _ _)).map _
  | ofUInt64 value => exact (Composed.build (.store _ _)).map _
  | ofInt64 value =>
    exact (BigInteger.composed_signed 64 (.store _ _)).map _
  | ofDecimal text =>
    exact (Composed.build (Bignum.composed_readNumeral 10 text)).map _
  | toDecimal operand => exact (Composed.inspect _).map _
  | wrap target operand => exact .inspect _
  | narrow target operand => exact .inspect _
  | compare comparison left right => exact (Composed.inspect _).map _
  | binary operation left right =>
    exact (BigInteger.composed_perform operation left right).map _
  | neg operand =>
    exact (BigInteger.composed_unary Bignum.composed_neg operand).map _
  | abs operand =>
    exact (BigInteger.composed_unary Bignum.composed_abs operand).map _
  | shiftLeft operand count =>
    exact (BigInteger.composed_unary
      (fun number => number.composed_shiftLeft count.toInt) operand).map _
  | isNegative operand => exact (Composed.inspect _).map _
  | bitCount operand => exact (Composed.inspect _).map _
  | calloc count elementSize =>
    exact (Heap.composed_calloc count elementSize).map _
  | realloc address oldSize newSize =>
    have moved : Composed (reallocAt address oldSize newSize) :=
      .bind (.inspect _) fun pointer => .bind (.realloc pointer _ _) fun _ =>
        .pure _
    exact moved.map _
  | free address size =>
    have freed : Composed (freeAt address size) :=
      .bind (.inspect _) fun _ => .pure ()
    exact freed.map _
  | root slot => exact Composed.get.map _
  | iteratorNext iterator => exact absurd trivial adds
  | addRoot handle => exact absurd trivial adds
  | removeRoot slot => exact absurd trivial adds
  | collect => exact absurd trivial adds
  | scheduleCollect => exact absurd trivial adds

end Call

end ManagedHeap
