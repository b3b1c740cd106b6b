import ManagedHeap.Proofs.Bignum.Sparing
import ManagedHeap.Proofs.Host.Composition

/-!
# Calls and older objects

Apart from those that change objects or roots in place, calls leave every older
object and all roots as they were, answered or failed
(`HeapM.Composed.spared`). Nothing is taken to be sound: operands may dangle,
and bignums may share their storage with each other.
-/

namespace ManagedHeap

open Heap

variable {frontier : Nat} {heap : Heap}

/-! ## Big integers -/

namespace BigInteger

/-- A new big integer stands above the frontier, and so does its storage. -/
theorem spared_allocate (passed : frontier ≤ heap.pointer) :
    Spared frontier id allocate heap fun handle after =>
      frontier ≤ handle.address ∧ ∀ number, after.bignum handle = .ok number →
        number.StandsAbove frontier := by
  refine ((adds_alloc heap (.bigInteger .empty)).spared passed).bind ?_
  rintro handle middle middlePassed ⟨_, _, atPointer, rfl⟩
  have fresh : frontier ≤ handle.address := atPointer ▸ passed
  have read : Spared frontier id (get : HeapM Heap) middle fun _ _ => True :=
    ⟨.refl middlePassed, trivial⟩
  refine read.bind fun state _ statePassed _ => ?_
  refine (Bignum.spared_zero statePassed _).bind ?_
  intro number _ numberPassed above
  refine (spared_setBignum numberPassed fresh number).bind ?_
  intro _ _ afterPassed stored
  refine spared_pure afterPassed ⟨fresh, fun other isOther => ?_⟩
  obtain rfl := Except.ok.inj (stored.symm.trans isOther)
  exact above

theorem spared_build {operation : DigitM Unit}
    (composed : operation.Composed) (passed : frontier ≤ heap.pointer) :
    Spared frontier id (build operation) heap fun _ _ => True := by
  refine (spared_allocate passed).bind ?_
  rintro handle middle middlePassed ⟨fresh, above⟩
  refine .after_read middlePassed fun start read => ?_
  refine (DigitM.spared_build middlePassed (above start read)
    composed.guarded).bind fun number _ numberPassed _ => ?_
  refine (spared_setBignum numberPassed fresh number).bind ?_
  exact fun _ _ afterPassed _ => spared_pure afterPassed trivial

end BigInteger

/-! ## Grouped text -/

theorem Identity.spared_ofBase32 (text : Handle)
    (passed : frontier ≤ heap.pointer) :
    Spared frontier id (ofBase32 text) heap fun _ _ => True := by
  refine .after_read passed fun bytes _ => ?_
  refine ((allots_allocBlob heap _).adds.spared passed).bind ?_
  rintro result middle middlePassed ⟨_, _, atPointer, rfl⟩
  have fresh : frontier ≤ result.address := atPointer ▸ passed
  refine (spared_writePayload middlePassed fresh _).bind ?_
  intro _ _ writtenPassed _
  refine (spared_truncateBlob writtenPassed fresh _).bind ?_
  exact fun _ _ afterPassed _ => spared_pure afterPassed trivial

/-! ## Composed operations -/

theorem HeapM.Composed.spared {α : Type} {operation : HeapM α}
    (composed : operation.Composed) (passed : frontier ≤ heap.pointer) :
    Spared frontier id operation heap fun _ _ => True := by
  induction composed generalizing heap with
  | pure value => exact spared_pure passed trivial
  | throw error => exact spared_throw passed
  | bind _ _ first rest =>
    refine (first passed).bind fun value _ laterPassed _ => ?_
    exact rest value laterPassed
  | get => exact ⟨.refl passed, trivial⟩
  | inspect reader =>
    exact (spared_inspect passed reader).mono fun _ _ _ => trivial
  | request adds =>
    exact ((adds heap).spared passed).mono fun _ _ _ => trivial
  | realloc pointer oldSize newSize =>
    exact (spared_realloc passed pointer oldSize newSize).mono
      fun _ _ _ => trivial
  | grouped text => exact Identity.spared_ofBase32 text passed
  | build composed => exact BigInteger.spared_build composed passed

end ManagedHeap
