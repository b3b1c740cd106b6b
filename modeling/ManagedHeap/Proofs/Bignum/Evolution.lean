import ManagedHeap.Proofs.Bignum.Composition
import ManagedHeap.Proofs.Bignum.Storage
import ManagedHeap.Proofs.Heap.Evolution

/-!
# Bignum operations and the heap

Whatever an operation on bignums reads, its target included, it only asks for
buffers and writes inside them. The control structures may hold anything: no
capacity, use or storage is taken to agree with the heap.
-/

namespace ManagedHeap

open Heap
open Object (YieldsTo)

/-! ## Workspaces -/

namespace DigitM

variable {α : Type} {operation : HeapM α}

private theorem evolving_onHeap (evolving : Evolving YieldsTo id operation) :
    Evolving YieldsTo Workspace.heap (onHeap operation) := by
  intro workspace
  rw [ensures_onHeap]
  exact evolving workspace.heap

theorem evolving_inspect (reader : Heap → Except Error α) :
    Evolving YieldsTo Workspace.heap (inspect reader) :=
  evolving_onHeap (Heap.evolving_inspect reader)

private theorem evolving_setTarget (target : Bignum) :
    Evolving YieldsTo Workspace.heap (setTarget target) :=
  fun _ => .refl

theorem evolving_build {operation : DigitM Unit} (start : Bignum)
    (evolving : Evolving YieldsTo Workspace.heap operation) :
    Evolving YieldsTo id (build start operation) := by
  intro heap
  rw [ensures_build]
  exact evolving ⟨heap, start⟩

end DigitM

namespace Bignum

/-! ## Room and digits -/

theorem evolving_zero (precision : Nat) :
    Evolving YieldsTo id (zero precision) :=
  (evolving_calloc precision digitBytes).bind fun _ => evolving_pure _

private theorem evolving_allocateDigits (number : Bignum) (count : Nat) :
    Evolving YieldsTo id (number.allocateDigits count) := by
  unfold allocateDigits
  cases number.storage with
  | none => exact evolving_calloc count digitBytes
  | some start => exact evolving_realloc start _ _

private theorem evolving_grow (count : Nat) :
    Evolving YieldsTo Workspace.heap (grow count) := by
  refine evolving_get.bind fun workspace => .ite ?_ (evolving_pure _)
  have allocated := workspace.target.evolving_allocateDigits count
  exact (DigitM.evolving_onHeap allocated).bind fun _ =>
    DigitM.evolving_setTarget _

private theorem evolving_writeMagnitude
    (number : Bignum) (span magnitude : Nat) :
    Evolving YieldsTo id (number.writeMagnitude span magnitude) :=
  (evolving_inspect _).bind fun start => evolving_writePayload start _

private theorem evolving_reserve (count : Nat) :
    Evolving YieldsTo Workspace.heap (reserve count) := by
  refine (evolving_grow count).bind fun _ => ?_
  refine evolving_get.bind fun workspace => .ite ?_ (evolving_pure _)
  exact (DigitM.evolving_inspect _).bind fun _ => evolving_pure _

private theorem evolving_store (sign : Sign) (magnitude : Nat) :
    Evolving YieldsTo Workspace.heap (store sign magnitude) := by
  refine (evolving_grow _).bind fun _ => ?_
  refine evolving_get.bind fun workspace => .ite ?_ ?_
  · have written := workspace.target.evolving_writeMagnitude
      (workspace.target.writtenSpan (Digits.count magnitude)) magnitude
    exact (DigitM.evolving_onHeap written).bind fun _ =>
      DigitM.evolving_setTarget _
  · exact DigitM.evolving_setTarget _

end Bignum

/-! ## Composed operations -/

theorem DigitM.Composed.evolving {α : Type} {operation : DigitM α}
    (composed : operation.Composed) :
    Evolving YieldsTo Workspace.heap operation := by
  induction composed with
  | pure value => exact evolving_pure value
  | throw error => exact evolving_throw error
  | bind _ _ first rest => exact first.bind rest
  | get => exact evolving_get
  | inspect reader => exact evolving_inspect reader
  | grow count => exact Bignum.evolving_grow count
  | reserve count => exact Bignum.evolving_reserve count
  | store sign magnitude => exact Bignum.evolving_store sign magnitude
  | aside precision _ evolving =>
    refine (evolving_onHeap (Bignum.evolving_zero precision)).bind ?_
    exact fun start => evolving_onHeap (evolving_build start evolving)

end ManagedHeap
