import ManagedHeap.Host.Run
import ManagedHeap.Proofs.BlobIterator
import ManagedHeap.Proofs.Bignum.Evolution
import ManagedHeap.Proofs.Host.Composition
import ManagedHeap.Proofs.Host.Isolation
import ManagedHeap.Proofs.Identity.Buffers

/-!
# What calls do to any heap

A call that runs no collection lets the heap evolve, whatever the heap holds
and whatever the arguments are: handles may dangle, bignums may claim digits
that are not theirs, and the call may fail anywhere (`evolves_heapAfter`).
-/

namespace ManagedHeap

open Heap
open Object (YieldsTo)

/-! ## Big integers -/

namespace BigInteger

private theorem evolving_allocate : Evolving YieldsTo id allocate := by
  have read : Evolving YieldsTo id (get : HeapM Heap) := evolving_get
  refine (evolving_alloc _).bind fun handle => ?_
  refine read.bind fun heap => ?_
  refine (Bignum.evolving_zero _).bind fun number => ?_
  exact (evolving_setBignum handle number).bind fun _ => evolving_pure handle

theorem evolving_build {operation : DigitM Unit}
    (evolving : Evolving YieldsTo Workspace.heap operation) :
    Evolving YieldsTo id (build operation) := by
  refine evolving_allocate.bind fun handle => ?_
  refine (evolving_inspect _).bind fun start => ?_
  refine (DigitM.evolving_build start evolving).bind fun number => ?_
  exact (evolving_setBignum handle number).bind fun _ => evolving_pure handle

end BigInteger

/-! ## Identity text and iterators -/

namespace Identity

/-- Grouping leaves no text without characters. -/
theorem size_groupBytes_pos {text : Bytes} (filled : 0 < text.size) :
    0 < (groupBytes text).size := by
  rw [← Bytes.length_toList, toList_groupBytes, group,
    length_groupFrom _ (Nat.zero_le _), Bytes.length_toList]
  exact Nat.lt_of_lt_of_le filled (Nat.le_add_right ..)

private theorem yieldsTo_grouped {text : Bytes}
    (short : groupedCapacity text.size ≤ maxAddress) :
    YieldsTo (reservation text) (.blob (groupBytes text)) := by
  have length := reservedLength_of_le short
  refine Object.yieldsTo_blob ?_ ?_
  · rw [Bytes.size_zeros, length]
    exact Object.lengthWord_mono (size_groupBytes_le text) short
  · intro noText
    have unfilled : text.size = 0 := by
      by_contra filled
      have grouped := size_groupBytes_pos (Nat.pos_of_ne_zero filled)
      omega
    rw [Bytes.size_zeros, length, unfilled]
    rfl

private theorem evolving_ofBase32 (text : Handle) :
    Evolving YieldsTo id (ofBase32 text) := by
  intro heap
  rw [ofBase32, ensures_bind, ensures_inspect]
  refine ⟨fun bytes read => ?_, fun _ _ => .refl⟩
  have grouped := ensures_ofBase32 (blob_eq_ok_iff.mp read)
  rw [ofBase32, ensures_bind, ensures_inspect] at grouped
  refine (grouped.1 bytes read).mono ?_ ?_
  · intro handle after cut
    obtain ⟨short, fits, atPointer, rfl⟩ := cut
    have reserved := find?_push_self heap (reservation bytes)
    rw [← atPointer] at reserved
    exact .place (.push .refl fits.hasRoom) reserved (yieldsTo_grouped short)
  · intro error after failed
    rcases failed with ⟨_, rfl, _⟩ | ⟨_, fits, rfl, _⟩
    · exact .refl
    · exact .push .refl fits.hasRoom

end Identity

namespace BlobIterator

private theorem evolving_next (iterator : Handle) :
    Evolving YieldsTo id (next iterator) := by
  intro heap
  rw [next, ensures_bind, ensures_inspect]
  refine ⟨fun read current => ?_, fun _ _ => .refl⟩
  obtain ⟨buffer, position, array, advanced⟩ :=
    exists_of_current_eq_ok current
  have sameLength : YieldsTo (object buffer position)
      (object buffer (position + 1)) := Object.yieldsTo_array rfl
  rw [← advanced] at sameLength
  exact .place .refl array sameLength

end BlobIterator

/-! ## Calls -/

theorem HeapM.Composed.evolving {α : Type} {operation : HeapM α}
    (composed : operation.Composed) : Evolving YieldsTo id operation := by
  induction composed with
  | pure value => exact evolving_pure value
  | throw error => exact evolving_throw error
  | bind _ _ first rest => exact first.bind rest
  | get => exact evolving_get
  | inspect reader => exact evolving_inspect reader
  | request adds => exact evolving_of_adds adds
  | realloc pointer oldSize newSize =>
    exact evolving_realloc pointer oldSize newSize
  | grouped text => exact Identity.evolving_ofBase32 text
  | build composed => exact BigInteger.evolving_build composed.evolving

namespace Call

/-- Calls that never collect. -/
theorem evolving_perform {call : Call} (notForced : call ≠ .collect)
    (notScheduled : call ≠ .scheduleCollect) :
    Evolving YieldsTo id call.perform := by
  by_cases inPlace : call.ChangesInPlace
  · cases call with
    | iteratorNext iterator => exact (BlobIterator.evolving_next iterator).map _
    | addRoot handle => exact (evolving_addRoot handle).map _
    | removeRoot slot => exact (evolving_removeRoot slot).map _
    | collect => exact absurd rfl notForced
    | scheduleCollect => exact absurd rfl notScheduled
    | _ => exact inPlace.elim
  · exact (composed_perform inPlace).evolving

/-- A call that runs no collection, answered or failed. -/
theorem evolves_heapAfter {call : Call} {heap : Heap}
    (stays : call.collects heap = false) :
    Evolves YieldsTo heap (call.heapAfter heap) := by
  by_cases scheduled : call = .scheduleCollect
  · subst scheduled
    rw [heapAfter_scheduleCollect stays]
    exact .refl
  · have notForced : call ≠ .collect := by
      intro forced
      subst forced
      cases stays
    exact heapAfter_of_ensures (evolving_perform notForced scheduled heap)

end Call

end ManagedHeap
