import ManagedHeap.Host.Run
import ManagedHeap.Proofs.BigInteger.Cells
import ManagedHeap.Proofs.BlobIterator
import ManagedHeap.Proofs.Heap.Roots
import ManagedHeap.Proofs.Identity.Buffers

/-!
# Sound sessions

Calls keep the heap of a session regular, answered or trapped and whatever
their arguments are, if only existing objects become roots. So every reached
heap passes the check, and its collections succeed.
-/

namespace ManagedHeap

open Heap
    (OnlyAdds onlyAdds_inspect onlyAdds_read onlyAdds_pure onlyAdds_realloc)

variable {heap : Heap}

/-! ## One call -/

namespace Call

/-- A call that may do more to the heap than to add objects. -/
def ChangesInPlace : Call → Prop
  | .iteratorNext _ => True
  | .addRoot _ => True
  | .removeRoot _ => True
  | .collect => True
  | .scheduleCollect => True
  | _ => False

private theorem onlyAdds_reallocAt
    (regular : heap.Regular) (address oldSize newSize : Nat) :
    OnlyAdds (reallocAt address oldSize newSize) heap :=
  onlyAdds_read regular fun pointer _ =>
    (onlyAdds_realloc regular pointer oldSize newSize).map
      PayloadPointer.address

private theorem onlyAdds_freeAt (regular : heap.Regular) (address size : Nat) :
    OnlyAdds (freeAt address size) heap :=
  onlyAdds_read regular fun _ _ => onlyAdds_pure regular ()

/-- All other calls only add objects. -/
theorem onlyAdds_perform
    (call : Call) (regular : heap.Regular) (adds : ¬call.ChangesInPlace) :
    OnlyAdds call.perform heap := by
  cases call with
  | identityToBlob text =>
    exact (Identity.makes_toBlob text regular).onlyAdds.map _
  | identityOfBlob payload =>
    exact (Identity.makes_ofBlob payload regular).onlyAdds.map _
  | identityOfBase32 text =>
    exact (Identity.makes_ofBase32 text regular).onlyAdds.map _
  | textOfString text =>
    exact (Heap.makes_allocBlobFrom regular _).onlyAdds.map _
  | version => exact (Heap.makes_allocBlobFrom regular _).onlyAdds.map _
  | blobBytes blob => exact (onlyAdds_inspect regular _).map _
  | blobIterator blob =>
    exact (BlobIterator.makes_create blob regular).onlyAdds.map _
  | iteratorIsDone iterator => exact (onlyAdds_inspect regular _).map _
  | ofUInt32 value =>
    exact (BigInteger.builds_ofUInt32 value regular).makes.onlyAdds.map _
  | ofInt32 value =>
    exact (BigInteger.builds_ofInt32 value regular).makes.onlyAdds.map _
  | ofUInt64 value =>
    exact (BigInteger.builds_ofUInt64 value regular).makes.onlyAdds.map _
  | ofInt64 value =>
    exact (BigInteger.builds_ofInt64 value regular).makes.onlyAdds.map _
  | ofDecimal text =>
    exact (BigInteger.builds_ofDecimal text regular).makes.onlyAdds.map _
  | toDecimal operand => exact (onlyAdds_inspect regular _).map _
  | wrap target operand => exact onlyAdds_inspect regular _
  | narrow target operand => exact onlyAdds_inspect regular _
  | compare comparison left right => exact (onlyAdds_inspect regular _).map _
  | binary operation left right =>
    exact (BigInteger.makes_perform operation regular).onlyAdds.map _
  | neg operand =>
    exact
      (BigInteger.makes_unary regular
      (BigInteger.builds_neg regular)).onlyAdds.map _
  | abs operand =>
    exact
      (BigInteger.makes_unary regular
      (BigInteger.builds_abs regular)).onlyAdds.map _
  | shiftLeft operand count =>
    exact (BigInteger.makes_unary regular
      (BigInteger.builds_shiftLeft count.toInt regular)).onlyAdds.map _
  | isNegative operand => exact (onlyAdds_inspect regular _).map _
  | bitCount operand => exact (onlyAdds_inspect regular _).map _
  | calloc count elementSize =>
    exact ((Heap.allots_calloc heap count elementSize).onlyAdds_blob
      regular).map _
  | realloc address oldSize newSize =>
    exact (onlyAdds_reallocAt regular address oldSize newSize).map _
  | free address size => exact (onlyAdds_freeAt regular address size).map _
  | root slot => exact ⟨regular, .refl _ _⟩
  | iteratorNext iterator => exact absurd trivial adds
  | addRoot handle => exact absurd trivial adds
  | removeRoot slot => exact absurd trivial adds
  | collect => exact absurd trivial adds
  | scheduleCollect => exact absurd trivial adds

/-- Answered or failed, a call leaves a regular heap. -/
theorem ensures_perform
    (call : Call) (regular : heap.Regular) (admissible : call.Admissible heap) :
    Ensures call.perform heap (fun _ after => after.Regular) fun _ after =>
      after.Regular := by
  by_cases inPlace : call.ChangesInPlace
  · cases call with
    | iteratorNext iterator =>
      refine ensures_map.mpr
        ((BlobIterator.ensures_next iterator regular).mono ?_ ?_)
      · exact fun _ _ regularAfter => regularAfter
      · rintro _ _ rfl
        exact regular
    | addRoot handle => exact regular.addRoot admissible
    | removeRoot slot => exact regular.removeRoot slot
    | collect =>
      obtain ⟨stats, after, outcome, collects⟩ := regular.collect_eq
      exact ensures_map.mpr (Ensures.intro outcome (collects.regular regular))
    | scheduleCollect =>
      obtain ⟨stats, after, outcome, unchanged | collects⟩ :=
        regular.scheduleCollect_eq
      · exact ensures_map.mpr (Ensures.intro outcome (unchanged ▸ regular))
      · exact ensures_map.mpr (Ensures.intro outcome (collects.regular regular))
    | _ => exact inPlace.elim
  · have onlyAdds := call.onlyAdds_perform regular inPlace
    exact onlyAdds.mono (fun _ _ added => added.1) fun _ _ added => added.1

theorem regular_heapAfter (call : Call) (regular : heap.Regular)
    (admissible : call.Admissible heap) : (call.heapAfter heap).Regular := by
  have ensured := call.ensures_perform regular admissible
  cases outcome : call.perform heap with
  | ok answer after =>
    rw [heapAfter, outcome]
    exact ensured.of_ok outcome
  | error error after =>
    rw [heapAfter, outcome]
    exact ensured.of_error outcome

end Call

/-! ## Sessions -/

namespace Session

variable {config : Config} {host : Host} {session : Session}

/-- The heap of a reached session is regular. -/
theorem Reached.regular (reached : Reached config host session) :
    session.heap.Regular := by
  induction reached with
  | start => exact Heap.regular_empty config
  | invoke _ call admissible inductionHypothesis =>
    rw [heap_invoke]
    exact call.regular_heapAfter inductionHypothesis admissible

/-- Every heap that calls lead to passes the check, and neither kind of
collection traps on it. -/
theorem reached_passes_check (reached : Reached config host session) :
    session.heap.check = .ok () ∧
      (∃ stats, (session.invoke .collect).1 = .returned (.stats stats)) ∧
        ∃ stats, (session.invoke .scheduleCollect).1 =
          .returned (.scheduled stats) := by
  have regular := reached.regular
  refine ⟨regular.check_eq_ok, ?_, ?_⟩
  · obtain ⟨stats, after, outcome, _⟩ := regular.collect_eq
    refine ⟨stats, ?_⟩
    simp [invoke, Call.perform, Functor.map, EStateM.map, outcome,
      Call.asksEmptySlot]
  · obtain ⟨stats, after, outcome, _⟩ := regular.scheduleCollect_eq
    refine ⟨stats, ?_⟩
    simp [invoke, Call.perform, Functor.map, EStateM.map, outcome,
      Call.asksEmptySlot]

/-- A session in which a division by zero has trapped after its result was
allocated, with the dividend as only root. -/
def trappedDivision : Session :=
  let zero := ((start {} .plain).invoke (.ofUInt32 0)).2
  let seven := (zero.invoke (.ofInt32 (-7))).2
  let rooted := (seven.invoke (.addRoot (Handle.ofAddress 0x1002c))).2
  (rooted.invoke (.binary .div (Handle.ofAddress 0x1002c)
  (Handle.ofAddress 0x10000))).2

theorem reached_trappedDivision : Reached {} .plain trappedDivision :=
  have held :
      (((start {} .plain).invoke (.ofUInt32 0)).2.invoke
      (.ofInt32 (-7))).2.heap.Holds
      (Handle.ofAddress 0x1002c) :=
    Option.isSome_iff_exists.mp (by decide +kernel)
  .invoke
    (.invoke (.invoke (.invoke .start (.ofUInt32 0) trivial) (.ofInt32 (-7))
      trivial)
    (.addRoot (Handle.ofAddress 0x1002c)) held)
    (.binary .div (Handle.ofAddress 0x1002c) (Handle.ofAddress 0x10000)) trivial

theorem trappedDivision_passes_check :
    Reached {} .plain trappedDivision ∧ trappedDivision.heap.check = .ok () ∧
      (∃ stats,
        (trappedDivision.invoke .collect).1 = .returned (.stats stats)) ∧
        ∃ stats, (trappedDivision.invoke .scheduleCollect).1 =
          .returned (.scheduled stats) :=
  ⟨reached_trappedDivision, reached_passes_check reached_trappedDivision⟩

end Session

end ManagedHeap
