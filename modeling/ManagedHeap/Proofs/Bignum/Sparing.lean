import ManagedHeap.Proofs.Bignum.Composition
import ManagedHeap.Proofs.Bignum.Storage
import ManagedHeap.Proofs.Heap.Sparing

/-!
# Bignum operations and older objects

An operation on bignums writes to the storage of its target and to nothing
else, so it spares all older objects when the target stands above the frontier
(`Guarded`). Its operands may stand anywhere and hold anything.
-/

namespace ManagedHeap

open Heap

/-! ## Targets above the frontier -/

/-- The digits of a bignum, if it has any, stand above the frontier. -/
def Bignum.StandsAbove (number : Bignum) (frontier : Nat) : Prop :=
  ∀ start, number.storage = some start → frontier ≤ start.buffer.address

theorem Bignum.standsAbove_of_storage {number : Bignum} {frontier : Nat}
    {start : PayloadPointer} (stored : number.storage = some start)
    (above : frontier ≤ start.buffer.address) :
    number.StandsAbove frontier := by
  intro other isOther
  obtain rfl := Option.some.inj (stored.symm.trans isOther)
  exact above

namespace DigitM

variable {frontier : Nat} {α β : Type} {operation : DigitM α}

/-- An operation that spares older objects for every target above the
frontier, and leaves such a target. -/
def Guarded (frontier : Nat) (operation : DigitM α) : Prop :=
  ∀ workspace, frontier ≤ workspace.heap.pointer →
    workspace.target.StandsAbove frontier →
    Spared frontier Workspace.heap operation workspace fun _ after =>
      after.target.StandsAbove frontier

theorem Guarded.bind {next : α → DigitM β} (first : Guarded frontier operation)
    (rest : ∀ value, Guarded frontier (next value)) :
    Guarded frontier (operation >>= next) := by
  intro workspace passed above
  exact (first workspace passed above).bind rest

private theorem guarded_pure (value : α) : Guarded frontier (pure value) :=
  fun _ passed above => spared_pure passed above

private theorem guarded_setTarget {target : Bignum}
    (above : target.StandsAbove frontier) :
    Guarded frontier (setTarget target) :=
  fun _ passed _ => ⟨.refl passed, above⟩

/-- A heap operation leaves the target as it is. -/
theorem spared_onHeap {operation : HeapM α} {workspace : Workspace}
    {returns : α → Heap → Prop}
    (spared : Spared frontier id operation workspace.heap returns) :
    Spared frontier Workspace.heap (onHeap operation) workspace
      fun value after =>
        after.target = workspace.target ∧ returns value after.heap := by
  unfold Spared
  rw [ensures_onHeap]
  refine Ensures.mono spared ?_ fun _ _ failed => failed
  exact fun _ _ returned => ⟨returned.1, rfl, returned.2⟩

private theorem guarded_onHeap {operation : HeapM α}
    (spared : ∀ heap, frontier ≤ heap.pointer →
      Spared frontier id operation heap fun _ _ => True) :
    Guarded frontier (onHeap operation) := by
  intro workspace passed above
  refine (spared_onHeap (spared workspace.heap passed)).mono ?_
  intro _ after returned
  rw [returned.1]
  exact above

private theorem guarded_inspect (reader : Heap → Except Error α) :
    Guarded frontier (inspect reader) :=
  guarded_onHeap fun _ passed =>
    (spared_inspect passed reader).mono fun _ _ _ => trivial

/-- What depends on the target may use that it stands above the frontier. -/
theorem guarded_get {next : Workspace → DigitM α}
    (rest : ∀ workspace, workspace.target.StandsAbove frontier →
      Guarded frontier (next workspace)) :
    Guarded frontier (get >>= next) := by
  intro workspace passed above
  exact rest workspace above workspace passed above

theorem spared_build {operation : DigitM Unit} {heap : Heap} {start : Bignum}
    (passed : frontier ≤ heap.pointer) (above : start.StandsAbove frontier)
    (guarded : Guarded frontier operation) :
    Spared frontier id (build start operation) heap fun number _ =>
      number.StandsAbove frontier := by
  unfold Spared
  rw [ensures_build]
  exact guarded ⟨heap, start⟩ passed above

end DigitM

open DigitM (Guarded)

namespace Bignum

variable {frontier : Nat} {heap : Heap}

/-! ## Room -/

theorem spared_zero (passed : frontier ≤ heap.pointer) (precision : Nat) :
    Spared frontier id (zero precision) heap fun number _ =>
      number.StandsAbove frontier := by
  refine ((allots_zero heap precision).adds.spared passed).mono ?_
  rintro number _ ⟨_, buffer, atPointer, rfl⟩
  exact standsAbove_of_storage rfl (atPointer ▸ passed)

private theorem spared_allocateDigits {number : Bignum}
    (passed : frontier ≤ heap.pointer) (above : number.StandsAbove frontier)
    (count : Nat) :
    Spared frontier id (number.allocateDigits count) heap fun start _ =>
      frontier ≤ start.buffer.address := by
  unfold allocateDigits
  cases stored : number.storage with
  | some start =>
    refine (spared_realloc passed start _ _).mono fun later _ replaced => ?_
    rcases replaced with rfl | fresh
    · exact above _ stored
    · exact fresh
  | none =>
    refine ((allots_calloc heap count digitBytes).adds.spared passed).mono ?_
    rintro _ _ ⟨_, buffer, atPointer, rfl⟩
    exact atPointer ▸ passed

private theorem guarded_grow (count : Nat) : Guarded frontier (grow count) := by
  refine DigitM.guarded_get fun workspace above => ?_
  dsimp only
  split
  · intro current passed currentAbove
    refine (DigitM.spared_onHeap
      (spared_allocateDigits passed above count)).bind ?_
    rintro start middle middlePassed ⟨kept, fresh⟩
    refine DigitM.guarded_setTarget (standsAbove_of_storage rfl fresh) middle
      middlePassed ?_
    rwa [kept]
  · exact DigitM.guarded_pure _

private theorem guarded_reserve (count : Nat) :
    Guarded frontier (reserve count) := by
  refine (guarded_grow count).bind fun _ => ?_
  refine DigitM.guarded_get fun workspace _ => ?_
  dsimp only
  split
  · exact (DigitM.guarded_inspect _).bind fun _ => DigitM.guarded_pure _
  · exact DigitM.guarded_pure _

/-! ## Digits -/

private theorem spared_writeMagnitude {number : Bignum}
    (passed : frontier ≤ heap.pointer) (above : number.StandsAbove frontier)
    (span magnitude : Nat) :
    Spared frontier id (number.writeMagnitude span magnitude) heap
      fun _ _ => True := by
  refine .after_read passed fun start read => spared_writePayload passed ?_ _
  unfold digitsStart at read
  cases stored : number.storage with
  | none =>
    rw [stored] at read
    cases read
  | some place =>
    rw [stored] at read
    obtain ⟨_, _, rfl⟩ := Except.map_eq_ok_iff.mp read
    exact above _ stored

private theorem guarded_store (sign : Sign) (magnitude : Nat) :
    Guarded frontier (store sign magnitude) := by
  refine (guarded_grow _).bind fun _ => ?_
  refine DigitM.guarded_get fun workspace above => ?_
  have written : Guarded frontier (DigitM.setTarget
      { workspace.target with
        used := Digits.count magnitude
        sign := if magnitude = 0 then .nonnegative else sign }) :=
    DigitM.guarded_setTarget above
  dsimp only
  split
  · refine (DigitM.guarded_onHeap fun heap passed => ?_).bind fun _ => written
    exact spared_writeMagnitude passed above _ _
  · exact written

end Bignum

/-! ## Composed operations -/

theorem DigitM.Composed.guarded {frontier : Nat} {α : Type}
    {operation : DigitM α} (composed : operation.Composed) :
    Guarded frontier operation := by
  induction composed with
  | pure value => exact guarded_pure value
  | throw error => exact fun _ passed _ => spared_throw passed
  | bind _ _ first rest => exact first.bind rest
  | get => exact fun _ passed above => ⟨.refl passed, above⟩
  | inspect reader => exact guarded_inspect reader
  | grow count => exact Bignum.guarded_grow count
  | reserve count => exact Bignum.guarded_reserve count
  | store sign magnitude => exact Bignum.guarded_store sign magnitude
  | aside precision _ guarded =>
    -- The other bignum has a buffer of its own, above the frontier.
    intro workspace passed above
    refine (spared_onHeap (Bignum.spared_zero passed precision)).bind ?_
    rintro start middle middlePassed ⟨kept, startAbove⟩
    refine (spared_onHeap
      (spared_build middlePassed startAbove guarded)).mono ?_
    rintro _ after ⟨stillKept, _⟩
    rw [stillKept, kept]
    exact above

end ManagedHeap
