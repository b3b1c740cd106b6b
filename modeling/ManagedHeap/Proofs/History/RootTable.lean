import ManagedHeap.Proofs.Heap.Carrying
import ManagedHeap.Proofs.History.Operations
import ManagedHeap.Proofs.Host.Sparing

/-!
# Roots over runs

A root stays a handle of the same object until it is removed, through
allocations, calls, other roots that come and go, and collections that move
everything (`checked_keepsRoots`). Runs leave out the operations that write to
existing objects. Objects may refer to nothing, and bignums may claim any
storage.

A step leaves old objects alone, changes the table of roots, or compacts
(`Step`), and each of these carries all that a root leads to along the move of
the step (`Step.carries`).
-/

namespace ManagedHeap

namespace Heap

/-! ## Runs -/

namespace Operation

/-- The heap after an operation, answered or failed. -/
def heapAfter (operation : Operation) (heap : Heap) : Heap :=
  match operation.perform heap with
  | .ok _ after => after
  | .error _ after => after

/-- Operations that write to no existing object. Only existing objects become
roots, and collections return. All else may fail. -/
def Permitted (heap : Heap) : Operation → Prop
  | .truncateBlob .. => False
  | .writePayload .. => False
  | .setBignum .. => False
  | .replace .. => False
  | .call (.iteratorNext _) => False
  | .call (.addRoot handle) => heap.Holds handle
  | .call .collect => HeapM.returns Heap.collect heap = true
  | .call .scheduleCollect => HeapM.returns Heap.scheduleCollect heap = true
  | _ => True

/-- Where an operation moves objects to. Only collections move any. -/
def relocation (heap : Heap) : Operation → Handle → Handle
  | .call request =>
    if request.collects heap then
      match heap.mark with
      | .ok marked => (heap.forwarding marked).apply
      | .error _ => id
    else
      id
  | _ => id

end Operation

/-- The heap after a run. -/
def afterRun (heap : Heap) : List Operation → Heap
  | [] => heap
  | operation :: rest => (operation.heapAfter heap).afterRun rest

def Permits (heap : Heap) : List Operation → Prop
  | [] => True
  | operation :: rest =>
    operation.Permitted heap ∧ (operation.heapAfter heap).Permits rest

/-- Where a run moves objects to. -/
def relocation (heap : Heap) : List Operation → Handle → Handle
  | [] => id
  | operation :: rest =>
    (operation.heapAfter heap).relocation rest ∘ operation.relocation heap

/-- A run answers a root slot. -/
def Issues (heap : Heap) (slot : RootSlot) : List Operation → Prop
  | [] => False
  | operation :: rest =>
    (∃ after, operation.perform heap = .ok (.slot slot) after) ∨
      (operation.heapAfter heap).Issues slot rest

/-! ## One step -/

variable {heap after : Heap} {operation : Operation} {slot : RootSlot}
  {handle : Handle} {move : Handle → Handle}

/-- What a permitted operation may do to a heap, and where it moves objects
to. -/
inductive Step (heap : Heap) : Operation → Heap → (Handle → Handle) → Prop where
  | spares {operation : Operation} {after : Heap}
      (spares : Spares heap.pointer heap after) : Step heap operation after id
  | addsRoot (handle : Handle) :
      Step heap (.call (.addRoot handle))
        { heap with roots := (Roots.add handle heap.roots).2 } id
  | removesRoot (slot : RootSlot) :
      Step heap (.call (.removeRoot slot))
        { heap with roots := Roots.remove heap.roots slot } id
  | compacts {operation : Operation} {marked : List Nat}
      (outcome : heap.mark = .ok marked) :
      Step heap operation (heap.compact marked) (heap.forwarding marked).apply

namespace Operation

theorem heapAfter_of_ensures {holds : Heap → Prop}
    (ensured : Ensures operation.perform heap (fun _ after => holds after)
      fun _ after => holds after) :
    holds (operation.heapAfter heap) := by
  unfold heapAfter
  cases outcome : operation.perform heap with
  | ok answer after => exact ensured.of_ok outcome
  | error error after => exact ensured.of_error outcome

private theorem step_of_composed (composed : operation.perform.Composed) :
    Step heap operation (operation.heapAfter heap) id := by
  refine .spares (heapAfter_of_ensures ?_)
  exact Ensures.mono (composed.spared (Nat.le_refl _))
    (fun _ _ returned => returned.1) fun _ _ spares => spares

/-- A collection that returns compacts what the roots reach. -/
theorem step_of_collect {request : Call}
    (collecting : request.collects heap = true) {answer : Answer}
    {stats : CollectionStats} (collected : collect heap = .ok stats after)
    (outcome : request.perform heap = .ok answer after) :
    Step heap (.call request) (heapAfter (.call request) heap)
      (relocation heap (.call request)) := by
  obtain ⟨marked, marks, rfl, _⟩ := (ensures_collect heap).of_ok collected
  have isAfter : heapAfter (.call request) heap = heap.compact marked := by
    rw [heapAfter, perform, outcome]
  have isMove : relocation heap (.call request) =
      (heap.forwarding marked).apply := by
    rw [relocation, if_pos collecting, marks]
  rw [isAfter, isMove]
  exact .compacts marks

private theorem step_of_call {request : Call}
    (permitted : Permitted heap (.call request)) :
    Step heap (.call request) (heapAfter (.call request) heap)
      (relocation heap (.call request)) := by
  by_cases inPlace : request.ChangesInPlace
  · cases request with
    | iteratorNext iterator => exact permitted.elim
    | addRoot handle => exact .addsRoot handle
    | removeRoot slot => exact .removesRoot slot
    | collect =>
      obtain ⟨stats, after, collected⟩ := HeapM.exists_eq_ok permitted
      have outcome : Call.perform .collect heap = .ok (.stats stats) after := by
        simp only [Call.perform, Functor.map, EStateM.map, collected]
      exact step_of_collect rfl collected outcome
    | scheduleCollect =>
      obtain ⟨result, after, scheduled⟩ := HeapM.exists_eq_ok permitted
      have outcome : Call.perform .scheduleCollect heap =
          .ok (.scheduled result) after := by
        simp only [Call.perform, Functor.map, EStateM.map, scheduled]
      rcases scheduleCollect_eq_ok_iff.mp scheduled with skipped | collected
      · obtain ⟨notDue, _, rfl⟩ := skipped
        have isAfter : heapAfter (.call .scheduleCollect) after = after := by
          rw [heapAfter, perform, outcome]
        have isMove : relocation after (.call .scheduleCollect) = id :=
          if_neg (Bool.not_eq_true _ ▸ notDue)
        rw [isAfter, isMove]
        exact .spares (.refl (Nat.le_refl _))
      · obtain ⟨due, stats, _, collected⟩ := collected
        exact step_of_collect due collected outcome
    | _ => exact inPlace.elim
  · have stays : request.collects heap = false := by
      cases request with
      | collect => exact absurd trivial inPlace
      | scheduleCollect => exact absurd trivial inPlace
      | _ => rfl
    have isMove : relocation heap (.call request) = id :=
      if_neg (by rw [stays]; exact Bool.false_ne_true)
    rw [isMove]
    exact step_of_composed (Call.composed_perform inPlace)

private theorem step_of_permitted (permitted : operation.Permitted heap) :
    Step heap operation (operation.heapAfter heap)
      (operation.relocation heap) := by
  cases operation with
  | alloc object => exact step_of_composed ((composed_alloc object).map _)
  | allocBlob length =>
    exact step_of_composed ((composed_allocBlob length).map _)
  | allocBlobFrom bytes =>
    exact step_of_composed ((composed_allocBlobFrom bytes).map _)
  | realloc pointer oldSize newSize =>
    exact step_of_composed ((HeapM.Composed.realloc _ _ _).map _)
  | free pointer size => exact step_of_composed ((HeapM.Composed.pure ()).map _)
  | call request => exact step_of_call permitted
  | _ => exact permitted.elim

private theorem tidy_heapAfter (permitted : operation.Permitted heap)
    (tidy : heap.Tidy) : (operation.heapAfter heap).Tidy := by
  have admissible : operation.Admissible heap := by
    cases operation with
    | call request =>
      cases request with
      | collect => exact permitted
      | scheduleCollect => exact permitted
      | _ => trivial
    | truncateBlob handle length => exact permitted.elim
    | replace handle object => exact permitted.elim
    | _ => trivial
  have isAfter : operation.heapAfter heap =
      (History.after ⟨heap, []⟩ operation).heap := by
    unfold heapAfter History.after
    cases operation.perform heap <;> rfl
  rw [isAfter]
  have cases := @History.step_cases ⟨heap, []⟩ operation admissible
  rcases cases with continues | collects
  · exact continues.1.tidy (fun _ _ covers => covers) tidy
  · obtain ⟨marked, _, compacted, _⟩ := collects
    rw [compacted]
    exact tidy.compact marked

end Operation

/-! ## What a step keeps -/

theorem Step.carries (step : Step heap operation after move)
    (tidy : heap.Tidy) (reached : heap.Reaches handle.address) :
    Carries heap after handle move := by
  cases step with
  | spares spares =>
    refine carries_of_kept ?_ handle
    intro address object found
    exact (spares.below _ (tidy.bounded.lt found)).trans found
  | addsRoot added =>
    refine carries_of_kept ?_ handle
    exact fun found => found
  | removesRoot removed =>
    refine carries_of_kept ?_ handle
    exact fun found => found
  | compacts outcome =>
    exact carries_compact tidy.layout (mem_of_mark_eq_ok_iff outcome) reached

/-- A slot keeps its root, unless that one is removed. -/
theorem Step.root (step : Step heap operation after move)
    (held : heap.root slot = some handle)
    (remains : operation ≠ .call (.removeRoot slot)) :
    after.root slot = some (move handle) := by
  cases step with
  | spares spares =>
    rw [Heap.root, spares.roots]
    exact held
  | addsRoot added => exact Roots.find?_add held
  | removesRoot removed =>
    refine (Roots.find?_remove_of_ne ?_).trans held
    rintro rfl
    exact remains rfl
  | @compacts _ marked outcome =>
    rw [root_compact marked, held, Option.map_some]

/-- A slot beyond the table stays there until it is answered. -/
theorem Step.length_le (step : Step heap operation after move)
    (beyond : heap.roots.length ≤ slot)
    (unissued : ∀ next, operation.perform heap ≠ .ok (.slot slot) next) :
    after.roots.length ≤ slot := by
  cases step with
  | spares spares =>
    rw [spares.roots]
    exact beyond
  | addsRoot added =>
    have adds := Roots.adds_add added heap.roots
    have slot_le := adds.slot_le
    have different : (Roots.add added heap.roots).1 ≠ slot := by
      rintro rfl
      exact unissued _ rfl
    have below : (Roots.add added heap.roots).1 < slot :=
      Nat.lt_of_le_of_ne (Nat.le_trans slot_le beyond) different
    show (Roots.add added heap.roots).2.length ≤ slot
    rw [adds.length]
    exact Nat.max_le.mpr ⟨beyond, below⟩
  | removesRoot removed =>
    show (Roots.remove heap.roots removed).length ≤ slot
    rwa [Roots.remove, List.length_set]
  | @compacts _ marked outcome =>
    show (heap.roots.map _).length ≤ slot
    rwa [List.length_map]

/-! ## Runs -/

variable {run : List Operation}

private theorem tidy_afterRun (tidy : heap.Tidy) (permits : heap.Permits run) :
    (heap.afterRun run).Tidy := by
  induction run generalizing heap with
  | nil => exact tidy
  | cons operation rest inductionHypothesis =>
    obtain ⟨permitted, restPermits⟩ := permits
    exact inductionHypothesis (Operation.tidy_heapAfter permitted tidy)
      restPermits

/-- A slot keeps its root through a run that does not remove it, and all that
the root leads to is carried along. -/
theorem carries_afterRun (tidy : heap.Tidy) (permits : heap.Permits run)
    (held : heap.root slot = some handle)
    (remains : .call (.removeRoot slot) ∉ run) :
    (heap.afterRun run).root slot = some (heap.relocation run handle) ∧
      Carries heap (heap.afterRun run) handle (heap.relocation run) := by
  induction run generalizing heap handle with
  | nil => exact ⟨held, .refl heap handle⟩
  | cons operation rest inductionHypothesis =>
    obtain ⟨permitted, restPermits⟩ := permits
    have notFirst : operation ≠ .call (.removeRoot slot) :=
      fun same => remains (same ▸ List.mem_cons_self)
    have step := Operation.step_of_permitted permitted
    have carries := step.carries tidy (.root (mem_liveRoots_of_root held))
    obtain ⟨restHeld, restCarries⟩ := inductionHypothesis
      (Operation.tidy_heapAfter permitted tidy) restPermits
      (step.root held notFirst) fun later =>
        remains (List.mem_cons_of_mem _ later)
    exact ⟨restHeld, carries.trans restCarries⟩

private theorem length_roots_afterRun_le (permits : heap.Permits run)
    (beyond : heap.roots.length ≤ slot) (unissued : ¬heap.Issues slot run) :
    (heap.afterRun run).roots.length ≤ slot := by
  induction run generalizing heap with
  | nil => exact beyond
  | cons operation rest inductionHypothesis =>
    obtain ⟨permitted, restPermits⟩ := permits
    obtain ⟨notFirst, restUnissued⟩ := not_or.mp unissued
    have step := Operation.step_of_permitted permitted
    refine inductionHypothesis restPermits ?_ restUnissued
    exact step.length_le beyond fun next issued => notFirst ⟨next, issued⟩

/-! ## The table of roots -/

/-- Where the pointer of every heap stands (`pointerPlaced_of_reached`): on a
word boundary, at or above the base, and beyond the limit only while nothing
has been handed out. -/
structure PointerPlaced (heap : Heap) : Prop where
  base_le : heap.base ≤ heap.pointer
  le_limit : heap.pointer ≤ max heap.base heap.config.heapLimit.toNat
  aligned : heap.pointer % wordSize = 0

theorem pointerPlaced_of_reached {config : Config} {history : History}
    (reached : History.Reached config history) :
    history.heap.PointerPlaced where
  base_le := reached.tidy.base_le_pointer
  le_limit := reached.tidy.pointer_le
  aligned := reached.tidy.pointer_aligned

theorem PointerPlaced.tidy (placed : heap.PointerPlaced)
    (checked : heap.check = .ok ()) : heap.Tidy where
  layout := (check_eq_ok_iff.mp checked).layout
  base_le_pointer := placed.base_le
  pointer_le := placed.le_limit
  pointer_aligned := placed.aligned

/-- A slot holds the object that was put there, wherever that has moved to,
with all that it held and led to. -/
structure StaysRooted (issued later : Heap) (slot : RootSlot)
    (handle : Handle) (move : Handle → Handle) : Prop where
  root : later.root slot = some (move handle)
  holds : later.Holds (move handle)
  carries : Carries issued later handle move
  denotes : ∀ {target cell}, issued.Leads handle target →
    issued.Denotes target cell → later.Denotes (move target) cell
  leads_iff : issued.Whole handle → ∀ {target},
    later.Leads (move handle) target ↔
      ∃ old, issued.Leads handle old ∧ move old = target

/-- What the table of roots does in a run: a root stays until it is removed, a
new root takes an empty slot and then stays as well, a removed root is the one
that was there, and slots that were never answered are empty. -/
structure KeepsRoots (start : Heap) (run : List Operation) : Prop where
  stays : ∀ slot handle, start.root slot = some handle →
    .call (.removeRoot slot) ∉ run →
    StaysRooted start (start.afterRun run) slot handle (start.relocation run)
  adds : ∀ handle, (start.afterRun run).Holds handle → ∃ slot issued,
    addRoot handle (start.afterRun run) = .ok slot issued ∧
    issued = { start.afterRun run with roots := issued.roots } ∧
    Roots.Adds handle (start.afterRun run).roots slot issued.roots ∧
    ∀ later, issued.Permits later → .call (.removeRoot slot) ∉ later →
      StaysRooted issued (issued.afterRun later) slot handle
        (issued.relocation later)
  removes : ∀ slot, ∃ emptied,
    removeRoot slot (start.afterRun run) =
      .ok ((start.afterRun run).root slot) emptied ∧
    emptied = { start.afterRun run with roots := emptied.roots } ∧
    emptied.root slot = none ∧
    ∀ other, other ≠ slot →
      emptied.root other = (start.afterRun run).root other
  unissued : ∀ slot, start.roots.length ≤ slot → ¬start.Issues slot run →
    (start.afterRun run).root slot = none ∧
      removeRoot slot (start.afterRun run) = .ok none (start.afterRun run)

private theorem removeRoot_of_length_le (beyond : heap.roots.length ≤ slot) :
    removeRoot slot heap = .ok none heap := by
  have vacant : heap.root slot = none := Roots.find?_eq_none_of_length_le beyond
  have same : Roots.remove heap.roots slot = heap.roots :=
    List.set_eq_of_length_le beyond
  show EStateM.Result.ok (heap.root slot)
    { heap with roots := Roots.remove heap.roots slot } = _
  rw [vacant, same]

private theorem staysRooted_of_root
    (tidy : heap.Tidy) (held : heap.Holds handle)
    (permits : heap.Permits run) (root : heap.root slot = some handle)
    (remains : .call (.removeRoot slot) ∉ run) :
    StaysRooted heap (heap.afterRun run) slot handle (heap.relocation run) := by
  obtain ⟨laterRoot, carries⟩ := carries_afterRun tidy permits root remains
  exact ⟨laterRoot, carries.holds .self held, carries, carries.denotes,
    carries.leads_iff⟩

/-- Whatever is done to a heap that passes the check: a slot holds the same
object until it is removed, moved by every collection and otherwise as it was;
a new root gets the lowest empty slot; a removal answers the root that the slot
held and empties no other; and a slot that was never answered holds nothing,
and its removal changes nothing. -/
theorem checked_keepsRoots (checked : heap.check = .ok ())
    (placed : heap.PointerPlaced) (permits : heap.Permits run) :
    KeepsRoots heap run where
  stays := by
    intro slot handle root remains
    have held := (check_eq_ok_iff.mp checked).roots_held handle
      (mem_liveRoots_of_root root)
    exact staysRooted_of_root (placed.tidy checked) held permits root remains
  adds := by
    intro handle held
    have adds := Roots.adds_add handle (heap.afterRun run).roots
    have tidy := tidy_afterRun (placed.tidy checked) permits
    refine ⟨_, _, rfl, rfl, adds, fun later laterPermits remains => ?_⟩
    exact staysRooted_of_root (tidy.withRoots _) held laterPermits
      adds.filled remains
  removes := by
    intro slot
    refine ⟨_, rfl, rfl, Roots.find?_remove_self _ slot, ?_⟩
    intro other different
    exact Roots.find?_remove_of_ne (Ne.symm different)
  unissued := by
    intro slot beyond unissued
    have stillBeyond := length_roots_afterRun_le permits beyond unissued
    exact ⟨Roots.find?_eq_none_of_length_le stillBeyond,
      removeRoot_of_length_le stillBeyond⟩

/-- Three bytes become a root and are removed again, below a big integer. -/
def releasedRun : List Operation :=
  [.allocBlobFrom (Bytes.ofList [1, 2, 3]), .call (.ofUInt32 7),
    .call (.addRoot (Handle.ofAddress 0x10000)), .call (.removeRoot 0)]

/-- The big integer has taken the slot of the bytes. -/
def sevenRooted : Heap :=
  Operation.heapAfter (.call (.addRoot (Handle.ofAddress 0x1000c)))
    (afterRun (.empty {}) releasedRun)

/-- A collection moves the big integer down to where the bytes were, and the
slot follows it. -/
theorem sevenRooted_staysRooted :
    Permits (.empty {}) releasedRun ∧
      StaysRooted sevenRooted (sevenRooted.afterRun [.call .collect]) 0
        (Handle.ofAddress 0x1000c) (sevenRooted.relocation [.call .collect]) ∧
      (sevenRooted.afterRun [.call .collect]).root 0 =
        some (Handle.ofAddress 0x10000) ∧
      (sevenRooted.afterRun [.call .collect]).Denotes
        (Handle.ofAddress 0x10000) (.integer 7) := by
  have permits : Permits (.empty {}) releasedRun :=
    ⟨trivial, trivial, ⟨.blob (Bytes.ofList [1, 2, 3]), by decide +kernel⟩,
      trivial, trivial⟩
  have placed : PointerPlaced (.empty {}) :=
    pointerPlaced_of_reached History.Reached.start
  have keeps := checked_keepsRoots (by decide +kernel) placed permits
  have seven : sevenRooted.Denotes (Handle.ofAddress 0x1000c) (.integer 7) :=
    ⟨⟨1, 4, .nonnegative, some (.startOf (Handle.ofAddress 0x10020))⟩,
      by decide +kernel, by decide +kernel⟩
  have lowest : (Roots.add (Handle.ofAddress 0x1000c)
      (afterRun (.empty {}) releasedRun).roots).1 = 0 := by
    decide +kernel
  have moved : sevenRooted.relocation [.call .collect]
      (Handle.ofAddress 0x1000c) = Handle.ofAddress 0x10000 := by
    decide +kernel
  have collects : HeapM.returns Heap.collect sevenRooted = true := by
    decide +kernel
  have held : (afterRun (.empty {}) releasedRun).Holds
      (Handle.ofAddress 0x1000c) := by
    obtain ⟨number, found, _⟩ := seven
    exact ⟨_, found⟩
  obtain ⟨_, issued, outcome, _, _, stays⟩ := keeps.adds _ held
  cases outcome
  rw [lowest] at stays
  have rooted := stays [.call .collect] ⟨collects, trivial⟩ (by simp)
  have root := rooted.root
  have denotes := rooted.denotes .self seven
  exact ⟨permits, rooted, moved ▸ root, moved ▸ denotes⟩

end Heap

end ManagedHeap
