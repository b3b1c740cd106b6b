import ManagedHeap.Proofs.Heap.Additions

/-!
# Roots and collections

Changes to the roots of a regular heap, and its collections: neither kind of
change fails, and the heap stays regular.
-/

namespace ManagedHeap

namespace Roots

variable {handle held : Handle} {roots : List (Option Handle)} {slot : RootSlot}

theorem mem_filled_iff : held ∈ roots.filterMap id ↔ some held ∈ roots := by
  simp

private theorem mem_add (member : some held ∈ (add handle roots).2) :
    held = handle ∨ some held ∈ roots := by
  induction roots with
  | nil => exact Or.inl (by simpa [add] using member)
  | cons head tail inductionHypothesis =>
    cases head with
    | none =>
      simp only [add, List.mem_cons, Option.some.injEq] at member
      exact member.imp_right (List.mem_cons_of_mem _)
    | some first =>
      simp only [add, List.mem_cons, Option.some.injEq] at member
      rcases member with rfl | inTail
      · exact Or.inr List.mem_cons_self
      · exact (inductionHypothesis inTail).imp_right (List.mem_cons_of_mem _)

theorem add_map_some (handle : Handle) (handles : List Handle) :
    add handle (handles.map some) =
      (handles.length, (handles ++ [handle]).map some) := by
  induction handles with
  | nil => rfl
  | cons head tail inductionHypothesis =>
    simp only [List.map_cons, add, inductionHypothesis, List.length_cons,
      List.cons_append]

private theorem mem_remove (member : some held ∈ remove roots slot) :
    some held ∈ roots := by
  rcases List.mem_or_eq_of_mem_set member with inRoots | impossible
  · exact inRoots
  · cases impossible

/-- A handle goes into the lowest empty slot of a table, or into a new slot
after all others, and no other slot changes. -/
structure Adds (handle : Handle) (before : List (Option Handle))
    (slot : RootSlot) (after : List (Option Handle)) : Prop where
  slot_le : slot ≤ before.length
  vacant : find? before slot = none
  lowest : ∀ lower < slot, ∃ held, find? before lower = some held
  filled : find? after slot = some handle
  others : ∀ other, other ≠ slot → find? after other = find? before other
  length : after.length = max before.length (slot + 1)

theorem adds_add (handle : Handle) (roots : List (Option Handle)) :
    Adds handle roots (add handle roots).1 (add handle roots).2 := by
  induction roots with
  | nil =>
    refine ⟨Nat.le_refl _, rfl, nofun, rfl, ?_, rfl⟩
    intro other different
    obtain ⟨above, rfl⟩ := Nat.exists_eq_succ_of_ne_zero different
    rfl
  | cons head tail inductionHypothesis =>
    cases head with
    | none =>
      refine ⟨Nat.zero_le _, rfl, nofun, rfl, ?_, by simp [add]⟩
      intro other different
      obtain ⟨above, rfl⟩ := Nat.exists_eq_succ_of_ne_zero different
      rfl
    | some first =>
      obtain ⟨slot_le, vacant, lowest, filled, others, length⟩ :=
        inductionHypothesis
      refine ⟨Nat.succ_le_succ slot_le, vacant, ?_, filled, ?_, ?_⟩
      · intro lower below
        cases lower with
        | zero => exact ⟨first, rfl⟩
        | succ lower => exact lowest lower (Nat.lt_of_succ_lt_succ below)
      · intro other different
        cases other with
        | zero => rfl
        | succ other =>
          exact others other fun same => different (congrArg (· + 1) same)
      · simp only [add, List.length_cons, length]
        omega

/-- A new root takes no slot that is in use. -/
theorem find?_add (filled : find? roots slot = some held) :
    find? (add handle roots).2 slot = some held := by
  have adds := adds_add handle roots
  rw [adds.others slot ?_]
  · exact filled
  · rintro rfl
    rw [adds.vacant] at filled
    cases filled

theorem find?_eq_none_of_length_le (outside : roots.length ≤ slot) :
    find? roots slot = none := by
  rw [find?, List.getElem?_eq_none outside]
  rfl

theorem find?_remove_self (roots : List (Option Handle)) (slot : RootSlot) :
    find? (remove roots slot) slot = none := by
  rw [find?, remove, List.getElem?_set]
  split
  · split <;> rfl
  · contradiction

theorem find?_remove_of_ne {removed : RootSlot} (different : removed ≠ slot) :
    find? (remove roots removed) slot = find? roots slot := by
  rw [find?, find?, remove, List.getElem?_set_ne different]

end Roots

namespace Heap

variable {heap : Heap}

/-! ## Roots -/

theorem Regular.addRoot {handle : Handle} (regular : heap.Regular)
    (held : heap.Holds handle) :
    Regular { heap with roots := (Roots.add handle heap.roots).2 } := by
  refine regular.withRoots fun root isRoot => ?_
  rcases Roots.mem_add (Roots.mem_filled_iff.mp isRoot) with rfl | older
  · exact held
  · exact regular.roots_held root (Roots.mem_filled_iff.mpr older)

theorem Regular.removeRoot (regular : heap.Regular) (slot : RootSlot) :
    Regular { heap with roots := Roots.remove heap.roots slot } := by
  refine regular.withRoots fun root isRoot => ?_
  exact regular.roots_held root
    (Roots.mem_filled_iff.mpr
    (Roots.mem_remove (Roots.mem_filled_iff.mp isRoot)))

/-- A root that is held is among the live ones. -/
theorem mem_liveRoots_of_root {slot : RootSlot} {handle : Handle}
    (held : heap.root slot = some handle) : handle ∈ heap.liveRoots := by
  rw [root, Roots.find?, Option.join_eq_some_iff] at held
  exact Roots.mem_filled_iff.mpr (List.mem_of_getElem? held)

/-! ## Collections -/

/-- The slots keep their roots, which have moved. -/
theorem root_compact (marked : List Nat) (slot : RootSlot) :
    (heap.compact marked).root slot =
      (heap.root slot).map (heap.forwarding marked).apply := by
  show (heap.roots.map (Option.map _))[slot]?.join = _
  rw [List.getElem?_map, root, Roots.find?]
  cases heap.roots[slot]? with
  | none => rfl
  | some held => cases held <;> rfl

/-- A heap with what another one's roots reach, and nothing else, packed. -/
def CollectsTo (before after : Heap) : Prop :=
  ∃ marked, (∀ {address}, address ∈ marked ↔ before.Reaches address) ∧
    after = before.compact marked

theorem CollectsTo.regular {after : Heap} (collects : heap.CollectsTo after)
    (regular : heap.Regular) : after.Regular := by
  obtain ⟨marked, marks, rfl⟩ := collects
  exact regular.compact marks

theorem Regular.collect_eq (regular : heap.Regular) :
    ∃ stats after, collect heap = .ok stats after ∧ heap.CollectsTo after := by
  obtain ⟨marked, stats, marks, _, outcome⟩ := regular.sound.collect_eq
  exact ⟨stats, _, outcome, marked, marks, rfl⟩

/-- A collection that is due runs as a forced one does, and any other changes
nothing. -/
theorem Regular.scheduleCollect_eq (regular : heap.Regular) :
    ∃ stats after, scheduleCollect heap = .ok stats after ∧
      (after = heap ∨ heap.CollectsTo after) := by
  obtain ⟨stats, after, outcome, collects⟩ := regular.collect_eq
  refine Ensures.exists_ok ?_
  unfold scheduleCollect
  rw [ensures_bind, ensures_get]
  cases heap.shouldCollect with
  | false => exact Or.inl rfl
  | true => exact ensures_bind.mpr (Ensures.intro outcome (Or.inr collects))

end Heap

end ManagedHeap
