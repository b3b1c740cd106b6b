import ManagedHeap.Proofs.History.Operations

/-!
# The budget of scheduled collections

A scheduled collection runs exactly when the heap has grown by its budget
since the last collection, so the growth pays for it: over a whole history the
sizes that scheduled collections started from, each as the collection before
it had left it, add up to at most twice the bytes handed out
(`reached_keepsBudget`).

The potential is the bytes handed out up to the last collection. A scheduled
collection finds at least half of what was left to it handed out anew.
-/

namespace ManagedHeap

namespace Heap

variable {heap : Heap}

/-! ## When a collection is due -/

/-- The top of the address range is no word boundary, so no heap fills it. -/
theorem Tidy.size_lt (tidy : heap.Tidy) : heap.size < maxAddress := by
  have base := heap.base_aligned
  have pointer := tidy.pointer_aligned
  have pointer_le := tidy.pointer_le
  have limit := heap.config.heapLimit.toNat_lt
  simp only [wordSize] at base pointer
  simp only [size, maxAddress]
  omega

/-- The threshold may stand at the top of the range in place of a sum beyond
it. That makes no difference. -/
theorem Tidy.shouldCollect_iff (tidy : heap.Tidy) :
    heap.shouldCollect = true ↔
      heap.lastLive + max (heap.lastLive / 2) heap.config.minGrowth.toNat ≤
        heap.size := by
  have short := tidy.size_lt
  rw [shouldCollect, collectionThreshold, decide_eq_true_eq]
  omega

end Heap

namespace Collected

/-! ## What collections leave -/

/-- The size that the last collection left, and nothing before the first. -/
def lastLeft : List Collected → Nat
  | [] => 0
  | last :: _ => last.left

/-- The bytes handed out up to the last collection. -/
def lastAllocated : List Collected → Nat
  | [] => 0
  | last :: _ => last.allocated

/-- What the collections before the scheduled ones had left, added up over all
scheduled ones. -/
def scheduledLeft : List Collected → Nat
  | [] => 0
  | last :: earlier =>
    (if last.scheduled then lastLeft earlier else 0) + scheduledLeft earlier

end Collected

namespace History

open Collected

variable {config : Config} {history next : History}

/-- The bytes handed out since the last collection. -/
def grown (history : History) : Nat :=
  history.heap.allocated - lastAllocated history.collections

/-- The growth at which a scheduled collection runs. -/
def budget (history : History) : Nat :=
  max (lastLeft history.collections / 2)
    history.heap.config.minGrowth.toNat

/-! ## The invariant -/

/-- What a history has noted agrees with its heap, and growth has paid for all
scheduled collections so far. -/
structure Budgeted (history : History) : Prop where
  lastLive_eq : history.heap.lastLive = lastLeft history.collections
  left_aligned : lastLeft history.collections % wordSize = 0
  lastAllocated_le :
    lastAllocated history.collections ≤ history.heap.allocated
  size_eq :
    history.heap.size = lastLeft history.collections + history.grown
  paid : scheduledLeft history.collections ≤
    2 * lastAllocated history.collections

private theorem budgeted_start (config : Config) : (start config).Budgeted where
  lastLive_eq := rfl
  left_aligned := rfl
  lastAllocated_le := Nat.le_refl _
  size_eq := Nat.sub_self (Heap.baseOf config)
  paid := Nat.le_refl _

/-- Due means that the growth has reached the budget. -/
theorem Budgeted.shouldCollect_iff (budgeted : history.Budgeted)
    (tidy : history.heap.Tidy) :
    history.heap.shouldCollect = true ↔ history.budget ≤ history.grown := by
  have size_eq := budgeted.size_eq
  rw [tidy.shouldCollect_iff, budgeted.lastLive_eq, size_eq, budget]
  exact Nat.add_le_add_iff_left

/-- What the last collection left is a number of words, so half of it is
exact. -/
theorem Budgeted.lastLeft_le_of_due (budgeted : history.Budgeted)
    (due : history.budget ≤ history.grown) :
    lastLeft history.collections ≤ 2 * history.grown := by
  have aligned := budgeted.left_aligned
  have half : lastLeft history.collections / 2 ≤ history.grown :=
    Nat.le_trans (Nat.le_max_left ..) due
  simp only [wordSize] at aligned
  omega

theorem Budgeted.continues (budgeted : history.Budgeted)
    (tidy : history.heap.Tidy) (continues : history.Continues next) :
    next.Budgeted := by
  obtain ⟨evolves, same⟩ := continues
  have accounted := evolves.accounted
  have base := evolves.base_eq
  have base_le := tidy.base_le_pointer
  have before_le := budgeted.lastAllocated_le
  have size_eq := budgeted.size_eq
  simp only [grown, Heap.size] at size_eq
  refine ⟨?_, ?_, ?_, ?_, ?_⟩
  · rw [evolves.lastLive_eq, same]
    exact budgeted.lastLive_eq
  · rw [same]
    exact budgeted.left_aligned
  · rw [same]
    omega
  · rw [grown, Heap.size, same, base]
    omega
  · rw [same]
    exact budgeted.paid

theorem Budgeted.collects (budgeted : history.Budgeted)
    (tidy : history.heap.Tidy) (collects : history.Collects next) :
    next.Budgeted := by
  obtain ⟨marked, scheduled, compacted, noted, due⟩ := collects
  have size := history.heap.size_compact marked
  have allocated : next.heap.allocated = history.heap.allocated := by
    rw [compacted]
    rfl
  have left : lastLeft next.collections = next.heap.size := by
    rw [noted]
    rfl
  have upTo : lastAllocated next.collections = history.heap.allocated := by
    rw [noted]
    rfl
  rw [← compacted] at size
  refine ⟨?_, ?_, ?_, ?_, ?_⟩
  · rw [left, size, compacted]
    rfl
  · rw [left, size]
    exact Store.totalSize_aligned _
  · exact Nat.le_of_eq (upTo.trans allocated.symm)
  · rw [grown, upTo, allocated, left, Nat.sub_self]
    rfl
  · have paid := budgeted.paid
    have before_le := budgeted.lastAllocated_le
    rw [upTo, noted]
    show (if scheduled = true then lastLeft history.collections else 0) +
      scheduledLeft history.collections ≤ 2 * history.heap.allocated
    by_cases isScheduled : scheduled = true
    · have isDue :=
        (budgeted.shouldCollect_iff tidy).mp (due isScheduled)
      have half := budgeted.lastLeft_le_of_due isDue
      rw [if_pos isScheduled]
      simp only [grown] at half
      omega
    · rw [if_neg isScheduled]
      omega

theorem Reached.budgeted (reached : Reached config history) :
    history.Budgeted := by
  induction reached with
  | start => exact budgeted_start config
  | step reached operation admissible inductionHypothesis =>
    rcases step_cases admissible with continues | collects
    · exact inductionHypothesis.continues reached.tidy continues
    · exact inductionHypothesis.collects reached.tidy collects

/-! ## The budget over a history -/

/-- After any history a scheduled collection that returns has collected
exactly if the bytes handed out since the last collection reach the budget;
then the heap has the size that this collection left, and otherwise nothing
has changed and the heap is smaller than what was left to it with the budget
on top. Short of the budget it returns in any case, and from the budget on it
does what a forced one does. Twice the bytes ever handed out pay for what all
scheduled collections were left to start from. -/
theorem reached_keepsBudget (reached : Reached config history) :
    (∀ result after,
      Heap.scheduleCollect history.heap = .ok result after →
        (result.isSome ↔ history.budget ≤ history.grown) ∧
        (result.isSome → after.size =
          lastLeft (history.after (.call .scheduleCollect)).collections) ∧
        (result = none → after = history.heap ∧
          after.size < lastLeft history.collections + history.budget)) ∧
    (history.grown < history.budget →
      Heap.scheduleCollect history.heap = .ok none history.heap) ∧
    (history.budget ≤ history.grown → ∀ stats after,
      Heap.collect history.heap = .ok stats after →
        Heap.scheduleCollect history.heap = .ok (some stats) after) ∧
    scheduledLeft history.collections ≤ 2 * history.heap.allocated := by
  have budgeted := reached.budgeted
  have due := budgeted.shouldCollect_iff reached.tidy
  have size_eq := budgeted.size_eq
  refine ⟨fun result after outcome => ?_, fun short => ?_,
    fun reachedBudget stats after outcome => ?_, ?_⟩
  · rcases Heap.scheduleCollect_eq_ok_iff.mp outcome with skipped | collected
    · obtain ⟨notDue, rfl, rfl⟩ := skipped
      have short : ¬history.budget ≤ history.grown := by
        rw [← due, notDue]
        exact Bool.false_ne_true
      refine ⟨by simp [short], ?_, fun _ => ⟨rfl, ?_⟩⟩
      · exact fun impossible => nomatch impossible
      · omega
    · obtain ⟨isDue, stats, rfl, _⟩ := collected
      refine ⟨by simp [due.mp isDue], fun _ => ?_, ?_⟩
      · rw [after_scheduleCollect outcome]
        rfl
      · exact fun impossible => nomatch impossible
  · have notDue : history.heap.shouldCollect = false := by
      rw [← Bool.not_eq_true, due]
      exact Nat.not_le.mpr short
    exact Heap.scheduleCollect_eq_ok_iff.mpr (Or.inl ⟨notDue, rfl, rfl⟩)
  · have isDue := due.mpr reachedBudget
    exact Heap.scheduleCollect_eq_ok_iff.mpr
      (Or.inr ⟨isDue, stats, rfl, outcome⟩)
  · have paid := budgeted.paid
    have before_le := budgeted.lastAllocated_le
    omega

/-- Two scheduled collections that each keep one buffer of two, one that is
skipped, and enough growth after it. -/
def scheduledHistory : History :=
  (start { heapBase := 0, minGrowth := 16 }).afterAll [
    .allocBlob 10,
    .call (.addRoot (Handle.ofAddress 0)),
    .allocBlob 10,
    .call .scheduleCollect,
    .allocBlob 10,
    .call .scheduleCollect,
    .call .scheduleCollect,
    .allocBlob 10]

private theorem reached_scheduledHistory :
    Reached { heapBase := 0, minGrowth := 16 } scheduledHistory :=
  Reached.start.afterAll ⟨trivial, trivial, trivial,
    show HeapM.returns Heap.scheduleCollect _ = true by decide +kernel, trivial,
    show HeapM.returns Heap.scheduleCollect _ = true by decide +kernel,
    show HeapM.returns Heap.scheduleCollect _ = true by decide +kernel, trivial,
    trivial⟩

theorem scheduledHistory_keepsBudget :
    Reached { heapBase := 0, minGrowth := 16 } scheduledHistory ∧
      scheduledHistory.collections.map Collected.scheduled = [true, true] ∧
      scheduledHistory.grown = 20 ∧ scheduledHistory.budget = 16 ∧
      (∃ stats after,
        Heap.scheduleCollect scheduledHistory.heap = .ok (some stats) after ∧
        after.size = 20) ∧
      scheduledLeft scheduledHistory.collections = 20 ∧
      20 ≤ 2 * scheduledHistory.heap.allocated := by
  obtain ⟨decides, _, collects, paid⟩ :=
    reached_keepsBudget reached_scheduledHistory
  have due : scheduledHistory.budget ≤ scheduledHistory.grown := by
    decide +kernel
  have left : scheduledLeft scheduledHistory.collections = 20 := by
    decide +kernel
  obtain ⟨stats, after, outcome⟩ :
      ∃ stats after,
        Heap.collect scheduledHistory.heap = .ok stats after :=
    HeapM.exists_eq_ok (by decide +kernel)
  have scheduled := collects due stats after outcome
  have size : after.size = lastLeft
      (scheduledHistory.after (.call .scheduleCollect)).collections :=
    (decides _ _ scheduled).2.1 rfl
  have kept : lastLeft
      (scheduledHistory.after (.call .scheduleCollect)).collections = 20 := by
    decide +kernel
  rw [left] at paid
  exact ⟨reached_scheduledHistory, by decide +kernel, by decide +kernel,
    by decide +kernel, ⟨stats, after, scheduled, size.trans kept⟩, left, paid⟩

end History

end ManagedHeap
