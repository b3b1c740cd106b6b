import Mathlib.Data.List.Sort
import ManagedHeap.Proofs.Host.Isolation

/-!
# Garbage

Objects that are only added are reached by no root, so a collection drops all
of them: it leaves what it would have left before they were added. In
particular nothing remains of a call that fails part way, or whose result is
not made a root (`reached_reclaims`).
-/

namespace ManagedHeap

/-! ## Lists in address order -/

theorem Ascending.eq_of_mem_iff {left right : List (Nat × Object)}
    (leftOrder : Ascending left) (rightOrder : Ascending right)
    (same : ∀ entry, entry ∈ left ↔ entry ∈ right) :
    left = right := by
  have : Std.Irrefl fun left right : Nat × Object => left.1 < right.1 :=
    ⟨fun entry => Nat.lt_irrefl entry.1⟩
  have : Std.Antisymm fun left right : Nat × Object => left.1 < right.1 :=
    ⟨fun _ _ below above => absurd below (Nat.lt_asymm above)⟩
  exact List.Pairwise.eq_of_mem_iff leftOrder rightOrder same

namespace Heap

variable {before after : Heap} {address : Nat}

/-! ## What the roots reach -/

/-- Nothing is reached that was not reached before objects were added. -/
theorem Regular.reaches_iff_of_grows (regular : before.Regular)
    (grows : before.Grows after) :
    after.Reaches address ↔ before.Reaches address := by
  constructor
  · intro reached
    refine reached.of_closed ?_ ?_
    · intro handle held
      rw [grows.liveRoots_eq] at held
      exact .root held
    · intro source object inside found target refers
      -- What is reached was there already, so it has not been added.
      obtain ⟨old, oldFound⟩ := regular.sound.traceable.present source inside
      obtain rfl := Option.some.inj ((grows.found oldFound).symm.trans found)
      exact .reference inside oldFound refers
  · intro reached
    refine reached.of_closed ?_ ?_
    · intro handle held
      rw [← grows.liveRoots_eq] at held
      exact .root held
    · intro source object inside found target refers
      exact .reference inside (grows.found found) refers

/-! ## What a collection leaves -/

variable {marked later : List Nat}

theorem Regular.survivors_eq_of_grows (regular : before.Regular)
    (grows : before.Grows after)
    (marks : ∀ {address}, address ∈ marked ↔ before.Reaches address)
    (laterMarks : ∀ {address}, address ∈ later ↔ after.Reaches address) :
    after.objects.survivors later = before.objects.survivors marked := by
  refine (ascending_survivors after later).eq_of_mem_iff
    (ascending_survivors before marked) ?_
  rintro ⟨address, object⟩
  rw [mem_survivors_iff, mem_survivors_iff, laterMarks, marks,
    regular.reaches_iff_of_grows grows]
  constructor
  · rintro ⟨found, reached⟩
    obtain ⟨old, oldFound⟩ := regular.sound.traceable.present address reached
    obtain rfl := Option.some.inj ((grows.found oldFound).symm.trans found)
    exact ⟨oldFound, reached⟩
  · rintro ⟨found, reached⟩
    exact ⟨grows.found found, reached⟩

theorem Regular.forwarding_eq_of_grows (regular : before.Regular)
    (grows : before.Grows after)
    (marks : ∀ {address}, address ∈ marked ↔ before.Reaches address)
    (laterMarks : ∀ {address}, address ∈ later ↔ after.Reaches address) :
    after.forwarding later = before.forwarding marked := by
  rw [Heap.forwarding, Heap.forwarding, Heap.base, Heap.base, grows.config,
    regular.survivors_eq_of_grows grows marks laterMarks]

/-- Added objects make no difference to a compaction, but they stay counted
among the bytes handed out. -/
theorem Regular.compact_eq_of_grows (regular : before.Regular)
    (grows : before.Grows after)
    (marks : ∀ {address}, address ∈ marked ↔ before.Reaches address)
    (laterMarks : ∀ {address}, address ∈ later ↔ after.Reaches address) :
    after.compact later =
      { before.compact marked with allocated := after.allocated } := by
  have survivors := regular.survivors_eq_of_grows grows marks laterMarks
  have forwarding := regular.forwarding_eq_of_grows grows marks laterMarks
  have base : after.base = before.base := by
    rw [Heap.base, Heap.base, grows.config]
  simp only [Heap.compact, survivors, forwarding, base, grows.roots,
    grows.config]

end Heap

/-! ## Sessions -/

namespace Session

variable {config : Config} {host : Host} {session : Session}

/-- A collection that is asked for is performed and reported. -/
theorem invoke_collect {marked : List Nat} (sound : session.heap.Sound)
    (outcome : session.heap.mark = .ok marked) :
    session.invoke .collect =
      (.returned (.stats (session.heap.collectionStats marked)),
        { session with heap := session.heap.compact marked }) := by
  simp [invoke, Call.perform, Functor.map, EStateM.map,
    sound.collect_eq_ok outcome, Call.asksEmptySlot]

/-- A collection after a call that asks for space, answered or trapped, leaves
what it would have left before the call, and reports as many bytes kept and
objects moved; only the bytes handed out and those given back tell that there
was a call. -/
theorem reached_reclaims (reached : Reached config host session) (call : Call)
    (allocates : call.Allocates) :
    ∃ stats later : CollectionStats,
      (session.invoke .collect).1 = .returned (.stats stats) ∧
      ((session.invoke call).2.invoke .collect).1 =
        .returned (.stats later) ∧
      later.live = stats.live ∧ later.moved = stats.moved ∧
      ((session.invoke call).2.invoke .collect).2.heap =
        { (session.invoke .collect).2.heap with
          allocated := (session.invoke call).2.heap.allocated } := by
  have regular := reached.regular
  have laterRegular : (session.invoke call).2.heap.Regular := by
    rw [heap_invoke]
    exact call.regular_heapAfter regular allocates.admissible
  have grows : session.heap.Grows (session.invoke call).2.heap := by
    rw [heap_invoke]
    exact call.grows_heapAfter regular allocates.not_changesInPlace
  obtain ⟨marked, _, marks, outcome, _⟩ := regular.sound.collect_eq
  obtain ⟨laterMarked, _, laterMarks, laterOutcome, _⟩ :=
    laterRegular.sound.collect_eq
  have compacted := regular.compact_eq_of_grows grows marks laterMarks
  have forwarding := regular.forwarding_eq_of_grows grows marks laterMarks
  rw [invoke_collect regular.sound outcome,
    invoke_collect laterRegular.sound laterOutcome]
  refine ⟨_, _, rfl, rfl, ?_, ?_, compacted⟩
  · rw [Heap.collectionStats, Heap.collectionStats, compacted]
    rfl
  · rw [Heap.collectionStats, Heap.collectionStats, forwarding]

/-- A numeral that breaks off leaves a result and its buffer behind, and both
are given back. -/
theorem trappedDivision_reclaims :
    Reached {} .plain trappedDivision ∧
      trappedDivision.heap.objectCount <
        (trappedDivision.invoke (.ofDecimal "12x")).2.heap.objectCount ∧
      ∃ stats later : CollectionStats,
        (trappedDivision.invoke .collect).1 = .returned (.stats stats) ∧
        ((trappedDivision.invoke (.ofDecimal "12x")).2.invoke .collect).1 =
          .returned (.stats later) ∧
        later.live = stats.live ∧ later.moved = stats.moved ∧
        ((trappedDivision.invoke (.ofDecimal "12x")).2.invoke
          .collect).2.heap =
            { (trappedDivision.invoke .collect).2.heap with
              allocated :=
                (trappedDivision.invoke (.ofDecimal "12x")).2.heap.allocated } :=
  ⟨reached_trappedDivision, by decide +kernel,
    reached_reclaims reached_trappedDivision (.ofDecimal "12x") trivial⟩

end Session

end ManagedHeap
