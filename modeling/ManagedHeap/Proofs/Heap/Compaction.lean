import ManagedHeap.Heap.Collection

/-!
# Packing

New addresses for the entries of a list, and the entries at them. Entries keep
their order and lie without gaps from the first new address on, so none moves
up and no two meet.
-/

namespace ManagedHeap

variable {target : Nat} {entries : List (Nat × Object)}
  {change : Handle → Handle}

/-! ## New addresses -/

namespace Forwarding

theorem find?_pack_eq_some {address : Nat} {object : Object}
    (member : (address, object) ∈ entries) :
    ∃ new, (pack target entries).find? address = some new := by
  induction entries generalizing target with
  | nil => cases member
  | cons first rest inductionHypothesis =>
    simp only [pack, find?]
    split
    · exact ⟨target, rfl⟩
    · rename_i notFirst
      rcases List.mem_cons.mp member with same | inRest
      · exact absurd (congrArg Prod.fst same) notFirst
      · exact inductionHypothesis inRest

private theorem le_of_find?_pack {address new : Nat}
    (found : (pack target entries).find? address = some new) :
    target ≤ new := by
  induction entries generalizing target with
  | nil => cases found
  | cons first rest inductionHypothesis =>
    simp only [pack, find?] at found
    split at found
    · exact Nat.le_of_eq (Option.some.inj found)
    · exact Nat.le_trans (Nat.le_add_right ..) (inductionHypothesis found)

/-- An address that has a new one is that of an entry, and the packed entry
stands there. -/
theorem mem_packEntries_of_find?_pack {address new : Nat}
    (found : (pack target entries).find? address = some new) :
    ∃ object, (address, object) ∈ entries ∧
      (new, object.relocate change) ∈ Store.packEntries change target
        entries := by
  induction entries generalizing target with
  | nil => cases found
  | cons first rest inductionHypothesis =>
    simp only [pack, find?] at found
    split at found
    · rename_i atFirst
      obtain rfl := Option.some.inj found
      exact ⟨first.2, by simp [atFirst], by simp [Store.packEntries]⟩
    · obtain ⟨object, member, packed⟩ := inductionHypothesis found
      exact ⟨object, List.mem_cons_of_mem _ member,
        List.mem_cons_of_mem _ packed⟩

/-- The order of entries is kept, and each ends before the next one starts. -/
theorem find?_pack_lt (order : Ascending entries)
    {left right newLeft newRight : Nat}
    {object : Object} (member : (left, object) ∈ entries) (below : left < right)
    (foundLeft : (pack target entries).find? left = some newLeft)
    (foundRight : (pack target entries).find? right = some newRight) :
    newLeft + object.size ≤ newRight := by
  induction entries generalizing target with
  | nil => cases foundLeft
  | cons first rest inductionHypothesis =>
    obtain ⟨firstOrder, restOrder⟩ := List.pairwise_cons.mp order
    obtain ⟨head, present⟩ := first
    simp only [pack, find?] at foundLeft foundRight
    rcases List.mem_cons.mp member with same | inRest
    · obtain ⟨rfl, rfl⟩ := Prod.mk.injEq .. ▸ same
      rw [if_pos rfl] at foundLeft
      rw [if_neg (by omega)] at foundRight
      obtain rfl := Option.some.inj foundLeft
      exact le_of_find?_pack foundRight
    · have headBelow : head < left := firstOrder _ inRest
      rw [if_neg (by omega)] at foundLeft foundRight
      exact inductionHypothesis restOrder inRest foundLeft foundRight

/-- Objects that lie apart at or above the first new address do not move up. -/
theorem find?_pack_le
    (apart : entries.Pairwise fun left right => left.1 + left.2.size ≤ right.1)
    (above : ∀ entry ∈ entries, target ≤ entry.1) {address new : Nat}
    (found : (pack target entries).find? address = some new) :
    new ≤ address := by
  induction entries generalizing target with
  | nil => cases found
  | cons first rest inductionHypothesis =>
    obtain ⟨firstApart, restApart⟩ := List.pairwise_cons.mp apart
    have firstAbove := above first List.mem_cons_self
    simp only [pack, find?] at found
    split at found
    · rename_i atFirst
      obtain rfl := Option.some.inj found
      omega
    · refine inductionHypothesis restApart ?_ found
      intro entry member
      have := firstApart entry member
      omega

end Forwarding

/-! ## Packed entries -/

namespace Store

theorem mem_packEntries (order : Ascending entries) {new : Nat} {moved : Object}
    (member : (new, moved) ∈ packEntries change target entries) :
    ∃ address object, (address, object) ∈ entries ∧
      (Forwarding.pack target entries).find? address = some new ∧
      moved = object.relocate change := by
  induction entries generalizing target with
  | nil => cases member
  | cons first rest inductionHypothesis =>
    obtain ⟨firstOrder, restOrder⟩ := List.pairwise_cons.mp order
    obtain ⟨head, present⟩ := first
    rcases List.mem_cons.mp member with same | inRest
    · obtain ⟨rfl, rfl⟩ := Prod.mk.injEq .. ▸ same
      exact ⟨head, present,
        List.mem_cons_self, by simp [Forwarding.pack, Forwarding.find?], rfl⟩
    · obtain ⟨address, object, entry, found, relocated⟩ :=
        inductionHypothesis restOrder inRest
      have different : address ≠ head := by
        have headBelow : head < address := firstOrder _ entry
        omega
      refine ⟨address, object, List.mem_cons_of_mem _ entry, ?_, relocated⟩
      simp only [Forwarding.pack, Forwarding.find?, if_neg different, found]

theorem aligned_of_mem_packEntries
    (aligned : target % wordSize = 0) {entry : Nat × Object}
    (member : entry ∈ packEntries change target entries) :
    entry.1 % wordSize = 0 := by
  induction entries generalizing target with
  | nil => cases member
  | cons first rest inductionHypothesis =>
    rcases List.mem_cons.mp member with same | inRest
    · exact same ▸ aligned
    · refine inductionHypothesis ?_ inRest
      simp only [Object.size, wordSize] at aligned ⊢
      omega

theorem totalSize_cons
    (address : Nat) (object : Object) (rest : List (Nat × Object)) :
    totalSize ((address, object) :: rest) = object.size + totalSize rest := by
  simp [totalSize]

/-- Packed entries end where their sizes add up to. -/
theorem end_le_of_find?_pack
    {address new : Nat} {object : Object} (order : Ascending entries)
    (member : (address, object) ∈ entries)
    (found : (Forwarding.pack target entries).find? address = some new) :
    new + object.size ≤ target + totalSize entries := by
  induction entries generalizing target with
  | nil => cases member
  | cons first rest inductionHypothesis =>
    obtain ⟨firstOrder, restOrder⟩ := List.pairwise_cons.mp order
    obtain ⟨head, present⟩ := first
    simp only [Forwarding.pack, Forwarding.find?] at found
    rw [totalSize_cons]
    rcases List.mem_cons.mp member with same | inRest
    · obtain ⟨rfl, rfl⟩ := Prod.mk.injEq .. ▸ same
      rw [if_pos rfl] at found
      obtain rfl := Option.some.inj found
      omega
    · have headBelow : head < address := firstOrder _ inRest
      rw [if_neg (by omega)] at found
      have := inductionHypothesis restOrder inRest found
      omega

/-- Objects that lie apart between two addresses are together no larger than
the distance. -/
theorem totalSize_le {finish : Nat} (ordered : target ≤ finish)
    (apart : entries.Pairwise fun left right => left.1 + left.2.size ≤ right.1)
    (above : ∀ entry ∈ entries, target ≤ entry.1)
    (below : ∀ entry ∈ entries, entry.1 + entry.2.size ≤ finish) :
    target + totalSize entries ≤ finish := by
  induction entries generalizing target with
  | nil => exact ordered
  | cons first rest inductionHypothesis =>
    obtain ⟨firstApart, restApart⟩ := List.pairwise_cons.mp apart
    obtain ⟨head, present⟩ := first
    have firstAbove : target ≤ head := above _ List.mem_cons_self
    have firstBelow : head + present.size ≤ finish := below _ List.mem_cons_self
    have restBelow : head + present.size + totalSize rest ≤ finish :=
      inductionHypothesis firstBelow restApart firstApart
        fun entry member => below entry (List.mem_cons_of_mem _ member)
    rw [totalSize_cons]
    omega

theorem totalSize_aligned (entries : List (Nat × Object)) :
    totalSize entries % wordSize = 0 := by
  induction entries with
  | nil => rfl
  | cons first rest inductionHypothesis =>
    rw [totalSize_cons]
    simp only [Object.size, wordSize] at inductionHypothesis ⊢
    omega

end Store

end ManagedHeap
