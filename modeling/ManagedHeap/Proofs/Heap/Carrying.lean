import ManagedHeap.Proofs.Heap.Cells
import ManagedHeap.Proofs.Heap.Roots

/-!
# What an object leads to

An object leads to all that its references and digit pointers name, and to
what those objects lead to (`Leads`). A later heap carries an object along a
move of handles when everything that the object leads to is there, each object
at the handle that it has moved to and the same but for its references, which
have moved as well (`Carries`). That is enough for the whole graph below the
object to be the same, and for its bytes, integers and iterators.

Nothing is taken to be sound. What dangles at first may name an object later,
so it is only where nothing dangles that no part of the graph is new.
-/

namespace ManagedHeap

namespace Heap

/-! ## Leading -/

/-- An object leads to itself, and to what is kept by an object that it leads
to. -/
inductive Leads (heap : Heap) (source : Handle) : Handle → Prop where
  | self : heap.Leads source source
  | reference {target next : Handle} {object : Object}
      (leads : heap.Leads source target)
      (found : heap.objects.find? target.address = some object)
      (refers : next ∈ object.kept) :
      heap.Leads source next

/-- An object leads to nothing that is missing. -/
def Whole (heap : Heap) (source : Handle) : Prop :=
  ∀ target, heap.Leads source target → heap.Holds target

/-- Everything that an object leads to has moved, and no two objects have
become one. -/
structure Carries (before after : Heap) (source : Handle)
    (move : Handle → Handle) : Prop where
  moved : ∀ {target object}, before.Leads source target →
    before.objects.find? target.address = some object →
    after.objects.find? (move target).address = some (object.relocate move)
  apart : ∀ {left right}, before.Leads source left →
    before.Leads source right → before.Holds left → before.Holds right →
    move left = move right → left = right

variable {heap before middle after : Heap} {source target : Handle}
  {move first second : Handle → Handle} {cell : Cell}

theorem Leads.reaches (leads : heap.Leads source target)
    (reached : heap.Reaches source.address) : heap.Reaches target.address := by
  induction leads with
  | self => exact reached
  | reference _ found refers inductionHypothesis =>
    exact .reference inductionHypothesis found refers

/-! ## What is carried -/

theorem Carries.leads (carries : Carries before after source move)
    (leads : before.Leads source target) :
    after.Leads (move source) (move target) := by
  induction leads with
  | self => exact .self
  | reference leads found refers inductionHypothesis =>
    refine .reference inductionHypothesis (carries.moved leads found) ?_
    rw [Object.kept_relocate]
    exact List.mem_map_of_mem refers

theorem Carries.holds (carries : Carries before after source move)
    (leads : before.Leads source target) (held : before.Holds target) :
    after.Holds (move target) := by
  obtain ⟨object, found⟩ := held
  exact ⟨_, carries.moved leads found⟩

/-- Where nothing dangled, the object leads to what has moved and to nothing
else. -/
theorem Carries.leads_iff (carries : Carries before after source move)
    (whole : before.Whole source) {later : Handle} :
    after.Leads (move source) later ↔
      ∃ target, before.Leads source target ∧ move target = later := by
  constructor
  · intro leads
    induction leads with
    | self => exact ⟨source, .self, rfl⟩
    | reference _ found refers inductionHypothesis =>
      obtain ⟨target, targetLeads, rfl⟩ := inductionHypothesis
      obtain ⟨object, present⟩ := whole target targetLeads
      have isMoved := carries.moved targetLeads present
      obtain rfl := Option.some.inj (isMoved.symm.trans found)
      rw [Object.kept_relocate] at refers
      obtain ⟨next, oldRefers, rfl⟩ := List.mem_map.mp refers
      exact ⟨next, .reference targetLeads present oldRefers, rfl⟩
  · rintro ⟨target, leads, rfl⟩
    exact carries.leads leads

theorem Carries.storedBytes (carries : Carries before after source move)
    {number : Bignum} {bytes : Bytes} (leads : before.Leads source target)
    (found : before.objects.find? target.address = some (.bigInteger number))
    (stored : number.storedBytes before = .ok bytes) :
    (number.moveStorage move).storedBytes after = .ok bytes := by
  cases isStart : number.storage with
  | none =>
    simpa only [Bignum.storedBytes, Bignum.moveStorage, isStart,
      Option.map_none] using stored
  | some start =>
    simp only [Bignum.storedBytes, Bignum.moveStorage, isStart,
      Option.map_some] at stored ⊢
    split at stored
    · rw [if_pos ‹_›]
      exact stored
    · rw [if_neg ‹_›]
      obtain ⟨content, within, rfl⟩ := Except.map_eq_ok_iff.mp stored
      obtain ⟨blob, inside⟩ := payloadWithin_eq_ok_iff.mp within
      have refers : start.buffer ∈ (Object.bigInteger number).kept := by
        simp [Object.kept, Object.digitBuffer, isStart]
      exact payload_eq_ok (carries.moved (.reference leads found refers) blob)
        inside

theorem Carries.denotes (carries : Carries before after source move)
    (leads : before.Leads source target)
    (denotes : before.Denotes target cell) :
    after.Denotes (move target) cell := by
  cases cell with
  | bytes content => exact carries.moved leads denotes
  | integer value =>
    obtain ⟨number, found, read⟩ := denotes
    refine ⟨_, carries.moved leads found, ?_⟩
    obtain ⟨magnitude, readMagnitude, rfl⟩ := Except.map_eq_ok_iff.mp read
    obtain ⟨bytes, stored, rfl⟩ := Except.map_eq_ok_iff.mp readMagnitude
    rw [Bignum.value, Bignum.magnitude, carries.storedBytes leads found stored]
    rfl
  | iterator content position =>
    obtain ⟨buffer, array, blob⟩ := denotes
    refine ⟨move buffer, carries.moved leads array, ?_⟩
    exact carries.moved
      (.reference leads array (List.mem_append_left _ List.mem_cons_self)) blob

/-! ## One move after another -/

theorem Carries.trans (earlier : Carries before middle source first)
    (later : Carries middle after (first source) second) :
    Carries before after source (second ∘ first) where
  moved := by
    intro target object leads found
    rw [← Object.relocate_relocate]
    exact later.moved (earlier.leads leads) (earlier.moved leads found)
  apart := by
    intro left right leftLeads rightLeads leftHeld rightHeld same
    refine earlier.apart leftLeads rightLeads leftHeld rightHeld ?_
    exact later.apart (earlier.leads leftLeads) (earlier.leads rightLeads)
      (earlier.holds leftLeads leftHeld) (earlier.holds rightLeads rightHeld)
      same

/-- Where all objects stay, nothing moves. -/
theorem carries_of_kept (kept : ∀ {address object},
      before.objects.find? address = some object →
        after.objects.find? address = some object) (source : Handle) :
    Carries before after source id where
  moved := by
    intro target object _ found
    rw [Object.relocate_id]
    exact kept found
  apart := fun _ _ _ _ same => same

theorem Carries.refl (heap : Heap) (source : Handle) :
    Carries heap heap source id :=
  carries_of_kept (fun found => found) source

section Compaction

variable {marked : List Nat}

/-- A compaction carries everything that the roots reach. -/
theorem carries_compact (layout : heap.SoundLayout)
    (marks : ∀ {address}, address ∈ marked ↔ heap.Reaches address)
    (reached : heap.Reaches source.address) :
    Carries heap (heap.compact marked) source (heap.forwarding marked).apply
    where
  moved := fun leads found =>
    layout.find?_compact_apply found (marks.mpr (leads.reaches reached))
  apart := by
    rintro left right leftLeads rightLeads ⟨_, leftFound⟩ ⟨_, rightFound⟩ same
    have leftMarked := marks.mpr (leftLeads.reaches reached)
    have rightMarked := marks.mpr (rightLeads.reaches reached)
    refine Handle.ext
      (eq_of_destination_eq leftFound leftMarked rightFound rightMarked ?_)
    rw [← layout.apply_movesTo marked left, ← layout.apply_movesTo marked right,
      same]

/-- A reached object denotes the same cell after a compaction. -/
theorem Denotes.compact (denotes : heap.Denotes source cell)
    (layout : heap.SoundLayout)
    (marks : ∀ {address}, address ∈ marked ↔ heap.Reaches address)
    (reached : heap.Reaches source.address) :
    (heap.compact marked).Denotes ((heap.forwarding marked).apply source)
      cell :=
  (carries_compact layout marks reached).denotes .self denotes

end Compaction

end Heap

end ManagedHeap
