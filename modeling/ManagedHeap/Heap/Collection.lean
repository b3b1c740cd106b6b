import ManagedHeap.Heap.Check
import ManagedHeap.Heap.Marking

/-!
# Collection

Collection: reachable objects slide down to the base in address order, all
others are dropped, and every reference, digit pointer and root follows the
object that it refers to.

`collect` runs at once; `scheduleCollect` runs only when the heap has grown
enough since the last collection.
-/

namespace ManagedHeap

/-! ## Forwarding -/

/-- Where objects move: pairs of an old and a new address. -/
abbrev Forwarding := List (Nat × Nat)

namespace Forwarding

/-- New addresses for some entries, packed without gaps from `target` on. -/
def pack (target : Nat) : List (Nat × Object) → Forwarding
  | [] => []
  | (address, object) :: rest =>
    (address, target) :: pack (target + object.size) rest

/-- The new address of the object at an old address. -/
def find? : Forwarding → Nat → Option Nat
  | [], _ => none
  | (old, new) :: rest, address =>
    if address = old then some new else find? rest address

/-- The handle of the same object after the move. A handle of no moving object
stays as it is. -/
def apply (forwarding : Forwarding) (handle : Handle) : Handle :=
  match forwarding.find? handle.address with
  | some address => Handle.ofAddress address
  | none => handle

def moved (forwarding : Forwarding) : Nat :=
  forwarding.countP fun pair => pair.1 != pair.2

end Forwarding

namespace Store

/-! ## Compaction -/

/-- The entries that are marked, in address order. -/
def survivors (store : Store) (marked : List Nat) : List (Nat × Object) :=
  store.entries.filter fun entry => marked.contains entry.1

/-- Bytes that some entries take up. -/
def totalSize (entries : List (Nat × Object)) : Nat :=
  entries.foldr (fun entry total => entry.2.size + total) 0

/-- Some entries packed without gaps from `target` on, each object changed by
`change`. -/
def packEntries (change : Handle → Handle) (target : Nat) :
    List (Nat × Object) → List (Nat × Object)
  | [] => []
  | (_, object) :: rest =>
    (target, object.relocate change) :: packEntries change
    (target + object.size) rest

theorem le_of_mem_packEntries (change : Handle → Handle) {target : Nat}
    {entries : List (Nat × Object)} {entry : Nat × Object}
    (member : entry ∈ packEntries change target entries) :
    target ≤ entry.1 := by
  induction entries generalizing target with
  | nil => simp [packEntries] at member
  | cons first tail inductionHypothesis =>
    simp only [packEntries, List.mem_cons] at member
    rcases member with equal | inTail
    · subst equal
      exact Nat.le_refl _
    · exact Nat.le_trans (Nat.le_add_right _ _) (inductionHypothesis inTail)

theorem ascending_packEntries (change : Handle → Handle) (target : Nat)
    (entries : List (Nat × Object)) :
    Ascending (packEntries change target entries) := by
  induction entries generalizing target with
  | nil => exact List.Pairwise.nil
  | cons first tail inductionHypothesis =>
    refine List.pairwise_cons.mpr ⟨fun entry member =>
      ?_, inductionHypothesis _⟩
    have above := le_of_mem_packEntries change member
    have positive := first.2.size_pos
    show target < entry.1
    omega

/-- The store of some packed entries. -/
def ofPacked (change : Handle → Handle) (target : Nat)
    (entries : List (Nat × Object)) : Store :=
  ⟨packEntries change target entries,
    ascending_packEntries change target entries⟩

end Store

/-! ## Collection -/

/-- The outcome of a collection: bytes kept, bytes given back, objects that
changed address. -/
structure CollectionStats where
  live : Nat
  reclaimed : Nat
  moved : Nat
  deriving DecidableEq, Repr

namespace Heap

def forwarding (heap : Heap) (marked : List Nat) : Forwarding :=
  Forwarding.pack heap.base (heap.objects.survivors marked)

/-- The heap with the marked objects only, packed from the base on. -/
def compact (heap : Heap) (marked : List Nat) : Heap :=
  let survivors := heap.objects.survivors marked
  let change := (heap.forwarding marked).apply
  { heap with
    objects := Store.ofPacked change heap.base survivors
    pointer := heap.base + Store.totalSize survivors
    roots := heap.roots.map (Option.map change)
    lastLive := Store.totalSize survivors }

/-- Drops everything that the roots do not reach and compacts the rest. The
heap is left alone when marking fails. -/
def collect : HeapM CollectionStats := do
  let before ← get
  let marked ← HeapM.inspect (·.mark)
  let after := before.compact marked
  set after
  if before.config.checkAfterCollection then
    HeapM.inspect (·.check)
  return {
    live := after.size
    reclaimed := before.size - after.size
    moved := (before.forwarding marked).moved }

/-! ## Scheduling -/

/-- The size at which a collection is due: the live size plus half of it or
the configured growth, whichever is more, within the 32-bit range. -/
def collectionThreshold (heap : Heap) : Nat :=
  min (heap.lastLive + max (heap.lastLive / 2) heap.config.minGrowth.toNat)
    maxAddress

def shouldCollect (heap : Heap) : Bool :=
  heap.collectionThreshold ≤ heap.size

/-- Collects when a collection is due. -/
def scheduleCollect : HeapM (Option CollectionStats) := do
  if (← get).shouldCollect then
    return some (← collect)
  else
    return none

end Heap

end ManagedHeap
