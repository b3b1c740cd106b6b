import ManagedHeap.Heap.Roots

/-!
# Marking

Marking: the addresses of all objects that the roots reach.

An object is marked when a root or a reference of a marked object leads to it,
and a byte buffer also when it holds the digits of a marked bignum. Marking
ends because each object is expanded once: `pendingWork` counts the references
of the objects not marked yet.
-/

namespace ManagedHeap.Store

/-! ## Work left -/

/-- What the unmarked objects among some entries can still add to the
worklist. -/
def pendingWork (marked : List Nat) : List (Nat × Object) → Nat
  | [] => 0
  | (address, object) :: rest =>
    (if address ∈ marked then 0 else 1 + object.pointers.length) +
      pendingWork marked rest

private theorem pendingWork_mono {marked more : List Nat}
    (contained : ∀ address ∈ marked, address ∈ more)
    (entries : List (Nat × Object)) :
    pendingWork more entries ≤ pendingWork marked entries := by
  induction entries with
  | nil => exact Nat.le_refl _
  | cons first tail inductionHypothesis =>
    obtain ⟨address, object⟩ := first
    simp only [pendingWork]
    by_cases before : address ∈ marked
    · simp only [before, contained address before, ↓reduceIte]
      omega
    · by_cases after : address ∈ more <;>
        simp only [before, after, ↓reduceIte] <;> omega

private theorem pendingWork_marked {marked more : List Nat}
    (contained : ∀ address ∈ marked, address ∈ more)
    {address : Nat} {object : Object} {entries : List (Nat × Object)}
    (found : lookupEntry address entries = some object)
    (unmarked : address ∉ marked) (nowMarked : address ∈ more) :
    pendingWork more entries + object.pointers.length <
      pendingWork marked entries := by
  induction entries with
  | nil => simp [lookupEntry] at found
  | cons first tail inductionHypothesis =>
    obtain ⟨head, present⟩ := first
    simp only [lookupEntry] at found
    simp only [pendingWork]
    split at found
    · rename_i atHead
      subst atHead
      obtain rfl := Option.some.inj found
      have rest := pendingWork_mono contained tail
      simp only [unmarked, nowMarked, ↓reduceIte]
      omega
    · have rest := inductionHypothesis found
      by_cases before : head ∈ marked
      · simp only [before, contained head before, ↓reduceIte]
        omega
      · by_cases after : head ∈ more <;>
          simp only [before, after, ↓reduceIte] <;> omega

/-! ## The worklist -/

/-- The address of the digit buffer that the object at `address` keeps alive,
if it has one. It has to be a byte buffer. -/
def digitBufferAddress (store : Store) (address : Nat) (object : Object) :
    Except Error (List Nat) :=
  match object.digitBuffer with
  | none => .ok []
  | some buffer =>
    match store.find? buffer.address with
    | none => .error (.invalidHandle buffer.raw)
    | some (.blob _) => .ok [buffer.address]
    | some other => .error (.heapCheck address (.storageTag other.tag))

/-- Marks all that the handles on the worklist reach. The worklist is a stack:
the reference pushed last is followed first. -/
def markFrom (store : Store) (marked : List Nat) :
    List Handle → Except Error (List Nat)
  | [] => .ok marked
  | handle :: rest =>
    if _ : handle.address ∈ marked then
      markFrom store marked rest
    else
      match _ : store.find? handle.address with
      | none => .error (.invalidHandle handle.raw)
      | some object =>
        match store.digitBufferAddress handle.address object with
        | .error error => .error error
        | .ok buffers =>
          markFrom store (buffers ++ handle.address :: marked)
            (object.pointers.reverse ++ rest)
termination_by worklist => pendingWork marked store.entries + worklist.length
decreasing_by
  · simp only [List.length_cons]
    omega
  · have lessWork :
        pendingWork (buffers ++ handle.address :: marked) store.entries +
            object.pointers.length <
          pendingWork marked store.entries :=
      pendingWork_marked (fun address member => by simp [member]) ‹_› ‹_›
        (by simp)
    simp only [List.length_append, List.length_reverse, List.length_cons]
    omega

end ManagedHeap.Store

namespace ManagedHeap.Heap

/-- The addresses of all objects that the roots reach. The last root is
followed first. -/
def mark (heap : Heap) : Except Error (List Nat) :=
  heap.objects.markFrom [] heap.liveRoots.reverse

end ManagedHeap.Heap
