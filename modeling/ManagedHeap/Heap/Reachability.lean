import ManagedHeap.Heap.Roots

/-!
# Reachability

Which addresses the roots reach, as a relation that no traversal order enters.

A reached address need not hold an object: a root or a reference may dangle.
Every property that the roots have, and that each object hands on to all it
refers to, holds for every reached address (`Reaches.of_closed`).
-/

namespace ManagedHeap

/-- All that an object keeps alive: its references and the buffer of its
digits. -/
def Object.kept (object : Object) : List Handle :=
  object.pointers ++ object.digitBuffer.toList

namespace Heap

/-- The roots reach an address: a root refers to it, or an object at a reached
address does. -/
inductive Reaches (heap : Heap) : Nat → Prop where
  | root {handle : Handle} (held : handle ∈ heap.liveRoots) :
      heap.Reaches handle.address
  | reference {address : Nat} {object : Object} {target : Handle}
      (reached : heap.Reaches address)
      (found : heap.objects.find? address = some object)
      (refers : target ∈ object.kept) :
      heap.Reaches target.address

/-- A set of addresses that holds the targets of all roots and of all
references from within it holds every reached address. -/
theorem Reaches.of_closed {heap : Heap} {inside : Nat → Prop}
    (roots : ∀ handle ∈ heap.liveRoots, inside handle.address)
    (closed : ∀ address object, inside address →
      heap.objects.find? address = some object →
      ∀ target ∈ object.kept, inside target.address)
    {address : Nat} (reached : heap.Reaches address) :
    inside address := by
  induction reached with
  | root held => exact roots _ held
  | reference _ found refers inductionHypothesis =>
    exact closed _ _ inductionHypothesis found _ refers

end Heap

end ManagedHeap
