import ManagedHeap.Heap.Basic

/-!
# Roots

The table of roots. A root keeps its slot until it is removed, and an empty
slot is filled again before the table grows.
-/

namespace ManagedHeap

abbrev RootSlot := Nat

namespace Roots

/-- Fills the first empty slot, or a new one at the end: the slot, and the
table after it. -/
def add (handle : Handle) :
    List (Option Handle) → RootSlot × List (Option Handle)
  | [] => (0, [some handle])
  | none :: rest => (0, some handle :: rest)
  | some held :: rest =>
    let (slot, filled) := add handle rest
    (slot + 1, some held :: filled)

def find? (roots : List (Option Handle)) (slot : RootSlot) : Option Handle :=
  (roots[slot]?).join

def remove (roots : List (Option Handle)) (slot : RootSlot) :
    List (Option Handle) :=
  roots.set slot none

end Roots

namespace Heap

/-- Makes a handle a root: it and all that it reaches survive collections. -/
def addRoot (handle : Handle) : HeapM RootSlot :=
  modifyGet fun heap =>
    let (slot, roots) := Roots.add handle heap.roots
    (slot, { heap with roots })

def root (heap : Heap) (slot : RootSlot) : Option Handle :=
  Roots.find? heap.roots slot

/-- Empties a slot and returns what it held. -/
def removeRoot (slot : RootSlot) : HeapM (Option Handle) :=
  modifyGet fun heap =>
    (heap.root slot, { heap with roots := Roots.remove heap.roots slot })

/-- The roots in slot order. -/
def liveRoots (heap : Heap) : List Handle :=
  heap.roots.filterMap id

end Heap

end ManagedHeap
