import ManagedHeap.Object

/-!
# The object store

The objects of a heap by address, kept in address order.

`find?` reads the store, `insert` adds or replaces one object, and the lemmas
say what each insertion changes for `find?`. Adding an object above all others
appends it (`entries_insert_of_lt`).
-/

namespace ManagedHeap

/-- Ascending addresses, no address twice. -/
def Ascending (entries : List (Nat × Object)) : Prop :=
  entries.Pairwise fun left right => left.1 < right.1

/-- Objects by address, in address order. -/
@[ext]
structure Store where
  entries : List (Nat × Object)
  ascending : Ascending entries

namespace Store

/-! ## Insertion in order -/

/-- Puts an object at an address, before the first entry with a higher address
and in place of an entry with the same address. -/
def insertEntry (address : Nat) (object : Object) :
    List (Nat × Object) → List (Nat × Object)
  | [] => [(address, object)]
  | (head, present) :: tail =>
    if address < head then
      (address, object) :: (head, present) :: tail
    else if address = head then
      (address, object) :: tail
    else
      (head, present) :: insertEntry address object tail

theorem mem_insertEntry {address : Nat} {object : Object}
    {entries : List (Nat × Object)} {entry : Nat × Object}
    (member : entry ∈ insertEntry address object entries) :
    entry = (address, object) ∨ entry ∈ entries := by
  induction entries with
  | nil => exact Or.inl (by simpa [insertEntry] using member)
  | cons first tail inductionHypothesis =>
    unfold insertEntry at member
    split at member
    · simpa using member
    · split at member
      · rcases List.mem_cons.mp member with equal | inTail
        · exact Or.inl equal
        · exact Or.inr (List.mem_cons_of_mem _ inTail)
      · rcases List.mem_cons.mp member with equal | inTail
        · exact Or.inr (equal ▸ List.mem_cons_self)
        · exact (inductionHypothesis inTail).imp_right (List.mem_cons_of_mem _)

theorem ascending_insertEntry (address : Nat) (object : Object)
    {entries : List (Nat × Object)} (order : Ascending entries) :
    Ascending (insertEntry address object entries) := by
  induction entries with
  | nil => simp [insertEntry, Ascending]
  | cons first tail inductionHypothesis =>
    obtain ⟨headOrder, tailOrder⟩ := List.pairwise_cons.mp order
    unfold insertEntry
    split
    · rename_i below
      refine List.pairwise_cons.mpr ⟨fun entry member => ?_, order⟩
      rcases List.mem_cons.mp member with equal | inTail
      · exact equal ▸ below
      · exact Nat.lt_trans below (headOrder entry inTail)
    · split
      · rename_i equal
        exact List.pairwise_cons.mpr
          ⟨fun entry member => equal ▸ headOrder entry member, tailOrder⟩
      · rename_i notBelow notEqual
        refine List.pairwise_cons.mpr
          ⟨fun entry member => ?_, inductionHypothesis tailOrder⟩
        rcases mem_insertEntry member with equal | inTail
        · subst equal
          show first.1 < address
          omega
        · exact headOrder entry inTail

/-! ## Look-up -/

/-- The object at an address among some entries. -/
def lookupEntry (address : Nat) : List (Nat × Object) → Option Object
  | [] => none
  | (head, present) :: tail =>
    if address = head then some present else lookupEntry address tail

/-! ## The store -/

def empty : Store :=
  ⟨[], List.Pairwise.nil⟩

def find? (store : Store) (address : Nat) : Option Object :=
  lookupEntry address store.entries

def insert (store : Store) (address : Nat) (object : Object) : Store :=
  ⟨insertEntry address object store.entries,
    ascending_insertEntry address object store.ascending⟩

def size (store : Store) : Nat :=
  store.entries.length

/-! ## What insertion changes -/

private theorem lookupEntry_insertEntry (address other : Nat) (object : Object)
    (entries : List (Nat × Object)) :
    lookupEntry other (insertEntry address object entries) =
      if other = address then some object else lookupEntry other entries := by
  induction entries with
  | nil => rfl
  | cons first tail inductionHypothesis =>
    obtain ⟨head, present⟩ := first
    unfold insertEntry
    split
    · rfl
    · split
      · rename_i atHead
        subst atHead
        by_cases same : other = address <;> simp [lookupEntry, same]
      · rename_i notAtHead
        by_cases same : other = address
        · subst same
          simp [lookupEntry, notAtHead, inductionHypothesis]
        · simp [lookupEntry, same, inductionHypothesis]

/-- An insertion changes what is found at its own address and nowhere else. -/
theorem find?_insert (store : Store) (address other : Nat) (object : Object) :
    (store.insert address object).find? other =
      if other = address then some object else store.find? other :=
  lookupEntry_insertEntry address other object store.entries

private theorem insertEntry_of_lt {address : Nat} (object : Object)
    {entries : List (Nat × Object)}
    (above : ∀ entry ∈ entries, entry.1 < address) :
    insertEntry address object entries = entries ++ [(address, object)] := by
  induction entries with
  | nil => rfl
  | cons first tail inductionHypothesis =>
    have headBelow := above first List.mem_cons_self
    unfold insertEntry
    rw [if_neg (by omega), if_neg (by omega),
      inductionHypothesis fun entry member =>
        above entry (List.mem_cons_of_mem _ member)]
    rfl

/-- An object above all others is appended. -/
theorem entries_insert_of_lt {store : Store} {address : Nat} (object : Object)
    (above : ∀ entry ∈ store.entries, entry.1 < address) :
    (store.insert address object).entries =
      store.entries ++ [(address, object)] :=
  insertEntry_of_lt object above

theorem lookupEntry_eq_some_iff {entries : List (Nat × Object)}
    (order : Ascending entries)
    {address : Nat} {object : Object} :
    lookupEntry address entries = some object ↔
      (address, object) ∈ entries := by
  induction entries with
  | nil => simp [lookupEntry]
  | cons first tail inductionHypothesis =>
    obtain ⟨head, present⟩ := first
    obtain ⟨headOrder, tailOrder⟩ := List.pairwise_cons.mp order
    by_cases atHead : address = head
    · subst atHead
      simp only [lookupEntry, ↓reduceIte, Option.some.injEq, List.mem_cons,
        Prod.mk.injEq, true_and]
      constructor
      · exact fun equal => Or.inl equal.symm
      · rintro (equal | inTail)
        · exact equal.symm
        · exact absurd (headOrder _ inTail) (Nat.lt_irrefl _)
    · simp [lookupEntry, atHead, inductionHypothesis tailOrder]

/-- Reading the store finds exactly its entries. -/
theorem find?_eq_some_iff {store : Store} {address : Nat} {object : Object} :
    store.find? address = some object ↔ (address, object) ∈ store.entries :=
  lookupEntry_eq_some_iff store.ascending

end Store

end ManagedHeap
