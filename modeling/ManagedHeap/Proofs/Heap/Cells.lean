import ManagedHeap.BlobIterator
import ManagedHeap.Proofs.BigInteger.Results
import ManagedHeap.Proofs.Heap.Additions

/-!
# Cells

What objects hold for a host, with addresses left out (`Cell`). An object
denotes a cell in a heap, and goes on denoting it when objects are added
(`Denotes.grows`).

An operation makes a cell (`Makes`) when it answers a new object that denotes
the cell. What it makes and what it takes from the heap depend on what it
reads there, never on addresses.
-/

namespace ManagedHeap

/-! ## Cells -/

/-- What an object holds, apart from addresses: bytes, an integer, or the
bytes that an iterator runs over and its position. -/
inductive Cell where
  | bytes (content : Bytes)
  | integer (value : Int)
  | iterator (content : Bytes) (position : UInt32)
  deriving DecidableEq

namespace Cell

def tag : Cell → Tag
  | .bytes _ => .blob
  | .integer _ => .bigInteger
  | .iterator .. => .array

def asBytes : Cell → Except Error Bytes
  | .bytes content => .ok content
  | cell => .error (.tagMismatch .blob cell.tag)

def asInteger : Cell → Except Error Int
  | .integer value => .ok value
  | cell => .error (.tagMismatch .bigInteger cell.tag)

/-- The bytes and the position of a cell that holds an iterator. -/
def asIterator : Cell → Except Error (Bytes × UInt32)
  | .iterator content position => .ok (content, position)
  | cell => .error (.tagMismatch .array cell.tag)

end Cell

namespace Heap

variable {heap before after : Heap} {handle : Handle} {cell : Cell}

/-! ## Reading cells -/

def integer (heap : Heap) (handle : Handle) : Except Error Int := do
  let number ← heap.bignum handle
  number.value heap

/-- The bytes that an iterator runs over, and its position. -/
def iteration (heap : Heap) (handle : Handle) :
    Except Error (Bytes × UInt32) := do
  let (buffer, position) ← BlobIterator.state handle heap
  let bytes ← heap.blob buffer
  return (bytes, position)

theorem integer_eq_ok_iff {value : Int} :
    heap.integer handle = .ok value ↔ heap.Integer handle value := by
  simp only [integer, Except.bind_eq_ok_iff, bignum_eq_ok_iff, Integer]

/-- An object with another tag than an array is no iterator. -/
theorem state_eq_tagMismatch {object : Object}
    (found : heap.objects.find? handle.address = some object)
    (other : object.tag ≠ .array) :
    BlobIterator.state handle heap =
      .error (.tagMismatch .array object.tag) := by
  rw [BlobIterator.state, find_eq_ok_iff.mpr found]
  cases object with
  | array elements => exact absurd rfl other
  | _ => rfl

theorem Regular.exists_integer (regular : heap.Regular) {number : Bignum}
    (found : heap.objects.find? handle.address = some (.bigInteger number)) :
    ∃ value, heap.Integer handle value := by
  obtain ⟨digits, read, _⟩ := (regular.bignums found).exists_digits
  exact ⟨_, number, found, value_of_digits read⟩

/-! ## Denotation -/

/-- The object of a handle holds a cell. -/
def Denotes (heap : Heap) (handle : Handle) : Cell → Prop
  | .bytes content => heap.objects.find? handle.address = some (.blob content)
  | .integer value => heap.Integer handle value
  | .iterator content position => ∃ buffer,
    heap.objects.find? handle.address =
      some (.array [.pointer buffer, .scalar position]) ∧
      heap.objects.find? buffer.address = some (.blob content)

/-- What a cell is denoted by is an object with its tag. -/
theorem Denotes.exists_object (denotes : heap.Denotes handle cell) :
    ∃ object, heap.objects.find? handle.address = some object ∧
      object.tag = cell.tag := by
  cases cell with
  | bytes content => exact ⟨_, denotes, rfl⟩
  | integer value =>
    obtain ⟨number, found, _⟩ := denotes
    exact ⟨_, found, rfl⟩
  | iterator content position =>
    obtain ⟨buffer, found, _⟩ := denotes
    exact ⟨_, found, rfl⟩

theorem Denotes.blob_eq (denotes : heap.Denotes handle cell) :
    heap.blob handle = cell.asBytes := by
  obtain ⟨object, found, tag⟩ := denotes.exists_object
  cases cell with
  | bytes content => exact blob_eq_ok_iff.mpr denotes
  | integer value =>
    rw [blob_eq_tagMismatch found (by simp [tag, Cell.tag]), tag]
    rfl
  | iterator content position =>
    rw [blob_eq_tagMismatch found (by simp [tag, Cell.tag]), tag]
    rfl

theorem Denotes.integer_eq (denotes : heap.Denotes handle cell) :
    heap.integer handle = cell.asInteger := by
  obtain ⟨object, found, tag⟩ := denotes.exists_object
  cases cell with
  | integer value => exact integer_eq_ok_iff.mpr denotes
  | bytes content =>
    rw [integer, bignum_eq_tagMismatch found (by simp [tag, Cell.tag]), tag]
    rfl
  | iterator content position =>
    rw [integer, bignum_eq_tagMismatch found (by simp [tag, Cell.tag]), tag]
    rfl

theorem Denotes.iteration_eq (denotes : heap.Denotes handle cell) :
    heap.iteration handle = cell.asIterator := by
  obtain ⟨object, found, tag⟩ := denotes.exists_object
  cases cell with
  | iterator content position =>
    obtain ⟨buffer, array, blob⟩ := denotes
    have state : BlobIterator.state handle heap = .ok (buffer, position) := by
      rw [BlobIterator.state, find_eq_ok_iff.mpr array]
    rw [iteration, state]
    show (heap.blob buffer >>= fun bytes => pure (bytes, position)) = _
    rw [blob_eq_ok_iff.mpr blob]
    rfl
  | bytes content =>
    rw [iteration, state_eq_tagMismatch found (by simp [tag, Cell.tag]), tag]
    rfl
  | integer value =>
    rw [iteration, state_eq_tagMismatch found (by simp [tag, Cell.tag]), tag]
    rfl

theorem Denotes.grows (denotes : before.Denotes handle cell)
    (regular : before.Regular)
    (grows : before.Grows after) : after.Denotes handle cell := by
  cases cell with
  | bytes content => exact grows.found denotes
  | integer value => exact Integer.grows regular denotes grows
  | iterator content position =>
    obtain ⟨buffer, array, blob⟩ := denotes
    exact ⟨buffer, grows.found array, grows.found blob⟩

theorem Denotes.withRoots (denotes : heap.Denotes handle cell)
    (roots : List (Option Handle)) :
    Denotes { heap with roots } handle cell := by
  cases cell <;> exact denotes

/-! ## Making cells -/

/-- The cost of an operation whose operand may not be readable; then nothing
is taken. -/
def charge {α : Type} (operand : Except Error α) (cost : α → Nat) : Nat :=
  match operand with
  | .ok value => cost value
  | .error _ => 0

/-- An operation answers a new object for the cell of `result` and takes
`cost` bytes from the heap, or fails with the error of `result` after it took
them, or for want of them. -/
def Makes (operation : HeapM Handle) (heap : Heap) (result : Except Error Cell)
    (cost : Nat) : Prop :=
  Ensures operation heap
    (fun handle after =>
      ∃ cell, result = .ok cell ∧ after.Regular ∧ heap.Grows after ∧
      handle.address = heap.pointer ∧ after.Denotes handle cell ∧
        after.pointer = heap.pointer + cost)
    (fun error after => after.Regular ∧ heap.Grows after ∧
      (result = .error error ∧ after.pointer = heap.pointer + cost ∨
        error.IsOutOfMemory ∧ heap.Lacks cost))

variable {operation : HeapM Handle} {result : Except Error Cell} {cost : Nat}

theorem Makes.onlyAdds (makes : Makes operation heap result cost) :
    OnlyAdds operation heap :=
  Ensures.mono makes (fun _ _ ⟨_, _, regular, grows, _⟩ => ⟨regular, grows⟩)
    fun _ _ ⟨regular, grows, _⟩ => ⟨regular, grows⟩

theorem makes_throw (regular : heap.Regular) (error : Error) :
    Makes (throw error) heap (.error error) 0 :=
  ⟨regular, .refl _ _, Or.inl ⟨rfl, rfl⟩⟩

theorem makes_of_read_eq_error {α : Type} {reader : Heap → Except Error α}
    {next : α → HeapM Handle} {error : Error} (regular : heap.Regular)
    (failed : reader heap = .error error) :
    Makes (HeapM.inspect reader >>= next) heap (.error error) 0 := by
  unfold Makes
  rw [ensures_bind, ensures_inspect, failed]
  refine ⟨(nomatch ·, ·), ?_⟩
  rintro _ ⟨⟩
  exact ⟨regular, .refl _ _, Or.inl ⟨rfl, rfl⟩⟩

/-- What is made after a read is what is made from the value that was read. -/
theorem makes_read {α : Type} {reader : Heap → Except Error α}
    {next : α → HeapM Handle}
    {result : α → Except Error Cell} {cost : α → Nat} (regular : heap.Regular)
    (rest : ∀ value, reader heap = .ok value →
      Makes (next value) heap (result value) (cost value)) :
    Makes (HeapM.inspect reader >>= next) heap (reader heap >>= result)
      (charge (reader heap) cost) := by
  cases read : reader heap with
  | ok value => exact Ensures.read read (rest value read)
  | error error => exact makes_of_read_eq_error regular read

/-- A request for space makes what the new object denotes. -/
theorem Allots.makes {object : Object}
    (allots : Allots operation heap object fun handle answer => answer = handle)
    (regular : heap.Regular)
    (held : ∀ target ∈ object.pointers, heap.Holds target)
    (unclaimed : ∀ number, object = .bigInteger number → number = .empty)
    (denotes : ∀ handle : Handle, handle.address = heap.pointer →
      (heap.push object).Denotes handle cell) :
    Makes operation heap (.ok cell) object.fullSize := by
  refine Ensures.mono allots ?_ ?_
  · rintro answer _ ⟨fits, rfl, answers⟩
    have atPointer := Handle.address_ofAddress fits.pointer_lt
    obtain rfl := answers _ atPointer
    exact ⟨cell, rfl, regular.push fits held unclaimed,
      regular.tidy.bounded.grows_push object,
      atPointer, denotes _ atPointer, fits.pointer_push⟩
  · rintro _ _ ⟨noFit, rfl, outOfMemory⟩
    exact ⟨regular, .refl _ _, Or.inr ⟨outOfMemory, lacks_of_not_fits noFit⟩⟩

theorem makes_allocBlobFrom (regular : heap.Regular) (bytes : Bytes) :
    Makes (allocBlobFrom bytes) heap (.ok (.bytes bytes))
      (Object.blob bytes).fullSize := by
  refine (allots_allocBlobFrom heap bytes).makes regular
    (by simp [Object.pointers, Object.fields]) (by simp) fun handle atPointer =>
      ?_
  show Store.find? _ handle.address = _
  rw [atPointer]
  exact find?_push_self heap _

end Heap

end ManagedHeap
