/-!
# Bytes

Byte sequences in consecutive memory. Reading and writing a few bytes of a
long sequence does not walk through it.

A sequence is known by its list of bytes: two with the same list are equal
(`ext`), and for each operation one equation says what list it leaves.
-/

namespace ManagedHeap

/-- A byte sequence. -/
structure Bytes where
  content : ByteArray

namespace Bytes

/-! ## The list of bytes -/

def toList (bytes : Bytes) : List UInt8 :=
  bytes.content.data.toList

def ofList (values : List UInt8) : Bytes :=
  ⟨values.toByteArray⟩

@[ext]
theorem ext {left right : Bytes} (same : left.toList = right.toList) :
    left = right := by
  obtain ⟨⟨leftArray⟩⟩ := left
  obtain ⟨⟨rightArray⟩⟩ := right
  obtain rfl : leftArray = rightArray := Array.toList_inj.mp same
  rfl

@[simp]
theorem toList_ofList (values : List UInt8) :
    (ofList values).toList = values := by
  simp only [toList, ofList, List.data_toByteArray]

@[simp]
theorem ofList_toList (bytes : Bytes) : ofList bytes.toList = bytes :=
  ext (toList_ofList bytes.toList)

/-- Sequences are compared byte by byte. -/
instance : DecidableEq Bytes := fun left right =>
  decidable_of_iff (left.toList = right.toList) ⟨ext, congrArg toList⟩

instance : Repr Bytes where
  reprPrec bytes precedence := reprPrec bytes.toList precedence

/-! ## Length and single bytes -/

def size (bytes : Bytes) : Nat :=
  bytes.content.size

def get? (bytes : Bytes) (position : Nat) : Option UInt8 :=
  if h :
    position < bytes.content.size then some bytes.content[position] else none

@[simp]
theorem length_toList (bytes : Bytes) : bytes.toList.length = bytes.size := rfl

@[simp]
theorem size_ofList (values : List UInt8) :
    (ofList values).size = values.length := by
  rw [← length_toList, toList_ofList]

theorem get?_eq (bytes : Bytes) (position : Nat) :
    bytes.get? position = bytes.toList[position]? := by
  unfold get?
  split
  · rename_i inside
    exact (List.getElem?_eq_getElem (l := bytes.toList) inside).symm
  · rename_i outside
    exact (List.getElem?_eq_none (Nat.le_of_not_lt outside)).symm

/-! ## Whole sequences -/

def empty : Bytes :=
  ⟨ByteArray.empty⟩

@[simp]
theorem toList_empty : empty.toList = [] := rfl

/-- Zeros in memory, doubled until there are enough. -/
def zeroContent (count : Nat) : ByteArray :=
  if count = 0 then
    ByteArray.empty
  else
    let half := zeroContent (count / 2)
    if count % 2 = 0 then half ++ half else (half ++ half).push 0
termination_by count

private theorem toList_zeroContent (count : Nat) :
    (zeroContent count).data.toList = List.replicate count 0 := by
  fun_induction zeroContent count with
  | case1 => rfl
  | case2 count positive half even inductionHypothesis =>
    rw [ByteArray.data_append, Array.toList_append, inductionHypothesis,
      List.replicate_append_replicate]
    congr 1
    omega
  | case3 count positive half odd inductionHypothesis =>
    rw [ByteArray.data_push, Array.toList_push, ByteArray.data_append,
      Array.toList_append,
      inductionHypothesis, List.replicate_append_replicate,
      ← List.replicate_succ']
    congr 1
    omega

/-- A sequence of zeros. -/
def zeros (count : Nat) : Bytes :=
  ⟨zeroContent count⟩

@[simp]
theorem toList_zeros (count : Nat) :
    (zeros count).toList = List.replicate count 0 :=
  toList_zeroContent count

@[simp]
theorem size_zeros (count : Nat) : (zeros count).size = count := by
  rw [← length_toList, toList_zeros, List.length_replicate]

/-! ## Parts -/

/-- The bytes from `offset` on, at most `count` of them. -/
def slice (bytes : Bytes) (offset count : Nat) : Bytes :=
  ⟨bytes.content.extract offset (offset + count)⟩

def take (bytes : Bytes) (count : Nat) : Bytes :=
  bytes.slice 0 count

/-- The sequence with `fresh` written over the bytes from `offset` on. -/
def overwrite (bytes : Bytes) (offset : Nat) (fresh : Bytes) : Bytes :=
  ⟨fresh.content.copySlice 0 bytes.content offset fresh.content.size⟩

@[simp]
theorem toList_slice (bytes : Bytes) (offset count : Nat) :
    (bytes.slice offset count).toList =
      (bytes.toList.drop offset).take count := by
  simp only [slice, toList, ByteArray.data_extract, Array.toList_extract,
    List.extract_eq_take_drop, Nat.add_sub_cancel_left]

@[simp]
theorem toList_take (bytes : Bytes) (count : Nat) :
    (bytes.take count).toList = bytes.toList.take count := by
  rw [take, toList_slice, List.drop_zero]

@[simp]
theorem toList_overwrite (bytes : Bytes) (offset : Nat) (fresh : Bytes) :
    (bytes.overwrite offset fresh).toList =
      bytes.toList.take offset ++ fresh.toList ++
        bytes.toList.drop (offset + fresh.size) := by
  have whole :
      fresh.content.data.toList.take fresh.content.size =
        fresh.content.data.toList :=
    List.take_of_length_le (Nat.le_refl _)
  have rest :
      (bytes.content.data.toList.drop (offset + fresh.content.size)).take
          (bytes.content.size - (offset + fresh.content.size)) =
        bytes.content.data.toList.drop (offset + fresh.content.size) :=
    List.take_of_length_le (Nat.le_of_eq List.length_drop)
  simp [overwrite, toList, size, ByteArray.copySlice, whole, rest]

theorem size_take (bytes : Bytes) (count : Nat) :
    (bytes.take count).size = min count bytes.size := by
  rw [← length_toList, toList_take, List.length_take, length_toList]

/-- Writing inside a sequence keeps its size. -/
theorem size_overwrite {bytes : Bytes} {offset : Nat} {fresh : Bytes}
    (inside : offset + fresh.size ≤ bytes.size) :
    (bytes.overwrite offset fresh).size = bytes.size := by
  rw [← length_toList, toList_overwrite, List.length_append, List.length_append,
    List.length_take, List.length_drop, length_toList, length_toList]
  omega

end Bytes

end ManagedHeap
