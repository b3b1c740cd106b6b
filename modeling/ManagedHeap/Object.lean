import ManagedHeap.Bignum.Basic
import ManagedHeap.Bytes
import ManagedHeap.Tag

/-!
# Heap objects

Heap objects: one constructor for each tag, each with its own fields. The
constructor decides the size of the object and which of its fields are
references.
-/

namespace ManagedHeap

/-- A heap object. A blob is a byte buffer: text, opaque bytes or the digits
of a bignum; its length word is their number. -/
inductive Object where
  | invalid
  | record (hash : Handle) (fields : List Word)
  | objectIndirection (field : Word)
  | array (elements : List Word)
  | reference (value : UInt32)
  | int (value : Int64)
  | mutableBox (field : Word)
  | closure (function : UInt32) (captured : List Word)
  | optional (field : Word)
  | variant (label : UInt32) (field : Word)
  | blob (bytes : Bytes)
  | indirection (field : Word)
  | smallWord (value : UInt32)
  | bigInteger (number : Bignum)
  deriving DecidableEq

namespace Object

/-! ## Tag and size -/

def tag : Object → Tag
  | .invalid => .invalid
  | .record .. => .record
  | .objectIndirection _ => .objectIndirection
  | .array _ => .array
  | .reference _ => .reference
  | .int _ => .int
  | .mutableBox _ => .mutableBox
  | .closure .. => .closure
  | .optional _ => .optional
  | .variant .. => .variant
  | .blob _ => .blob
  | .indirection _ => .indirection
  | .smallWord _ => .smallWord
  | .bigInteger _ => .bigInteger

/-- The length word of an object, which has 32 bits. Of a greater length it
keeps the low bits. -/
def lengthWord (length : Nat) : Nat :=
  length % 2 ^ 32

theorem lengthWord_le (length : Nat) : lengthWord length ≤ length :=
  Nat.mod_le ..

/-- What the length word has is there. -/
theorem le_of_le_lengthWord {count length : Nat}
    (recorded : count ≤ lengthWord length) : count ≤ length :=
  Nat.le_trans recorded (lengthWord_le length)

theorem lengthWord_le_maxAddress (length : Nat) :
    lengthWord length ≤ maxAddress :=
  Nat.le_sub_one_of_lt (Nat.mod_lt length (by decide))

theorem lengthWord_of_le {length : Nat} (short : length ≤ maxAddress) :
    lengthWord length = length :=
  Nat.mod_eq_of_lt (by simp only [maxAddress] at short; omega)

theorem lengthWord_mono {shorter longer : Nat} (ordered : shorter ≤ longer)
    (short : longer ≤ maxAddress) :
    lengthWord shorter ≤ lengthWord longer := by
  rwa [lengthWord_of_le (Nat.le_trans ordered short), lengthWord_of_le short]

/-- Words of a byte buffer with `length` bytes of payload. -/
def blobWords (length : Nat) : Nat :=
  2 + bytesToWords length

theorem blobWords_mono {shorter longer : Nat} (ordered : shorter ≤ longer) :
    blobWords shorter ≤ blobWords longer := by
  simp only [blobWords, bytesToWords, Positional.ceilDiv, wordSize]
  omega

/-- The words of an object, tag word included, when a length counts for as
many elements or bytes as `count` says. -/
def wordsBy (count : Nat → Nat) : Object → Nat
  | .invalid => 1
  | .record _ fields => 3 + count fields.length
  | .array elements => 2 + count elements.length
  | .closure _ captured => 3 + count captured.length
  | .int _ => 3
  | .variant .. => 3
  | .objectIndirection _ => 2
  | .reference _ => 2
  | .mutableBox _ => 2
  | .optional _ => 2
  | .indirection _ => 2
  | .smallWord _ => 2
  | .blob bytes => blobWords (count bytes.size)
  | .bigInteger _ => 5

/-- The size of an object in words, tag word included, going by its length
word. The sum is a natural number here. Where 32-bit arithmetic would overflow,
the size is one that fits into no heap. -/
def sizeInWords (object : Object) : Nat :=
  object.wordsBy lengthWord

def size (object : Object) : Nat :=
  wordSize * object.sizeInWords

/-- The bytes that all of an object takes up, whatever its length word has
room for. -/
def fullSize (object : Object) : Nat :=
  wordSize * object.wordsBy id

theorem wordsBy_pos (object : Object) (count : Nat → Nat) :
    0 < object.wordsBy count := by
  cases object <;> simp only [wordsBy, blobWords] <;> omega

theorem size_pos (object : Object) : 0 < object.size :=
  Nat.mul_pos (by decide) (object.wordsBy_pos lengthWord)

theorem fullSize_pos (object : Object) : 0 < object.fullSize :=
  Nat.mul_pos (by decide) (object.wordsBy_pos id)

theorem size_le_fullSize (object : Object) : object.size ≤ object.fullSize := by
  refine Nat.mul_le_mul_left wordSize ?_
  cases object with
  | record hash fields => exact Nat.add_le_add_left (lengthWord_le _) 3
  | array elements => exact Nat.add_le_add_left (lengthWord_le _) 2
  | closure function captured => exact Nat.add_le_add_left (lengthWord_le _) 3
  | blob bytes => exact blobWords_mono (lengthWord_le _)
  | _ => exact Nat.le_refl _

@[simp]
theorem fullSize_blob (bytes : Bytes) :
    (blob bytes).fullSize = wordSize * blobWords bytes.size := rfl

/-- Buffers of one length have one size. -/
theorem size_blob_congr {left right : Bytes} (same : left.size = right.size) :
    (blob left).size = (blob right).size :=
  congrArg (fun length => wordSize * blobWords (lengthWord length)) same

theorem size_blob {bytes : Bytes} (short : bytes.size ≤ maxAddress) :
    (blob bytes).size = (blob bytes).fullSize :=
  congrArg (wordSize * blobWords ·) (lengthWord_of_le short)

/-- Of `2 ^ 32` bytes the length word has none. -/
theorem size_blob_of_long {bytes : Bytes} (long : bytes.size = 2 ^ 32) :
    (blob bytes).size = 8 :=
  congrArg (fun length => wordSize * blobWords (lengthWord length)) long

theorem size_blob_mono {shorter longer : Bytes}
    (ordered : shorter.size ≤ longer.size) (short : longer.size ≤ maxAddress) :
    (blob shorter).size ≤ (blob longer).size :=
  Nat.mul_le_mul_left wordSize (blobWords_mono (lengthWord_mono ordered short))

/-- An object with a place in the address range has its length in its length
word. -/
theorem size_eq_fullSize {object : Object}
    (short : object.fullSize ≤ maxAddress) : object.size = object.fullSize := by
  have recorded : ∀ {length}, length ≤ object.fullSize →
      lengthWord length = length :=
    fun le => lengthWord_of_le (Nat.le_trans le short)
  refine congrArg (wordSize * ·) ?_
  cases object with
  | record hash fields =>
    refine congrArg (3 + ·) (recorded ?_)
    simp only [fullSize, wordsBy, wordSize, id]
    omega
  | array elements =>
    refine congrArg (2 + ·) (recorded ?_)
    simp only [fullSize, wordsBy, wordSize, id]
    omega
  | closure function captured =>
    refine congrArg (3 + ·) (recorded ?_)
    simp only [fullSize, wordsBy, wordSize, id]
    omega
  | blob bytes =>
    refine congrArg blobWords (recorded ?_)
    simp only [fullSize_blob, blobWords, bytesToWords, wordSize,
      Positional.ceilDiv]
    omega
  | _ => rfl

/-! ## References -/

/-- The fields of an object that may hold references. -/
def fields : Object → List Word
  | .record _ fields => fields
  | .array elements => elements
  | .closure _ captured => captured
  | .objectIndirection field => [field]
  | .mutableBox field => [field]
  | .optional field => [field]
  | .indirection field => [field]
  | .variant _ field => [field]
  | .invalid => []
  | .reference _ => []
  | .int _ => []
  | .blob _ => []
  | .smallWord _ => []
  | .bigInteger _ => []

/-- The references of an object in visiting order: its fields, then the hash
of a record. The digit storage of a bignum is not among them. -/
def pointers (object : Object) : List Handle :=
  object.fields.filterMap Word.handle? ++
    match object with
    | .record hash _ => [hash]
    | _ => []

/-- Changes every reference of an object and nothing else. -/
def mapPointers (change : Handle → Handle) : Object → Object
  | .record hash fields =>
    .record (change hash) (fields.map (Word.mapHandle change))
  | .array elements => .array (elements.map (Word.mapHandle change))
  | .closure function captured =>
    .closure function (captured.map (Word.mapHandle change))
  | .objectIndirection field => .objectIndirection (field.mapHandle change)
  | .mutableBox field => .mutableBox (field.mapHandle change)
  | .optional field => .optional (field.mapHandle change)
  | .indirection field => .indirection (field.mapHandle change)
  | .variant label field => .variant label (field.mapHandle change)
  | .invalid => .invalid
  | .reference value => .reference value
  | .int value => .int value
  | .blob bytes => .blob bytes
  | .smallWord value => .smallWord value
  | .bigInteger number => .bigInteger number

/-! ## Visitors -/

section Visiting

variable {m : Type → Type} [Monad m]

/-- Visits the reference in a word and stores what the visitor answers. -/
def visitWord (visitor : Handle → m Handle) : Word → m Word
  | .scalar value => return .scalar value
  | .pointer target => return .pointer (← visitor target)

/-- Visits the references of an object where they are stored: the hash of a
record first, then its fields from the first to the last. -/
def visitPointers (visitor : Handle → m Handle) : Object → m Object
  | .record hash fields => do
    let newHash ← visitor hash
    return .record newHash (← fields.mapM (visitWord visitor))
  | .objectIndirection field =>
    return .objectIndirection (← visitWord visitor field)
  | .array elements => return .array (← elements.mapM (visitWord visitor))
  | .mutableBox field => return .mutableBox (← visitWord visitor field)
  | .closure function captured =>
    return .closure function (← captured.mapM (visitWord visitor))
  | .optional field => return .optional (← visitWord visitor field)
  | .variant label field => return .variant label (← visitWord visitor field)
  | .indirection field => return .indirection (← visitWord visitor field)
  | .invalid => return .invalid
  | .reference value => return .reference value
  | .int value => return .int value
  | .blob bytes => return .blob bytes
  | .smallWord value => return .smallWord value
  | .bigInteger number => return .bigInteger number

end Visiting

/-! ## Digit buffers and relocation -/

/-- The byte buffer that holds the digits of a bignum. -/
def digitBuffer : Object → Option Handle
  | .bigInteger number => number.storage.map PayloadPointer.buffer
  | _ => none

/-- Moves an object's references and the digit storage of a bignum. -/
def relocate (change : Handle → Handle) : Object → Object
  | .bigInteger number => .bigInteger (number.moveStorage change)
  | object => object.mapPointers change

end Object

end ManagedHeap
