/-!
# Tags

The closed set of heap object tags, their words and their names.
-/

namespace ManagedHeap

/-- What kind of object stands at a heap address. -/
inductive Tag where
  | invalid
  | record
  | objectIndirection
  | array
  | reference
  | int
  | mutableBox
  | closure
  | optional
  | variant
  | blob
  | indirection
  | smallWord
  | bigInteger
  deriving DecidableEq, Repr

namespace Tag

def all : List Tag :=
  [.invalid, .record, .objectIndirection, .array, .reference, .int, .mutableBox,
    .closure,
    .optional, .variant, .blob, .indirection, .smallWord, .bigInteger]

/-- The tag word that generated code writes. -/
def toWord : Tag → Nat
  | .invalid => 0
  | .record => 1
  | .objectIndirection => 2
  | .array => 3
  | .reference => 4
  | .int => 5
  | .mutableBox => 6
  | .closure => 7
  | .optional => 8
  | .variant => 9
  | .blob => 10
  | .indirection => 11
  | .smallWord => 12
  | .bigInteger => 13

/-- The tag of a tag word. -/
def ofWord? (word : Nat) : Option Tag :=
  all[word]?

def name : Tag → String
  | .invalid => "Invalid"
  | .record => "Object"
  | .objectIndirection => "ObjInd"
  | .array => "Array"
  | .reference => "Reference"
  | .int => "Int"
  | .mutableBox => "MutBox"
  | .closure => "Closure"
  | .optional => "Some"
  | .variant => "Variant"
  | .blob => "Blob"
  | .indirection => "Indirection"
  | .smallWord => "SmallWord"
  | .bigInteger => "BigInt"

/-- The tag words number the tags. -/
theorem ofWord?_toWord (tag : Tag) : ofWord? tag.toWord = some tag := by
  cases tag <;> rfl

end Tag

end ManagedHeap
