import ManagedHeap.Object

/-!
# References of objects

An object is its tag, its plain part, the hash of a record and its fields
(`Object.eq_of_parts`). Changing references changes the hash and those fields
that refer to something; the other parts stay. So the laws of changing follow
part by part, and a visitor that passes through an object meets each of its
references once (`Object.run_visitPointers`).
-/

namespace ManagedHeap

variable {change : Handle → Handle}

/-! ## Words -/

namespace Word

private theorem mapHandle_id (word : Word) : word.mapHandle id = word := by
  cases word <;> rfl

private theorem mapHandle_mapHandle (first second : Handle → Handle)
    (word : Word) :
    (word.mapHandle first).mapHandle second =
      word.mapHandle (second ∘ first) := by
  cases word <;> rfl

private theorem filterMap_handle?_map (words : List Word) :
    (words.map (mapHandle change)).filterMap handle? =
      (words.filterMap handle?).map change := by
  rw [List.filterMap_map, List.map_filterMap]
  congr 1
  funext word
  exact word.handle?_mapHandle change

theorem mapHandle_eq_scalar_iff {word : Word} {value : UInt32} :
    word.mapHandle change = .scalar value ↔ word = .scalar value := by
  cases word <;> simp [mapHandle]

theorem mapHandle_eq_pointer_iff {word : Word} {moved : Handle} :
    word.mapHandle change = .pointer moved ↔
      ∃ target, word = .pointer target ∧ change target = moved := by
  cases word <;> simp [mapHandle]

end Word

namespace Object

/-! ## Parts -/

/-- What an object holds that can be no reference: a number beside its fields,
the payload of a byte buffer, or the control structure of a bignum. -/
inductive Plain where
  | nothing
  | word (value : UInt32)
  | integer (value : Int64)
  | payload (bytes : Bytes)
  | control (number : Bignum)

def plain : Object → Plain
  | .invalid => .nothing
  | .record .. => .nothing
  | .objectIndirection _ => .nothing
  | .array _ => .nothing
  | .reference value => .word value
  | .int value => .integer value
  | .mutableBox _ => .nothing
  | .closure function _ => .word function
  | .optional _ => .nothing
  | .variant label _ => .word label
  | .blob bytes => .payload bytes
  | .indirection _ => .nothing
  | .smallWord value => .word value
  | .bigInteger number => .control number

/-- The hash of a record. -/
def hash? : Object → Option Handle
  | .record hash _ => some hash
  | _ => none

theorem eq_of_parts {left right : Object} (sameTag : left.tag = right.tag)
    (samePlain : left.plain = right.plain)
    (sameHash : left.hash? = right.hash?)
    (sameFields : left.fields = right.fields) : left = right := by
  cases left <;> cases right <;> cases sameTag <;>
    simp_all [plain, hash?, fields]

theorem pointers_eq (object : Object) :
    object.pointers =
      object.fields.filterMap Word.handle? ++ object.hash?.toList := by
  cases object <;> rfl

/-! ## Other references -/

@[simp]
theorem tag_mapPointers (object : Object) :
    (object.mapPointers change).tag = object.tag := by
  cases object <;> rfl

@[simp]
theorem plain_mapPointers (object : Object) :
    (object.mapPointers change).plain = object.plain := by
  cases object <;> rfl

@[simp]
theorem hash?_mapPointers (object : Object) :
    (object.mapPointers change).hash? = object.hash?.map change := by
  cases object <;> rfl

@[simp]
theorem fields_mapPointers (object : Object) :
    (object.mapPointers change).fields =
      object.fields.map (Word.mapHandle change) := by
  cases object <;> rfl

@[simp]
theorem sizeInWords_mapPointers (object : Object) :
    (object.mapPointers change).sizeInWords = object.sizeInWords := by
  cases object <;> simp [mapPointers, sizeInWords, wordsBy]

theorem pointers_mapPointers (object : Object) :
    (object.mapPointers change).pointers = object.pointers.map change := by
  rw [pointers_eq, pointers_eq, fields_mapPointers, hash?_mapPointers,
    Word.filterMap_handle?_map, List.map_append, Option.toList_map]

/-- Where no handle changes, no object does. -/
theorem mapPointers_id (object : Object) : object.mapPointers id = object := by
  refine eq_of_parts (tag_mapPointers object) (plain_mapPointers object) ?_ ?_
  · rw [hash?_mapPointers, Option.map_id, id]
  · rw [fields_mapPointers]
    exact List.map_id'' Word.mapHandle_id _

/-- One change after another is one change. -/
theorem mapPointers_mapPointers (first second : Handle → Handle)
    (object : Object) :
    (object.mapPointers first).mapPointers second =
      object.mapPointers (second ∘ first) := by
  refine eq_of_parts (by simp) (by simp) (by simp) ?_
  have words : Word.mapHandle second ∘ Word.mapHandle first =
      Word.mapHandle (second ∘ first) :=
    funext (Word.mapHandle_mapHandle first second)
  rw [fields_mapPointers, fields_mapPointers, fields_mapPointers,
    List.map_map, words]

/-! ## Visiting -/

section Visiting

/-- A visitor that changes each reference and keeps a record of those that it
has met. -/
def recording (change : Handle → Handle) (target : Handle) :
    StateM (List Handle) Handle := do
  modify (· ++ [target])
  return change target

private theorem run_return {α β : Type} {action : StateM (List Handle) α}
    {met later : List Handle} {value : α} (build : α → β)
    (ran : action.run met = (value, later)) :
    (do return build (← action) : StateM (List Handle) β).run met =
      (build value, later) := by
  rw [StateT.run_bind, ran]
  rfl

private theorem run_visitWord (word : Word) (met : List Handle) :
    (visitWord (recording change) word).run met =
      (word.mapHandle change, met ++ [word].filterMap Word.handle?) := by
  cases word with
  | scalar value => exact congrArg _ (List.append_nil met).symm
  | pointer target => rfl

private theorem run_mapM_visitWord (words : List Word) (met : List Handle) :
    (words.mapM (visitWord (recording change))).run met =
      (words.map (Word.mapHandle change),
        met ++ words.filterMap Word.handle?) := by
  induction words generalizing met with
  | nil => exact congrArg _ (List.append_nil met).symm
  | cons head tail inductionHypothesis =>
    have rest := run_return (List.cons (head.mapHandle change))
      (inductionHypothesis (met ++ [head].filterMap Word.handle?))
    rw [List.append_assoc, ← List.filterMap_append] at rest
    rw [List.mapM_cons, StateT.run_bind, run_visitWord]
    exact rest

/-- A visitor meets each reference of an object once, and leaves the object
with other references. -/
theorem run_visitPointers (object : Object) (met : List Handle) :
    (object.visitPointers (recording change)).run met =
      (object.mapPointers change,
        met ++ (object.hash?.toList ++
          object.fields.filterMap Word.handle?)) := by
  have nothing : met = met ++ [] := (List.append_nil met).symm
  cases object with
  | invalid => exact congrArg _ nothing
  | record hash fields =>
    have rest := run_return (record (change hash))
      (@run_mapM_visitWord change fields (met ++ [hash]))
    rw [List.append_assoc] at rest
    exact rest
  | objectIndirection field =>
    exact run_return objectIndirection (run_visitWord field met)
  | array elements => exact run_return array (run_mapM_visitWord elements met)
  | reference value => exact congrArg _ nothing
  | int value => exact congrArg _ nothing
  | mutableBox field => exact run_return mutableBox (run_visitWord field met)
  | closure function captured =>
    exact run_return (closure function) (run_mapM_visitWord captured met)
  | optional field => exact run_return optional (run_visitWord field met)
  | variant label field =>
    exact run_return (variant label) (run_visitWord field met)
  | blob bytes => exact congrArg _ nothing
  | indirection field => exact run_return indirection (run_visitWord field met)
  | smallWord value => exact congrArg _ nothing
  | bigInteger number => exact congrArg _ nothing

end Visiting

/-! ## Redirection -/

/-- The same object, with other references in the places of the old ones. -/
structure Redirects (change : Handle → Handle) (before after : Object) :
    Prop where
  pointers : after.pointers = before.pointers.map change
  references : ∀ (position : Nat) moved,
    after.fields[position]? = some (Word.pointer moved) ↔
      ∃ target, before.fields[position]? = some (Word.pointer target) ∧
        change target = moved
  hash : after.hash? = before.hash?.map change
  scalars : ∀ (position : Nat) value,
    after.fields[position]? = some (Word.scalar value) ↔
      before.fields[position]? = some (Word.scalar value)
  tag : after.tag = before.tag
  size : after.sizeInWords = before.sizeInWords
  plain : after.plain = before.plain

theorem redirects_mapPointers
    (change : Handle → Handle) (object : Object) :
    Redirects change object (object.mapPointers change) where
  pointers := pointers_mapPointers object
  references position moved := by
    simp only [fields_mapPointers, List.getElem?_map, Option.map_eq_some_iff,
      Word.mapHandle_eq_pointer_iff]
    constructor
    · rintro ⟨_, found, target, rfl, isMoved⟩
      exact ⟨target, found, isMoved⟩
    · rintro ⟨target, found, isMoved⟩
      exact ⟨_, found, target, rfl, isMoved⟩
  hash := hash?_mapPointers object
  scalars position value := by
    simp only [fields_mapPointers, List.getElem?_map, Option.map_eq_some_iff,
      Word.mapHandle_eq_scalar_iff, exists_eq_right]
  tag := tag_mapPointers object
  size := sizeInWords_mapPointers object
  plain := plain_mapPointers object

/-- Changing references meets each of them once and changes nothing else;
changes are composed, and the change that does nothing leaves the object as it
is. -/
theorem mapPointers_redirects_once (change : Handle → Handle)
    (object : Object) :
    (∃ visited, visited.Perm object.pointers ∧
      ∀ met, (object.visitPointers (recording change)).run met =
        (object.mapPointers change, met ++ visited)) ∧
    Redirects change object (object.mapPointers change) ∧
    (∀ next, (object.mapPointers change).mapPointers next =
      object.mapPointers (next ∘ change)) ∧
    object.mapPointers id = object := by
  refine ⟨⟨_, ?_, run_visitPointers object⟩,
    redirects_mapPointers change object,
    fun next => mapPointers_mapPointers change next object,
    mapPointers_id object⟩
  rw [pointers_eq]
  exact List.perm_append_comm

end Object

end ManagedHeap
