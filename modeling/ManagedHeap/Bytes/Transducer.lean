import ManagedHeap.Bytes

/-!
# Byte by byte

Passes over a byte sequence from its first byte to its last, with a state that
each byte may change.

Each pass does what the same pass over the list of bytes does: `foldl_eq`,
`all_eq` and `toList_transduceOnto`.
-/

namespace ManagedHeap.Bytes

/-! ## Passes -/

/-- Takes in the bytes from `position` on, one after the other. -/
@[specialize]
def foldFrom {σ : Type} (step : σ → UInt8 → σ) (bytes : Bytes) (position : Nat)
    (state : σ) : σ :=
  if h : position < bytes.content.size then
    foldFrom step bytes (position + 1) (step state bytes.content[position])
  else
    state
termination_by bytes.content.size - position

@[inline]
def foldl {σ : Type} (step : σ → UInt8 → σ) (start : σ) (bytes : Bytes) : σ :=
  foldFrom step bytes 0 start

private theorem foldFrom_eq {σ : Type} (step : σ → UInt8 → σ) (bytes : Bytes)
    (position : Nat) (state : σ) :
    foldFrom step bytes position state =
      (bytes.toList.drop position).foldl step state := by
  fun_induction foldFrom step bytes position state with
  | case1 position state inside inductionHypothesis =>
    have first : bytes.toList.drop position =
        bytes.content[position] :: bytes.toList.drop (position + 1) :=
      List.drop_eq_getElem_cons (l := bytes.toList) inside
    rw [inductionHypothesis, first, List.foldl_cons]
  | case2 position state outside =>
    have exhausted : bytes.toList.drop position = [] :=
      List.drop_eq_nil_of_le (Nat.le_of_not_lt outside)
    rw [exhausted, List.foldl_nil]

theorem foldl_eq {σ : Type} (step : σ → UInt8 → σ) (start : σ) (bytes : Bytes) :
    bytes.foldl step start = bytes.toList.foldl step start := by
  rw [foldl, foldFrom_eq, List.drop_zero]

def all (test : UInt8 → Bool) (bytes : Bytes) : Bool :=
  bytes.foldl (fun holds byte => holds && test byte) true

theorem all_eq (test : UInt8 → Bool) (bytes : Bytes) :
    bytes.all test = bytes.toList.all test := by
  have general (values : List UInt8) (before : Bool) :
      values.foldl (fun holds byte => holds && test byte) before =
        (before && values.all test) := by
    induction values generalizing before with
    | nil => simp
    | cons head tail inductionHypothesis =>
      rw [List.foldl_cons, inductionHypothesis, List.all_cons, Bool.and_assoc]
  rw [all, foldl_eq, general, Bool.true_and]

/-! ## Bytes for each byte -/

def pushAll (bytes : Bytes) (values : List UInt8) : Bytes :=
  ⟨values.foldl ByteArray.push bytes.content⟩

@[simp]
theorem toList_pushAll (bytes : Bytes) (values : List UInt8) :
    (bytes.pushAll values).toList = bytes.toList ++ values := by
  have general (content : ByteArray) :
      (values.foldl ByteArray.push content).data.toList =
        content.data.toList ++ values := by
    induction values generalizing content with
    | nil => simp
    | cons head tail inductionHypothesis =>
      rw [List.foldl_cons, inductionHypothesis, ByteArray.data_push,
        Array.toList_push,
        List.append_assoc, List.singleton_append]
  exact general bytes.content

/-- What a step writes for a list of bytes, from a state on. -/
def expand {σ : Type} (step : σ → UInt8 → σ × List UInt8) (state : σ) :
    List UInt8 → List UInt8
  | [] => []
  | head :: tail => (step state head).2 ++ expand step (step state head).1 tail

/-- What a step writes for all bytes after what `written` holds, from a state
on. -/
@[inline]
def transduceOnto {σ : Type} (step : σ → UInt8 → σ × List UInt8) (state : σ)
    (bytes written : Bytes) : Bytes :=
  (bytes.foldl
    (fun (current, output) byte =>
      let (next, values) := step current byte
      (next, pushAll output values))
    (state, written)).2

@[simp]
theorem toList_transduceOnto {σ : Type} (step : σ → UInt8 → σ × List UInt8)
    (state : σ)
    (bytes written : Bytes) :
    (bytes.transduceOnto step state written).toList =
      written.toList ++ expand step state bytes.toList := by
  rw [transduceOnto, foldl_eq]
  induction bytes.toList generalizing state written with
  | nil => simp [expand]
  | cons head tail inductionHypothesis =>
    rw [List.foldl_cons, inductionHypothesis, toList_pushAll, expand,
      List.append_assoc]

end ManagedHeap.Bytes
