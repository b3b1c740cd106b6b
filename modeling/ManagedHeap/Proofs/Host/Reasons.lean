import ManagedHeap.Proofs.Host.Arithmetic
import ManagedHeap.Proofs.Host.Isolation
import ManagedHeap.Proofs.Numeral.Grammar

/-!
# Reasons to fail

Why the entry points for big integers fail (`Call.FailsFor`): an operand is no
big integer, an argument is outside the domain of the operation, or memory runs
out. In a reached heap there is no other reason, each call with another reason
than memory does fail, and no error of the layers below comes through
(`reached_failsForReason`).

The reasons are derived from what the operands say about a call
(`Call.verdict`), which is the only error that a call can end with besides
want of memory.
-/

namespace ManagedHeap

/-! ## Reasons -/

/-- An error that no entry point for big integers is documented to report:
those of the payload, of the heap check, of iterators and of the identity
codec, and two of the arithmetic layer. -/
def Error.IsForeign : Error → Prop
  | .payloadBounds .. => True
  | .heapCheck .. => True
  | .iteratorExhausted => True
  | .identity _ => True
  | .arithmetic .outOfMemory => True
  | .arithmetic .iterationLimit => True
  | _ => False

namespace Call

/-- An entry point for big integers. -/
def OnIntegers : Call → Prop
  | .ofUInt32 _ => True
  | .ofInt32 _ => True
  | .ofUInt64 _ => True
  | .ofInt64 _ => True
  | .ofDecimal _ => True
  | .toDecimal _ => True
  | .wrap .. => True
  | .narrow .. => True
  | .compare .. => True
  | .binary .. => True
  | .neg _ => True
  | .abs _ => True
  | .shiftLeft .. => True
  | .isNegative _ => True
  | .bitCount _ => True
  | _ => False

/-- The arguments of an entry point that have to be big integers. -/
def integerOperands : Call → List Handle
  | .toDecimal operand => [operand]
  | .wrap _ operand => [operand]
  | .narrow _ operand => [operand]
  | .compare _ left right => [left, right]
  | .binary _ left right => [left, right]
  | .neg operand => [operand]
  | .abs operand => [operand]
  | .shiftLeft operand _ => [operand]
  | .isNegative operand => [operand]
  | .bitCount operand => [operand]
  | _ => []

/-- A reason for an entry point to fail, and the error that reports it. -/
inductive FailsFor (heap : Heap) : Call → Error → Prop where
  | missing {call : Call} {operand : Handle}
      (reads : operand ∈ call.integerOperands)
      (absent : heap.objects.find? operand.address = none) :
      FailsFor heap call (.invalidHandle operand.raw)
  | otherTag {call : Call} {operand : Handle} {object : Object}
      (reads : operand ∈ call.integerOperands)
      (found : heap.objects.find? operand.address = some object)
      (other : object.tag ≠ .bigInteger) :
      FailsFor heap call (.tagMismatch .bigInteger object.tag)
  | zeroDivisor {operation : BinaryOperation} {left right : Handle}
      (divides : operation = .div ∨ operation = .rem)
      (zero : heap.StandsFor right 0) :
      FailsFor heap (.binary operation left right)
        (.arithmetic .invalidOperand)
  | negativeCount {operand : Handle} {count : Int32}
      (negative : count.toInt < 0) :
      FailsFor heap (.shiftLeft operand count) (.arithmetic .invalidOperand)
  | malformed {text : String}
      (unread : ∀ numeral : RadixNumeral 10, numeral.text ≠ text) :
      FailsFor heap (.ofDecimal text) (.arithmetic .invalidOperand)
  | outOfRange {target : MachineInteger} {operand : Handle} {value : Int}
      (stands : heap.StandsFor operand value)
      (outside : ¬target.InRange value) :
      FailsFor heap (.narrow target operand) (.overflow target)
  | exponent {left right : Handle} {value : Int}
      (stands : heap.StandsFor right value)
      (outside : ¬(0 ≤ value ∧ value < 2 ^ 32)) :
      FailsFor heap (.binary .pow left right) (.overflow .unsigned32)
  | outOfMemory {call : Call} {requested available : Nat}
      (allocates : call.Allocates) :
      FailsFor heap call (.outOfMemory requested available)

variable {heap : Heap} {call : Call} {error : Error}

theorem FailsFor.not_isForeign (fails : FailsFor heap call error) :
    ¬error.IsForeign := by
  cases fails <;> exact id

/-! ## Verdicts -/

/-- What the arguments of an entry point say about it, memory aside. -/
def verdict (heap : Heap) : Call → Except Error Unit
  | .ofDecimal text => (BigInteger.decimalResult text).map fun _ => ()
  | .toDecimal operand => (heap.integer operand).map fun _ => ()
  | .wrap _ operand => (heap.integer operand).map fun _ => ()
  | .narrow target operand =>
    (heap.integer operand >>= target.narrowed).map fun _ => ()
  | .compare _ left right =>
    (heap.integer left >>= fun _ => heap.integer right).map fun _ => ()
  | .binary operation left right =>
    (operation.outcome (heap.integer left) (heap.integer right)).map fun _ => ()
  | .neg operand => (heap.integer operand).map fun _ => ()
  | .abs operand => (heap.integer operand).map fun _ => ()
  | .shiftLeft operand count =>
    (heap.integer operand >>= fun value =>
      BigInteger.shiftResult value count.toInt).map fun _ => ()
  | .isNegative operand => (heap.integer operand).map fun _ => ()
  | .bitCount operand => (heap.integer operand).map fun _ => ()
  | _ => .ok ()

/-- An operation ends as a verdict says, or for want of memory where it may ask
for some. -/
def Follows {α : Type} (operation : HeapM α) (heap : Heap)
    (verdict : Except Error Unit) (mayRunOut : Prop) : Prop :=
  Ensures operation heap (fun _ _ => verdict = .ok ())
    fun error _ => verdict = .error error ∨ error.IsOutOfMemory ∧ mayRunOut

private theorem follows_of_makes {operation : HeapM Handle}
    {result : Except Error Int}
    {cost : Nat} {mayRunOut : Prop} (allocates : mayRunOut)
    (makes : Heap.Makes operation heap (result.map .integer) cost) :
    Follows (Answer.handle <$> operation) heap (result.map fun _ => ())
      mayRunOut := by
  refine ensures_map.mpr (makes.mono ?_ ?_)
  · rintro handle after ⟨cell, made, _⟩
    obtain ⟨value, rfl, _⟩ := Except.map_eq_ok_iff.mp made
    rfl
  · rintro error after ⟨_, _, ⟨failed, _⟩ | ⟨outOfMemory, _⟩⟩
    · rw [Except.map_eq_error_iff] at failed
      exact Or.inl (Except.map_eq_error_iff.mpr failed)
    · exact Or.inr ⟨outOfMemory, allocates⟩

private theorem follows_of_read {α β : Type} {reader : Heap → Except Error α}
    {result : Except Error β} {mayRunOut : Prop}
    (same : (reader heap).map (fun _ => ()) = result.map fun _ => ()) :
    Follows (HeapM.inspect reader) heap (result.map fun _ => ())
      mayRunOut := by
  rw [← same]
  refine ensures_inspect.mpr ⟨fun value read => ?_, fun error failed => ?_⟩
  · rw [read]
    rfl
  · rw [failed]
    exact Or.inl rfl

theorem Follows.map {α β : Type} {operation : HeapM α}
    {verdict : Except Error Unit} {mayRunOut : Prop}
    (follows : Follows operation heap verdict mayRunOut) (change : α → β) :
    Follows (change <$> operation) heap verdict mayRunOut :=
  ensures_map.mpr follows

/-- An answer for every value leaves the errors as they are. -/
theorem map_bind_ok {α β : Type} (action : Except Error α) (answer : α → β) :
    (action >>= fun value => .ok (answer value)).map (fun _ => ()) =
      action.map fun _ => () := by
  cases action <;> rfl

/-- What is read of an integer is refused only with the integer. -/
theorem map_eq_of_read {α : Type} {operand : Handle}
    {read : Except Error α} {answer : Int → α} (regular : heap.Regular)
    (refused : ∀ {error}, heap.bignum operand = .error error →
      read = .error error)
    (answered : ∀ {x}, heap.Integer operand x → read = .ok (answer x)) :
    read.map (fun _ => ()) = (heap.integer operand).map fun _ => () := by
  rw [BigInteger.read_eq regular refused answered]
  exact map_bind_ok ..

/-- Each entry point ends as its verdict says. -/
theorem follows_verdict (call : Call) (regular : heap.Regular)
    (entry : call.OnIntegers) :
    Follows call.perform heap (call.verdict heap) call.Allocates := by
  cases call with
  | ofUInt32 value =>
    exact follows_of_makes trivial
      (BigInteger.builds_ofUInt32 value regular).makes
  | ofInt32 value =>
    exact follows_of_makes trivial
      (BigInteger.builds_ofInt32 value regular).makes
  | ofUInt64 value =>
    exact follows_of_makes trivial
      (BigInteger.builds_ofUInt64 value regular).makes
  | ofInt64 value =>
    exact follows_of_makes trivial
      (BigInteger.builds_ofInt64 value regular).makes
  | ofDecimal text =>
    exact follows_of_makes trivial
      (BigInteger.builds_ofDecimal text regular).makes
  | toDecimal operand =>
    refine (follows_of_read (map_eq_of_read regular ?_
      (BigInteger.toDecimal_eq regular))).map _
    intro error failed
    rw [BigInteger.toDecimal, failed]
    rfl
  | isNegative operand =>
    refine (follows_of_read (map_eq_of_read regular ?_
      (BigInteger.isNegative_eq regular))).map _
    intro error failed
    rw [BigInteger.isNegative, failed]
    rfl
  | bitCount operand =>
    refine (follows_of_read (map_eq_of_read regular ?_
      (BigInteger.bitCount_eq regular))).map _
    intro error failed
    rw [BigInteger.bitCount, failed]
    rfl
  | wrap target operand =>
    refine follows_of_read ?_
    rw [target.wrap_eq_read regular]
    exact map_bind_ok ..
  | narrow target operand =>
    exact follows_of_read (by rw [target.narrow_eq_read regular])
  | compare comparison left right =>
    refine (follows_of_read ?_).map _
    rw [BigInteger.compare_eq_read comparison regular]
    cases heap.integer left <;> cases heap.integer right <;> rfl
  | binary operation left right =>
    exact follows_of_makes trivial (BigInteger.makes_perform operation regular)
  | neg operand =>
    rw [verdict, ← map_bind_ok _ Neg.neg]
    exact follows_of_makes trivial
      (BigInteger.makes_unary regular (BigInteger.builds_neg regular))
  | abs operand =>
    rw [verdict, ← map_bind_ok _ fun x : Int => (x.natAbs : Int)]
    exact follows_of_makes trivial
      (BigInteger.makes_unary regular (BigInteger.builds_abs regular))
  | shiftLeft operand count =>
    exact follows_of_makes trivial (BigInteger.makes_unary regular
      (BigInteger.builds_shiftLeft count.toInt regular))
  | _ => exact entry.elim

/-! ## Verdicts and reasons -/

/-- An operand that has no integer is no big integer. -/
theorem FailsFor.of_integer {operand : Handle} (regular : heap.Regular)
    (reads : operand ∈ call.integerOperands)
    (failed : heap.integer operand = .error error) :
    FailsFor heap call error := by
  cases present : heap.objects.find? operand.address with
  | none =>
    have absent :
        heap.bignum operand = .error (.invalidHandle operand.raw) := by
      simp only [Heap.bignum, Heap.find, present]
    rw [BigInteger.integer_eq_error absent] at failed
    cases failed
    exact .missing reads present
  | some object =>
    by_cases other : object.tag = .bigInteger
    · cases object with
      | bigInteger number =>
        obtain ⟨value, integer⟩ := regular.exists_integer present
        rw [Heap.integer_eq_ok_iff.mpr integer] at failed
        cases failed
      | _ => cases other
    · have mismatched := Heap.bignum_eq_tagMismatch present other
      rw [BigInteger.integer_eq_error mismatched] at failed
      cases failed
      exact .otherTag reads present other

theorem FailsFor.of_only {operand : Handle} (regular : heap.Regular)
    (reads : call.integerOperands = [operand])
    (failed : (heap.integer operand).map (fun _ => ()) = .error error) :
    FailsFor heap call error :=
  .of_integer regular (reads ▸ List.mem_singleton_self operand)
    (Except.map_eq_error_iff.mp failed)

private theorem standsFor_of_integer {operand : Handle} {value : Int}
    (regular : heap.Regular) (read : heap.integer operand = .ok value) :
    heap.StandsFor operand value :=
  ((Heap.integer_eq_ok_iff.mp read).standsNormalisedFor regular).standsFor

/-- The power looks at its exponent first. -/
theorem failsFor_of_pow {left right : Handle} (regular : heap.Regular)
    (failed : BinaryOperation.pow.outcome (heap.integer left)
      (heap.integer right) = .error error) :
    FailsFor heap (.binary .pow left right) error := by
  rw [BinaryOperation.outcome, Except.bind_eq_error_iff] at failed
  rcases failed with noExponent | ⟨value, isExponent, failed⟩
  · exact .of_integer regular (by simp [integerOperands]) noExponent
  · split at failed
    · rw [Except.bind_eq_error_iff] at failed
      rcases failed with noBase | ⟨_, _, impossible⟩
      · exact .of_integer regular (by simp [integerOperands]) noBase
      · cases impossible
    · rename_i outside
      cases failed
      exact .exponent (standsFor_of_integer regular isExponent) outside

/-- Both operands are looked at before the result is. -/
theorem failsFor_of_both {operation : BinaryOperation} {left right : Handle}
    (result : Int → Int → Except Error Int) (regular : heap.Regular)
    (refused : ∀ {x y}, heap.StandsFor right y → result x y = .error error →
      FailsFor heap (.binary operation left right) error)
    (failed : (heap.integer left >>= fun x => heap.integer right >>= result x) =
      .error error) :
    FailsFor heap (.binary operation left right) error := by
  rw [Except.bind_eq_error_iff] at failed
  rcases failed with noLeft | ⟨x, _, failed⟩
  · exact .of_integer regular (by simp [integerOperands]) noLeft
  · rw [Except.bind_eq_error_iff] at failed
    rcases failed with noRight | ⟨y, isRight, failed⟩
    · exact .of_integer regular (by simp [integerOperands]) noRight
    · exact refused (standsFor_of_integer regular isRight) failed

private theorem failsFor_of_division {operation : BinaryOperation}
    {left right : Handle} {x y : Int}
    (divides : operation = .div ∨ operation = .rem)
    (stands : heap.StandsFor right x)
    (failed : Bignum.divisionResult x y = .error error) :
    FailsFor heap (.binary operation left right) error := by
  rw [Bignum.divisionResult] at failed
  split at failed
  · rename_i isZero
    subst isZero
    cases failed
    exact .zeroDivisor divides stands
  · cases failed

private theorem failsFor_of_outcome
    {operation : BinaryOperation} {left right : Handle}
    (regular : heap.Regular)
    (failed : operation.outcome (heap.integer left) (heap.integer right) =
      .error error) :
    FailsFor heap (.binary operation left right) error := by
  cases operation with
  | pow => exact failsFor_of_pow regular failed
  | div =>
    exact failsFor_of_both _ regular
      (fun stands => failsFor_of_division (Or.inl rfl) stands) failed
  | rem =>
    exact failsFor_of_both _ regular
      (fun stands => failsFor_of_division (Or.inr rfl) stands) failed
  | add =>
    exact failsFor_of_both BinaryOperation.add.result regular
      (fun _ impossible => nomatch impossible) failed
  | sub =>
    exact failsFor_of_both BinaryOperation.sub.result regular
      (fun _ impossible => nomatch impossible) failed
  | mul =>
    exact failsFor_of_both BinaryOperation.mul.result regular
      (fun _ impossible => nomatch impossible) failed

/-- What the arguments say against an entry point is a reason. -/
theorem failsFor_of_verdict (regular : heap.Regular)
    (failed : call.verdict heap = .error error) : FailsFor heap call error := by
  cases call with
  | ofDecimal text =>
    rw [verdict, Except.map_eq_error_iff, BigInteger.decimalResult] at failed
    cases read : Numeral.read? 10 text with
    | some value =>
      rw [read] at failed
      cases failed
    | none =>
      rw [read] at failed
      cases failed
      refine .malformed fun numeral isText => ?_
      exact RadixNumeral.read?_eq_none_iff.mp read ⟨by decide, numeral, isText⟩
  | narrow target operand =>
    rw [verdict, Except.map_eq_error_iff, Except.bind_eq_error_iff] at failed
    rcases failed with noOperand | ⟨value, isOperand, failed⟩
    · exact .of_integer regular (by simp [integerOperands]) noOperand
    · rw [MachineInteger.narrowed] at failed
      split at failed
      · cases failed
      · rename_i outside
        cases failed
        exact .outOfRange (standsFor_of_integer regular isOperand) outside
  | shiftLeft operand count =>
    rw [verdict, Except.map_eq_error_iff, Except.bind_eq_error_iff] at failed
    rcases failed with noOperand | ⟨value, _, failed⟩
    · exact .of_integer regular (by simp [integerOperands]) noOperand
    · rw [BigInteger.shiftResult] at failed
      split at failed
      · rename_i negative
        cases failed
        exact .negativeCount negative
      · cases failed
  | compare comparison left right =>
    rw [verdict, Except.map_eq_error_iff, Except.bind_eq_error_iff] at failed
    rcases failed with noLeft | ⟨_, _, noRight⟩
    · exact .of_integer regular (by simp [integerOperands]) noLeft
    · exact .of_integer regular (by simp [integerOperands]) noRight
  | binary operation left right =>
    exact failsFor_of_outcome regular (Except.map_eq_error_iff.mp failed)
  | toDecimal operand => exact .of_only regular rfl failed
  | wrap target operand => exact .of_only regular rfl failed
  | neg operand => exact .of_only regular rfl failed
  | abs operand => exact .of_only regular rfl failed
  | isNegative operand => exact .of_only regular rfl failed
  | bitCount operand => exact .of_only regular rfl failed
  | _ => cases failed

/-- No operation has an outcome without both operands. -/
theorem exists_operands_of_outcome {operation : BinaryOperation}
    {left right : Except Error Int} {value : Int}
    (outcome : operation.outcome left right = .ok value) :
    ∃ x y, left = .ok x ∧ right = .ok y := by
  cases operation with
  | pow =>
    obtain ⟨y, isRight, rest⟩ := Except.bind_eq_ok_iff.mp outcome
    split at rest
    · obtain ⟨x, isLeft, _⟩ := Except.bind_eq_ok_iff.mp rest
      exact ⟨x, y, isLeft, isRight⟩
    · cases rest
  | _ =>
    obtain ⟨x, isLeft, rest⟩ := Except.bind_eq_ok_iff.mp outcome
    obtain ⟨y, isRight, _⟩ := Except.bind_eq_ok_iff.mp rest
    exact ⟨x, y, isLeft, isRight⟩

private theorem exists_integer_of_only {operand other : Handle}
    (reads : operand ∈ [other])
    (accepted : (heap.integer other).map (fun _ => ()) = .ok ()) :
    ∃ value, heap.integer operand = .ok value := by
  obtain ⟨value, read, _⟩ := Except.map_eq_ok_iff.mp accepted
  exact ⟨value, List.mem_singleton.mp reads ▸ read⟩

/-- An entry point that its arguments do not speak against reads integers
only. -/
theorem exists_integer_of_verdict {operand : Handle}
    (accepted : call.verdict heap = .ok ())
    (reads : operand ∈ call.integerOperands) :
    ∃ value, heap.integer operand = .ok value := by
  cases call with
  | compare comparison left right =>
    obtain ⟨y, both, _⟩ := Except.map_eq_ok_iff.mp accepted
    obtain ⟨x, isLeft, isRight⟩ := Except.bind_eq_ok_iff.mp both
    rcases List.mem_pair.mp reads with rfl | rfl
    · exact ⟨x, isLeft⟩
    · exact ⟨y, isRight⟩
  | binary operation left right =>
    obtain ⟨value, outcome, _⟩ := Except.map_eq_ok_iff.mp accepted
    obtain ⟨x, y, isLeft, isRight⟩ := exists_operands_of_outcome outcome
    rcases List.mem_pair.mp reads with rfl | rfl
    · exact ⟨x, isLeft⟩
    · exact ⟨y, isRight⟩
  | narrow target other =>
    obtain ⟨answer, outcome, _⟩ := Except.map_eq_ok_iff.mp accepted
    obtain ⟨value, read, _⟩ := Except.bind_eq_ok_iff.mp outcome
    exact ⟨value, List.mem_singleton.mp reads ▸ read⟩
  | shiftLeft other count =>
    obtain ⟨shifted, outcome, _⟩ := Except.map_eq_ok_iff.mp accepted
    obtain ⟨value, read, _⟩ := Except.bind_eq_ok_iff.mp outcome
    exact ⟨value, List.mem_singleton.mp reads ▸ read⟩
  | toDecimal other => exact exists_integer_of_only reads accepted
  | wrap target other => exact exists_integer_of_only reads accepted
  | neg other => exact exists_integer_of_only reads accepted
  | abs other => exact exists_integer_of_only reads accepted
  | isNegative other => exact exists_integer_of_only reads accepted
  | bitCount other => exact exists_integer_of_only reads accepted
  | _ => cases reads

/-- A reason other than memory is one that the arguments speak of. -/
theorem FailsFor.isOutOfMemory (fails : FailsFor heap call error)
    (accepted : call.verdict heap = .ok ()) : error.IsOutOfMemory := by
  cases fails with
  | missing reads absent =>
    obtain ⟨_, read⟩ := exists_integer_of_verdict accepted reads
    obtain ⟨_, found, _⟩ := Heap.integer_eq_ok_iff.mp read
    rw [absent] at found
    cases found
  | otherTag reads found other =>
    obtain ⟨_, read⟩ := exists_integer_of_verdict accepted reads
    obtain ⟨number, isNumber, _⟩ := Heap.integer_eq_ok_iff.mp read
    rw [found] at isNumber
    obtain rfl := Option.some.inj isNumber
    exact absurd rfl other
  | @zeroDivisor operation left right divides zero =>
    obtain ⟨value, outcome, _⟩ := Except.map_eq_ok_iff.mp accepted
    have isRight := Heap.integer_eq_ok_iff.mpr zero.integer
    obtain ⟨x, _, isLeft, _⟩ := exists_operands_of_outcome outcome
    rw [isLeft, isRight] at outcome
    rcases divides with rfl | rfl <;> cases outcome
  | @negativeCount operand count negative =>
    obtain ⟨shifted, outcome, _⟩ := Except.map_eq_ok_iff.mp accepted
    obtain ⟨value, _, result⟩ := Except.bind_eq_ok_iff.mp outcome
    rw [BigInteger.shiftResult, if_pos negative] at result
    cases result
  | @malformed text unread =>
    obtain ⟨value, read, _⟩ := Except.map_eq_ok_iff.mp accepted
    have noNumeral : Numeral.read? 10 text = none := by
      refine RadixNumeral.read?_eq_none_iff.mpr fun readable => ?_
      obtain ⟨_, numeral, isText⟩ := readable
      exact unread numeral isText
    rw [BigInteger.decimalResult, noNumeral] at read
    cases read
  | @outOfRange target operand value stands outside =>
    obtain ⟨answer, outcome, _⟩ := Except.map_eq_ok_iff.mp accepted
    rw [Heap.integer_eq_ok_iff.mpr stands.integer] at outcome
    have narrowed : target.narrowed value = .ok answer := outcome
    rw [MachineInteger.narrowed, if_neg outside] at narrowed
    cases narrowed
  | @exponent left right value stands outside =>
    obtain ⟨answer, outcome, _⟩ := Except.map_eq_ok_iff.mp accepted
    rw [Heap.integer_eq_ok_iff.mpr stands.integer] at outcome
    have refused : BinaryOperation.pow.outcome (heap.integer left)
        (.ok value) = .error (.overflow .unsigned32) :=
      if_neg outside
    rw [refused] at outcome
    cases outcome
  | outOfMemory => trivial

/-- An entry point fails exactly for one of its reasons, memory aside. -/
theorem ensures_failsFor (call : Call) (regular : heap.Regular)
    (entry : call.OnIntegers) :
    Ensures call.perform heap
      (fun _ _ => ∀ error, FailsFor heap call error → error.IsOutOfMemory)
      fun error _ => FailsFor heap call error := by
  refine (call.follows_verdict regular entry).mono ?_ ?_
  · exact fun _ _ accepted error fails => fails.isOutOfMemory accepted
  · rintro error after (failed | ⟨outOfMemory, allocates⟩)
    · exact failsFor_of_verdict regular failed
    · cases error with
      | outOfMemory requested available => exact .outOfMemory allocates
      | _ => exact outOfMemory.elim

end Call

/-! ## Sessions -/

namespace Session

variable {config : Config} {host : Host} {session : Session}

/-- In a reached heap an entry point for big integers, whatever its arguments
refer to, fails only for one of its reasons, and none that it has other than
memory lets it answer. So no error of another layer is ever reported. -/
theorem reached_failsForReason (reached : Reached config host session)
    (call : Call) (entry : call.OnIntegers) :
    Ensures call.perform session.heap
      (fun _ _ => ∀ error, call.FailsFor session.heap error →
        error.IsOutOfMemory)
      fun error _ => call.FailsFor session.heap error ∧ ¬error.IsForeign :=
  (call.ensures_failsFor reached.regular entry).mono
    (fun _ _ answered => answered)
    fun _ _ fails => ⟨fails, fails.not_isForeign⟩

/-- Minus seven cannot be divided by zero, nor shifted back, nor can its power
to minus seven be taken; and what no object stands at cannot be negated. -/
theorem trappedDivision_failsForReason :
    Reached {} .plain trappedDivision ∧
      ∀ call ∈ [
          Call.binary .div (Handle.ofAddress 0x1002c)
            (Handle.ofAddress 0x10000),
          .shiftLeft (Handle.ofAddress 0x1002c) (-1),
          .binary .pow (Handle.ofAddress 0x1002c) (Handle.ofAddress 0x1002c),
          .neg (Handle.ofAddress 0x20000)],
        ∃ error after,
          call.perform trappedDivision.heap = .error error after ∧
          call.FailsFor trappedDivision.heap error ∧ ¬error.IsForeign := by
  refine ⟨reached_trappedDivision, fun call listed => ?_⟩
  have fails : HeapM.returns call.perform trappedDivision.heap = false := by
    revert call
    decide +kernel
  have entry : call.OnIntegers := by
    simp only [List.mem_cons, List.not_mem_nil, or_false] at listed
    rcases listed with rfl | rfl | rfl | rfl <;> trivial
  have reasons := reached_failsForReason reached_trappedDivision call entry
  cases outcome : call.perform trappedDivision.heap with
  | ok answer after =>
    rw [HeapM.returns, outcome] at fails
    cases fails
  | error error after => exact ⟨error, after, rfl, reasons.of_error outcome⟩

end Session

end ManagedHeap
