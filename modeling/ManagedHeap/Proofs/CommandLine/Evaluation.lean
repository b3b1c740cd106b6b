import Mathlib.Algebra.Order.Ring.Int
import Mathlib.Data.Nat.Size
import ManagedHeap.Proofs.BigInteger.Construction
import ManagedHeap.Proofs.CommandLine.Commands

/-!
# Evaluation on decimal operands

What each operation writes, as a function of the integers that its operands
spell (`Operation.line`), which operands it refuses (`Operation.refusal?`), and
what it takes from the heap (`Operation.demand`).
-/

namespace ManagedHeap

/-! ## Lengths in bits -/

theorem Positional.bitLength_eq_size (number : Nat) :
    bitLength number = number.size := by
  apply eq_of_forall_ge_iff
  intro width
  rw [bitLength_le_iff, Nat.size_le]

namespace CommandLine

open BigInteger (allocationSize shiftCost)
open Bignum (growth)

/-! ## What an operation makes of its operands -/

/-- The line that an operation writes for two integers. -/
def Operation.line : Operation → Int → Int → String
  | .binary .add, x, y => toString (x + y)
  | .binary .sub, x, y => toString (x - y)
  | .binary .mul, x, y => toString (x * y)
  | .binary .div, x, y => toString (x.tdiv y)
  | .binary .rem, x, y => toString (x.tmod y)
  | .binary .pow, x, y => toString (x ^ y.toNat)
  | .neg, x, _ => toString (-x)
  | .abs, x, _ => toString x.natAbs
  | .shiftLeft, x, y => toString (x * 2 ^ y.toNat)
  | .compare .equal, x, y => toString (decide (x = y))
  | .compare .less, x, y => toString (decide (x < y))
  | .compare .greater, x, y => toString (decide (x > y))
  | .compare .lessOrEqual, x, y => toString (decide (x ≤ y))
  | .compare .greaterOrEqual, x, y => toString (decide (x ≥ y))
  | .isNegative, x, _ => toString (decide (x < 0))
  | .bitCount, x, _ => toString x.natAbs.size

/-- Why an operation refuses two integers, if it does. -/
def Operation.refusal? : Operation → Int → Int → Option Failure
  | .binary .div, _, y =>
    if y = 0 then some (.trapped (.arithmetic .invalidOperand)) else none
  | .binary .rem, _, y =>
    if y = 0 then some (.trapped (.arithmetic .invalidOperand)) else none
  | .binary .pow, _, y =>
    if 0 ≤ y ∧ y < 2 ^ 32 then none else some (.trapped (.overflow .unsigned32))
  | .shiftLeft, _, y =>
    if y < -2 ^ 31 ∨ 2 ^ 31 ≤ y then
      some (.refused "lsh needs a 32-bit shift count")
    else if y < 0 then
      some (.trapped (.arithmetic .invalidOperand))
    else
      none
  | _, _, _ => none

def Operation.result (operation : Operation) (x y : Int) :
    Except Failure String :=
  match operation.refusal? x y with
  | some failure => .error failure
  | none => .ok (operation.line x y)

/-! ## What an operation takes from the heap -/

/-- Bytes that a numeral takes as a big integer. -/
def numeralDemand (precision : Nat) (value : Int) : Nat :=
  allocationSize precision + growth precision (Digits.count value.natAbs)

/-- Bytes that an operation takes on top of its first operand. -/
def Operation.furtherDemand (precision : Nat) : Operation → Int → Int → Nat
  | .binary operation, x, y =>
    numeralDemand precision y + operation.cost precision x y
  | .compare _, _, y => numeralDemand precision y
  | .neg, x, _ => numeralDemand precision (-x)
  | .abs, x, _ => numeralDemand precision x.natAbs
  | .shiftLeft, x, y =>
    if y < -2 ^ 31 ∨ 2 ^ 31 ≤ y then 0
    else allocationSize precision + shiftCost precision x y
  | .isNegative, _, _ => 0
  | .bitCount, _, _ => 0

/-- Bytes that an operation takes from the heap with its operands. -/
def Operation.demand (precision : Nat) (operation : Operation) (x y : Int) :
    Nat :=
  numeralDemand precision x + operation.furtherDemand precision x y

/-! ## Steps of an evaluation -/

section Steps

variable {heap : Heap} {first : Handle} {x y : Int}

private theorem takes_ofDecimal
    (numeral : DecimalNumeral) (regular : heap.Regular) :
    Takes (BigInteger.ofDecimal numeral.text) heap
      (numeralDemand heap.config.precision.toNat numeral.value)
      fun handle after => after.Regular ∧ heap.Grows after ∧
        after.Integer handle numeral.value := by
  have builds := BigInteger.builds_ofDecimal numeral.text regular
  rw [BigInteger.decimalResult, Numeral.read?_text] at builds
  exact takes_of_builds regular builds

/-- What is written for the result of a computation. -/
def written : Except Error Int → Except Failure String
  | .ok value => .ok (toString value)
  | .error error => .error (.trapped error)

private theorem concludes_decimalOf {operation : HeapM Handle}
    {result : Except Error Int} {cost : Nat} (regular : heap.Regular)
    (builds : BigInteger.Builds operation heap result cost) :
    Concludes (decimalOf operation) heap (written result) cost := by
  rw [decimalOf, perform_bind]
  cases result with
  | error error => exact concludes_of_refused regular builds
  | ok value =>
    have takes := takes_of_builds regular builds
    rw [← Nat.add_zero cost]
    apply takes.concludes
    intro handle after returned
    obtain ⟨afterRegular, _, integer⟩ := returned
    have read := BigInteger.toDecimal_eq afterRegular integer
    rw [Numeral.decimal_eq_toString] at read
    have concludes := concludes_inspect id read
    rwa [id_map] at concludes

private theorem truthText_eq (value : Bool) :
    truthText value = toString value := by
  cases value <;> rfl

private theorem concludes_truth
    {reader : Heap → Except Error Bool} {value : Bool}
    (read : reader heap = .ok value) :
    Concludes (truthText <$> CommandM.perform (HeapM.inspect reader)) heap
      (.ok (toString value)) 0 := by
  rw [← truthText_eq]
  exact concludes_inspect truthText read

private theorem line_compare (comparison : BigInteger.Comparison) (x y : Int) :
    Operation.line (.compare comparison) x y =
      toString (comparison.holds (Ord.compare x y)) := by
  rw [comparison.holds_compare_eq]
  cases comparison <;> rfl

private theorem result_binary (operation : BinaryOperation) (x y : Int) :
    Operation.result (.binary operation) x y =
      written (operation.result x y) := by
  cases operation with
  | div =>
    by_cases zero : y = 0 <;>
      simp [zero, Operation.result, Operation.refusal?, written,
        BinaryOperation.result, Bignum.divisionResult, Operation.line]
  | rem =>
    by_cases zero : y = 0 <;>
      simp [zero, Operation.result, Operation.refusal?, written,
        BinaryOperation.result, Bignum.divisionResult, Operation.line]
  | pow =>
    by_cases inRange : 0 ≤ y ∧ y < 2 ^ 32
    · simp only [Operation.result, Operation.refusal?, written,
        BinaryOperation.result, BigInteger.powResult, if_pos inRange]
      rfl
    · simp only [Operation.result, Operation.refusal?, written,
        BinaryOperation.result, BigInteger.powResult, if_neg inRange]
  | _ => rfl

private theorem result_shiftLeft
    {x y : Int} (low : -2 ^ 31 ≤ y) (high : y < 2 ^ 31) :
    Operation.result .shiftLeft x y = written (BigInteger.shiftResult x y) := by
  have inRange : ¬(y < -2 ^ 31 ∨ 2 ^ 31 ≤ y) := by omega
  by_cases negative : y < 0
  · simp only [Operation.result, Operation.refusal?, if_neg inRange,
      if_pos negative, BigInteger.shiftResult, written]
  · simp only [Operation.result, Operation.refusal?, if_neg inRange,
      if_neg negative, BigInteger.shiftResult, written]
    rfl

private theorem readCount?_text (numeral : DecimalNumeral) :
    readCount? numeral.text =
      if numeral.value < -2 ^ 31 ∨ 2 ^ 31 ≤ numeral.value then none
      else some numeral.value := by
  rw [readCount?, numberWithin?, Numeral.read?_text]
  by_cases outside : numeral.value < -2 ^ 31 ∨ 2 ^ 31 ≤ numeral.value
  · have refused :
        ¬(-2 ^ 31 ≤ numeral.value ∧ numeral.value ≤ 2 ^ 31 - 1) := by omega
    rw [if_pos outside]
    simp only [Option.filter_some, decide_eq_false refused]
    rfl
  · have accepted :
        -2 ^ 31 ≤ numeral.value ∧ numeral.value ≤ 2 ^ 31 - 1 := by omega
    rw [if_neg outside]
    simp only [Option.filter_some, decide_eq_true accepted]
    rfl

end Steps

/-! ## Whole evaluations -/

/-- Operations that do not look at a second operand. -/
def Operation.IsUnary : Operation → Prop
  | .neg | .abs | .isNegative | .bitCount => True
  | _ => False

/-- Some arguments are numerals for the operands that an operation looks at,
and stand for the integers `x` and `y`. -/
inductive Operation.Operands :
    Operation → String → Option String → Int → Int → Prop where
  | two (operation : Operation) (left right : DecimalNumeral) :
      Operands operation left.text (some right.text) left.value right.value
  | one {operation : Operation} (unary : operation.IsUnary)
    (left : DecimalNumeral) (unused : Option String) (y : Int) :
      Operands operation left.text unused left.value y

variable {operation : Operation} {left : String} {right : Option String}
  {heap : Heap} {x y : Int}

theorem Operation.Operands.exists_left
    (operands : operation.Operands left right x y) :
    ∃ numeral : DecimalNumeral, numeral.text = left ∧ numeral.value = x := by
  cases operands with
  | two left right => exact ⟨left, rfl, rfl⟩
  | one _ left => exact ⟨left, rfl, rfl⟩

theorem Operation.Operands.exists_right
    (operands : operation.Operands left right x y)
    (looksAtBoth : ¬operation.IsUnary) :
    ∃ numeral : DecimalNumeral,
      some numeral.text = right ∧ numeral.value = y := by
  cases operands with
  | two left right => exact ⟨right, rfl, rfl⟩
  | one unary => exact absurd unary looksAtBoth

private theorem concludes_shiftLeft {first : Handle} {numeral : DecimalNumeral}
    (regular : heap.Regular) (integer : heap.Integer first x) :
    Concludes
      (readShift (some numeral.text) >>= fun count =>
        decimalOf (BigInteger.shiftLeft first count))
      heap (Operation.result .shiftLeft x numeral.value)
      (Operation.furtherDemand heap.config.precision.toNat .shiftLeft x
        numeral.value) := by
  rw [readShift, Option.bind_some, readCount?_text]
  by_cases outside : numeral.value < -2 ^ 31 ∨ 2 ^ 31 ≤ numeral.value
  · simp only [Operation.result, Operation.refusal?, Operation.furtherDemand,
      if_pos outside]
    exact concludes_throw _
  · have shifted := concludes_decimalOf regular
      (BigInteger.builds_shiftLeft numeral.value regular integer)
    simp only [Operation.furtherDemand, if_neg outside]
    rw [result_shiftLeft (by omega) (by omega)]
    exact shifted

private theorem concludes_compare
    (comparison : BigInteger.Comparison) {first : Handle}
    {numeral : DecimalNumeral} (regular : heap.Regular)
    (integer : heap.Integer first x) :
    Concludes
      (readOperand (some numeral.text) >>= fun second =>
        truthText <$> CommandM.perform
          (HeapM.inspect (BigInteger.compare comparison first second)))
      heap (Operation.result (.compare comparison) x numeral.value)
      (Operation.furtherDemand heap.config.precision.toNat
        (.compare comparison) x numeral.value) := by
  have concludes := (takes_ofDecimal numeral regular).concludes
    (fun second after returned => concludes_truth
      (BigInteger.compare_eq comparison returned.1
        (integer.grows regular returned.2.1) returned.2.2))
  rw [← line_compare] at concludes
  exact concludes

private theorem concludes_binary (operation : BinaryOperation) {first : Handle}
    {numeral : DecimalNumeral} (regular : heap.Regular)
    (integer : heap.Integer first x) :
    Concludes
      (readOperand (some numeral.text) >>= fun second =>
        decimalOf (operation.perform first second))
      heap (Operation.result (.binary operation) x numeral.value)
      (Operation.furtherDemand heap.config.precision.toNat
        (.binary operation) x numeral.value) := by
  rw [result_binary]
  apply (takes_ofDecimal numeral regular).concludes
  intro second after returned
  obtain ⟨afterRegular, grows, secondInteger⟩ := returned
  rw [← grows.config]
  exact concludes_decimalOf afterRegular
    (BigInteger.builds_perform operation afterRegular
      (integer.grows regular grows) secondInteger)

/-- An evaluation writes the line of its operation or refuses its operands,
unless memory runs out. -/
theorem concludes_evaluate (operands : operation.Operands left right x y)
    (regular : heap.Regular) :
    Concludes (evaluate operation left right) heap (operation.result x y)
      (operation.demand heap.config.precision.toNat x y) := by
  obtain ⟨numeral, isLeft, isValue⟩ := operands.exists_left
  rw [← isLeft, ← isValue]
  apply (takes_ofDecimal numeral regular).concludes
  intro first after returned
  obtain ⟨afterRegular, grows, integer⟩ := returned
  rw [← grows.config]
  rw [isValue] at integer ⊢
  cases operation with
  | neg =>
    exact concludes_decimalOf afterRegular
      (BigInteger.builds_neg afterRegular integer)
  | abs =>
    exact concludes_decimalOf afterRegular
      (BigInteger.builds_abs afterRegular integer)
  | isNegative =>
    exact concludes_truth (BigInteger.isNegative_eq afterRegular integer)
  | bitCount =>
    have counted := BigInteger.bitCount_eq afterRegular integer
    rw [Positional.bitLength_eq_size] at counted
    have concludes := concludes_inspect
      (fun bits : Nat => Numeral.decimal bits) counted
    rw [Numeral.decimal_eq_toString] at concludes
    exact concludes
  | shiftLeft =>
    obtain ⟨second, isRight, isSecond⟩ := operands.exists_right not_false
    rw [← isRight, ← isSecond]
    exact concludes_shiftLeft afterRegular integer
  | compare comparison =>
    obtain ⟨second, isRight, isSecond⟩ := operands.exists_right not_false
    rw [← isRight, ← isSecond]
    exact concludes_compare comparison afterRegular integer
  | binary binary =>
    obtain ⟨second, isRight, isSecond⟩ := operands.exists_right not_false
    rw [← isRight, ← isSecond]
    exact concludes_binary binary afterRegular integer

/-- A text that is no numeral is refused, whatever the operation is. -/
theorem concludes_evaluate_malformed (operation : Operation)
    (right : Option String)
    (malformed : ∀ numeral : DecimalNumeral, numeral.text ≠ left)
    (regular : heap.Regular) :
    Concludes (evaluate operation left right) heap
      (.error (.trapped (.arithmetic .invalidOperand)))
      (allocationSize heap.config.precision.toNat) := by
  have builds := BigInteger.builds_ofDecimal left regular
  rw [BigInteger.decimalResult, Numeral.read?_eq_none_iff.mpr malformed]
    at builds
  exact concludes_of_refused regular builds

/-! ## Runs -/

/-- What a run leaves that evaluates an operation within some limits, on
operands that stand for `x` and `y`. -/
inductive Operation.Leaves (operation : Operation) (config : Config)
    (x y : Int) :
    Result → Prop where
  /-- The line of the operation on the output, and nothing else. -/
  | answered (accepted : operation.refusal? x y = none)
    (fits : ¬Exceeds config (operation.demand config.precision.toNat x y)) :
      Leaves operation config x y ⟨0, operation.line x y ++ "\n", ""⟩
  | refused {failure : Failure}
    (refuses : operation.refusal? x y = some failure)
    (fits : ¬Exceeds config (operation.demand config.precision.toNat x y)) :
      Leaves operation config x y ⟨1, "", failure.message ++ "\n"⟩
  | exhausted (requested available : Nat)
    (exceeds : Exceeds config (operation.demand config.precision.toNat x y)) :
      Leaves operation config x y
        ⟨1, "", "trap: " ++ (Error.outOfMemory requested available).message ++
          "\n"⟩

/-- What a run leaves that evaluates an operation within some limits, on a
first operand that is no numeral. -/
inductive LeavesMalformed (config : Config) : Result → Prop where
  | refused (fits : ¬Exceeds config (allocationSize config.precision.toNat)) :
      LeavesMalformed config ⟨1, "", "trap: bigint: invalid operand\n"⟩
  | exhausted (requested available : Nat)
    (exceeds : Exceeds config (allocationSize config.precision.toNat)) :
      LeavesMalformed config
        ⟨1, "", "trap: " ++ (Error.outOfMemory requested available).message ++
          "\n"⟩

private theorem newline_not_mem_line (operation : Operation) (x y : Int) :
    '\n' ∉ (operation.line x y).toList := by
  have truth (value : Bool) : '\n' ∉ (toString value).toList := by
    cases value <;> decide
  cases operation with
  | binary operation =>
    cases operation <;> exact newline_not_mem_toString _
  | compare comparison => cases comparison <;> exact truth _
  | isNegative => exact truth _
  | bitCount => exact newline_not_mem_toString x.natAbs.size
  | abs => exact newline_not_mem_toString x.natAbs
  | neg => exact newline_not_mem_toString _
  | shiftLeft => exact newline_not_mem_toString _

private theorem eq_of_refusal? {failure : Failure}
    (refuses : operation.refusal? x y = some failure) :
    failure = .trapped (.arithmetic .invalidOperand) ∨
      failure = .trapped (.overflow .unsigned32) ∨
      failure = .refused "lsh needs a 32-bit shift count" := by
  unfold Operation.refusal? at refuses
  split at refuses
  · split at refuses
    · exact Or.inl (Option.some.inj refuses).symm
    · cases refuses
  · split at refuses
    · exact Or.inl (Option.some.inj refuses).symm
    · cases refuses
  · split at refuses
    · cases refuses
    · exact Or.inr (Or.inl (Option.some.inj refuses).symm)
  · split at refuses
    · exact Or.inr (Or.inr (Option.some.inj refuses).symm)
    · split at refuses
      · exact Or.inl (Option.some.inj refuses).symm
      · cases refuses
  · cases refuses

private theorem newline_not_mem_refusal {failure : Failure}
    (refuses : operation.refusal? x y = some failure) :
    '\n' ∉ failure.message.toList := by
  rcases eq_of_refusal? refuses with rfl | rfl | rfl
  · decide +kernel
  · decide +kernel
  · decide +kernel

theorem Operation.Leaves.isConclusive {config : Config} {result : Result}
    (leaves : operation.Leaves config x y result) : result.IsConclusive := by
  cases leaves with
  | answered _ _ =>
    exact isConclusive_ok (newline_not_mem_line operation x y)
  | refused refuses _ =>
    exact isConclusive_error (newline_not_mem_refusal refuses)
  | exhausted requested available _ =>
    exact isConclusive_trapped (newline_not_mem_outOfMemory requested available)

private theorem allocationSize_pos (precision : Nat) :
    0 < allocationSize precision :=
  Nat.add_pos_left (Object.size_pos _) _

private theorem demand_pos (precision : Nat) (operation : Operation)
    (x y : Int) :
    0 < operation.demand precision x y :=
  Nat.add_pos_left (Nat.add_pos_left (allocationSize_pos precision) _) _

section Arguments

variable {flags : List String} {options : Options}

theorem leaves_run (sets : Sets {} flags options)
    (operands : operation.Operands left right x y) :
    operation.Leaves (configOf options) x y
      (run (operation.arguments flags left right)) := by
  have asked := ofArguments_bigint sets operation left right
  have concludes :=
    concludes_evaluate operands (Heap.regular_empty (configOf options))
  have outcome := run_of_concludes asked concludes (demand_pos _ _ _ _)
  cases outcome with
  | inl concluded =>
    obtain ⟨isResult, fits⟩ := concluded
    rw [isResult, Operation.result]
    cases decision : operation.refusal? x y with
    | none => exact .answered decision fits
    | some failure => exact .refused decision fits
  | inr exhausted =>
    obtain ⟨requested, available, isResult, exceeds⟩ := exhausted
    rw [isResult]
    exact .exhausted requested available exceeds

theorem leavesMalformed_run (sets : Sets {} flags options)
    (operation : Operation) (right : Option String)
    (malformed : ∀ numeral : DecimalNumeral, numeral.text ≠ left) :
    LeavesMalformed (configOf options)
      (run (operation.arguments flags left right)) := by
  have asked := ofArguments_bigint sets operation left right
  have concludes := concludes_evaluate_malformed operation right malformed
    (Heap.regular_empty (configOf options))
  have outcome := run_of_concludes asked concludes (allocationSize_pos _)
  cases outcome with
  | inl concluded =>
    obtain ⟨isResult, fits⟩ := concluded
    rw [isResult]
    exact .refused fits
  | inr exhausted =>
    obtain ⟨requested, available, isResult, exceeds⟩ := exhausted
    rw [isResult]
    exact .exhausted requested available exceeds

/-- A run on numerals either writes the exact result of its operation, or
fails with one line because the operation refuses the integers or they do not
fit below the heap limit; a first operand that is no numeral is refused. -/
theorem run_bigint (sets : Sets {} flags options) (operation : Operation)
    (left : String) (right : Option String) :
    (∀ x y, operation.Operands left right x y →
      operation.Leaves (configOf options) x y
          (run (operation.arguments flags left right)) ∧
        (run (operation.arguments flags left right)).IsConclusive) ∧
    ((∀ numeral : DecimalNumeral, numeral.text ≠ left) →
      LeavesMalformed (configOf options)
        (run (operation.arguments flags left right))) := by
  constructor
  · intro x y operands
    have leaves := leaves_run sets operands
    exact ⟨leaves, leaves.isConclusive⟩
  · exact leavesMalformed_run sets operation right

end Arguments

/-- Minus seven by two, and a text with a letter, below a heap limit of
`2 ^ 17` bytes. -/
theorem minusSeven_run_bigint :
    Sets {} ["--heap-limit", "131072"] ⟨false, some 131072⟩ ∧
    (Operation.binary .div).Operands "-7" (some "2") (-7) 2 ∧
    (Operation.binary .div).Leaves (configOf ⟨false, some 131072⟩) (-7) 2
      (run ["--heap-limit", "131072", "bigint", "div", "--", "-7", "2"]) ∧
    (run ["--heap-limit", "131072", "bigint", "div", "--", "-7", "2"]
      ).IsConclusive ∧
    (∀ numeral : DecimalNumeral, numeral.text ≠ "7a") ∧
    LeavesMalformed (configOf ⟨false, some 131072⟩)
      (run ["--heap-limit", "131072", "bigint", "div", "--", "7a"]) := by
  have sets : Sets {} ["--heap-limit", "131072"] ⟨false, some 131072⟩ :=
    .limit ⟨.none, 1, [3, 1, 0, 7, 2]⟩ (by decide) (by decide) rfl .nothing
  have operands : (Operation.binary .div).Operands "-7" (some "2") (-7) 2 :=
    .two (.binary .div) ⟨.minus, 7, []⟩ ⟨.none, 2, []⟩
  have malformed : ∀ numeral : DecimalNumeral, numeral.text ≠ "7a" :=
    Numeral.read?_eq_none_iff.mp (by decide)
  have evaluated :=
    (run_bigint sets (.binary .div) "-7" (some "2")).1 (-7) 2 operands
  have refused := (run_bigint sets (.binary .div) "7a" none).2 malformed
  exact ⟨sets, operands, evaluated.1, evaluated.2, malformed, refused⟩

example : run ["bigint", "div", "--", "-7", "2"] = ⟨0, "-3\n", ""⟩ := by
  decide +kernel

end CommandLine

end ManagedHeap
