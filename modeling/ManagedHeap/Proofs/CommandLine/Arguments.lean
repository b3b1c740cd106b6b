import ManagedHeap.CommandLine.Arguments
import ManagedHeap.Proofs.Numeral

/-!
# Accepted arguments

The arguments that may stand in front of a subcommand, and the options that
they set (`Sets`). The reader takes them off one by one
(`readOptions_of_sets`), and what follows them is read with these options as a
subcommand.
-/

namespace ManagedHeap.CommandLine

/-! ## Options -/

/-- Arguments in front of a subcommand that lead from some options to others:
each option at most once, in any order. -/
inductive Sets : Options → List String → Options → Prop where
  | nothing {options : Options} : Sets options [] options
  | verbose {before after : Options} {flag : String} {rest : List String}
    (spelled : flag = "-v" ∨ flag = "--verbose")
    (quiet : before.verbose = false)
    (others : Sets { before with verbose := true } rest after) :
      Sets before (flag :: rest) after
  | limit {before after : Options} {rest : List String} {bytes : UInt32}
    (numeral : DecimalNumeral) (unsigned : numeral.mark ≠ .minus)
    (isValue : numeral.value = bytes.toNat)
    (unset : before.heapLimit = none)
    (others : Sets { before with heapLimit := some bytes } rest after) :
      Sets before ("--heap-limit" :: numeral.text :: rest) after
  | limitInOne {before after : Options} {rest : List String} {bytes : UInt32}
    (numeral : DecimalNumeral)
    (isValue : numeral.value = bytes.toNat)
    (unset : before.heapLimit = none)
    (others : Sets { before with heapLimit := some bytes } rest after) :
      Sets before (("--heap-limit=" ++ numeral.text) :: rest) after

private theorem setLimit?_text {options : Options} {bytes : UInt32}
    {numeral : DecimalNumeral} (isValue : numeral.value = bytes.toNat)
    (unset : options.heapLimit = none) :
    setLimit? options numeral.text =
      some { options with heapLimit := some bytes } := by
  have bound := bytes.toNat_lt
  have inRange :
      0 ≤ (bytes.toNat : Int) ∧ (bytes.toNat : Int) ≤ maxAddress := by
    have top : maxAddress = 2 ^ 32 - 1 := rfl
    omega
  have read : readLimit? numeral.text = some bytes := by
    rw [readLimit?, numberWithin?, Numeral.read?_text, isValue]
    simp only [Option.filter_some, decide_eq_true inRange, if_true,
      Option.map_some, Int.toNat_natCast, UInt32.ofNat_toNat]
  rw [setLimit?, unset, read]

/-- A numeral without a minus can be the value of an option. -/
theorem startsWithHyphen_text {numeral : DecimalNumeral}
    (unsigned : numeral.mark ≠ .minus) :
    startsWithHyphen numeral.text = false := by
  obtain ⟨mark, leading, following⟩ := numeral
  rw [startsWithHyphen, DecimalNumeral.text, String.toList_ofList]
  cases mark with
  | none =>
    have notMinus := DecimalNumeral.characterOf_ne_minus leading
    simpa [SignMark.characters, DecimalNumeral.digits] using notMinus
  | plus => rfl
  | minus => exact absurd rfl unsigned

private theorem toList_ne_of_plain {argument : String}
    (plain : startsWithHyphen argument = false) (rest : List Char) :
    argument.toList ≠ '-' :: rest := by
  intro same
  rw [startsWithHyphen, same] at plain
  cases plain

/-! ## Taking options off -/

/-- An argument that takes no value from the next one is known by its
characters. -/
theorem readOptions_cons {options : Options} {argument : String}
    (inOne : argument ≠ "--heap-limit") (rest : List String) :
    readOptions options (argument :: rest) =
      match argument.toList with
      | ['-'] => .misuse
      | '-' :: '-' :: body =>
        match readLong options (splitValue body).1 (splitValue body).2 with
        | .ok changed => readOptions changed rest
        | .error request => request
      | '-' :: letters =>
        match readShort options letters with
        | .ok changed => readOptions changed rest
        | .error request => request
      | _ => readCommand options argument rest := by
  rewrite [readOptions]
  · rfl
  · intro same
    exact absurd same inOne
  · intro value others same
    exact absurd same inOne

/-- A long option with a value is split at the equals sign. -/
theorem splitValue_append {name : List Char} (free : '=' ∉ name)
    (value : List Char) :
    splitValue (name ++ '=' :: value) =
      (String.ofList name, some (String.ofList value)) := by
  have keeps : ∀ character ∈ name, decide (character ≠ '=') = true := by
    intro character member
    rw [decide_eq_true_eq]
    intro same
    exact free (same ▸ member)
  rw [splitValue, List.takeWhile_append_of_pos keeps,
    List.dropWhile_append_of_pos keeps]
  simp

private theorem readOptions_long {options : Options} {argument : String}
    {body : List Char} (spelled : argument.toList = '-' :: '-' :: body)
    (inOne : argument ≠ "--heap-limit") (rest : List String) :
    readOptions options (argument :: rest) =
      match readLong options (splitValue body).1 (splitValue body).2 with
      | .ok changed => readOptions changed rest
      | .error request => request := by
  rw [readOptions_cons inOne]
  simp only [spelled]

/-- What has no hyphen in front is the subcommand. -/
theorem readOptions_command {options : Options} {name : String}
    (plain : startsWithHyphen name = false) (rest : List String) :
    readOptions options (name :: rest) = readCommand options name rest := by
  have other : name ≠ "--heap-limit" := by
    intro same
    rw [same] at plain
    exact absurd plain (by decide)
  rw [readOptions_cons other]
  split
  · rename_i same
    exact absurd same (toList_ne_of_plain plain _)
  · rename_i same
    exact absurd same (toList_ne_of_plain plain _)
  · rename_i same
    exact absurd same (toList_ne_of_plain plain _)
  · rfl

private theorem readOptions_verbose {options : Options} {flag : String}
    (spelled : flag = "-v" ∨ flag = "--verbose")
    (quiet : options.verbose = false) (rest : List String) :
    readOptions options (flag :: rest) =
      readOptions { options with verbose := true } rest := by
  cases spelled with
  | inl short =>
    subst short
    have letters : "-v".toList = ['-', 'v'] := by decide
    have read : readShort options ['v'] =
        .ok { options with verbose := true } := by
      simp [readShort, quiet]
    rw [readOptions_cons (by decide)]
    simp [letters, read]
  | inr long =>
    subst long
    have letters : "--verbose".toList = '-' :: '-' :: "verbose".toList := by
      decide
    have split : splitValue "verbose".toList = ("verbose", none) := by decide
    rw [readOptions_long letters (by decide), split]
    simp [readLong, quiet]

private theorem readOptions_limit {options : Options} {bytes : UInt32}
    {numeral : DecimalNumeral} (unsigned : numeral.mark ≠ .minus)
    (isValue : numeral.value = bytes.toNat)
    (unset : options.heapLimit = none) (rest : List String) :
    readOptions options ("--heap-limit" :: numeral.text :: rest) =
      readOptions { options with heapLimit := some bytes } rest := by
  rw [readOptions, startsWithHyphen_text unsigned]
  simp only [setLimit?_text isValue unset]
  rfl

private theorem readOptions_limitInOne {options : Options} {bytes : UInt32}
    {numeral : DecimalNumeral} (isValue : numeral.value = bytes.toNat)
    (unset : options.heapLimit = none) (rest : List String) :
    readOptions options (("--heap-limit=" ++ numeral.text) :: rest) =
      readOptions { options with heapLimit := some bytes } rest := by
  have letters : ("--heap-limit=" ++ numeral.text).toList =
      '-' :: '-' :: ("heap-limit".toList ++ '=' :: numeral.text.toList) := by
    rw [String.toList_append]
    rfl
  have split :
      splitValue ("heap-limit".toList ++ '=' :: numeral.text.toList) =
        ("heap-limit", some numeral.text) := by
    rw [splitValue_append (by decide), String.ofList_toList,
      String.ofList_toList]
  have inOne : "--heap-limit=" ++ numeral.text ≠ "--heap-limit" := by
    intro same
    have lengths := congrArg String.length same
    have long : "--heap-limit=".length = 13 := by decide
    have short : "--heap-limit".length = 12 := by decide
    rw [String.length_append, long, short] at lengths
    omega
  rw [readOptions_long letters inOne, split]
  simp only [readLong, setLimit?_text isValue unset]

/-- Options are read from the front, and what follows them is read with what
they set. -/
theorem readOptions_of_sets {before after : Options} {flags : List String}
    (sets : Sets before flags after) (rest : List String) :
    readOptions before (flags ++ rest) = readOptions after rest := by
  induction sets with
  | nothing => rfl
  | verbose spelled quiet _ inductionHypothesis =>
    rw [List.cons_append, readOptions_verbose spelled quiet]
    exact inductionHypothesis
  | limit numeral unsigned isValue unset _ inductionHypothesis =>
    rw [List.cons_append, List.cons_append,
      readOptions_limit unsigned isValue unset]
    exact inductionHypothesis
  | limitInOne numeral isValue unset _ inductionHypothesis =>
    rw [List.cons_append, readOptions_limitInOne isValue unset]
    exact inductionHypothesis

/-! ## Subcommands -/

def Operation.name : Operation → String
  | .binary .add => "add"
  | .binary .sub => "sub"
  | .binary .mul => "mul"
  | .binary .div => "div"
  | .binary .rem => "rem"
  | .binary .pow => "pow"
  | .neg => "neg"
  | .abs => "abs"
  | .shiftLeft => "lsh"
  | .compare .equal => "eq"
  | .compare .less => "lt"
  | .compare .greater => "gt"
  | .compare .lessOrEqual => "le"
  | .compare .greaterOrEqual => "ge"
  | .isNegative => "isneg"
  | .bitCount => "bits"

/-- The arguments that ask for an operation on operands behind two hyphens. -/
def Operation.arguments (operation : Operation) (flags : List String)
    (left : String) (right : Option String) : List String :=
  flags ++ "bigint" :: operation.name :: "--" :: left :: right.toList

theorem Operation.ofName?_name (operation : Operation) :
    ofName? operation.name = some operation := by
  cases operation with
  | binary operation => cases operation <;> rfl
  | compare comparison => cases comparison <;> rfl
  | _ => rfl

theorem Operation.startsWithHyphen_name (operation : Operation) :
    startsWithHyphen operation.name = false := by
  cases operation with
  | binary operation => cases operation <;> decide
  | compare comparison => cases comparison <;> decide
  | _ => decide

/-- An argument without a hyphen in front is positional where another one is
expected. -/
theorem readPositionals_cons {name argument : String} {seen : List String}
    (plain : startsWithHyphen argument = false)
    (expected : canBegin name (seen ++ [argument]) = true)
    (rest : List String) :
    readPositionals name seen (argument :: rest) =
      readPositionals name (seen ++ [argument]) rest := by
  rw [readPositionals]
  split
  · rename_i same
    exact absurd same (toList_ne_of_plain plain _)
  · rename_i same
    exact absurd same (toList_ne_of_plain plain _)
  · rename_i same
    exact absurd same (toList_ne_of_plain plain _)
  · rw [if_pos expected]

private theorem readPositionals_separator
    (name : String) (seen rest : List String) :
    readPositionals name seen ("--" :: rest) = .ok (seen ++ rest) := by
  have letters : "--".toList = ['-', '-'] := by decide
  rw [readPositionals]
  simp only [letters]

section Requests

variable {flags : List String} {options : Options}

private theorem ofArguments_of_sets
    {name : String} (sets : Sets {} flags options)
    (plain : startsWithHyphen name = false)
    (rest : List String) :
    Request.ofArguments (flags ++ name :: rest) =
      readCommand options name rest := by
  rw [Request.ofArguments, readOptions_of_sets sets]
  exact readOptions_command plain rest

theorem ofArguments_bigint (sets : Sets {} flags options)
    (operation : Operation) (left : String) (right : Option String) :
    Request.ofArguments (operation.arguments flags left right) =
      .run options (.bigint operation left right) := by
  have named := operation.ofName?_name
  have expected : canBegin "bigint" ([] ++ [operation.name]) = true := by
    simp [canBegin, named]
  rw [Operation.arguments, ofArguments_of_sets sets (by decide), readCommand]
  simp only [readPositionals_cons operation.startsWithHyphen_name expected,
    readPositionals_separator]
  cases right with
  | none => simp [commandOf?, named, canBegin]
  | some right => simp [commandOf?, named, canBegin]

theorem ofArguments_encode {hex : String} (sets : Sets {} flags options)
    (plain : startsWithHyphen hex = false) :
    Request.ofArguments (flags ++ ["encode", hex]) =
      .run options (.encode hex) := by
  rw [ofArguments_of_sets sets (by decide), readCommand]
  rw [readPositionals_cons plain rfl]
  simp [readPositionals, commandOf?, canBegin]

theorem ofArguments_decode {text : String} (sets : Sets {} flags options)
    (plain : startsWithHyphen text = false) :
    Request.ofArguments (flags ++ ["decode", text]) =
      .run options (.decode text) := by
  rw [ofArguments_of_sets sets (by decide), readCommand]
  rw [readPositionals_cons plain rfl]
  simp [readPositionals, commandOf?, canBegin]

end Requests

end ManagedHeap.CommandLine
