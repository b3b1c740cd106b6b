import ManagedHeap.Host.Call

/-!
# Command-line arguments

Options stand before the subcommand, each at most once; after `--` an argument
is never an option. Arguments are read from left to right, and the first that
fits no form, or asks for the version or for help, decides. Which rule a
misuse breaks is not told apart.
-/

namespace ManagedHeap.CommandLine

/-! ## Requests -/

/-- What can be evaluated on decimal operands. -/
inductive Operation where
  | binary (operation : BinaryOperation)
  | compare (comparison : BigInteger.Comparison)
  | neg
  | abs
  | shiftLeft
  | isNegative
  | bitCount
  deriving DecidableEq, Repr

def Operation.ofName? : String → Option Operation
  | "add" => some (.binary .add)
  | "sub" => some (.binary .sub)
  | "mul" => some (.binary .mul)
  | "div" => some (.binary .div)
  | "rem" => some (.binary .rem)
  | "pow" => some (.binary .pow)
  | "neg" => some .neg
  | "abs" => some .abs
  | "lsh" => some .shiftLeft
  | "eq" => some (.compare .equal)
  | "lt" => some (.compare .less)
  | "gt" => some (.compare .greater)
  | "le" => some (.compare .lessOrEqual)
  | "ge" => some (.compare .greaterOrEqual)
  | "isneg" => some .isNegative
  | "bits" => some .bitCount
  | _ => none

/-- A subcommand with its arguments. -/
inductive Command where
  | encode (hex : String)
  | decode (text : String)
  | group (text : String)
  | bigint (operation : Operation) (left : String) (right : Option String)
  deriving DecidableEq, Repr

structure Options where
  verbose : Bool := false
  heapLimit : Option UInt32 := none
  deriving DecidableEq, Repr

/-- What some arguments ask for. -/
inductive Request where
  | run (options : Options) (command : Command)
  | version
  | help
  | misuse
  deriving DecidableEq, Repr

/-! ## Numbers -/

/-- A decimal number in a range; a plus sign and leading zeros are accepted. -/
def numberWithin? (low high : Int) (text : String) : Option Int :=
  (Numeral.read? 10 text).filter fun value => low ≤ value ∧ value ≤ high

def readLimit? (text : String) : Option UInt32 :=
  (numberWithin? 0 maxAddress text).map fun value => UInt32.ofNat value.toNat

def readCount? (text : String) : Option Int :=
  numberWithin? (-2 ^ 31) (2 ^ 31 - 1) text

/-! ## Subcommands -/

/-- A subcommand by its name and its positional arguments. -/
def commandOf? : String → List String → Option Command
  | "encode", [hex] => some (.encode hex)
  | "decode", [text] => some (.decode text)
  | "group", [text] => some (.group text)
  | "bigint", [name, left] =>
    (Operation.ofName? name).map fun operation => .bigint operation left none
  | "bigint", [name, left, right] =>
    (Operation.ofName? name).map fun operation => .bigint operation left
    (some right)
  | _, _ => none

/-- Some positional arguments can begin those of a subcommand: they are not
too many, and an operation is one that exists. A name of no subcommand takes
none at all. -/
def canBegin : String → List String → Bool
  | "bigint", name :: operands =>
    (Operation.ofName? name).isSome && operands.length ≤ 2
  | "bigint", [] => true
  | "encode", arguments => arguments.length ≤ 1
  | "decode", arguments => arguments.length ≤ 1
  | "group", arguments => arguments.length ≤ 1
  | _, _ => false

/-- The positional arguments of a subcommand after those `seen`. It has no
option but the one for help, which counts only if nothing was wrong up to it.
A lone hyphen is positional. -/
def readPositionals (name : String) (seen : List String) :
    List String → Except Request (List String)
  | [] => .ok seen
  | argument :: rest =>
    match argument.toList with
    | ['-', '-'] => .ok (seen ++ rest)
    | '-' :: 'h' :: _ => .error .help
    | '-' :: _ :: _ => .error (if argument = "--help" then .help else .misuse)
    | _ =>
      let extended := seen ++ [argument]
      if canBegin name extended then
        readPositionals name extended rest
      else
        .error .misuse

/-- The request for help, on the program or on one subcommand. -/
def readHelp : List String → Request
  | [] => .help
  | [topic] => if topic = "help" ∨ canBegin topic [] then .help else .misuse
  | _ => .misuse

/-- The request of a subcommand and what follows it. -/
def readCommand (options : Options) (name : String) (rest : List String) :
    Request :=
  if name = "help" then
    readHelp rest
  else if canBegin name [] then
    match readPositionals name [] rest with
    | .error request => request
    | .ok arguments =>
      match commandOf? name arguments with
      | some command => .run options command
      | none => .misuse
  else
    .misuse

/-! ## Options -/

/-- Takes note of a heap limit, unless there was one before or it is no number
of bytes. -/
def setLimit? (options : Options) (text : String) : Option Options :=
  match options.heapLimit, readLimit? text with
  | none, some limit => some { options with heapLimit := some limit }
  | _, _ => none

/-- Takes note of some one-letter options. The first that ends the reading
decides. -/
def readShort (options : Options) : List Char → Except Request Options
  | [] => .ok options
  | 'V' :: _ => .error .version
  | 'h' :: _ => .error .help
  | 'v' :: rest =>
    if options.verbose then
      .error .misuse
    else
      readShort { options with verbose := true } rest
  | _ :: _ => .error .misuse

/-- What a long option without a separate value does. -/
def readLong (options : Options) (name : String) (value : Option String) :
    Except Request Options :=
  match name, value with
  | "version", none => .error .version
  | "help", none => .error .help
  | "verbose", none =>
    if options.verbose then .error .misuse else
      .ok { options with verbose := true }
  | "heap-limit", some text =>
    match setLimit? options text with
    | some changed => .ok changed
    | none => .error .misuse
  | _, _ => .error .misuse

/-- Splits a long option at its first equals sign. -/
def splitValue (body : List Char) : String × Option String :=
  (String.ofList (body.takeWhile (· ≠ '=')),
    match body.dropWhile (· ≠ '=') with
    | [] => none
    | _ :: value => some (String.ofList value))

/-- An argument with a hyphen in front is no value of an option. -/
def startsWithHyphen (argument : String) : Bool :=
  argument.toList.head? == some '-'

/-- Reads options up to the subcommand. -/
def readOptions (options : Options) : List String → Request
  | [] => .misuse
  | ["--heap-limit"] => .misuse
  | "--heap-limit" :: value :: rest =>
    if startsWithHyphen value then
      .misuse
    else
      match setLimit? options value with
      | some changed => readOptions changed rest
      | none => .misuse
  | argument :: rest =>
    match argument.toList with
    | ['-'] => .misuse
    | '-' :: '-' :: body =>
      let (name, value) := splitValue body
      match readLong options name value with
      | .ok changed => readOptions changed rest
      | .error request => request
    | '-' :: letters =>
      match readShort options letters with
      | .ok changed => readOptions changed rest
      | .error request => request
    | _ => readCommand options argument rest

/-- What the arguments of a call ask for. -/
def Request.ofArguments (arguments : List String) : Request :=
  readOptions {} arguments

end ManagedHeap.CommandLine
