import ManagedHeap.CommandLine.Arguments

/-!
# Running a command

Each command runs on a heap of its own. It writes one line to the output and
exits with 0, or it fails: then it writes one line to the diagnostics and
exits with 1. Misuse exits with 2.
-/

namespace ManagedHeap.CommandLine

/-! ## Failure -/

/-- Why a command fails: an operation of the runtime traps, or an argument is
refused. -/
inductive Failure where
  | trapped (error : Error)
  | refused (reason : String)
  deriving DecidableEq, Repr

def Failure.message : Failure → String
  | .trapped error => "trap: " ++ error.message
  | .refused reason => "Error: " ++ reason

/-- A command that runs on a heap. -/
abbrev CommandM (α : Type) : Type :=
  EStateM Failure Heap α

/-- An operation of the runtime as part of a command. -/
def CommandM.perform {α : Type} (operation : HeapM α) : CommandM α :=
  EStateM.adaptExcept Failure.trapped operation

/-! ## Bytes in messages -/

/-- The escaped form of a byte that is not printed as it is. -/
def escape? (byte : UInt8) : Option String :=
  if byte = 0 then some "\\0"
  else if byte = 9 then some "\\t"
  else if byte = 10 then some "\\n"
  else if byte = 13 then some "\\r"
  else if byte = 39 then some "\\'"
  else if byte = 92 then some "\\\\"
  else if byte < 0x20 ∨ (0x7f ≤ byte ∧ byte ≤ 0xa0) ∨ byte = 0xad then
    some ("\\u\x7b" ++ Numeral.write 16 byte.toNat ++ "\x7d")
  else none

/-- A byte in quotes, read as the character with its number. -/
def quoteByte (byte : UInt8) : String :=
  "'" ++ (escape? byte).getD (String.singleton (Char.ofNat byte.toNat)) ++ "'"

/-- Why some digits spell no bytes, in words. -/
def hexMessage : Hex.Fault → String
  | .oddLength => "Odd number of digits"
  | .invalidDigit found position =>
    "Invalid character " ++ quoteByte found ++ " at position " ++
      Numeral.decimal position

/-! ## Commands -/

def readHex (hex : String) : CommandM (List UInt8) :=
  match Hex.decode (Utf8.encode hex) with
  | .ok bytes => pure bytes
  | .error fault => throw (.refused ("invalid hex: " ++ hexMessage fault))

def bytesOf (blob : Handle) : CommandM (List UInt8) :=
  CommandM.perform (HeapM.inspect fun heap => (heap.blob blob).map Bytes.toList)

/-- A decimal operand that has to be there. -/
def readOperand (operand : Option String) : CommandM Handle :=
  match operand with
  | some text => CommandM.perform (BigInteger.ofDecimal text)
  | none => throw (.refused "operation needs a second operand")

/-- A shift count that has to be there. -/
def readShift (operand : Option String) : CommandM Int :=
  match operand.bind readCount? with
  | some count => pure count
  | none => throw (.refused "lsh needs a 32-bit shift count")

/-- The decimal numeral of a result. -/
def decimalOf (operation : HeapM Handle) : CommandM String :=
  CommandM.perform do
    let result ← operation
    HeapM.inspect (BigInteger.toDecimal result)

def truthText (value : Bool) : String :=
  if value then "true" else "false"

/-- Evaluates an operation on decimal operands. -/
def evaluate (operation : Operation) (left : String) (right : Option String) :
    CommandM String := do
  let first ← CommandM.perform (BigInteger.ofDecimal left)
  match operation with
  | .neg => decimalOf (BigInteger.neg first)
  | .abs => decimalOf (BigInteger.abs first)
  | .isNegative =>
    truthText <$> CommandM.perform (HeapM.inspect (BigInteger.isNegative first))
  | .bitCount =>
    (fun (bits : Nat) => Numeral.decimal bits) <$>
      CommandM.perform (HeapM.inspect (BigInteger.bitCount first))
  | .shiftLeft => do
    let count ← readShift right
    decimalOf (BigInteger.shiftLeft first count)
  | .compare comparison => do
    let second ← readOperand right
    truthText <$>
      CommandM.perform
        (HeapM.inspect (BigInteger.compare comparison first second))
  | .binary binary => do
    let second ← readOperand right
    decimalOf (binary.perform first second)

/-- The line that a command writes. -/
def execute : Command → CommandM String
  | .encode hex => do
    let bytes ← readHex hex
    let blob ← CommandM.perform (Heap.allocBlobFrom (Bytes.ofList bytes))
    let text ← CommandM.perform (Identity.ofBlob blob)
    Utf8.decode <$> bytesOf text
  | .decode text => do
    let blob ← CommandM.perform (Text.ofString text)
    let payload ← CommandM.perform (Identity.toBlob blob)
    (fun bytes => Utf8.decode (Hex.encode .lower bytes)) <$> bytesOf payload
  | .group text => do
    let blob ← CommandM.perform (Text.ofString text)
    let grouped ← CommandM.perform (Identity.ofBase32 blob)
    Utf8.decode <$> bytesOf grouped
  | .bigint operation left right => evaluate operation left right

/-! ## Results -/

/-- What a run leaves: the exit code and what it wrote. -/
structure Result where
  code : UInt8
  output : String
  diagnostics : String
  deriving DecidableEq, Repr

def versionLine : String := "rts 0.1.0"

def usage : String :=
  "Usage: rts [-v] [--heap-limit BYTES] COMMAND\n\n" ++
  "  encode HEX         payload bytes to identity text\n" ++
  "  decode TEXT        identity text to payload bytes\n" ++
  "  group TEXT         base-32 text to its grouped form\n" ++
  "  bigint OP A [B]    an operation on decimal operands\n"

def configOf (options : Options) : Config :=
  match options.heapLimit with
  | some limit => { heapLimit := limit }
  | none => {}

def Request.respond : Request → Result
  | .version => ⟨0, versionLine ++ "\n", ""⟩
  | .help => ⟨0, usage, ""⟩
  | .misuse => ⟨2, "", usage⟩
  | .run options command =>
    match execute command (Heap.empty (configOf options)) with
    | .ok line _ => ⟨0, line ++ "\n", ""⟩
    | .error failure _ => ⟨1, "", failure.message ++ "\n"⟩

/-- Runs the program on its arguments. -/
def run (arguments : List String) : Result :=
  (Request.ofArguments arguments).respond

end ManagedHeap.CommandLine
