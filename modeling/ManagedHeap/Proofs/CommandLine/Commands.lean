import ManagedHeap.CommandLine.Evaluation
import ManagedHeap.Proofs.BigInteger.Arithmetic
import ManagedHeap.Proofs.CommandLine.Arguments

/-!
# Commands on a heap

A command either writes a line or fails, and it runs out of memory exactly when
what it takes from the heap does not fit below the limit (`Concludes`). Steps
that take space are followed one after the other (`Takes.concludes`), and what
a whole run leaves is read off the conclusion of its command
(`run_of_concludes`).
-/

namespace ManagedHeap.CommandLine

open BigInteger (Builds)

variable {α β : Type} {heap after : Heap}

/-! ## Conclusions -/

/-- A command ends with a result after it took `cost` bytes from the heap, or
memory runs out because they are not there. -/
def Concludes (command : CommandM α) (heap : Heap) (result : Except Failure α)
    (cost : Nat) : Prop :=
  match command heap with
  | .ok value _ => result = .ok value ∧ ¬heap.Lacks cost
  | .error failure _ => result = .error failure ∧ ¬heap.Lacks cost ∨
      ∃ requested available,
        failure = .trapped (.outOfMemory requested available) ∧ heap.Lacks cost

theorem not_lacks_zero (heap : Heap) : ¬heap.Lacks 0 :=
  fun lacks => absurd lacks.1 (Nat.lt_irrefl 0)

theorem concludes_throw (failure : Failure) :
    Concludes (throw failure : CommandM α) heap (.error failure) 0 :=
  Or.inl ⟨rfl, not_lacks_zero heap⟩

theorem concludes_inspect {reader : Heap → Except Error α} {value : α}
    (change : α → β) (read : reader heap = .ok value) :
    Concludes (change <$> CommandM.perform (HeapM.inspect reader)) heap
      (.ok (change value)) 0 := by
  have performed : (change <$> CommandM.perform (HeapM.inspect reader)) heap =
      .ok (change value) heap := by
    simp only [Functor.map, EStateM.map, CommandM.perform,
      EStateM.adaptExcept, HeapM.inspect, read]
  rw [Concludes, performed]
  exact ⟨rfl, not_lacks_zero heap⟩

theorem perform_bind (operation : HeapM α) (next : α → HeapM β) :
    CommandM.perform (operation >>= next) =
      CommandM.perform operation >>= fun value =>
        CommandM.perform (next value) := by
  funext heap
  simp only [CommandM.perform, EStateM.adaptExcept, bind, EStateM.bind]
  cases operation heap <;> rfl

/-! ## Steps that take space -/

/-- An operation answers after it took `cost` bytes from the heap, or memory
runs out because they are not there. -/
def Takes (operation : HeapM α) (heap : Heap) (cost : Nat)
    (returns : α → Heap → Prop) : Prop :=
  Ensures operation heap
    (fun value after => returns value after ∧
      after.config.heapLimit = heap.config.heapLimit ∧
      after.pointer = heap.pointer + cost ∧ ¬heap.Lacks cost)
    fun error _ => error.IsOutOfMemory ∧ heap.Lacks cost

private theorem exists_of_isOutOfMemory {error : Error}
    (outOfMemory : error.IsOutOfMemory) :
    ∃ requested available, error = .outOfMemory requested available := by
  cases error with
  | outOfMemory requested available => exact ⟨requested, available, rfl⟩
  | _ => exact outOfMemory.elim

theorem lacks_add_iff {first rest : Nat}
    (sameLimit : after.config.heapLimit = heap.config.heapLimit)
    (pointer : after.pointer = heap.pointer + first)
    (fits : ¬heap.Lacks first) :
    heap.Lacks (first + rest) ↔ after.Lacks rest := by
  simp only [Heap.Lacks, sameLimit, pointer] at fits ⊢
  omega

/-- A command goes on from what its first step leaves. -/
theorem Takes.concludes {operation : HeapM α} {next : α → CommandM β}
    {first rest : Nat} {returns : α → Heap → Prop} {result : Except Failure β}
    (takes : Takes operation heap first returns)
    (continues : ∀ value after, returns value after →
      Concludes (next value) after result rest) :
    Concludes (CommandM.perform operation >>= next) heap result
      (first + rest) := by
  simp only [Takes, Ensures] at takes
  simp only [Concludes, bind, EStateM.bind, CommandM.perform,
    EStateM.adaptExcept]
  cases performed : operation heap with
  | ok value after =>
    rw [performed] at takes
    obtain ⟨returned, sameLimit, pointer, fits⟩ := takes
    have rests := continues value after returned
    -- The first step fitted, so all of it fits where the rest fits after it.
    have whole : heap.Lacks (first + rest) ↔ after.Lacks rest :=
      lacks_add_iff sameLimit pointer fits
    simp only [Concludes] at rests
    simpa only [whole] using rests
  | error error after =>
    rw [performed] at takes
    obtain ⟨outOfMemory, lacks⟩ := takes
    obtain ⟨requested, available, rfl⟩ := exists_of_isOutOfMemory outOfMemory
    right
    refine ⟨requested, available, rfl, ?_⟩
    exact ⟨Nat.add_pos_left lacks.1 rest, by have := lacks.2; omega⟩

theorem takes_allocBlobFrom (heap : Heap) (bytes : Bytes) :
    Takes (Heap.allocBlobFrom bytes) heap (Object.blob bytes).fullSize
      fun handle after => after.blob handle = .ok bytes := by
  apply Ensures.mono (Heap.allots_allocBlobFrom heap bytes)
  · intro handle after allotted
    obtain ⟨fits, isPushed, answers⟩ := allotted
    have atPointer := Handle.address_ofAddress fits.pointer_lt
    rw [answers _ atPointer, isPushed]
    have found := Heap.find?_push_self heap (.blob bytes)
    rw [← atPointer] at found
    refine ⟨Heap.blob_eq_ok_iff.mpr found, rfl, fits.pointer_push, ?_⟩
    exact fun lacks => Nat.not_le.mpr lacks.2 fits
  · intro error after refused
    obtain ⟨noFit, _, outOfMemory⟩ := refused
    exact ⟨outOfMemory, Heap.lacks_of_not_fits noFit⟩

theorem takes_of_builds {operation : HeapM Handle} {value : Int} {cost : Nat}
    (regular : heap.Regular) (builds : Builds operation heap (.ok value) cost) :
    Takes operation heap cost fun handle after =>
      after.Regular ∧ heap.Grows after ∧ after.Integer handle value := by
  apply builds.answers.mono
  · intro handle after answered
    obtain ⟨afterRegular, grows, _, integer, charged⟩ := answered
    refine ⟨⟨afterRegular, grows, integer⟩, grows.limit_eq, charged, ?_⟩
    exact regular.tidy.not_lacks afterRegular.tidy grows charged
  · exact fun _ _ lacking => lacking

/-- Operands that are refused end the command. -/
theorem concludes_of_refused {operation : HeapM Handle} {error : Error}
    {cost : Nat} {next : Handle → CommandM β} (regular : heap.Regular)
    (builds : Builds operation heap (.error error) cost) :
    Concludes (CommandM.perform operation >>= next) heap
      (.error (.trapped error)) cost := by
  simp only [Builds, Ensures] at builds
  simp only [Concludes, bind, EStateM.bind, CommandM.perform,
    EStateM.adaptExcept]
  cases performed : operation heap with
  | ok handle after =>
    rw [performed] at builds
    obtain ⟨_, impossible, _⟩ := builds
    cases impossible
  | error other after =>
    rw [performed] at builds
    obtain ⟨afterRegular, grows, outcome⟩ := builds
    cases outcome with
    | inl refused =>
      obtain ⟨same, charged⟩ := refused
      cases same
      left
      exact ⟨rfl, regular.tidy.not_lacks afterRegular.tidy grows charged⟩
    | inr lacking =>
      obtain ⟨requested, available, rfl⟩ := exists_of_isOutOfMemory lacking.1
      right
      exact ⟨requested, available, rfl, lacking.2⟩

/-! ## Runs -/

/-- A heap within some limits has no room for so many bytes. -/
def Exceeds (config : Config) (bytes : Nat) : Prop :=
  config.heapLimit.toNat < Heap.baseOf config + bytes

/-- What a run leaves whose command writes a line or fails. -/
def Result.of : Except Failure String → Result
  | .ok line => ⟨0, line ++ "\n", ""⟩
  | .error failure => ⟨1, "", failure.message ++ "\n"⟩

theorem lacks_empty_iff {config : Config} {bytes : Nat} (positive : 0 < bytes) :
    (Heap.empty config).Lacks bytes ↔ Exceeds config bytes :=
  and_iff_right positive

theorem run_of_concludes {arguments : List String} {options : Options}
    {command : Command} {result : Except Failure String} {cost : Nat}
    (asked : Request.ofArguments arguments = .run options command)
    (concludes : Concludes (execute command) (Heap.empty (configOf options))
      result cost) (positive : 0 < cost) :
    run arguments = .of result ∧ ¬Exceeds (configOf options) cost ∨
      ∃ requested available,
        run arguments =
          .of (.error (.trapped (.outOfMemory requested available))) ∧
        Exceeds (configOf options) cost := by
  rw [Concludes, lacks_empty_iff positive] at concludes
  rw [run, asked, Request.respond]
  cases performed : execute command (Heap.empty (configOf options)) with
  | ok line after =>
    rw [performed] at concludes
    obtain ⟨isResult, fits⟩ := concludes
    rw [isResult]
    exact Or.inl ⟨rfl, fits⟩
  | error failure after =>
    rw [performed] at concludes
    cases concludes with
    | inl refused =>
      obtain ⟨isResult, fits⟩ := refused
      rw [isResult]
      exact Or.inl ⟨rfl, fits⟩
    | inr exhausted =>
      obtain ⟨requested, available, isFailure, exceeds⟩ := exhausted
      rw [isFailure]
      exact Or.inr ⟨requested, available, rfl, exceeds⟩

/-- A run whose command has enough memory leaves what the command concludes
with. -/
theorem run_of_fits {arguments : List String} {options : Options}
    {command : Command} {result : Except Failure String} {cost : Nat}
    (asked : Request.ofArguments arguments = .run options command)
    (concludes : Concludes (execute command) (Heap.empty (configOf options))
      result cost) (positive : 0 < cost)
    (fits : ¬Exceeds (configOf options) cost) : run arguments = .of result := by
  cases run_of_concludes asked concludes positive with
  | inl concluded => exact concluded.1
  | inr exhausted =>
    obtain ⟨_, _, _, exceeds⟩ := exhausted
    exact absurd exceeds fits

/-! ## Lines -/

/-- A text of one line, with its end. -/
def OneLine (text : String) : Prop :=
  ∃ line : String, text = line ++ "\n" ∧ '\n' ∉ line.toList

/-- A run that writes one line to the output and exits with 0, or one line to
the diagnostics and exits with 1, and writes nothing else. -/
def Result.IsConclusive (result : Result) : Prop :=
  result.code = 0 ∧ OneLine result.output ∧ result.diagnostics = "" ∨
    result.code = 1 ∧ result.output = "" ∧ OneLine result.diagnostics

theorem newline_not_mem_toString (value : Int) :
    '\n' ∉ (toString value).toList := by
  have digits (number : Nat) : '\n' ∉ number.repr.toList := by
    intro member
    rw [Nat.repr_eq_ofList_toDigits, String.toList_ofList] at member
    have digit := Nat.isDigit_of_mem_toDigits (by decide) (by decide) member
    exact absurd digit (by decide)
  rw [Int.toString_eq_repr, Int.repr_eq_if]
  split
  · exact digits _
  · rw [String.toList_append, List.mem_append]
    intro member
    cases member with
    | inl sign => exact absurd sign (by decide)
    | inr digit => exact digits _ digit

private theorem newline_not_mem_append {first second : String}
    (inFirst : '\n' ∉ first.toList) (inSecond : '\n' ∉ second.toList) :
    '\n' ∉ (first ++ second).toList := by
  rw [String.toList_append, List.mem_append]
  exact not_or.mpr ⟨inFirst, inSecond⟩

theorem newline_not_mem_outOfMemory (requested available : Nat) :
    '\n' ∉ (Error.outOfMemory requested available).message.toList := by
  have before : '\n' ∉ "out of memory: requested ".toList := by simp
  have between : '\n' ∉ " bytes, ".toList := by simp
  have behind : '\n' ∉ " available".toList := by simp
  have message : (Error.outOfMemory requested available).message =
      "out of memory: requested " ++ Numeral.decimal requested ++
        " bytes, " ++ Numeral.decimal available ++ " available" := rfl
  rw [message, Numeral.decimal_eq_toString, Numeral.decimal_eq_toString]
  have first :=
    newline_not_mem_append before (newline_not_mem_toString requested)
  have second := newline_not_mem_append (newline_not_mem_append first between)
    (newline_not_mem_toString available)
  exact newline_not_mem_append second behind

theorem isConclusive_ok {line : String} (oneLine : '\n' ∉ line.toList) :
    (Result.of (.ok line)).IsConclusive :=
  Or.inl ⟨rfl, ⟨line, rfl, oneLine⟩, rfl⟩

theorem isConclusive_error {failure : Failure}
    (oneLine : '\n' ∉ failure.message.toList) :
    (Result.of (.error failure)).IsConclusive :=
  Or.inr ⟨rfl, rfl, failure.message, rfl, oneLine⟩

theorem isConclusive_trapped {error : Error}
    (oneLine : '\n' ∉ error.message.toList) :
    (Result.of (.error (.trapped error))).IsConclusive := by
  have before : '\n' ∉ "trap: ".toList := by simp
  exact isConclusive_error (newline_not_mem_append before oneLine)

end ManagedHeap.CommandLine
