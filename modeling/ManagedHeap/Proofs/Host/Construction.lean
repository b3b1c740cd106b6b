import ManagedHeap.Proofs.BigInteger.MachineValues
import ManagedHeap.Proofs.Host.Arithmetic

/-!
# Machine values as big integers

In every reached heap, whatever the precision of its configuration, a machine
value becomes a bignum object for exactly its integer, unless memory runs out.
The object narrows back to the value and wraps to every cast of it
(`ConvertsTo`).
-/

namespace ManagedHeap

/-- The big integer of a machine value. -/
def MachineInteger.Value.construct :
    {type : MachineInteger} → type.Value → HeapM Handle
  | .unsigned32, value => BigInteger.ofUInt32 value
  | .signed32, value => BigInteger.ofInt32 value
  | .unsigned64, value => BigInteger.ofUInt64 value
  | .signed64, value => BigInteger.ofInt64 value

namespace Heap

variable {heap : Heap} {handle : Handle} {type : MachineInteger}

/-- A bignum object stands for the integer of a machine value and converts to
that value and to its casts. -/
structure ConvertsTo (heap : Heap) (handle : Handle) (value : type.Value) :
    Prop where
  stands : heap.StandsNormalisedFor handle value.toInt
  narrows : type.narrow handle heap = .ok value.answer
  wraps : ∀ target : MachineInteger,
    target.wrap handle heap = .ok (value.cast target).answer

theorem Regular.convertsTo (regular : heap.Regular) {value : type.Value}
    (integer : heap.Integer handle value.toInt) :
    heap.ConvertsTo handle value where
  stands := integer.standsNormalisedFor regular
  narrows := by
    have inRange := MachineInteger.inRange_toInt value
    rw [MachineInteger.narrow_eq type regular integer, if_pos inRange,
      MachineInteger.ofInt_toInt]
  wraps target := by
    rw [target.wrap_eq regular integer,
      MachineInteger.Value.cast_eq_ofInt value target]

theorem Regular.builds_construct (regular : heap.Regular) (value : type.Value) :
    ∃ cost, BigInteger.Builds value.construct heap (.ok value.toInt) cost := by
  cases type with
  | unsigned32 => exact ⟨_, BigInteger.builds_ofUInt32 value regular⟩
  | signed32 => exact ⟨_, BigInteger.builds_ofInt32 value regular⟩
  | unsigned64 => exact ⟨_, BigInteger.builds_ofUInt64 value regular⟩
  | signed64 => exact ⟨_, BigInteger.builds_ofInt64 value regular⟩

end Heap

/-! ## Reached heaps -/

namespace Session

/-- In a reached heap every machine value becomes a big integer that converts to
it, unless memory runs out. -/
theorem reached_constructs {config : Config} {host : Host} {session : Session}
    (reached : Reached config host session)
    {type : MachineInteger} (value : type.Value) :
    Ensures value.construct session.heap
      (fun result after => after.ConvertsTo result value)
      fun error _ => error.IsOutOfMemory := by
  obtain ⟨cost, builds⟩ := reached.regular.builds_construct value
  apply builds.answers.mono
  · intro result after answered
    obtain ⟨regularAfter, _, _, integer, _⟩ := answered
    exact regularAfter.convertsTo integer
  · exact fun _ _ lacking => lacking.1

/-- The least signed 64-bit number. -/
def leastInt64 : MachineInteger.signed64.Value := Int64.minValue

/-- Without initial room the pattern has to grow to two digits, and the power
that is taken from it to three. -/
theorem leastInt64_constructs :
    Reached { precision := 0 } .plain (start { precision := 0 } .plain) ∧
      ∃ result after,
        leastInt64.construct (start { precision := 0 } .plain).heap =
          .ok result after ∧
        after.ConvertsTo result leastInt64 := by
  obtain ⟨result, after, outcome⟩ :
      ∃ result after,
        leastInt64.construct (start { precision := 0 } .plain).heap =
          .ok result after :=
    HeapM.exists_eq_ok (by decide +kernel)
  have constructs := reached_constructs (.start : Reached { precision := 0 }
    .plain (start { precision := 0 } .plain)) leastInt64
  exact ⟨.start, result, after, outcome, constructs.of_ok outcome⟩

end Session

end ManagedHeap
