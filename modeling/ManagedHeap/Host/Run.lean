import ManagedHeap.Heap.Soundness
import ManagedHeap.Host.Session

/-!
# Runs of calls

Lists of calls performed one after the other, traps included, and the sessions
that such lists lead to when only existing objects become roots.

A host takes no part in what happens to the heap (`heap_invoke`).
-/

namespace ManagedHeap

/-! ## One call -/

/-- The heap after a call, answered or failed. -/
def Call.heapAfter (call : Call) (heap : Heap) : Heap :=
  match call.perform heap with
  | .ok _ after => after
  | .error _ after => after

/-- A call that makes a root only of an object that exists. -/
def Call.Admissible (heap : Heap) : Call → Prop
  | .addRoot handle => heap.Holds handle
  | _ => True

namespace Session

/-- A call does to the heap what it does without a host. -/
theorem heap_invoke (session : Session) (call : Call) :
    (session.invoke call).2.heap = call.heapAfter session.heap := by
  unfold invoke Call.heapAfter
  cases call.perform session.heap with
  | ok answer after =>
    by_cases emptySlot :
      call.asksEmptySlot answer = true <;> simp [emptySlot, trap]
  | error failure after => rfl

theorem invoke_of_ok {session : Session} {call : Call} {answer : Answer}
    {after : Heap} (performed : call.perform session.heap = .ok answer after)
    (filled : call.asksEmptySlot answer = false) :
    session.invoke call =
      (.returned answer, { session with heap := after }) := by
  simp [invoke, performed, filled]

theorem invoke_of_error {session : Session} {call : Call} {error : Error}
    {after : Heap}
    (performed : call.perform session.heap = .error error after) :
    session.invoke call =
      trap { session with heap := after } error.message := by
  simp [invoke, performed]

theorem perform_of_invoke_eq {session next : Session} {call : Call}
    {answer : Answer}
    (outcome : session.invoke call = (.returned answer, next)) :
    call.perform session.heap = .ok answer next.heap := by
  unfold invoke at outcome
  split at outcome
  · rename_i value after performed
    split at outcome
    · cases outcome
    · cases outcome
      exact performed
  · cases outcome

/-! ## Many calls -/

/-- Performs calls in order, and goes on after a trap: how each call ends, and
the session after all of them. -/
def invokeAll (session : Session) : List Call → List (Outcome Answer) × Session
  | [] => ([], session)
  | call :: rest =>
    let (outcome, next) := session.invoke call
    let (outcomes, last) := next.invokeAll rest
    (outcome :: outcomes, last)

/-! ## Reached sessions -/

/-- A session that admissible calls lead to from an empty heap. -/
inductive Reached (config : Config) (host : Host) : Session → Prop where
  | start : Reached config host (Session.start config host)
  | invoke {session : Session} (reached : Reached config host session)
    (call : Call)
      (admissible : call.Admissible session.heap) :
      Reached config host (session.invoke call).2

end Session

end ManagedHeap
