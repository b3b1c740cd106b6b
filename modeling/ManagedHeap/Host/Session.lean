import ManagedHeap.Host.Call

/-!
# The host boundary

Errors do not cross the boundary as values: a call returns its answer or
traps, and a trap hands the text of the error to the host. What a failed call
did to the heap stays.
-/

namespace ManagedHeap

/-! ## Hosts -/

/-- Who receives traps: a plain host only ends the call, a recording host also
keeps every message in order. -/
inductive Host where
  | plain
  | recording (messages : List String)
  deriving DecidableEq, Repr

namespace Host

def record (host : Host) (message : String) : Host :=
  match host with
  | .plain => .plain
  | .recording messages => .recording (messages ++ [message])

def messages : Host → List String
  | .plain => []
  | .recording messages => messages

end Host

/-- How a call ends. -/
inductive Outcome (α : Type) where
  | returned (value : α)
  | trapped (message : String)
  deriving DecidableEq, Repr

/-- Ends a call with a diagnostic message. -/
def Host.trap {α : Type} (host : Host) (message : String) : Outcome α × Host :=
  (.trapped message, host.record message)

/-! ## Sessions -/

/-- A heap and the host that receives its traps. -/
structure Session where
  heap : Heap
  host : Host

namespace Session

def start (config : Config) (host : Host) : Session :=
  ⟨Heap.empty config, host⟩

def trap {α : Type} (session : Session) (message : String) :
    Outcome α × Session :=
  let (outcome, host) := session.host.trap message
  (outcome, { session with host })

/-- The message of the trap that a root's empty slot causes. -/
def emptySlotMessage : String := "root: slot is empty"

/-- Performs a call: its answer, or a trap with the text of its error. -/
def invoke (session : Session) (call : Call) : Outcome Answer × Session :=
  match call.perform session.heap with
  | .ok answer heap =>
    if call.asksEmptySlot answer then
      trap { session with heap } emptySlotMessage
    else
      (.returned answer, { session with heap })
  | .error error heap => trap { session with heap } error.message

end Session

end ManagedHeap
