import ManagedHeap.Host.Run
import ManagedHeap.Proofs.Outcomes

/-!
# Sessions in lockstep with plain heaps

What the operation behind each call reports on a plain heap, without a host
(`Call.report`). A session with a recording host performs the same operations
with the same effects on its heap, answers their results, and traps exactly
where one fails or an empty root slot is asked for; every trap records its
message, and nothing else is recorded (`Session.start_inLockstep`).
-/

namespace ManagedHeap

/-! ## Operations on a plain heap -/

/-- What an operation reports, and the heap that it leaves. -/
structure Report where
  result : Except Error Answer
  heap : Heap

namespace Report

variable {α : Type}

/-- The report of an operation that may change the heap. -/
def ofChange (answer : α → Answer) (operation : HeapM α) (heap : Heap) :
    Report :=
  match operation heap with
  | .ok value after => ⟨.ok (answer value), after⟩
  | .error error after => ⟨.error error, after⟩

/-- The report of an operation that only reads the heap. -/
def ofReading (answer : α → Answer) (reader : Heap → Except Error α)
    (heap : Heap) : Report :=
  ⟨(reader heap).map answer, heap⟩

/-- The report of an operation on the storage at a payload address. -/
def ofStorage (answer : α → Answer) (address : Nat)
    (operation : PayloadPointer → HeapM α) (heap : Heap) : Report :=
  match heap.payloadPointerAt address with
  | .ok pointer => ofChange answer (operation pointer) heap
  | .error error => ⟨.error error, heap⟩

end Report

/-- The orders of two operands that satisfy a comparison. -/
def BigInteger.Comparison.accepts : BigInteger.Comparison → Ordering → Bool
  | .equal, ordering => ordering == .eq
  | .less, ordering => ordering == .lt
  | .greater, ordering => ordering == .gt
  | .lessOrEqual, ordering => ordering != .gt
  | .greaterOrEqual, ordering => ordering != .lt

/-- The report of the operation behind a call. Storage is answered by its
payload address. -/
def Call.report : Call → Heap → Report
  | .identityToBlob text => .ofChange .handle (Identity.toBlob text)
  | .identityOfBlob payload => .ofChange .handle (Identity.ofBlob payload)
  | .identityOfBase32 text => .ofChange .handle (Identity.ofBase32 text)
  | .textOfString text => .ofChange .handle (Text.ofString text)
  | .version => .ofChange .handle Text.version
  | .blobBytes blob => .ofReading .bytes (·.blob blob)
  | .blobIterator blob => .ofChange .handle (BlobIterator.create blob)
  | .iteratorIsDone iterator => .ofReading .truth (BlobIterator.isDone iterator)
  | .iteratorNext iterator => .ofChange .byte (BlobIterator.next iterator)
  | .ofUInt32 value => .ofChange .handle (BigInteger.ofUInt32 value)
  | .ofInt32 value => .ofChange .handle (BigInteger.ofInt32 value)
  | .ofUInt64 value => .ofChange .handle (BigInteger.ofUInt64 value)
  | .ofInt64 value => .ofChange .handle (BigInteger.ofInt64 value)
  | .ofDecimal text => .ofChange .handle (BigInteger.ofDecimal text)
  | .toDecimal operand => .ofReading .text (BigInteger.toDecimal operand)
  | .wrap .unsigned32 operand =>
    .ofReading .uint32 (BigInteger.toUInt32 operand)
  | .wrap .signed32 operand => .ofReading .int32 (BigInteger.toInt32 operand)
  | .wrap .unsigned64 operand =>
    .ofReading .uint64 (BigInteger.toUInt64 operand)
  | .wrap .signed64 operand => .ofReading .int64 (BigInteger.toInt64 operand)
  | .narrow .unsigned32 operand =>
    .ofReading .uint32 (BigInteger.toUInt32Checked operand)
  | .narrow .signed32 operand =>
    .ofReading .int32 (BigInteger.toInt32Checked operand)
  | .narrow .unsigned64 operand =>
    .ofReading .uint64 (BigInteger.toUInt64Checked operand)
  | .narrow .signed64 operand =>
    .ofReading .int64 (BigInteger.toInt64Checked operand)
  | .compare comparison left right =>
    .ofReading .truth fun heap =>
      (BigInteger.order left right heap).map comparison.accepts
  | .binary .add left right => .ofChange .handle (BigInteger.add left right)
  | .binary .sub left right => .ofChange .handle (BigInteger.sub left right)
  | .binary .mul left right => .ofChange .handle (BigInteger.mul left right)
  | .binary .div left right => .ofChange .handle (BigInteger.div left right)
  | .binary .rem left right => .ofChange .handle (BigInteger.rem left right)
  | .binary .pow left right => .ofChange .handle (BigInteger.pow left right)
  | .neg operand => .ofChange .handle (BigInteger.neg operand)
  | .abs operand => .ofChange .handle (BigInteger.abs operand)
  | .shiftLeft operand count =>
    .ofChange .handle (BigInteger.shiftLeft operand count.toInt)
  | .isNegative operand => .ofReading .truth (BigInteger.isNegative operand)
  | .bitCount operand => .ofReading .count (BigInteger.bitCount operand)
  | .calloc count elementSize =>
    .ofChange (.address ·.address) (Heap.calloc count elementSize)
  | .realloc address oldSize newSize =>
    .ofStorage (.address ·.address) address
      (Heap.realloc · oldSize newSize)
  | .free address size =>
    .ofStorage (fun _ => .nothing) address (Heap.free · size)
  | .addRoot handle => .ofChange .slot (Heap.addRoot handle)
  | .root slot => fun heap => ⟨.ok (.slotContent (heap.root slot)), heap⟩
  | .removeRoot slot => .ofChange .slotContent (Heap.removeRoot slot)
  | .collect => .ofChange .stats Heap.collect
  | .scheduleCollect => .ofChange .scheduled Heap.scheduleCollect

/-- What a host is told of a report: the text of its error, or that a root was
asked for whose slot is empty. -/
def Report.message? (report : Report) (call : Call) : Option String :=
  match report.result, call with
  | .error error, _ => some error.message
  | .ok (.slotContent none), .root _ => some "root: slot is empty"
  | .ok _, _ => none

/-- The reports of operations that are performed one after the other, failed
ones included. -/
def Call.reports (heap : Heap) : List Call → List (Call × Report)
  | [] => []
  | call :: rest =>
    (call, call.report heap) :: reports (call.report heap).heap rest

/-- The messages that some reports give rise to, in order. -/
def Report.messages (reports : List (Call × Report)) : List String :=
  reports.filterMap fun entry => entry.2.message? entry.1

/-! ## Calls -/

namespace Report

variable {α β : Type}

private theorem ofChange_map (answer : β → Answer) (change : α → β)
    (operation : HeapM α) (heap : Heap) :
    ofChange answer (change <$> operation) heap =
      ofChange (answer ∘ change) operation heap := by
  simp only [ofChange, Functor.map, EStateM.map]
  cases operation heap <;> rfl

private theorem ofChange_inspect (answer : α → Answer)
    (reader : Heap → Except Error α) (heap : Heap) :
    ofChange answer (HeapM.inspect reader) heap =
      ofReading answer reader heap := by
  simp only [ofChange, ofReading, HeapM.inspect]
  cases reader heap <;> rfl

private theorem ofReading_map (answer : β → Answer) (change : α → β)
    (reader : Heap → Except Error α) (heap : Heap) :
    ofReading answer (fun heap => (reader heap).map change) heap =
      ofReading (answer ∘ change) reader heap := by
  simp only [ofReading]
  cases reader heap <;> rfl

private theorem ofChange_storage (answer : α → Answer) (address : Nat)
    (operation : PayloadPointer → HeapM α) (heap : Heap) :
    ofChange answer
        (HeapM.inspect (·.payloadPointerAt address) >>= operation) heap =
      ofStorage answer address operation heap := by
  simp only [ofChange, ofStorage, bind, EStateM.bind, HeapM.inspect]
  cases heap.payloadPointerAt address <;> rfl

private theorem ofStorage_map
    (answer : β → Answer) (change : α → β) (address : Nat)
    (operation : PayloadPointer → HeapM α) (heap : Heap) :
    ofStorage answer address (fun pointer => change <$> operation pointer)
        heap =
      ofStorage (answer ∘ change) address operation heap := by
  simp only [ofStorage, ofChange_map]

end Report

section

open Report

theorem BigInteger.Comparison.holds_eq_accepts
    (comparison : BigInteger.Comparison) :
    comparison.holds = comparison.accepts := by
  funext ordering
  cases comparison <;> cases ordering <;> rfl

/-- A call performs the operation whose report it is compared with. -/
theorem Call.report_eq (call : Call) (heap : Heap) :
    call.report heap = .ofChange id call.perform heap := by
  cases call with
  | blobBytes _ =>
    rw [perform, ofChange_map, ofChange_inspect]
    rfl
  | iteratorIsDone _ =>
    rw [perform, ofChange_map, ofChange_inspect]
    rfl
  | toDecimal _ =>
    rw [perform, ofChange_map, ofChange_inspect]
    rfl
  | isNegative _ =>
    rw [perform, ofChange_map, ofChange_inspect]
    rfl
  | bitCount _ =>
    rw [perform, ofChange_map, ofChange_inspect]
    rfl
  | wrap target operand =>
    rw [perform, ofChange_inspect]
    cases target <;> exact (ofReading_map id _ _ heap).symm
  | narrow target operand =>
    rw [perform, ofChange_inspect]
    cases target <;> exact (ofReading_map id _ _ heap).symm
  | compare comparison left right =>
    rw [perform, ofChange_map, ofChange_inspect]
    rw [report, ← comparison.holds_eq_accepts]
    rfl
  | binary operation left right =>
    rw [perform, ofChange_map]
    cases operation <;> rfl
  | realloc address oldSize newSize =>
    rw [perform, ofChange_map, reallocAt, ofChange_storage]
    simp only [bind_pure_comp]
    rw [ofStorage_map]
    rfl
  | free address size =>
    rw [perform, ofChange_map, freeAt, ofChange_storage]
    rfl
  | root slot => rfl
  | _ =>
    rw [perform, ofChange_map]
    rfl

end

/-! ## One call -/

/-- A session answers, traps, tells its host and changes its heap as the
operation behind a call does on a plain heap. -/
structure Session.Mirrors (session : Session) (call : Call) (heap : Heap) :
    Prop where
  heap_eq : (session.invoke call).2.heap = (call.report heap).heap
  returns_iff : ∀ answer, (session.invoke call).1 = .returned answer ↔
    (call.report heap).result = .ok answer ∧
      (call.report heap).message? call = none
  traps_iff : ∀ message, (session.invoke call).1 = .trapped message ↔
    (call.report heap).message? call = some message
  host_eq : (session.invoke call).2.host =
    match (call.report heap).message? call with
    | some message => session.host.record message
    | none => session.host

theorem Report.message?_ok (call : Call) (answer : Answer) (heap : Heap) :
    message? ⟨.ok answer, heap⟩ call =
      if call.asksEmptySlot answer then some Session.emptySlotMessage
      else none := by
  simp only [message?]
  split
  · contradiction
  · rename_i held
    cases held
    rfl
  · rename_i value same filled
    cases same
    unfold Call.asksEmptySlot
    split
    · exact (filled _ rfl rfl).elim
    · rfl

namespace Session

theorem Mirrors.of_trap {session : Session} {call : Call} {heap : Heap}
    {message : String}
    (trapped : session.invoke call =
      trap { session with heap := (call.report heap).heap } message)
    (told : (call.report heap).message? call = some message) :
    session.Mirrors call heap := by
  constructor
  · rw [trapped]
    rfl
  · intro answer
    simp [trapped, told, trap, Host.trap]
  · intro other
    simp [trapped, told, trap, Host.trap]
  · rw [trapped, told]
    rfl

theorem Mirrors.of_return {session : Session} {call : Call} {heap : Heap}
    {answer : Answer}
    (returned : session.invoke call =
      (.returned answer, { session with heap := (call.report heap).heap }))
    (result : (call.report heap).result = .ok answer)
    (silent : (call.report heap).message? call = none) :
    session.Mirrors call heap := by
  constructor
  · rw [returned]
  · intro other
    simp [returned, result, silent]
  · intro message
    simp [returned, silent]
  · rw [returned, silent]

private theorem mirrors (session : Session) (call : Call) :
    session.Mirrors call session.heap := by
  have reported := call.report_eq session.heap
  rw [Report.ofChange] at reported
  cases performed : call.perform session.heap with
  | error error after =>
    rw [performed] at reported
    have trapped := invoke_of_error performed
    have told : Report.message? ⟨.error error, after⟩ call =
      some error.message := rfl
    apply Mirrors.of_trap
    · rw [trapped, reported]
    · rw [reported, told]
  | ok answer after =>
    rw [performed] at reported
    have told := Report.message?_ok call answer after
    by_cases emptySlot : call.asksEmptySlot answer = true
    · have trapped : session.invoke call =
          trap { session with heap := after } emptySlotMessage := by
        simp [invoke, performed, emptySlot]
      rw [if_pos emptySlot] at told
      apply Mirrors.of_trap
      · rw [trapped, reported]
      · rw [reported]
        exact told
    · have returned := invoke_of_ok performed (Bool.eq_false_iff.mpr emptySlot)
      rw [if_neg emptySlot] at told
      apply Mirrors.of_return
      · rw [returned, reported]
      · rw [reported]
        rfl
      · rw [reported]
        exact told

/-! ## Many calls -/

/-- A session and a plain heap stay equal under calls and the operations
behind them, and each call mirrors its operation. -/
def InLockstep (session : Session) (heap : Heap) : List Call → Prop
  | [] => session.heap = heap
  | call :: rest =>
    session.heap = heap ∧ session.Mirrors call heap ∧
      (session.invoke call).2.InLockstep (call.report heap).heap rest

theorem inLockstep (session : Session) (calls : List Call) :
    session.InLockstep session.heap calls := by
  induction calls generalizing session with
  | nil => rfl
  | cons call rest inductionHypothesis =>
    have mirrored := session.mirrors call
    -- The hypothesis is for every session: here the one that the call leaves,
    -- trapped or not, whose heap is that of the report.
    have next := inductionHypothesis (session.invoke call).2
    rw [mirrored.heap_eq] at next
    exact ⟨rfl, mirrored, next⟩

/-- A recording host keeps the messages that calls give rise to. -/
theorem host_invokeAll {session : Session} {messages : List String}
    (recording : session.host = .recording messages) (calls : List Call) :
    (session.invokeAll calls).2.host =
      .recording (messages ++
        Report.messages (Call.reports session.heap calls)) := by
  induction calls generalizing session messages with
  | nil => simpa [invokeAll, Call.reports, Report.messages] using recording
  | cons call rest inductionHypothesis =>
    have mirrored := session.mirrors call
    have told := mirrored.host_eq
    simp only [invokeAll, Call.reports, Report.messages, List.filterMap_cons]
    cases message : (call.report session.heap).message? call with
    | none =>
      rw [message, recording] at told
      rw [inductionHypothesis told, mirrored.heap_eq]
      rfl
    | some text =>
      rw [message, recording] at told
      rw [inductionHypothesis told, mirrored.heap_eq]
      simp [Report.messages]

/-- A session with a recording host refines the operations on a plain heap:
whatever is called, traps included, the heaps are equal at every point, each
call returns what its operation does and traps where it fails, and the
messages kept are those of the failures, in order. -/
theorem start_inLockstep (config : Config) (calls : List Call) :
    (start config (.recording [])).InLockstep (Heap.empty config) calls ∧
      ((start config (.recording [])).invokeAll calls).2.host =
        .recording (Report.messages
          (Call.reports (Heap.empty config) calls)) := by
  constructor
  · exact inLockstep _ calls
  · have recording : (start config (.recording [])).host = .recording [] := rfl
    exact host_invokeAll recording calls

end Session

end ManagedHeap
