import ManagedHeap.Heap.Basic

/-!
# Outcomes

What an operation that may fail ensures from a given state. An operation
ensures a postcondition of its result and one of its error, each with the
state that it leaves. Composite operations are followed step by step:
`ensures_bind` splits a sequence, and `Ensures.mono` weakens what a part
ensures.
-/

namespace ManagedHeap

theorem Except.bind_eq_ok_iff {ε α β : Type} {action : Except ε α}
    {next : α → Except ε β}
    {value : β} :
    (action >>= next) = .ok value ↔ ∃ first, action = .ok first ∧
      next first = .ok value := by
  cases action <;> simp [bind, Except.bind]

theorem Except.unit_bind_eq_ok_iff {ε β : Type} {rule : Except ε Unit}
    {next : Unit → Except ε β}
    {value : β} :
    (rule >>= next) = .ok value ↔ rule = .ok () ∧ next () = .ok value := by
  cases rule <;> simp [bind, Except.bind]

theorem Except.unit_bind_eq_error_iff {ε β : Type} {rule : Except ε Unit}
    {next : Unit → Except ε β} {error : ε} :
    (rule >>= next) = .error error ↔
      rule = .error error ∨ rule = .ok () ∧ next () = .error error := by
  cases rule <;> simp [bind, Except.bind]

theorem Except.map_eq_ok_iff {ε α β : Type} {action : Except ε α}
    {change : α → β} {value : β} :
    action.map change = .ok value ↔ ∃ first, action = .ok first ∧
      change first = value := by
  cases action <;> simp [Except.map]

theorem Except.bind_eq_error_iff {ε α β : Type} {action : Except ε α}
    {next : α → Except ε β} {error : ε} :
    (action >>= next) = .error error ↔
      action = .error error ∨
        ∃ first, action = .ok first ∧ next first = .error error := by
  cases action <;> simp [bind, Except.bind]

theorem Except.map_eq_error_iff {ε α β : Type} {action : Except ε α}
    {change : α → β} {error : ε} :
    action.map change = .error error ↔ action = .error error := by
  cases action <;> simp [Except.map]

theorem require_eq_error_iff {condition : Prop} [Decidable condition]
    {error other : Error} :
    require condition error = .error other ↔ ¬condition ∧ error = other := by
  unfold require
  split <;> simp_all

theorem require_bind {α : Type} {condition : Prop} [Decidable condition]
    {error : Error} {next : Unit → Except Error α} :
    (require condition error >>= next) =
      if condition then next () else .error error := by
  unfold require
  split <;> rfl

section Ensures

variable {σ α β : Type}

/-- Whichever way an operation ends: a result satisfies `returns`, and an
error `fails`, each with the state after it. -/
def Ensures (operation : EStateM Error σ α) (state : σ)
    (returns : α → σ → Prop) (fails : Error → σ → Prop) : Prop :=
  match operation state with
  | .ok value after => returns value after
  | .error error after => fails error after

variable {state : σ} {returns : α → σ → Prop} {fails : Error → σ → Prop}

theorem Ensures.mono {operation : EStateM Error σ α}
    {weakerReturns : α → σ → Prop} {weakerFails : Error → σ → Prop}
    (ensured : Ensures operation state returns fails)
    (onReturn : ∀ value after, returns value after → weakerReturns value after)
    (onFailure : ∀ error after, fails error after → weakerFails error after) :
    Ensures operation state weakerReturns weakerFails := by
  unfold Ensures at ensured ⊢
  cases outcome : operation state with
  | ok value after =>
    rw [outcome] at ensured
    exact onReturn value after ensured
  | error error after =>
    rw [outcome] at ensured
    exact onFailure error after ensured

theorem Ensures.intro {operation : EStateM Error σ α} {value : α} {after : σ}
    (outcome : operation state = .ok value after)
    (returned : returns value after) :
    Ensures operation state returns fails := by
  unfold Ensures
  rw [outcome]
  exact returned

theorem Ensures.of_ok {operation : EStateM Error σ α} {value : α} {after : σ}
    (ensured : Ensures operation state returns fails)
    (outcome : operation state = .ok value after) :
    returns value after := by
  unfold Ensures at ensured
  rw [outcome] at ensured
  exact ensured

theorem Ensures.of_error {operation : EStateM Error σ α}
    {error : Error} {after : σ}
    (ensured : Ensures operation state returns fails)
    (outcome : operation state = .error error after) :
    fails error after := by
  unfold Ensures at ensured
  rw [outcome] at ensured
  exact ensured

instance {operation : EStateM Error σ α}
    [∀ value after, Decidable (returns value after)]
    [∀ error after, Decidable (fails error after)] :
    Decidable (Ensures operation state returns fails) :=
  match outcome : operation state with
  | .ok value after =>
    decidable_of_iff (returns value after) (by rw [Ensures, outcome])
  | .error error after =>
    decidable_of_iff (fails error after) (by rw [Ensures, outcome])

/-- An operation that ensures no failure returns. -/
theorem Ensures.exists_ok {operation : EStateM Error σ α}
    (ensured : Ensures operation state returns fun _ _ => False) :
    ∃ value after, operation state = .ok value after ∧ returns value after := by
  unfold Ensures at ensured
  cases outcome : operation state with
  | ok value after =>
    rw [outcome] at ensured
    exact ⟨value, after, rfl, ensured⟩
  | error error after =>
    rw [outcome] at ensured
    exact ensured.elim

@[simp]
theorem ensures_pure {value : α} :
    Ensures (pure value) state returns fails ↔ returns value state := Iff.rfl

@[simp]
theorem ensures_get {returns : σ → σ → Prop} :
    Ensures get state returns fails ↔ returns state state := Iff.rfl

@[simp]
theorem ensures_set {next : σ} {returns : PUnit → σ → Prop} :
    Ensures (set next) state returns fails ↔ returns ⟨⟩ next := Iff.rfl

@[simp]
theorem ensures_modify {change : σ → σ} {returns : PUnit → σ → Prop} :
    Ensures (modify change) state returns fails ↔ returns ⟨⟩ (change state) :=
  Iff.rfl

@[simp]
theorem ensures_modifyGet {change : σ → α × σ} :
    Ensures (modifyGet change) state returns fails ↔
      returns (change state).1 (change state).2 := Iff.rfl

@[simp]
theorem ensures_bind {operation : EStateM Error σ α}
    {next : α → EStateM Error σ β}
    {returns : β → σ → Prop} :
    Ensures (operation >>= next) state returns fails ↔
      Ensures operation state
        (fun value after => Ensures (next value) after returns fails)
          fails := by
  simp only [Ensures, bind, EStateM.bind]
  cases operation state <;> rfl

@[simp]
theorem ensures_map {operation : EStateM Error σ α} {change : α → β}
    {returns : β → σ → Prop} :
    Ensures (change <$> operation) state returns fails ↔
      Ensures operation state (fun value after => returns (change value) after)
        fails := by
  simp only [Ensures, Functor.map, EStateM.map]
  cases operation state <;> rfl

end Ensures

@[simp]
theorem ensures_inspect {α : Type} {reader : Heap → Except Error α}
    {heap : Heap}
    {returns : α → Heap → Prop} {fails : Error → Heap → Prop} :
    Ensures (HeapM.inspect reader) heap returns fails ↔
      (∀ value, reader heap = .ok value → returns value heap) ∧
        (∀ error, reader heap = .error error → fails error heap) := by
  unfold Ensures HeapM.inspect
  cases reader heap <;> simp

/-- Whether an operation returns. -/
def HeapM.returns {α : Type} (operation : HeapM α) (heap : Heap) : Bool :=
  match operation heap with
  | .ok _ _ => true
  | .error _ _ => false

theorem HeapM.exists_eq_ok {α : Type} {operation : HeapM α} {heap : Heap}
    (returned : operation.returns heap = true) :
    ∃ value after, operation heap = .ok value after := by
  unfold returns at returned
  cases outcome : operation heap with
  | ok value after => exact ⟨value, after, rfl⟩
  | error error after =>
    rw [outcome] at returned
    cases returned

/-- A sequence that begins with a read whose result is known. -/
theorem Ensures.read {α β : Type} {reader : Heap → Except Error α}
    {next : α → HeapM β}
    {heap : Heap} {value : α} {returns : β → Heap → Prop}
    {fails : Error → Heap → Prop}
    (result : reader heap = .ok value)
    (rest : Ensures (next value) heap returns fails) :
    Ensures (HeapM.inspect reader >>= next) heap returns fails := by
  simpa [result] using rest

/-- A sequence that begins with a read that fails. -/
theorem Ensures.read_error {α β : Type} {reader : Heap → Except Error α}
    {next : α → HeapM β}
    {heap : Heap} {error : Error} {returns : β → Heap → Prop}
    {fails : Error → Heap → Prop}
    (result : reader heap = .error error)
    (failed : fails error heap) :
    Ensures (HeapM.inspect reader >>= next) heap returns fails := by
  simpa [result] using failed

end ManagedHeap
