import ManagedHeap.Proofs.Heap.Carrying
import ManagedHeap.Proofs.Program.Cells

/-!
# Simulation on cells

A heap represents some cells when its root slots hold different objects that
denote them. Every request does to a representing heap what it does to the
cells (`Request.simulates`), and a collection does nothing to the cells.
-/

namespace ManagedHeap

namespace Heap

variable {heap before after : Heap} {handle iterator buffer : Handle}
  {cell : Cell}
  {cells : List Cell} {content : Bytes} {position : UInt32}

/-! ## Representation -/

/-- The root slots hold the given handles, which refer to different objects
and denote the cells in slot order. -/
structure Represents (heap : Heap) (handles : List Handle) (cells : List Cell) :
    Prop where
  roots : heap.roots = handles.map some
  length : handles.length = cells.length
  denotes : ∀ {slot : RootSlot} {handle cell}, handles[slot]? = some handle →
    cells[slot]? = some cell → heap.Denotes handle cell
  different : ∀ {left right : RootSlot} {leftHandle rightHandle},
    handles[left]? = some leftHandle →
    handles[right]? = some rightHandle →
    leftHandle.address = rightHandle.address → left = right

variable {handles : List Handle}

theorem represents_empty (config : Config) :
    (Heap.empty config).Represents [] [] where
  roots := rfl
  length := rfl
  denotes := fun found => nomatch found
  different := fun found => nomatch found

theorem Represents.root_eq (represents : heap.Represents handles cells)
    (slot : RootSlot) :
    heap.root slot = handles[slot]? := by
  rw [root, Roots.find?, represents.roots, List.getElem?_map]
  cases handles[slot]? <;> rfl

/-- A slot is empty for the heap and for the cells, or its object denotes its
cell. -/
theorem Represents.slot_cases (represents : heap.Represents handles cells)
    (slot : RootSlot) :
    heap.root slot = none ∧ cells[slot]? = none ∨
      ∃ handle cell, heap.root slot = some handle ∧ cells[slot]? = some cell ∧
        heap.Denotes handle cell := by
  rw [represents.root_eq]
  have length := represents.length
  by_cases inside : slot < handles.length
  · have handleAt := List.getElem?_eq_getElem inside
    have cellAt := List.getElem?_eq_getElem (length ▸ inside)
    exact Or.inr ⟨_, _, handleAt, cellAt, represents.denotes handleAt cellAt⟩
  · have outside := Nat.not_lt.mp inside
    exact Or.inl
      ⟨List.getElem?_eq_none outside, List.getElem?_eq_none (length ▸ outside)⟩

theorem Represents.grows (represents : before.Represents handles cells)
    (regular : before.Regular)
    (grows : before.Grows after) : after.Represents handles cells where
  roots := grows.roots.trans represents.roots
  length := represents.length
  denotes :=
    fun handleAt cellAt =>
      (represents.denotes handleAt cellAt).grows regular grows
  different := represents.different

/-! ## New roots -/

theorem getElem?_concat_eq_some {α : Type} {items : List α}
    {last item : α} {index : Nat}
    (present : (items ++ [last])[index]? = some item) :
    items[index]? = some item ∨ index = items.length ∧ item = last := by
  grind

/-- A new object that becomes a root adds its cell. -/
theorem Represents.addRoot (represents : heap.Represents handles cells)
    (denotes : heap.Denotes handle cell)
    (unused : ∀ root ∈ handles, root.address ≠ handle.address) :
    Represents { heap with roots := (Roots.add handle heap.roots).2 }
      (handles ++ [handle])
      (cells ++ [cell]) where
  roots := by
    show (Roots.add handle heap.roots).2 = _
    rw [represents.roots, Roots.add_map_some]
  length := by
    rw [List.length_append, List.length_append, represents.length]
    rfl
  denotes := by
    intro slot held present handleAt cellAt
    have length := represents.length
    rcases getElem?_concat_eq_some handleAt with oldHandle | ⟨isLast, rfl⟩ <;>
      rcases getElem?_concat_eq_some cellAt with oldCell | ⟨isLastCell, rfl⟩
    · exact (represents.denotes oldHandle oldCell).withRoots _
    · have := (List.getElem?_eq_some_iff.mp oldHandle).1
      omega
    · have := (List.getElem?_eq_some_iff.mp oldCell).1
      omega
    · exact denotes.withRoots _
  different := by
    intro left right leftHandle rightHandle leftAt rightAt same
    rcases getElem?_concat_eq_some leftAt with leftOld | ⟨isLeft, rfl⟩ <;>
      rcases getElem?_concat_eq_some rightAt with rightOld | ⟨isRight, rfl⟩
    · exact represents.different leftOld rightOld same
    · exact absurd same (unused _ (List.mem_of_getElem? leftOld))
    · exact absurd same.symm (unused _ (List.mem_of_getElem? rightOld))
    · rw [isLeft, isRight]

/-! ## Collections -/

theorem Represents.reaches (represents : heap.Represents handles cells)
    (held : handle ∈ handles) :
    heap.Reaches handle.address := by
  refine .root ?_
  rw [liveRoots, represents.roots]
  exact Roots.mem_filled_iff.mpr (List.mem_map.mpr ⟨handle, held, rfl⟩)

/-- A collection moves the roots and keeps the cells. -/
theorem Represents.collectsTo (represents : heap.Represents handles cells)
    (regular : heap.Regular)
    (collects : heap.CollectsTo after) :
    ∃ moved, after.Represents moved cells := by
  obtain ⟨marked, marks, rfl⟩ := collects
  refine ⟨handles.map (heap.forwarding marked).apply, ?_, ?_, ?_, ?_⟩
  · show heap.roots.map _ = _
    rw [represents.roots, List.map_map, List.map_map]
    rfl
  · rw [List.length_map, represents.length]
  · intro slot movedHandle cell handleAt cellAt
    rw [List.getElem?_map] at handleAt
    obtain ⟨handle, oldAt, rfl⟩ := Option.map_eq_some_iff.mp handleAt
    exact (represents.denotes oldAt cellAt).compact regular.tidy.layout marks
      (represents.reaches (List.mem_of_getElem? oldAt))
  · -- Roots stay apart because no two reached objects have one destination.
    intro left right leftMoved rightMoved leftAt rightAt same
    rw [List.getElem?_map] at leftAt rightAt
    obtain ⟨leftHandle, leftOld, rfl⟩ := Option.map_eq_some_iff.mp leftAt
    obtain ⟨rightHandle, rightOld, rfl⟩ := Option.map_eq_some_iff.mp rightAt
    have reached : ∀ {root}, root ∈ handles → ∃ object,
        heap.objects.find? root.address = some object ∧
          root.address ∈ marked := by
      intro root isRoot
      have isReached := represents.reaches isRoot
      obtain ⟨object, found⟩ := regular.sound.traceable.present _ isReached
      exact ⟨object, found, marks.mpr isReached⟩
    obtain ⟨_, leftFound, leftMarked⟩ := reached (List.mem_of_getElem? leftOld)
    obtain ⟨_, rightFound, rightMarked⟩ :=
      reached (List.mem_of_getElem? rightOld)
    refine represents.different leftOld rightOld
      (eq_of_destination_eq leftFound leftMarked rightFound rightMarked ?_)
    have layout := regular.tidy.layout
    rw [← layout.apply_movesTo, ← layout.apply_movesTo]
    exact same

/-! ## Iterators -/

theorem Represents.advance (represents : heap.Represents handles cells)
    (regular : heap.Regular)
    {slot : RootSlot} (iteratorAt : handles[slot]? = some iterator)
    (array : heap.objects.find? iterator.address =
      some (BlobIterator.object buffer position))
    (blob : heap.objects.find? buffer.address = some (.blob content))
    (later : UInt32) :
    (heap.place iterator (BlobIterator.object buffer later)).Represents handles
      (cells.set slot (.iterator content later)) where
  roots := represents.roots
  length := by rw [List.length_set, represents.length]
  denotes := by
    intro other handle cell handleAt cellAt
    by_cases same : slot = other
    · subst same
      obtain rfl := Option.some.inj (handleAt.symm.trans iteratorAt)
      rw [List.getElem?_set_self'] at cellAt
      obtain ⟨_, _, rfl⟩ := Option.map_eq_some_iff.mp cellAt
      refine ⟨buffer, find?_place_self .., ?_⟩
      rw [find?_place_of_ne heap]
      · exact blob
      · intro atIterator
        rw [atIterator] at blob
        cases blob.symm.trans array
    · rw [List.getElem?_set_ne same] at cellAt
      have denotes := represents.denotes handleAt cellAt
      refine BlobIterator.denotes_advance denotes regular array ?_ later
      exact fun sameAddress =>
        same (represents.different iteratorAt handleAt sameAddress.symm)
  different := represents.different

end Heap

namespace Program

variable {heap : Heap} {handles : List Handle} {cells : List Cell}

/-! ## Requests -/

/-- A regular heap that represents some cells, a given number of bytes further
than an earlier one. -/
structure Follows (before after : Heap) (cells : List Cell) (cost : Nat) :
    Prop where
  regular : after.Regular
  represents : ∃ handles, after.Represents handles cells
  config : after.config = before.config
  pointer : after.pointer = before.pointer + cost

/-- An operation does to the heap what an effect does to the cells, or fails
for want of memory. -/
def Realizes (operation : HeapM Answer) (heap : Heap) (cells : List Cell)
    (effect : Effect)
    (cost : Nat) : Prop :=
  Ensures operation heap
    (fun answer after => (effect.apply cells).1 = .answered answer ∧
      Follows heap after (effect.apply cells).2 cost)
    (fun error after => (effect.apply cells).1 = .failed error ∧
        Follows heap after (effect.apply cells).2 cost ∨
      error.IsOutOfMemory ∧ heap.Lacks cost)

private theorem follows_refl
    (regular : heap.Regular) (represents : heap.Represents handles cells) :
    Follows heap heap cells 0 :=
  ⟨regular, ⟨handles, represents⟩, rfl, rfl⟩

private theorem realizes_rooted {operation : HeapM Handle}
    {result : Except Error Cell}
    {cost : Nat}
    (regular : heap.Regular) (represents : heap.Represents handles cells)
    (makes : heap.Makes operation result cost) :
    Realizes (rooted operation) heap cells (.make result) cost := by
  unfold Realizes rooted
  rw [ensures_bind]
  refine Ensures.mono makes ?_ ?_
  · rintro handle after ⟨cell, rfl, regularAfter, grows, atPointer, denotes,
      pointer⟩
    have kept := represents.grows regular grows
    obtain ⟨object, found, _⟩ := denotes.exists_object
    rw [ensures_bind, Heap.addRoot, ensures_modifyGet, ensures_pure]
    refine ⟨?_,
      ⟨regularAfter.addRoot ⟨object, found⟩, ⟨handles ++ [handle], ?_⟩,
      grows.config,
      pointer⟩⟩
    · show Observation.answered (.slot cells.length) =
        .answered (.slot (Roots.add handle after.roots).1)
      rw [kept.roots, Roots.add_map_some, kept.length]
    · refine kept.addRoot denotes fun root isRoot => ?_
      obtain ⟨slot, inside, rfl⟩ := List.getElem_of_mem isRoot
      have handleAt := List.getElem?_eq_getElem inside
      have cellAt := List.getElem?_eq_getElem (represents.length ▸ inside)
      obtain ⟨_, older, _⟩ := (represents.denotes handleAt cellAt).exists_object
      rw [atPointer]
      exact Nat.ne_of_lt (regular.tidy.bounded.lt older)
  · rintro error after ⟨regularAfter, grows, ⟨rfl, pointer⟩ | lacking⟩
    · exact Or.inl
        ⟨rfl, regularAfter, ⟨handles, represents.grows regular grows⟩,
          grows.config,
        pointer⟩
    · exact Or.inr lacking

private theorem realizes_inspect {reader : Heap → Except Error Answer}
    {result : Except Error Answer}
    (regular : heap.Regular) (represents : heap.Represents handles cells)
    (read : reader heap = result) :
    Realizes (HeapM.inspect reader) heap cells (.tell result) 0 := by
  unfold Realizes
  rw [ensures_inspect, read]
  refine ⟨?_, ?_⟩
  · rintro answer rfl
    exact ⟨rfl, follows_refl regular represents⟩
  · rintro error rfl
    exact Or.inl ⟨rfl, follows_refl regular represents⟩

private theorem realizes_next
    {iterator : Handle} {cell : Cell} {slot : RootSlot}
    (regular : heap.Regular)
    (represents : heap.Represents handles cells)
    (iteratorAt : handles[slot]? = some iterator)
    (denotes : heap.Denotes iterator cell) :
    Realizes (Answer.byte <$> BlobIterator.next iterator) heap cells
      (.advance slot (stepped cell)) 0 := by
  have iteration := denotes.iteration_eq
  unfold Realizes BlobIterator.next
  rw [ensures_map, ensures_bind, ensures_inspect]
  cases held : cell.asIterator with
  | error error =>
    rw [held] at iteration
    rw [BlobIterator.current_eq_error iteration, stepped, held]
    refine ⟨(nomatch ·, ·), ?_⟩
    rintro _ ⟨⟩
    exact Or.inl ⟨rfl, follows_refl regular represents⟩
  | ok state =>
    obtain ⟨content, position⟩ := state
    obtain rfl : cell = .iterator content position := by
      cases cell <;> cases held
      rfl
    obtain ⟨buffer, array, blob⟩ := denotes
    rw [BlobIterator.current_eq array blob, stepped_iterator]
    cases BlobIterator.byteAt content position with
    | error error =>
      refine ⟨(nomatch ·, ·), ?_⟩
      rintro _ ⟨⟩
      exact Or.inl ⟨rfl, follows_refl regular represents⟩
    | ok byte =>
      refine ⟨?_, (nomatch ·, ·)⟩
      rintro _ ⟨⟩
      exact ⟨rfl, BlobIterator.regular_advance regular array (position + 1),
        ⟨handles, represents.advance regular iteratorAt array blob
          (position + 1)⟩, rfl, rfl⟩

/-! ## Observed requests -/

theorem isOutOfMemory_failed_iff {error : Error} :
    (Observation.failed error).isOutOfMemory = true ↔ error.IsOutOfMemory := by
  cases error <;> simp [Observation.isOutOfMemory, Error.IsOutOfMemory]

/-- What is seen of a request and the heap after it are those of its cells,
unless it wants for memory. -/
def Request.Simulates (request : Request) (heap : Heap) (cells : List Cell) :
    Prop :=
  (request.perform heap).1 = (request.interpret cells).1 ∧
      Follows heap (request.perform heap).2 (request.interpret cells).2
        (request.cost heap.config.precision.toNat cells) ∨
    (request.perform heap).1.isOutOfMemory = true ∧
      heap.Lacks (request.cost heap.config.precision.toNat cells)

variable {request : Request}

theorem Request.simulates_of_realizes {operation : HeapM Answer}
    {effect : Effect}
    (isOperation : request.operation heap.root = some operation)
    (isEffect : request.effect cells = some effect)
    (realizes : Realizes operation heap cells effect
      (request.cost heap.config.precision.toNat cells)) :
    request.Simulates heap cells := by
  unfold Simulates perform interpret
  unfold Realizes Ensures at realizes
  simp only [isOperation, isEffect]
  cases outcome : operation heap with
  | ok answer after =>
    rw [outcome] at realizes
    exact Or.inl ⟨realizes.1.symm, realizes.2⟩
  | error error after =>
    rw [outcome] at realizes
    rcases realizes with ⟨failed, follows⟩ | ⟨outOfMemory, lacks⟩
    · exact Or.inl ⟨failed.symm, follows⟩
    · exact Or.inr ⟨isOutOfMemory_failed_iff.mpr outOfMemory, lacks⟩

theorem Request.simulates_of_emptySlot (regular : heap.Regular)
    (represents : heap.Represents handles cells)
    (isEmpty : request.operation heap.root = none)
    (isEmptyCell : request.effect cells = none)
    (free : request.cost heap.config.precision.toNat cells = 0) :
    request.Simulates heap cells := by
  unfold Simulates perform interpret
  simp only [isEmpty, isEmptyCell, free]
  exact Or.inl ⟨trivial, follows_refl regular represents⟩

theorem Request.simulates_of_operand
    {slot : RootSlot} {operation : Handle → HeapM Answer}
    {effect : Cell → Effect} (regular : heap.Regular)
    (represents : heap.Represents handles cells)
    (isOperation : request.operation heap.root = (heap.root slot).map operation)
    (isEffect : request.effect cells = cells[slot]?.map effect)
    (free : cells[slot]? = none →
      request.cost heap.config.precision.toNat cells = 0)
    (realizes : ∀ {handle cell}, heap.root slot = some handle →
      cells[slot]? = some cell →
      heap.Denotes handle cell →
        Realizes (operation handle) heap cells (effect cell)
          (request.cost heap.config.precision.toNat cells)) :
    request.Simulates heap cells := by
  rcases represents.slot_cases slot with ⟨isEmpty, isEmptyCell⟩ |
    ⟨handle, cell, held, cellAt, denotes⟩
  · rw [isEmpty] at isOperation
    rw [isEmptyCell] at isEffect
    exact simulates_of_emptySlot regular represents isOperation isEffect
      (free isEmptyCell)
  · rw [held] at isOperation
    rw [cellAt] at isEffect
    exact simulates_of_realizes isOperation isEffect
      (realizes held cellAt denotes)

theorem Request.simulates_of_operands {left right : RootSlot}
    {operation : Handle → Handle → HeapM Answer} {effect : Cell → Cell → Effect}
    (regular : heap.Regular) (represents : heap.Represents handles cells)
    (isOperation : request.operation heap.root =
      (heap.root left).bind fun leftHandle =>
        (heap.root right).map (operation leftHandle))
    (isEffect : request.effect cells =
      cells[left]?.bind fun leftCell => cells[right]?.map (effect leftCell))
    (free : cells[left]? = none ∨ cells[right]? = none →
      request.cost heap.config.precision.toNat cells = 0)
    (realizes : ∀ {leftHandle rightHandle leftCell rightCell},
      cells[left]? = some leftCell →
      cells[right]? = some rightCell → heap.Denotes leftHandle leftCell →
        heap.Denotes rightHandle rightCell →
          Realizes (operation leftHandle rightHandle) heap cells
            (effect leftCell rightCell)
            (request.cost heap.config.precision.toNat cells)) :
    request.Simulates heap cells := by
  rcases represents.slot_cases left with ⟨isEmpty, isEmptyCell⟩ |
    ⟨leftHandle, leftCell, leftHeld, leftAt, leftDenotes⟩
  · rw [isEmpty] at isOperation
    rw [isEmptyCell] at isEffect
    exact simulates_of_emptySlot regular represents isOperation isEffect
      (free (Or.inl isEmptyCell))
  · rw [leftHeld] at isOperation
    rw [leftAt] at isEffect
    refine simulates_of_operand regular represents isOperation isEffect
      (fun isEmptyCell => free (Or.inr isEmptyCell)) ?_
    exact fun _ rightAt rightDenotes =>
      realizes leftAt rightAt leftDenotes rightDenotes

/-- Every request does to the heap what it does to the cells. -/
theorem Request.simulates (request : Request) (regular : heap.Regular)
    (represents : heap.Represents handles cells) :
    request.Simulates heap cells := by
  cases request with
  | create source =>
    exact simulates_of_realizes rfl rfl
      (realizes_rooted regular represents (source.makes regular))
  | convert conversion operand =>
    refine simulates_of_operand regular represents rfl rfl ?_ ?_
    · intro isEmpty
      rw [cost, isEmpty]
      rfl
    · intro handle cell _ cellAt denotes
      rw [cost, cellAt]
      exact realizes_rooted regular represents
        (conversion.makes regular denotes)
  | combine binary left right =>
    refine simulates_of_operands regular represents rfl rfl ?_ ?_
    · rintro (isEmpty | isEmpty)
      · rw [cost, isEmpty]
        rfl
      · rw [cost, isEmpty]
        cases cells[left]? <;> rfl
    · intro leftHandle rightHandle leftCell rightCell leftAt rightAt leftDenotes
        rightDenotes
      rw [cost, leftAt, rightAt, ← leftDenotes.integer_eq,
        ← rightDenotes.integer_eq,
        Option.elim_some, Option.elim_some, ← leftDenotes.integer_eq,
        ← rightDenotes.integer_eq]
      exact realizes_rooted regular represents
        (BigInteger.makes_perform binary regular)
  | read query operand =>
    refine simulates_of_operand regular represents rfl rfl
      (fun _ => rfl) fun _ _ denotes => ?_
    exact realizes_inspect regular represents (query.perform_eq regular denotes)
  | compare comparison left right =>
    refine simulates_of_operands regular represents rfl rfl (fun _ => rfl) ?_
    intro leftHandle rightHandle leftCell rightCell _ _ leftDenotes rightDenotes
    exact realizes_inspect regular represents
      (compare_eq_compared comparison regular leftDenotes rightDenotes)
  | next iterator =>
    refine simulates_of_operand regular represents rfl rfl
      (fun _ => rfl) fun held _ denotes => ?_
    rw [represents.root_eq] at held
    exact realizes_next regular represents held denotes

end Program

end ManagedHeap
