import ManagedHeap.Proofs.Program.Simulation

/-!
# Transparent collections

What is seen of a run that does not want for memory is what its program does
to cells, whatever the configuration and wherever collections take place. And
collections never make a run want for memory, since the heap pointer is
nowhere higher than in the run without them.
-/

namespace ManagedHeap.Program

variable {heap first second : Heap}
  {handles firstHandles secondHandles : List Handle}
  {cells : List Cell} {move : Move} {rest : List Move}

/-! ## Steps of a run -/

private theorem observations_request (step : Request) (rest : List Move)
    (heap : Heap) :
    observations (.request step :: rest) heap =
      (step.perform heap).1 :: observations rest (step.perform heap).2 := rfl

private theorem observations_of_unseen
    {after : Heap} (outcome : move.perform heap = ([], after)) :
    observations (move :: rest) heap = observations rest after := by
  rw [observations, outcome]
  rfl

theorem suffices_request_iff {step : Request} :
    Suffices heap (.request step :: rest) ↔
      (step.perform heap).1.isOutOfMemory = false ∧ Suffices
      (step.perform heap).2 rest := by
  simp only [Suffices, observations_request, List.forall_mem_cons]

private theorem suffices_iff_of_unseen
    {after : Heap} (outcome : move.perform heap = ([], after)) :
    Suffices heap (move :: rest) ↔ Suffices after rest := by
  rw [Suffices, observations_of_unseen outcome, Suffices]

theorem Request.follows_of_enough {step : Request} (regular : heap.Regular)
    (represents : heap.Represents handles cells)
    (enough : (step.perform heap).1.isOutOfMemory = false) :
    (step.perform heap).1 = (step.interpret cells).1 ∧
      Follows heap (step.perform heap).2 (step.interpret cells).2
        (step.cost heap.config.precision.toNat cells) := by
  rcases step.simulates regular represents with follows | ⟨outOfMemory, _⟩
  · exact follows
  · cases outOfMemory.symm.trans enough

/-- A heap with the same cells that is no longer than before. -/
structure Settles (before after : Heap) (cells : List Cell) : Prop where
  regular : after.Regular
  represents : ∃ handles, after.Represents handles cells
  config : after.config = before.config
  pointer_le : after.pointer ≤ before.pointer

private theorem settles_of_collectsTo {after : Heap} (regular : heap.Regular)
    (represents : heap.Represents handles cells)
    (collects : heap.CollectsTo after) :
    Settles heap after cells := by
  refine ⟨collects.regular regular, represents.collectsTo regular collects, ?_,
    ?_⟩
  · obtain ⟨marked, _, rfl⟩ := collects
    rfl
  · obtain ⟨marked, _, rfl⟩ := collects
    exact regular.tidy.pointer_compact_le marked

/-- Nothing is seen of a collection, and it keeps the cells. -/
theorem exists_collection_eq (collection : Collection) (regular : heap.Regular)
    (represents : heap.Represents handles cells) :
    ∃ after, (Move.collect collection).perform heap = ([], after) ∧
      Settles heap after cells := by
  cases collection with
  | forced =>
    obtain ⟨stats, after, outcome, collects⟩ := regular.collect_eq
    refine ⟨after, ?_, settles_of_collectsTo regular represents collects⟩
    simp only [Move.perform, Collection.perform, bind, EStateM.bind, outcome]
    rfl
  | scheduled =>
    obtain ⟨stats, after, outcome, change⟩ := regular.scheduleCollect_eq
    refine ⟨after, ?_, ?_⟩
    · simp only [Move.perform, Collection.perform, bind, EStateM.bind, outcome]
      rfl
    · rcases change with rfl | collects
      · exact ⟨regular, ⟨handles, represents⟩, rfl, Nat.le_refl _⟩
      · exact settles_of_collectsTo regular represents collects

/-! ## Whole runs -/

theorem observations_eq_interpretations (run : List Move)
    (regular : heap.Regular)
    (represents : heap.Represents handles cells) (enough : Suffices heap run) :
    observations run heap = interpretations (requests run) cells := by
  induction run generalizing heap handles cells with
  | nil => rfl
  | cons move rest inductionHypothesis =>
    cases move with
    | request step =>
      obtain ⟨enoughNow, enoughLater⟩ := suffices_request_iff.mp enough
      obtain ⟨seen, follows⟩ :=
        Request.follows_of_enough regular represents enoughNow
      obtain ⟨later, laterRepresents⟩ := follows.represents
      rw [observations_request, seen,
        inductionHypothesis follows.regular laterRepresents enoughLater]
      rfl
    | collect collection =>
      obtain ⟨after, outcome, settles⟩ :=
        exists_collection_eq collection regular represents
      obtain ⟨later, laterRepresents⟩ := settles.represents
      rw [observations_of_unseen outcome]
      exact inductionHypothesis settles.regular laterRepresents
        ((suffices_iff_of_unseen outcome).mp enough)

/-- A heap that is no longer than one on which a request succeeds does not
lack the memory for it. -/
theorem not_lacks_of_follows {after : Heap} {laterCells : List Cell}
    {cost : Nat}
    (firstRegular : first.Regular)
    (follows : Follows first after laterCells cost)
    (sameConfig : second.config = first.config)
    (lower : second.pointer ≤ first.pointer) :
    ¬second.Lacks cost := by
  rintro ⟨positive, limit⟩
  have base := firstRegular.tidy.base_le_pointer
  have bound := follows.regular.tidy.pointer_le
  have sameBase : after.base = first.base := by
    rw [Heap.base, Heap.base, follows.config]
  rw [sameBase, follows.config, follows.pointer] at bound
  rw [sameConfig] at limit
  omega

/-- Collections in a run leave enough memory for it, if there is enough
without them. -/
theorem suffices_of_suffices_requests (run : List Move)
    (firstRegular : first.Regular)
    (secondRegular : second.Regular)
    (firstRepresents : first.Represents firstHandles cells)
    (secondRepresents : second.Represents secondHandles cells)
    (sameConfig : second.config = first.config)
    (lower : second.pointer ≤ first.pointer)
    (enough : Suffices first ((requests run).map .request)) :
    Suffices second run := by
  -- By induction on the run with collections: its heap pointer is never above
  -- that of the run without them, which stands still at a collection.
  induction run generalizing first second firstHandles secondHandles cells with
  | nil => simp [Suffices, observations]
  | cons move rest inductionHypothesis =>
    cases move with
    | request step =>
      obtain ⟨enoughNow, enoughLater⟩ := suffices_request_iff.mp enough
      obtain ⟨firstSeen, firstFollows⟩ :=
        Request.follows_of_enough firstRegular firstRepresents enoughNow
      obtain ⟨firstLater, firstLaterRepresents⟩ := firstFollows.represents
      rcases step.simulates secondRegular secondRepresents with ⟨seen, follows⟩
        | ⟨_, lacks⟩
      · obtain ⟨later, laterRepresents⟩ := follows.represents
        rw [suffices_request_iff, seen, ← firstSeen]
        refine ⟨enoughNow,
          inductionHypothesis firstFollows.regular follows.regular
          firstLaterRepresents laterRepresents ?_ ?_ enoughLater⟩
        · rw [follows.config, firstFollows.config, sameConfig]
        · rw [follows.pointer, firstFollows.pointer, sameConfig]
          exact Nat.add_le_add_right lower _
      · rw [sameConfig] at lacks
        exact absurd lacks
          (not_lacks_of_follows firstRegular firstFollows sameConfig lower)
    | collect collection =>
      obtain ⟨after, outcome, settles⟩ :=
        exists_collection_eq collection secondRegular secondRepresents
      obtain ⟨later, laterRepresents⟩ := settles.represents
      rw [suffices_iff_of_unseen outcome]
      exact inductionHypothesis firstRegular settles.regular firstRepresents
        laterRepresents
        (settles.config.trans sameConfig)
        (Nat.le_trans settles.pointer_le lower) enough

/-- Two runs of one program that do not want for memory are seen to be the
same, in any configurations and with collections anywhere; and no collection
makes a run want for memory. -/
theorem collections_transparent :
    (∀ leftConfig rightConfig left right, requests left = requests right →
      Suffices (Heap.empty leftConfig) left →
      Suffices (Heap.empty rightConfig) right →
        observations left (Heap.empty leftConfig) =
          observations right (Heap.empty rightConfig)) ∧
      ∀ config run, Suffices (Heap.empty config) ((requests run).map .request) →
        Suffices (Heap.empty config) run := by
  constructor
  · intro leftConfig rightConfig left right sameProgram leftEnough rightEnough
    rw [observations_eq_interpretations left (Heap.regular_empty leftConfig)
        (Heap.represents_empty leftConfig) leftEnough,
      observations_eq_interpretations right (Heap.regular_empty rightConfig)
        (Heap.represents_empty rightConfig) rightEnough, sameProgram]
  · intro config run enough
    exact suffices_of_suffices_requests run (Heap.regular_empty config)
      (Heap.regular_empty config)
      (Heap.represents_empty config) (Heap.represents_empty config) rfl
      (Nat.le_refl _) enough

/-- A run with two collections, in which a bignum moves, an iterator steps and
a division is refused. -/
def movingRun : List Move :=
  [.request (.create (.bytes (Bytes.ofList [7, 9]))),
    .request (.convert .blobIterator 0),
    .request (.create (.int32 (-7))), .collect .forced,
    .request (.combine .mul 2 2),
    .request (.next 1), .collect .scheduled, .request (.combine .div 3 0),
    .request (.compare .less 2 3)]

/-- The limits of another heap: with room for more digits, and always due for
collection. -/
def eagerConfig : Config where
  heapBase := 0x33331
  heapLimit := 0x90000
  precision := 9
  minGrowth := 0

theorem movingRun_transparent :
    Suffices (Heap.empty {}) movingRun ∧
      Suffices (Heap.empty eagerConfig) ((requests movingRun).map .request) ∧
      observations movingRun (Heap.empty {}) =
        observations ((requests movingRun).map .request)
          (Heap.empty eagerConfig) ∧
      Suffices (Heap.empty eagerConfig) movingRun :=
  have enough : Suffices (Heap.empty {}) movingRun := by decide +kernel
  have eagerEnough :
      Suffices (Heap.empty eagerConfig)
        ((requests movingRun).map .request) := by
    decide +kernel
  ⟨enough, eagerEnough,
    collections_transparent.1 {} eagerConfig movingRun _ rfl enough eagerEnough,
    collections_transparent.2 eagerConfig movingRun eagerEnough⟩

end ManagedHeap.Program
