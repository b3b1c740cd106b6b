import ManagedHeap.Bignum.Storage
import ManagedHeap.Proofs.Bignum.Digits
import ManagedHeap.Proofs.Heap.Layout

/-!
# Room for digits

What making room in a bignum does: the digits in use are kept, and the storage
either stays or becomes a new buffer at the heap pointer (`Widens`). The room
costs a number of bytes that depends only on how many digits there were and
how many are asked for (`growth`).
-/

namespace ManagedHeap

/-! ## Workspaces -/

section Workspace

variable {α : Type} {workspace : Workspace} {returns : α → Workspace → Prop}
  {fails : Error → Workspace → Prop}

@[simp]
theorem ensures_onHeap {operation : HeapM α} :
    Ensures (DigitM.onHeap operation) workspace returns fails ↔
      Ensures operation workspace.heap
        (fun value heap => returns value { workspace with heap })
        (fun error heap => fails error { workspace with heap }) := by
  unfold Ensures DigitM.onHeap
  cases operation workspace.heap <;> rfl

theorem Ensures.readDigits {β : Type} {reader : Heap → Except Error α}
    {value : α}
    {next : α → DigitM β} {returns : β → Workspace → Prop}
    (result : reader workspace.heap = .ok value)
    (rest : Ensures (next value) workspace returns fails) :
    Ensures (DigitM.inspect reader >>= next) workspace returns fails := by
  simpa [DigitM.inspect, result] using rest

@[simp]
theorem ensures_setTarget
    {target : Bignum} {returns : PUnit → Workspace → Prop} :
    Ensures (DigitM.setTarget target) workspace returns fails ↔
      returns ⟨⟩ { workspace with target } := Iff.rfl

@[simp]
theorem ensures_build {start : Bignum} {operation : DigitM Unit} {heap : Heap}
    {returns : Bignum → Heap → Prop} {fails : Error → Heap → Prop} :
    Ensures (DigitM.build start operation) heap returns fails ↔
      Ensures operation ⟨heap, start⟩ (fun _ after =>
        returns after.target after.heap)
        (fun error after => fails error after.heap) := by
  unfold Ensures DigitM.build
  cases operation ⟨heap, start⟩ <;> rfl

end Workspace

/-- The digits of a bignum stand in the buffer at this address. -/
def Bignum.Owns (number : Bignum) (address : Nat) : Prop :=
  ∃ start, number.storage = some start ∧ start.buffer.address = address

theorem Bignum.not_owns_empty (address : Nat) : ¬Bignum.empty.Owns address := by
  rintro ⟨start, stored, _⟩
  cases stored

namespace Heap

/-! ## Backed bignums -/

/-- All room that a bignum claims is there, by the length word of its
buffer. -/
structure Backs (heap : Heap) (number : Bignum) : Prop where
  used_le_capacity : number.used ≤ number.capacity
  unstored : number.storage = none → number.capacity = 0
  stored : ∀ start, number.storage = some start → start.offset = 0 ∧
    ∃ bytes, heap.objects.find? start.buffer.address = some (.blob bytes) ∧
      Bignum.digitBytes * number.capacity ≤ Object.lengthWord bytes.size ∧
      Object.lengthWord bytes.size < maxAddress

/-- The storage of a bignum is as long as its room, and zero above the digits
in use. -/
def Trims (heap : Heap) (number : Bignum) : Prop :=
  ∀ start bytes, number.storage = some start →
    heap.objects.find? start.buffer.address = some (.blob bytes) →
      bytes.size = Bignum.digitBytes * number.capacity ∧
        ∀ byte ∈ bytes.toList.drop (Bignum.digitBytes * number.used), byte = 0

variable {heap : Heap} {number : Bignum}

theorem Backs.exists_start (backs : heap.Backs number)
    (positive : 0 < number.capacity) :
    ∃ start bytes, number.storage = some start ∧ start.offset = 0 ∧
      heap.objects.find? start.buffer.address = some (.blob bytes) ∧
        Bignum.digitBytes * number.capacity ≤ bytes.size := by
  cases stored : number.storage with
  | none =>
    have := backs.unstored stored
    omega
  | some start =>
    obtain ⟨atStart, bytes, found, room, _⟩ := backs.stored start stored
    exact ⟨start, bytes, rfl, atStart, found,
      Object.le_of_le_lengthWord room⟩

theorem Backs.exists_blob (backs : heap.Backs number) {buffer : Nat}
    (owns : number.Owns buffer) :
    ∃ bytes, heap.objects.find? buffer = some (.blob bytes) := by
  obtain ⟨start, stored, rfl⟩ := owns
  obtain ⟨_, bytes, found, _⟩ := backs.stored start stored
  exact ⟨bytes, found⟩

theorem Backs.lt_of_owns (backs : heap.Backs number) (bounded : heap.Bounded)
    {buffer : Nat} (owns : number.Owns buffer) :
    buffer < heap.pointer := by
  obtain ⟨bytes, found⟩ := backs.exists_blob owns
  exact bounded.lt found

theorem storedBytes_eq_ok {start : PayloadPointer} {bytes : Bytes}
    (stored : number.storage = some start) (atStart : start.offset = 0)
    (found : heap.objects.find? start.buffer.address = some (.blob bytes))
    (inside : Bignum.digitBytes * number.used ≤ bytes.size) :
    number.storedBytes heap =
      .ok (bytes.take (Bignum.digitBytes * number.used)) := by
  unfold Bignum.storedBytes
  split
  · rename_i unused
    refine congrArg Except.ok (Bytes.ext ?_)
    rw [Bytes.toList_take, unused]
    rfl
  · rw [stored]
    show heap.payload start _ = _
    rw [payload_eq_ok found (by omega), atStart]
    rfl

theorem storedBytes_of_unused (heap : Heap) (unused : number.used = 0) :
    number.storedBytes heap = .ok .empty := by
  rw [Bignum.storedBytes, if_pos unused]

end Heap

namespace Bignum

/-! ## Wider bignums -/

def bufferSize (count : Nat) : Nat :=
  wordSize * Object.blobWords (digitBytes * count)

/-- Bytes that room for `count` digits takes from the heap when there is room
for `capacity`. -/
def growth (capacity count : Nat) : Nat :=
  if capacity < count then bufferSize count else 0

private theorem growth_pos {capacity count : Nat} (short : capacity < count) :
    0 < growth capacity count := by
  rw [growth, if_pos short, bufferSize]
  simp only [wordSize, Object.blobWords]
  omega

theorem growth_of_le {capacity count : Nat} (enough : count ≤ capacity) :
    growth capacity count = 0 :=
  if_neg (Nat.not_lt.mpr enough)

/-- The target keeps its storage or has newer storage with no less room, and
nothing else is written. What is taken from the heap is at most `cost`, and
exactly that when no storage lay idle. -/
structure Spends (cost : Nat) (before after : Workspace) : Prop where
  rewrites : Heap.Rewrites before.target.Owns before.heap after.heap
  capacity_le : before.target.capacity ≤ after.target.capacity
  backs : after.heap.Backs after.target
  storage : after.target.storage = before.target.storage ∨
    ∀ buffer, after.target.Owns buffer → before.heap.pointer ≤ buffer
  pointer_le : after.heap.pointer ≤ before.heap.pointer + cost
  exact : before.heap.Trims before.target →
    after.heap.Trims after.target ∧
      after.heap.pointer = before.heap.pointer + cost
  stays_stored :
    before.target.storage.isSome → after.target.storage.isSome

/-- The storage stays where it is, or a buffer with a greater length word takes
its place and begins with all that there was room for. -/
def Copies (before after : Workspace) : Prop :=
  ∀ start bytes, before.target.storage = some start →
    before.heap.objects.find? start.buffer.address = some (.blob bytes) →
      after.target.storage = some start ∨
        ∃ fresh copy, after.target.storage = some fresh ∧
          after.heap.objects.find? fresh.buffer.address = some (.blob copy) ∧
          Object.lengthWord bytes.size < Object.lengthWord copy.size ∧
          bytes.toList.take (digitBytes * before.target.capacity) <+:
            copy.toList

/-- The target has more room or the same and is otherwise unchanged, and
nothing is written. -/
structure Widens (cost : Nat) (before after : Workspace) : Prop
    extends Spends cost before after where
  untouched : Heap.Rewrites (fun _ => False) before.heap after.heap
  used : after.target.used = before.target.used
  sign : after.target.sign = before.target.sign
  storedBytes :
    after.target.storedBytes after.heap = before.target.storedBytes before.heap
  copies : Copies before after

variable {before middle after : Workspace} {cost laterCost : Nat}

theorem Owns.of_storage_eq
    {left right : Bignum} {buffer : Nat} (owns : left.Owns buffer)
    (same : left.storage = right.storage) : right.Owns buffer := by
  obtain ⟨start, stored, atBuffer⟩ := owns
  exact ⟨start, same ▸ stored, atBuffer⟩

theorem Spends.owns (spends : Spends cost before after) {buffer : Nat}
    (owns : after.target.Owns buffer) :
    before.target.Owns buffer ∨ before.heap.pointer ≤ buffer := by
  rcases spends.storage with same | fresh
  · exact Or.inl (owns.of_storage_eq same)
  · exact Or.inr (fresh buffer owns)

theorem Spends.refl (backs : before.heap.Backs before.target) :
    Spends 0 before before where
  rewrites := .refl _ _
  capacity_le := Nat.le_refl _
  backs := backs
  storage := Or.inl rfl
  pointer_le := Nat.le_refl _
  exact := fun trims => ⟨trims, rfl⟩
  stays_stored := id

theorem Spends.trans
    (bounded : before.heap.Bounded) (first : Spends cost before middle)
    (second : Spends laterCost middle after) :
    Spends (cost + laterCost) before after where
  rewrites := first.rewrites.trans bounded second.rewrites fun _ owns =>
    first.owns owns
  capacity_le := Nat.le_trans first.capacity_le second.capacity_le
  backs := second.backs
  storage := by
    rcases second.storage with same | fresh
    · rcases first.storage with firstSame | firstFresh
      · exact Or.inl (same.trans firstSame)
      · exact Or.inr fun buffer owns =>
          firstFresh buffer (owns.of_storage_eq same)
    · exact Or.inr fun buffer owns =>
        Nat.le_trans first.rewrites.pointer_le (fresh buffer owns)
  pointer_le := by
    have := first.pointer_le
    have := second.pointer_le
    omega
  exact := fun trims => by
    obtain ⟨middleTrims, middlePointer⟩ := first.exact trims
    obtain ⟨afterTrims, afterPointer⟩ := second.exact middleTrims
    exact ⟨afterTrims, by omega⟩
  stays_stored := second.stays_stored ∘ first.stays_stored

/-- A copy of a copy begins with what the first one was made from. -/
theorem Widens.copies_trans (first : Widens cost before middle)
    (second : Widens laterCost middle after) : Copies before after := by
  intro start bytes stored found
  have room := Nat.mul_le_mul_left digitBytes first.capacity_le
  rcases first.copies start bytes stored found with same
    | ⟨fresh, copy, freshStored, freshFound, longer, begins⟩
  · have foundAgain := first.untouched.kept found not_false
    rcases second.copies start bytes same foundAgain with sameAgain
      | ⟨fresh, copy, freshStored, freshFound, longer, begins⟩
    · exact Or.inl sameAgain
    · right
      refine ⟨fresh, copy, freshStored, freshFound, longer, ?_⟩
      exact (List.take_prefix_take_left room).trans begins
  · right
    rcases second.copies fresh copy freshStored freshFound with same
      | ⟨last, lastCopy, lastStored, lastFound, lastLonger, lastBegins⟩
    · exact ⟨fresh, copy, same, second.untouched.kept freshFound not_false,
        longer, begins⟩
    · have whole :
          bytes.toList.take (digitBytes * before.target.capacity) <+:
            copy.toList.take (digitBytes * middle.target.capacity) := by
        refine List.prefix_take_iff.mpr ⟨begins, ?_⟩
        exact Nat.le_trans (List.length_take_le ..) room
      exact ⟨last, lastCopy, lastStored, lastFound,
        Nat.lt_trans longer lastLonger, whole.trans lastBegins⟩

theorem Widens.refl (backs : before.heap.Backs before.target) :
    Widens 0 before before where
  toSpends := .refl backs
  untouched := .refl _ _
  used := rfl
  sign := rfl
  storedBytes := rfl
  copies := fun _ _ stored _ => Or.inl stored

theorem Widens.trans
    (bounded : before.heap.Bounded) (first : Widens cost before middle)
    (second : Widens laterCost middle after) :
    Widens (cost + laterCost) before after where
  toSpends := first.toSpends.trans bounded second.toSpends
  untouched := first.untouched.trans bounded second.untouched fun _ => Or.inl
  used := second.used.trans first.used
  sign := second.sign.trans first.sign
  storedBytes := second.storedBytes.trans first.storedBytes
  copies := first.copies_trans second

/-! ## Making room -/

private theorem widens_push
    {count : Nat} {fresh : Bytes} {start : PayloadPointer}
    (bounded : before.heap.Bounded) (backs : before.heap.Backs before.target)
    (short : before.target.capacity < count)
    (fits : before.heap.Fits (.blob fresh))
    (freshSize : fresh.size = digitBytes * count) (atStart : start.offset = 0)
    (atPointer : start.buffer.address = before.heap.pointer)
    (kept : before.target.storedBytes before.heap =
      .ok (fresh.take (digitBytes * before.target.used)))
    (clean : before.heap.Trims before.target →
      ∀ byte ∈ fresh.toList.drop (digitBytes * before.target.used), byte = 0)
    (copied : ∀ old bytes, before.target.storage = some old →
      before.heap.objects.find? old.buffer.address = some (.blob bytes) →
        Object.lengthWord bytes.size < fresh.size ∧
          bytes.toList.take (digitBytes * before.target.capacity) <+:
            fresh.toList) :
    Widens (growth before.target.capacity count) before
      ⟨before.heap.push (.blob fresh),
        { before.target with capacity := count, storage := some start }⟩ := by
  have found :
      (before.heap.push (.blob fresh)).objects.find? start.buffer.address =
      some (.blob fresh) := atPointer ▸ Heap.find?_push_self ..
  have usedRoom : before.target.used ≤ count :=
    Nat.le_trans backs.used_le_capacity (Nat.le_of_lt short)
  have charged : (before.heap.push (.blob fresh)).pointer =
      before.heap.pointer + growth before.target.capacity count := by
    rw [fits.pointer_push, growth, if_pos short, bufferSize, ← freshSize]
    rfl
  have length : Object.lengthWord fresh.size = fresh.size :=
    Object.lengthWord_of_le (Nat.le_of_lt fits.size_lt)
  have untouched := bounded.rewrites_push fits
  refine
    ⟨⟨untouched.mono fun _ => False.elim, Nat.le_of_lt short, ?_, Or.inr ?_,
    Nat.le_of_eq charged, ?_, fun _ => rfl⟩, untouched, rfl, rfl, ?_, ?_⟩
  · refine ⟨usedRoom, (nomatch ·), ?_⟩
    rintro _ ⟨⟩
    refine ⟨atStart, fresh, found, ?_, ?_⟩
    · exact Nat.le_of_eq (freshSize.symm.trans length.symm)
    · exact length.symm ▸ fits.size_lt
  · rintro buffer ⟨_, ⟨⟩, rfl⟩
    exact Nat.le_of_eq atPointer.symm
  · intro trims
    refine ⟨?_, charged⟩
    rintro _ bytes ⟨⟩ present
    obtain rfl := Object.blob.inj (Option.some.inj (found.symm.trans present))
    exact ⟨freshSize, clean trims⟩
  · rw [kept]
    exact Heap.storedBytes_eq_ok rfl atStart found
      (freshSize ▸ Nat.mul_le_mul_left digitBytes usedRoom)
  · intro old bytes stored present
    obtain ⟨longer, begins⟩ := copied old bytes stored present
    exact Or.inr ⟨start, fresh, rfl, found, length.symm ▸ longer, begins⟩

private theorem widens_inPlace
    {count : Nat} {bytes : Bytes} {start : PayloadPointer}
    (backs : before.heap.Backs before.target)
    (short : before.target.capacity < count)
    (stored : before.target.storage = some start) (atStart : start.offset = 0)
    (found : before.heap.objects.find? start.buffer.address =
      some (.blob bytes))
    (room : digitBytes * count ≤ Object.lengthWord bytes.size)
    (addressable : Object.lengthWord bytes.size < maxAddress) :
    Widens (growth before.target.capacity count) before
      ⟨before.heap,
        { before.target with capacity := count, storage := some start }⟩ := by
  have usedRoom : before.target.used ≤ count :=
    Nat.le_trans backs.used_le_capacity (Nat.le_of_lt short)
  have available := Object.le_of_le_lengthWord room
  have inside : digitBytes * before.target.used ≤ bytes.size :=
    Nat.le_trans (Nat.mul_le_mul_left digitBytes usedRoom) available
  refine
    ⟨⟨.refl _ _, Nat.le_of_lt short, ⟨usedRoom, (nomatch ·), ?_⟩,
      Or.inl stored.symm,
    Nat.le_add_right .., ?_, fun _ => rfl⟩, .refl _ _, rfl, rfl, ?_, ?_⟩
  · rintro _ ⟨⟩
    exact ⟨atStart, bytes, found, room, addressable⟩
  · intro trims
    -- Storage as long as its room has no place for more.
    have size := (trims start bytes stored found).1
    simp only [digitBytes] at size available
    omega
  · rw [Heap.storedBytes_eq_ok stored atStart found inside]
    exact Heap.storedBytes_eq_ok rfl atStart found inside
  · exact fun old _ isOld _ => Or.inl (stored.symm.trans isOld)

theorem storageSize_of_le
    {count : Nat} (addressable : digitBytes * count ≤ maxAddress) :
    storageSize count = digitBytes * count :=
  Nat.min_eq_left addressable

private theorem limit_lt_of_growth
    {heap : Heap} {capacity count : Nat} (short : capacity < count)
    (large : maxAddress < digitBytes * count) :
    heap.config.heapLimit.toNat < heap.pointer + growth capacity count := by
  have limit := heap.config.heapLimit.toNat_lt
  rw [growth, if_pos short, bufferSize]
  simp only [maxAddress, Object.blobWords, bytesToWords, wordSize,
    Positional.ceilDiv] at *
  omega

/-- A buffer for `count` digits that does not fit is what the growth would
have cost. -/
theorem limit_lt_of_not_fits
    {heap : Heap} {capacity count : Nat} {fresh : Bytes}
    (short : capacity < count) (freshSize : fresh.size = digitBytes * count)
    (noFit : ¬heap.Fits (.blob fresh)) :
    heap.config.heapLimit.toNat < heap.pointer + growth capacity count := by
  rw [growth, if_pos short, bufferSize, ← freshSize]
  exact Nat.lt_of_not_le noFit

/-- The content of a new buffer for `count` digits: what stood in the old
room, and zeros. -/
def copied (number : Bignum) (bytes : Bytes) (count : Nat) : Bytes :=
  Heap.enlarged (bytes.take (digitBytes * number.capacity)) (digitBytes * count)

section Copy

variable {number : Bignum} {count : Nat} {bytes : Bytes}

private theorem size_take_of_le {size : Nat} (room : size ≤ bytes.size) :
    (bytes.take size).size = size :=
  (Bytes.size_take bytes size).trans (Nat.min_eq_left room)

private theorem size_copied (room : digitBytes * number.capacity ≤ bytes.size)
    (short : number.capacity < count) :
    (number.copied bytes count).size = digitBytes * count :=
  Heap.size_enlarged
    (by rw [size_take_of_le room]; simp only [digitBytes]; omega)

private theorem toList_copied
    (room : digitBytes * number.capacity ≤ bytes.size) :
    (number.copied bytes count).toList =
      bytes.toList.take (digitBytes * number.capacity) ++
        List.replicate
          (digitBytes * count - digitBytes * number.capacity) 0 := by
  rw [copied, Heap.toList_enlarged, Bytes.toList_take, size_take_of_le room]

private theorem lt_size_copied {length : Nat}
    (room : digitBytes * number.capacity ≤ bytes.size)
    (short : number.capacity < count)
    (full : length < digitBytes * count) :
    length < (number.copied bytes count).size := by
  rwa [size_copied room short]

private theorem take_prefix_copied
    (room : digitBytes * number.capacity ≤ bytes.size) :
    bytes.toList.take (digitBytes * number.capacity) <+:
      (number.copied bytes count).toList := by
  rw [toList_copied room]
  exact List.prefix_append ..

private theorem take_copied (room : digitBytes * number.capacity ≤ bytes.size)
    (inUse : number.used ≤ number.capacity) :
    (number.copied bytes count).take (digitBytes * number.used) =
      bytes.take (digitBytes * number.used) := by
  have inside := Nat.mul_le_mul_left digitBytes inUse
  refine Bytes.ext ?_
  rw [Bytes.toList_take, Bytes.toList_take, toList_copied room,
    List.take_append_of_le_length,
    List.take_take, Nat.min_eq_left inside]
  rw [List.length_take, Bytes.length_toList]
  omega

private theorem eq_zero_of_mem_drop_copied
    (room : digitBytes * number.capacity ≤ bytes.size)
    (clean : ∀ byte ∈ bytes.toList.drop (digitBytes * number.used), byte = 0) :
    ∀ byte ∈ (number.copied bytes count).toList.drop (digitBytes * number.used),
      byte = 0 := by
  intro byte member
  rw [toList_copied room, List.drop_append] at member
  rcases List.mem_append.mp member with old | added
  · rw [List.drop_take] at old
    exact clean byte (List.mem_of_mem_take old)
  · exact List.eq_of_mem_replicate (List.mem_of_mem_drop added)

end Copy

/-- New storage widens the target to `count` digits, or does not fit. -/
def Rehouses (operation : HeapM PayloadPointer) (before : Workspace)
    (count : Nat) : Prop :=
  Ensures operation before.heap
    (fun start after =>
      Widens (growth before.target.capacity count) before
        ⟨after,
          { before.target with capacity := count, storage := some start }⟩)
    (fun error after => after = before.heap ∧ error.IsOutOfMemory ∧
      before.heap.config.heapLimit.toNat <
        before.heap.pointer + growth before.target.capacity count)

/-- A target without storage has no digits to keep. -/
theorem rehouses_calloc {count : Nat} (bounded : before.heap.Bounded)
    (backs : before.heap.Backs before.target)
    (short : before.target.capacity < count)
    (unstored : before.target.storage = none) :
    Rehouses (Heap.calloc count digitBytes) before count := by
  have unused : before.target.used = 0 :=
    Nat.le_zero.mp (backs.unstored unstored ▸ backs.used_le_capacity)
  have size : (Bytes.zeros (count * digitBytes)).size = digitBytes * count := by
    rw [Bytes.size_zeros, Nat.mul_comm]
  refine (Heap.allots_calloc _ _ _).mono ?_ ?_
  · rintro start after ⟨fits, rfl, answers⟩
    have atPointer := Handle.address_ofAddress fits.pointer_lt
    obtain rfl := answers _ atPointer
    refine widens_push bounded backs short fits size rfl atPointer ?_ ?_ ?_
    · rw [Heap.storedBytes_of_unused _ unused, unused]
      refine congrArg Except.ok (Bytes.ext ?_)
      simp
    · simp
    · intro old bytes stored _
      rw [unstored] at stored
      cases stored
  · rintro error after ⟨noFit, rfl, outOfMemory⟩
    exact ⟨rfl, outOfMemory, limit_lt_of_not_fits short size noFit⟩

/-- Stored digits stay where they are or stand at the front of the new
storage. -/
theorem rehouses_realloc {count : Nat} (bounded : before.heap.Bounded)
    (backs : before.heap.Backs before.target)
    (short : before.target.capacity < count) {start : PayloadPointer}
    (stored : before.target.storage = some start) :
    Rehouses
      (Heap.realloc start (storageSize before.target.capacity)
        (storageSize count))
      before count := by
  obtain ⟨buffer, offset⟩ := start
  obtain ⟨rfl, bytes, found, recorded, addressable⟩ := backs.stored _ stored
  have room := Object.le_of_le_lengthWord recorded
  have oldSize :
      storageSize before.target.capacity =
        digitBytes * before.target.capacity :=
    storageSize_of_le (by omega)
  have inside : digitBytes * before.target.used ≤ bytes.size :=
    Nat.le_trans (Nat.mul_le_mul_left digitBytes backs.used_le_capacity) room
  by_cases enough : storageSize count ≤ Object.lengthWord bytes.size - 0
  · have whole : storageSize count = digitBytes * count := by
      simp only [storageSize] at *
      omega
    refine Ensures.intro (Heap.realloc_of_le found enough) ?_
    exact widens_inPlace backs short stored rfl found (by omega) addressable
  · rw [oldSize]
    have longer : digitBytes * before.target.capacity ≤ storageSize count := by
      omega
    refine (Heap.allots_realloc found (Nat.lt_of_not_le enough) longer
      (by simpa using room)).mono ?_ ?_
    · rintro fresh after ⟨fits, rfl, answers⟩
      have atPointer := Handle.address_ofAddress fits.pointer_lt
      obtain rfl := answers _ atPointer
      -- A size that was cut to the greatest address would not have fitted.
      have whole : storageSize count = digitBytes * count := by
        have bound := fits.size_lt
        rw [Heap.size_enlarged
          (by rw [← Bytes.take, size_take_of_le room]; omega)] at bound
        simp only [storageSize] at *
        omega
      rw [whole] at fits ⊢
      refine widens_push bounded backs short fits (size_copied room short) rfl
        atPointer ?_ ?_ ?_
      · rw [Heap.storedBytes_eq_ok stored rfl found inside]
        exact congrArg Except.ok (take_copied room backs.used_le_capacity).symm
      · exact fun trims =>
          eq_zero_of_mem_drop_copied room (trims _ bytes stored found).2
      · intro old present isOld isPresent
        obtain rfl := Option.some.inj (stored.symm.trans isOld)
        obtain rfl :=
          Object.blob.inj (Option.some.inj (found.symm.trans isPresent))
        exact ⟨lt_size_copied room short (whole ▸ Nat.lt_of_not_le enough),
          take_prefix_copied room⟩
    · rintro error after ⟨noFit, rfl, outOfMemory⟩
      refine ⟨rfl, outOfMemory, ?_⟩
      by_cases large : maxAddress < digitBytes * count
      · exact limit_lt_of_growth short large
      · rw [storageSize_of_le (Nat.le_of_not_lt large)] at noFit
        exact limit_lt_of_not_fits short (size_copied room short) noFit

private theorem rehouses_allocateDigits
    {count : Nat} (bounded : before.heap.Bounded)
    (backs : before.heap.Backs before.target)
    (short : before.target.capacity < count) :
    Rehouses (before.target.allocateDigits count) before count := by
  unfold allocateDigits
  cases stored : before.target.storage with
  | none => exact rehouses_calloc bounded backs short stored
  | some start => exact rehouses_realloc bounded backs short stored

/-- Making room widens the target, unless the new storage does not fit. -/
theorem ensures_grow (count : Nat) (bounded : before.heap.Bounded)
    (backs : before.heap.Backs before.target) :
    Ensures (grow count) before
      (fun _ after =>
        Widens (growth before.target.capacity count) before after ∧
        after.target.capacity = max before.target.capacity count)
      (fun error after => after = before ∧ error.IsOutOfMemory ∧
        before.heap.Lacks (growth before.target.capacity count)) := by
  unfold grow
  simp only [ensures_bind, ensures_get]
  by_cases short : before.target.capacity < count
  · rw [if_pos short, Nat.max_eq_right (Nat.le_of_lt short)]
    simp only [ensures_bind, ensures_onHeap, ensures_setTarget]
    refine Ensures.mono (rehouses_allocateDigits bounded backs short) ?_ ?_
    · exact fun start after widens => ⟨widens, trivial⟩
    · rintro error after ⟨rfl, outOfMemory, limit⟩
      exact ⟨rfl, outOfMemory, growth_pos short, limit⟩
  · rw [if_neg short, Nat.max_eq_left (Nat.le_of_not_lt short), ensures_pure,
      growth, if_neg short]
    exact ⟨.refl backs, rfl⟩

/-! ## Zeros -/

/-- A zero with room of its own: one new buffer. -/
theorem allots_zero (heap : Heap) (precision : Nat) :
    Heap.Allots (zero precision) heap
      (.blob (Bytes.zeros (precision * digitBytes)))
      fun buffer number =>
        number =
          { capacity := precision, storage := some (.startOf buffer) } := by
  unfold Heap.Allots zero
  rw [ensures_bind]
  refine (Heap.allots_calloc heap precision digitBytes).mono ?_
    fun _ _ failed => failed
  rintro start after ⟨fits, rfl, answers⟩
  exact ⟨fits, rfl, fun buffer atPointer => by rw [answers buffer atPointer]⟩

theorem size_zeros_eq (precision : Nat) :
    (Object.blob (Bytes.zeros (precision * digitBytes))).fullSize =
      bufferSize precision := by
  rw [Object.fullSize_blob, Bytes.size_zeros, bufferSize,
    Nat.mul_comm precision]

theorem backs_zero {heap : Heap} {precision : Nat} {buffer : Handle}
    (found : heap.objects.find? buffer.address =
      some (.blob (Bytes.zeros (precision * digitBytes))))
    (addressable : precision * digitBytes < maxAddress) :
    heap.Backs { capacity := precision, storage := some (.startOf buffer) } ∧
      heap.Trims
        { capacity := precision, storage := some (.startOf buffer) } := by
  refine ⟨⟨Nat.zero_le _, (nomatch ·), ?_⟩, ?_⟩
  · rintro _ ⟨⟩
    refine ⟨rfl, _, found, ?_, ?_⟩ <;> rw [Bytes.size_zeros,
      Object.lengthWord_of_le (Nat.le_of_lt addressable)]
    · exact Nat.le_of_eq (Nat.mul_comm ..)
    · exact addressable
  · rintro _ bytes ⟨⟩ present
    obtain rfl := Object.blob.inj (Option.some.inj (found.symm.trans present))
    refine ⟨?_, ?_⟩
    · rw [Bytes.size_zeros, Nat.mul_comm]
    · intro byte member
      rw [Bytes.toList_zeros] at member
      exact List.eq_of_mem_replicate (List.mem_of_mem_drop member)

end Bignum

end ManagedHeap
