import ManagedHeap.Proofs.Bignum.Operations

/-!
# Sequences of changes

Bignums that were initialised in a heap, under any sequence of changes and
divisions that take their operands from among them (`Bench.afterAll`). Every
command comes down to steps of two kinds, a new bignum or one that is settled
(`Bench.Step`), and a step keeps each bignum in a buffer of its own, as long
as its room and zero above its digits (`Heap.Houses`).
-/

namespace ManagedHeap

open Bignum

/-! ## Housed bignums -/

namespace Heap

/-- What holds of a bignum from its initialisation on. Its buffer is as long
as its room, and zero above the digits in use. -/
structure Houses (heap : Heap) (number : Bignum) : Prop where
  used_le_capacity : number.used ≤ number.capacity
  zero_is_nonnegative : number.used = 0 → number.sign = .nonnegative
  addressable : digitBytes * number.capacity < maxAddress
  stored : ∃ buffer bytes, number.storage = some (.startOf buffer) ∧
    heap.objects.find? buffer.address = some (.blob bytes) ∧
    bytes.size = digitBytes * number.capacity ∧
    (number.used ≠ 0 →
      ∃ digit, (Digits.decode bytes.toList)[number.used - 1]? = some digit ∧
        digit ≠ 0) ∧
    ∀ byte ∈ bytes.toList.drop (digitBytes * number.used), byte = 0

variable {heap before after : Heap} {number : Bignum}

private theorem houses_of (sound : heap.SoundBignum number)
    (backs : heap.Backs number) (trims : heap.Trims number)
    (isStored : number.storage.isSome) :
    heap.Houses number := by
  obtain ⟨start, stored⟩ := Option.isSome_iff_exists.mp isStored
  obtain ⟨atStart, bytes, found, _, top⟩ := sound.stored start stored
  obtain ⟨_, _, _, room, addressable⟩ := backs.stored start stored
  obtain ⟨size, clean⟩ := trims start bytes stored found
  have isStart : start = .startOf start.buffer := PayloadPointer.ext rfl atStart
  refine ⟨sound.used_le_capacity, sound.zero_is_nonnegative,
    Nat.lt_of_le_of_lt room addressable, start.buffer, bytes, ?_, found, size,
    top, clean⟩
  rw [stored, ← isStart]

/-- The length word of its buffer has all of its room. -/
theorem Houses.lengthWord_eq (houses : heap.Houses number) {bytes : Bytes}
    (size : bytes.size = digitBytes * number.capacity) :
    Object.lengthWord bytes.size = digitBytes * number.capacity := by
  rw [size]
  exact Object.lengthWord_of_le (Nat.le_of_lt houses.addressable)

theorem Houses.usable (houses : heap.Houses number) : heap.Usable number where
  used_le_capacity := houses.used_le_capacity
  unstored := by
    intro unstored
    obtain ⟨buffer, _, stored, _⟩ := houses.stored
    rw [unstored] at stored
    cases stored
  stored := by
    intro start isStored
    obtain ⟨buffer, bytes, stored, found, size, top, _⟩ := houses.stored
    obtain rfl := Option.some.inj (stored.symm.trans isStored)
    have length := houses.lengthWord_eq size
    exact ⟨rfl, bytes, found, Nat.le_of_eq length.symm, top⟩

theorem Houses.soundBignum (houses : heap.Houses number) :
    heap.SoundBignum number :=
  houses.usable.soundBignum houses.zero_is_nonnegative

theorem Houses.backs (houses : heap.Houses number) : heap.Backs number where
  used_le_capacity := houses.used_le_capacity
  unstored := houses.usable.unstored
  stored := by
    intro start isStored
    obtain ⟨buffer, bytes, stored, found, size, _⟩ := houses.stored
    obtain rfl := Option.some.inj (stored.symm.trans isStored)
    have length := houses.lengthWord_eq size
    exact ⟨rfl, bytes, found, Nat.le_of_eq length.symm,
      length.symm ▸ houses.addressable⟩

theorem Houses.trims (houses : heap.Houses number) : heap.Trims number := by
  intro start present isStored isPresent
  obtain ⟨buffer, bytes, stored, found, size, _, clean⟩ := houses.stored
  obtain rfl := Option.some.inj (stored.symm.trans isStored)
  obtain rfl := Object.blob.inj (Option.some.inj (found.symm.trans isPresent))
  exact ⟨size, clean⟩

theorem Houses.isStored (houses : heap.Houses number) :
    number.storage.isSome := by
  obtain ⟨buffer, _, stored, _⟩ := houses.stored
  rw [stored]
  rfl

/-- Only the buffer of the bignum matters. -/
theorem Houses.congr (houses : before.Houses number)
    (same : ∀ buffer, number.Owns buffer →
      after.objects.find? buffer = before.objects.find? buffer) :
    after.Houses number where
  used_le_capacity := houses.used_le_capacity
  zero_is_nonnegative := houses.zero_is_nonnegative
  addressable := houses.addressable
  stored := by
    obtain ⟨buffer, bytes, stored, found, rest⟩ := houses.stored
    have unchanged := same buffer.address ⟨_, stored, rfl⟩
    exact ⟨buffer, bytes, stored, unchanged.trans found, rest⟩

end Heap

namespace Bignum

variable {before after : Workspace} {other : Bignum}

theorem Settles.houses (settles : Settles before after)
    (houses : before.heap.Houses before.target) :
    after.heap.Houses after.target := by
  obtain ⟨cost, spends⟩ := settles.spends
  exact Heap.houses_of (settles.soundBignum houses.soundBignum) spends.backs
    (spends.exact houses.trims).1 (spends.stays_stored houses.isStored)

theorem Settles.houses_other (settles : Settles before after)
    (apart : before.target.StoredApart other)
    (houses : before.heap.Houses other) :
    after.heap.Houses other := by
  obtain ⟨cost, spends⟩ := settles.spends
  exact houses.congr fun buffer owns =>
    spends.find?_other apart houses.backs owns

theorem Fresh.houses {heap later : Heap} {number : Bignum}
    (fresh : Fresh heap number later) :
    later.Houses number := by
  obtain ⟨buffer, stored, _⟩ := fresh.stored
  exact Heap.houses_of fresh.soundBignum fresh.backs fresh.trims
    (by rw [stored]; rfl)

theorem Fresh.houses_other {heap later : Heap} {number : Bignum}
    (fresh : Fresh heap number later) (houses : heap.Houses other) :
    later.Houses other := by
  refine houses.congr fun buffer owns => ?_
  obtain ⟨bytes, found⟩ := houses.usable.exists_blob owns
  rw [found]
  exact fresh.untouched.kept found not_false

end Bignum

/-! ## Benches -/

/-- A heap with the bignums that were initialised in it, in slots. -/
structure Bench where
  heap : Heap
  numbers : List Bignum

namespace Bench

/-- A bignum stands in a slot. -/
def Holds (bench : Bench) (slot : Nat) (number : Bignum) : Prop :=
  bench.numbers[slot]? = some number

/-- The bignum in a slot. An empty slot is read as zero. -/
def number (bench : Bench) (slot : Nat) : Bignum :=
  bench.numbers.getD slot .empty

/-- The bignum for an output that is wanted. -/
def output (numbers : List Bignum) (slot : Option Nat) : Option Bignum :=
  slot.bind fun slot => numbers[slot]?

/-- Puts an output back into its slot. -/
def restore (numbers : List Bignum) :
    Option Nat → Option Bignum → List Bignum
  | some slot, some number => numbers.set slot number
  | _, _ => numbers

/-- Initialises a bignum in the next slot. There is none when that fails. -/
def init (bench : Bench) (precision : Nat) : Bench :=
  match zero precision bench.heap with
  | .ok number heap => ⟨heap, bench.numbers ++ [number]⟩
  | .error _ heap => { bench with heap }

/-- Changes the bignum in a slot, if there is one. What a failed change did
stays. -/
def change (bench : Bench) (slot : Nat) (change : Change Nat) : Bench :=
  match bench.numbers[slot]? with
  | none => bench
  | some target =>
    match (change.map bench.number).perform ⟨bench.heap, target⟩ with
    | .ok _ after | .error _ after =>
      ⟨after.heap, bench.numbers.set slot after.target⟩

/-- Divides into the slots of the wanted outputs. One slot cannot hold both.
What a failed division did stays. -/
def divide (bench : Bench) (dividend divisor : Nat)
    (quotient remainder : Option Nat) : Bench :=
  if quotient.isSome ∧ quotient = remainder then
    bench
  else
    match Bignum.divide (bench.number dividend) (bench.number divisor)
      ⟨bench.heap, output bench.numbers quotient,
        output bench.numbers remainder⟩ with
    | .ok _ after | .error _ after =>
      ⟨after.heap, restore (restore bench.numbers quotient after.quotient)
        remainder after.remainder⟩

inductive Command where
  | init (precision : Nat)
  | change (slot : Nat) (change : Change Nat)
  | divide (dividend divisor : Nat) (quotient remainder : Option Nat)

def after (bench : Bench) : Command → Bench
  | .init precision => bench.init precision
  | .change slot change => bench.change slot change
  | .divide dividend divisor quotient remainder =>
    bench.divide dividend divisor quotient remainder

def afterAll (bench : Bench) (commands : List Command) : Bench :=
  commands.foldl after bench

variable {bench before middle final : Bench} {slot other : Nat}
  {heap : Heap} {number added : Bignum}

/-! ## Slots -/

private theorem holds_append :
    (Bench.mk heap (bench.numbers ++ [added])).Holds slot number ↔
      bench.Holds slot number ∨
        slot = bench.numbers.length ∧ number = added := by
  unfold Holds
  rcases Nat.lt_trichotomy slot bench.numbers.length with below | same | above
  · rw [List.getElem?_append_left below]
    constructor
    · exact Or.inl
    · intro cases
      exact cases.resolve_right fun atEnd => Nat.ne_of_lt below atEnd.1
  · subst same
    simp [eq_comm]
  · have nothing : bench.numbers[slot]? = none :=
      List.getElem?_eq_none (Nat.le_of_lt above)
    have nothingAfter : (bench.numbers ++ [added])[slot]? = none :=
      List.getElem?_eq_none (by simp; omega)
    constructor
    · intro held
      rw [nothingAfter] at held
      cases held
    · intro cases
      rcases cases with held | atEnd
      · rw [nothing] at held
        cases held
      · exact absurd atEnd.1 (Nat.ne_of_gt above)

private theorem holds_set
    {target : Bignum} (present : bench.Holds slot target) :
    (Bench.mk heap (bench.numbers.set slot added)).Holds other number ↔
      other = slot ∧ number = added ∨
        other ≠ slot ∧ bench.Holds other number := by
  have inside : slot < bench.numbers.length :=
    (List.getElem?_eq_some_iff.mp present).1
  unfold Holds
  by_cases same : other = slot
  · subst same
    simp [inside, eq_comm]
  · rw [List.getElem?_set_ne (Ne.symm same)]
    simp [same]

/-! ## Steps -/

/-- A new bignum takes the next slot, or the one in some slot is settled. -/
inductive Step : Bench → Bench → Prop where
  | init {bench : Bench} {number : Bignum} {heap : Heap}
      (fresh : Fresh bench.heap number heap) :
      Step bench ⟨heap, bench.numbers ++ [number]⟩
  | settle {bench : Bench} {slot : Nat} {target number : Bignum} {heap : Heap}
      (present : bench.Holds slot target)
      (settles : Settles ⟨bench.heap, target⟩ ⟨heap, number⟩) :
      Step bench ⟨heap, bench.numbers.set slot number⟩

/-- Every bignum is housed, each in a buffer of its own. -/
structure Sound (bench : Bench) : Prop where
  bounded : bench.heap.Bounded
  houses : ∀ {slot number}, bench.Holds slot number →
    bench.heap.Houses number
  apart : ∀ {slot other number otherNumber}, slot ≠ other →
    bench.Holds slot number → bench.Holds other otherNumber →
      number.StoredApart otherNumber

theorem Step.sound (step : Step before final) (sound : before.Sound) :
    final.Sound := by
  cases step with
  | init fresh =>
    refine ⟨fresh.untouched.bounded sound.bounded, ?_, ?_⟩
    · intro slot number held
      rcases holds_append.mp held with old | ⟨_, rfl⟩
      · exact fresh.houses_other (sound.houses old)
      · exact fresh.houses
    · intro slot other number otherNumber different held otherHeld
      rcases holds_append.mp held with old | ⟨atEnd, rfl⟩ <;>
        rcases holds_append.mp otherHeld with otherOld | ⟨otherAtEnd, rfl⟩
      · exact sound.apart different old otherOld
      · exact fresh.storedApart sound.bounded (sound.houses old).backs
      · exact (fresh.storedApart sound.bounded
          (sound.houses otherOld).backs).symm
      · exact absurd (atEnd.trans otherAtEnd.symm) different
  | settle present settles =>
    obtain ⟨cost, spends⟩ := settles.spends
    refine ⟨spends.rewrites.bounded sound.bounded, ?_, ?_⟩
    · intro slot number held
      rcases (holds_set present).mp held with ⟨_, rfl⟩ | ⟨different, old⟩
      · exact settles.houses (sound.houses present)
      · exact settles.houses_other (sound.apart different.symm present old)
          (sound.houses old)
    · intro slot other number otherNumber different held otherHeld
      rcases (holds_set present).mp held with ⟨rfl, rfl⟩ | ⟨apart, old⟩ <;>
        rcases (holds_set present).mp otherHeld with
          ⟨rfl, rfl⟩ | ⟨otherApart, otherOld⟩
      · exact absurd rfl different
      · exact spends.storedApart sound.bounded
          (sound.apart different present otherOld)
          (sound.houses otherOld).backs
      · exact (spends.storedApart sound.bounded
          (sound.apart different.symm present old)
          (sound.houses old).backs).symm
      · exact sound.apart different old otherOld

/-- Every bignum is still in its slot and has no less room. -/
def Grows (before after : Bench) : Prop :=
  ∀ slot number, before.Holds slot number →
    ∃ later, after.Holds slot later ∧ number.capacity ≤ later.capacity

theorem Grows.refl (bench : Bench) : bench.Grows bench :=
  fun _ number held => ⟨number, held, Nat.le_refl _⟩

theorem Grows.trans (first : before.Grows middle)
    (second : middle.Grows final) : before.Grows final := by
  intro slot number held
  obtain ⟨between, betweenHeld, room⟩ := first slot number held
  obtain ⟨later, laterHeld, laterRoom⟩ := second slot between betweenHeld
  exact ⟨later, laterHeld, Nat.le_trans room laterRoom⟩

theorem Step.grows (step : Step before final) : before.Grows final := by
  intro slot number held
  cases step with
  | init fresh =>
    exact ⟨number, holds_append.mpr (Or.inl held), Nat.le_refl _⟩
  | @settle settled target later heap present settles =>
    by_cases same : slot = settled
    · subst same
      obtain rfl := Option.some.inj (present.symm.trans held)
      obtain ⟨cost, spends⟩ := settles.spends
      exact ⟨later, (holds_set present).mpr (Or.inl ⟨rfl, rfl⟩),
        spends.capacity_le⟩
    · exact ⟨number, (holds_set present).mpr (Or.inr ⟨same, held⟩),
        Nat.le_refl _⟩

/-! ## Commands -/

open Relation (ReflTransGen)

/-- Whatever a slot holds, its bignum can be read. -/
theorem Sound.usable_number (sound : bench.Sound) (slot : Nat) :
    bench.heap.Usable (bench.number slot) := by
  unfold Bench.number
  rw [List.getD_eq_getElem?_getD]
  cases held : bench.numbers[slot]? with
  | none => exact Heap.usable_empty bench.heap
  | some number => exact (sound.houses held).usable

theorem Sound.usable_operands (sound : bench.Sound) (change : Change Nat) :
    ∀ operand ∈ (change.map bench.number).operands,
      bench.heap.Usable operand := by
  intro operand member
  rw [Change.operands_map] at member
  obtain ⟨slot, _, rfl⟩ := List.mem_map.mp member
  exact sound.usable_number slot

private theorem steps_init (sound : bench.Sound) (precision : Nat) :
    ReflTransGen Step bench (bench.init precision) := by
  unfold init
  cases outcome : zero precision bench.heap with
  | ok number heap =>
    exact .single (.init (fresh_of_zero sound.bounded outcome))
  | error error heap =>
    obtain ⟨_, rfl, _⟩ :=
      (allots_zero bench.heap precision).of_error outcome
    exact .refl

private theorem steps_change (sound : bench.Sound) (slot : Nat)
    (change : Change Nat) :
    ReflTransGen Step bench (bench.change slot change) := by
  unfold Bench.change
  cases held : bench.numbers[slot]? with
  | none => exact .refl
  | some target =>
    have ensured :
        Ensures (change.map bench.number).perform ⟨bench.heap, target⟩ _ _ :=
      ensures_change sound.bounded (sound.houses held).backs
        (sound.usable_operands change)
    dsimp only
    cases outcome :
        (change.map bench.number).perform ⟨bench.heap, target⟩ with
    | ok _ after => exact .single (.settle held (ensured.of_ok outcome))
    | error error after =>
      obtain ⟨⟨_, widens⟩, _⟩ := ensured.of_error outcome
      exact .single (.settle held widens.settles)

/-! ## Divisions -/

section Outputs

variable {numbers : List Bignum} {quotient remainder : Option Nat}

private theorem exists_slot_of_output {slot : Option Nat}
    (isOutput : output numbers slot = some number) :
    ∃ place, slot = some place ∧ numbers[place]? = some number :=
  Option.bind_eq_some_iff.mp isOutput

private theorem restore_output (numbers : List Bignum) (slot : Option Nat) :
    restore numbers slot (output numbers slot) = numbers := by
  cases isOutput : output numbers slot with
  | none => cases slot <;> rfl
  | some number =>
    obtain ⟨place, rfl, held⟩ := exists_slot_of_output isOutput
    obtain ⟨inside, rfl⟩ := List.getElem?_eq_some_iff.mp held
    exact List.set_getElem_self inside

/-- Another output is not affected. -/
theorem output_restore
    (distinct : ¬(quotient.isSome ∧ quotient = remainder))
    (written : Option Bignum) :
    output (restore numbers quotient written) remainder =
      output numbers remainder := by
  cases quotient with
  | none => rfl
  | some slot =>
    cases written with
    | none => rfl
    | some number =>
      cases remainder with
      | none => rfl
      | some other =>
        have different : slot ≠ other := by
          rintro rfl
          exact distinct ⟨rfl, rfl⟩
        exact List.getElem?_set_ne different

end Outputs

/-- An output that was written is one step. -/
theorem steps_restore {value : Int} {slot : Option Nat} {heap : Heap}
    {written : Option Bignum}
    (writes : Writes value bench.heap (output bench.numbers slot) heap
      written) :
    ReflTransGen Step bench ⟨heap, restore bench.numbers slot written⟩ := by
  cases isOutput : output bench.numbers slot with
  | none =>
    rw [isOutput] at writes
    cases writes
    cases slot <;> exact .refl
  | some target =>
    obtain ⟨place, rfl, held⟩ := exists_slot_of_output isOutput
    rw [isOutput] at writes
    cases writes with
    | wanted assigns => exact .single (.settle held assigns.settles)

theorem Sound.ready (sound : bench.Sound) {quotient remainder : Option Nat}
    (distinct : ¬(quotient.isSome ∧ quotient = remainder)) :
    DivisionWorkspace.Ready ⟨bench.heap, output bench.numbers quotient,
      output bench.numbers remainder⟩ where
  quotient := by
    intro target isTarget
    obtain ⟨slot, _, held⟩ := exists_slot_of_output isTarget
    exact (sound.houses held).backs
  remainder := by
    intro target isTarget
    obtain ⟨slot, _, held⟩ := exists_slot_of_output isTarget
    exact (sound.houses held).backs
  apart := by
    intro target other isTarget isOther
    obtain ⟨slot, rfl, held⟩ := exists_slot_of_output isTarget
    obtain ⟨otherSlot, rfl, otherHeld⟩ := exists_slot_of_output isOther
    refine sound.apart ?_ held otherHeld
    rintro rfl
    exact distinct ⟨rfl, rfl⟩

private theorem steps_divide (sound : bench.Sound) (dividend divisor : Nat)
    (quotient remainder : Option Nat) :
    ReflTransGen Step bench
      (bench.divide dividend divisor quotient remainder) := by
  unfold Bench.divide
  by_cases same : quotient.isSome ∧ quotient = remainder
  · rw [if_pos same]
  · rw [if_neg same]
    have readDividend := (sound.usable_number dividend).value_eq
    have readDivisor := (sound.usable_number divisor).value_eq
    by_cases zero : (bench.number divisor).integer bench.heap = 0
    · rw [zero] at readDivisor
      rw [divide_of_zero ⟨bench.heap, output bench.numbers quotient,
        output bench.numbers remainder⟩ readDividend readDivisor]
      dsimp only
      rw [restore_output, restore_output]
    · have divided := ensures_divide_writes sound.bounded (sound.ready same)
        readDividend readDivisor zero
      cases outcome : Bignum.divide (bench.number dividend)
          (bench.number divisor) ⟨bench.heap, output bench.numbers quotient,
            output bench.numbers remainder⟩ with
      | ok _ final =>
        obtain ⟨middle, writesQuotient, writesRemainder⟩ :=
          divided.of_ok outcome
        refine (steps_restore writesQuotient).trans ?_
        rw [← output_restore same final.quotient] at writesRemainder
        exact steps_restore writesRemainder
      | error error final =>
        obtain ⟨_, unchanged | ⟨keptRemainder, writesQuotient⟩⟩ :=
          divided.of_error outcome
        · rw [unchanged]
          dsimp only
          rw [restore_output, restore_output]
        · dsimp only
          rw [keptRemainder, ← output_restore same final.quotient,
            restore_output]
          exact steps_restore writesQuotient

/-! ## Sequences -/

private theorem steps_after (sound : bench.Sound) (command : Command) :
    ReflTransGen Step bench (bench.after command) := by
  cases command with
  | init precision => exact steps_init sound precision
  | change slot change => exact steps_change sound slot change
  | divide dividend divisor quotient remainder =>
    exact steps_divide sound dividend divisor quotient remainder

theorem sound_of_steps (steps : ReflTransGen Step before final)
    (sound : before.Sound) :
    final.Sound ∧ before.Grows final := by
  induction steps with
  | refl => exact ⟨sound, .refl before⟩
  | tail _ step inductionHypothesis =>
    obtain ⟨middleSound, grows⟩ := inductionHypothesis
    exact ⟨step.sound middleSound, grows.trans step.grows⟩

theorem Sound.afterAll (sound : bench.Sound) (commands : List Command) :
    (bench.afterAll commands).Sound ∧
      bench.Grows (bench.afterAll commands) := by
  induction commands generalizing bench with
  | nil => exact ⟨sound, .refl bench⟩
  | cons command rest inductionHypothesis =>
    obtain ⟨nextSound, grows⟩ :=
      sound_of_steps (steps_after sound command) sound
    obtain ⟨finalSound, growsFurther⟩ := inductionHypothesis nextSound
    exact ⟨finalSound, grows.trans growsFurther⟩

/-- The bench before any bignum is initialised. -/
def start (heap : Heap) : Bench :=
  ⟨heap, []⟩

private theorem sound_start (bounded : heap.Bounded) : (start heap).Sound where
  bounded := bounded
  houses := fun held => nomatch held
  apart := fun _ held => nomatch held

/-- Whatever commands were given, from any heap on, and whichever of them
failed: every bignum is housed. No later commands take room from it. -/
theorem afterAll_houses (bounded : heap.Bounded) (commands : List Command) :
    (∀ number ∈ ((start heap).afterAll commands).numbers,
      ((start heap).afterAll commands).heap.Houses number) ∧
    ∀ (later : List Command) (slot : Nat) (number : Bignum),
      ((start heap).afterAll commands).numbers[slot]? = some number →
        ∃ grown,
          ((start heap).afterAll (commands ++ later)).numbers[slot]? =
            some grown ∧
          number.capacity ≤ grown.capacity := by
  obtain ⟨sound, _⟩ := (sound_start bounded).afterAll commands
  constructor
  · intro number member
    obtain ⟨slot, held⟩ := List.mem_iff_getElem?.mp member
    exact sound.houses held
  · intro later slot number held
    obtain ⟨_, grows⟩ := sound.afterAll later
    have continued : (start heap).afterAll (commands ++ later) =
        ((start heap).afterAll commands).afterAll later :=
      List.foldl_append
    rw [continued]
    exact grows slot number held

/-- A numeral and its square, divided in place, with room made and a power that
there is no space for. -/
def squareCommands : List Command :=
  [.init 1, .init 0,
    .change 0 (.compute (.readNumeral 10 "-4294967296")),
    .change 1 (.compute (.mul 0 0)),
    .change 1 (.grow 5),
    .divide 1 0 (some 1) (some 0),
    .change 0 (.compute (.pow 1 100))]

def squareBench : Bench :=
  (start (Heap.empty { heapLimit := 0x10100 })).afterAll squareCommands

theorem squareBench_houses :
    (Heap.empty { heapLimit := 0x10100 }).Bounded ∧
      squareBench.numbers.map (fun number => (number.used, number.capacity)) =
        [(0, 2), (2, 5)] ∧
      ∀ number ∈ squareBench.numbers, squareBench.heap.Houses number := by
  have bounded : (Heap.empty { heapLimit := 0x10100 }).Bounded :=
    (Heap.sound_empty _).layout.bounded
  obtain ⟨houses, _⟩ := afterAll_houses bounded squareCommands
  exact ⟨bounded, by decide +kernel, houses⟩

end Bench

end ManagedHeap
