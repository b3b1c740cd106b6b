import ManagedHeap.Proofs.Bignum.Storage

/-!
# Writing bignums

What making a bignum stand for an integer does: the integer is read back from
the digits in use, which are as few as it needs, and nothing but the storage
of the bignum is written (`Assigns`).
-/

namespace ManagedHeap.Bignum

variable {before middle after : Workspace} {cost laterCost : Nat} {value : Int}

/-! ## Assigned bignums -/

/-- The target stands for an integer, in as few digits as it needs. -/
structure Assigns (value : Int) (cost : Nat) (before after : Workspace) : Prop
    extends Spends cost before after where
  used : after.target.used = Digits.count value.natAbs
  sign : after.target.sign = Sign.ofInt value
  storedBytes : after.target.storedBytes after.heap =
    .ok (Bytes.ofNat (digitBytes * Digits.count value.natAbs) value.natAbs)

private theorem lt_pow_digitBytes_mul_count (magnitude : Nat) :
    magnitude < 256 ^ (digitBytes * Digits.count magnitude) := by
  have bound := Digits.lt_radix_pow_count magnitude
  rwa [Digits.radix, show 2 ^ 32 = 256 ^ digitBytes from rfl, ← Nat.pow_mul]
    at bound

theorem Assigns.value_eq (assigns : Assigns value cost before after) :
    after.target.value after.heap = .ok value := by
  rw [Bignum.value, magnitude, assigns.storedBytes]
  simp only [Except.map, Bytes.toNat_ofNat, assigns.sign,
    Nat.mod_eq_of_lt (lt_pow_digitBytes_mul_count _), Sign.apply_ofInt]

/-- An integer assigned after other changes to the same target. -/
theorem Spends.assigns
    (bounded : before.heap.Bounded) (first : Spends cost before middle)
    (second : Assigns value laterCost middle after) :
    Assigns value (cost + laterCost) before after where
  toSpends := first.trans bounded second.toSpends
  used := second.used
  sign := second.sign
  storedBytes := second.storedBytes

/-! ## Digits in place -/

section Written

variable {bytes : Bytes} {span magnitude : Nat}

private theorem toList_written :
    (bytes.overwrite 0 (Bytes.ofNat (digitBytes * span) magnitude)).toList =
      (Bytes.ofNat (digitBytes * span) magnitude).toList ++
        bytes.toList.drop (digitBytes * span) := by
  simp [Bytes.toList_overwrite]

private theorem size_written (room : digitBytes * span ≤ bytes.size) :
    (bytes.overwrite 0 (Bytes.ofNat (digitBytes * span) magnitude)).size =
      bytes.size :=
  Bytes.size_overwrite (by rwa [Nat.zero_add, Bytes.size_ofNat])

private theorem toList_written_of_le (wide : Digits.count magnitude ≤ span) :
    (bytes.overwrite 0 (Bytes.ofNat (digitBytes * span) magnitude)).toList =
      (Bytes.ofNat (digitBytes * Digits.count magnitude) magnitude).toList ++
        (List.replicate (digitBytes * span - digitBytes *
          Digits.count magnitude) 0 ++
          bytes.toList.drop (digitBytes * span)) := by
  have parts : digitBytes * span = digitBytes * Digits.count magnitude +
      (digitBytes * span - digitBytes * Digits.count magnitude) := by
    have := Nat.mul_le_mul_left digitBytes wide
    omega
  rw [toList_written, ← List.append_assoc,
    ← Bytes.toList_ofNat_add _ (lt_pow_digitBytes_mul_count magnitude), ← parts]

private theorem take_written (wide : Digits.count magnitude ≤ span) :
    (bytes.overwrite 0 (Bytes.ofNat (digitBytes * span) magnitude)).take
        (digitBytes * Digits.count magnitude) =
      Bytes.ofNat (digitBytes * Digits.count magnitude) magnitude := by
  refine Bytes.ext ?_
  rw [Bytes.toList_take, toList_written_of_le wide, List.take_left']
  rw [Bytes.length_toList, Bytes.size_ofNat]

private theorem eq_zero_of_mem_drop_written
    (wide : Digits.count magnitude ≤ span)
    (clean : ∀ byte ∈ bytes.toList.drop (digitBytes * span), byte = 0) :
    ∀ byte ∈ (bytes.overwrite 0
        (Bytes.ofNat (digitBytes * span) magnitude)).toList.drop
          (digitBytes * Digits.count magnitude),
      byte = 0 := by
  intro byte member
  rw [toList_written_of_le wide, List.drop_left'] at member
  · rcases List.mem_append.mp member with cleared | old
    · exact List.eq_of_mem_replicate cleared
    · exact clean byte old
  · rw [Bytes.length_toList, Bytes.size_ofNat]

end Written

theorem digitsStart_eq_ok {number : Bignum} {heap : Heap} {bytes : Bytes}
    {start : PayloadPointer}
    {span : Nat} (stored : number.storage = some start)
    (atStart : start.offset = 0)
    (found : heap.objects.find? start.buffer.address = some (.blob bytes))
    (room : digitBytes * span ≤ bytes.size) :
    number.digitsStart span heap = .ok start := by
  have inside : heap.payloadWithin start (digitBytes * span) = .ok bytes :=
    Heap.payloadWithin_eq_ok_iff.mpr ⟨found, by omega⟩
  rw [digitsStart, stored]
  simp only [inside, Except.map]

private theorem ensures_writeMagnitude
    {number : Bignum} {heap : Heap} {bytes : Bytes}
    {start : PayloadPointer} (span magnitude : Nat)
    (stored : number.storage = some start)
    (atStart : start.offset = 0)
    (found : heap.objects.find? start.buffer.address = some (.blob bytes))
    (room : digitBytes * span ≤ bytes.size) :
    Ensures (number.writeMagnitude span magnitude) heap
      (fun _ after => after = heap.place start.buffer
        (.blob (bytes.overwrite 0 (Bytes.ofNat (digitBytes * span) magnitude))))
      (fun _ _ => False) := by
  have inside :
      start.offset + (Bytes.ofNat (digitBytes * span) magnitude).size ≤
        bytes.size := by
    rw [Bytes.size_ofNat]
    omega
  unfold writeMagnitude Heap.writePayload
  refine Ensures.read (digitsStart_eq_ok stored atStart found room) ?_
  refine Ensures.read (Heap.payloadWithin_eq_ok_iff.mpr ⟨found, inside⟩) ?_
  rw [ensures_modify, atStart]

private theorem sign_eq_ofInt (value : Int) :
    (if value.natAbs = 0 then Sign.nonnegative else Sign.ofInt value) =
      Sign.ofInt value := by
  split
  · rename_i zero
    rw [Int.natAbs_eq_zero.mp zero]
    rfl
  · rfl

/-- The target with its sign and its digits, after the digits were written. -/
theorem assigns_place {bytes fresh : Bytes} {start : PayloadPointer}
    (backs : before.heap.Backs before.target)
    (stored : before.target.storage = some start)
    (found : before.heap.objects.find? start.buffer.address =
      some (.blob bytes))
    (sameSize : fresh.size = bytes.size)
    (enough : Digits.count value.natAbs ≤ before.target.capacity)
    (digits : fresh.take (digitBytes * Digits.count value.natAbs) =
      Bytes.ofNat (digitBytes * Digits.count value.natAbs) value.natAbs)
    (clean : before.heap.Trims before.target →
      ∀ byte ∈ fresh.toList.drop (digitBytes * Digits.count value.natAbs),
        byte = 0) :
    Assigns value 0 before
      ⟨before.heap.place start.buffer (.blob fresh),
        { before.target with
          used := Digits.count value.natAbs
          sign := if value.natAbs =
            0 then .nonnegative else Sign.ofInt value }⟩ := by
  obtain ⟨atStart, _, foundAgain, claimed, addressable⟩ :=
    backs.stored start stored
  obtain rfl := Object.blob.inj (Option.some.inj (found.symm.trans foundAgain))
  have written := Heap.find?_place_self before.heap start.buffer (.blob fresh)
  refine
    ⟨⟨(Heap.rewrites_place found sameSize).mono ?_, Nat.le_refl _,
      ⟨enough, ?_, ?_⟩,
    Or.inl rfl, Nat.le_refl _, ?_, id⟩, rfl, sign_eq_ofInt value, ?_⟩
  · rintro address rfl
    exact ⟨start, stored, rfl⟩
  · exact backs.unstored
  · intro other isOther
    obtain rfl := Option.some.inj (stored.symm.trans isOther)
    exact ⟨atStart, fresh, written, sameSize.symm ▸ claimed,
      sameSize.symm ▸ addressable⟩
  · intro trims
    refine ⟨?_, rfl⟩
    intro other present isOther presentFound
    obtain rfl := Option.some.inj (stored.symm.trans isOther)
    obtain rfl :=
      Object.blob.inj (Option.some.inj (written.symm.trans presentFound))
    exact ⟨sameSize.trans (trims start bytes stored found).1, clean trims⟩
  · refine Eq.trans (Heap.storedBytes_eq_ok stored atStart written ?_)
      (congrArg Except.ok digits)
    have inside := Object.le_of_le_lengthWord claimed
    exact sameSize.symm ▸ Nat.le_trans (Nat.mul_le_mul_left digitBytes enough)
      inside

/-- Where there are and were no digits, nothing is written. -/
theorem assigns_zero (backs : before.heap.Backs before.target)
    (unused : before.target.used = 0)
    (zero : value.natAbs = 0) :
    Assigns value 0 before
      ⟨before.heap,
        { before.target with
          used := Digits.count value.natAbs
          sign := if value.natAbs =
            0 then .nonnegative else Sign.ofInt value }⟩ := by
  have countZero : Digits.count value.natAbs = before.target.used := by
    rw [zero, unused, Digits.count_zero]
  refine
    ⟨⟨.refl _ _, Nat.le_refl _, ⟨?_, backs.unstored, backs.stored⟩, Or.inl rfl,
    Nat.le_refl _, fun trims => ⟨?_, rfl⟩, id⟩, rfl, sign_eq_ofInt value, ?_⟩
  · exact countZero ▸ backs.used_le_capacity
  · intro start bytes stored found
    obtain ⟨exactSize, clean⟩ := trims start bytes stored found
    exact ⟨exactSize, countZero.symm ▸ clean⟩
  · refine (Heap.storedBytes_of_unused _ (countZero.trans unused)).trans
      (congrArg Except.ok (Bytes.ext ?_))
    rw [zero, Bytes.toList_ofNat_zero]
    rfl

/-! ## Assignment -/

private theorem ensures_overwrite
    {span : Nat} (backs : before.heap.Backs before.target)
    (enough : Digits.count value.natAbs ≤ before.target.capacity)
    (isSpan : before.target.writtenSpan (Digits.count value.natAbs) = span)
    (positive : 0 < span) :
    Ensures (before.target.writeMagnitude span value.natAbs) before.heap
      (fun _ heap => Assigns value 0 before
        ⟨heap,
          { before.target with
            used := Digits.count value.natAbs
            sign := if value.natAbs =
              0 then .nonnegative else Sign.ofInt value }⟩)
      (fun _ _ => False) := by
  have wide : Digits.count value.natAbs ≤ span := isSpan ▸ Nat.le_max_left ..
  have clears : before.target.used ≤ span := isSpan ▸ Nat.le_max_right ..
  have within : span ≤ before.target.capacity :=
    isSpan ▸ Nat.max_le.mpr ⟨enough, backs.used_le_capacity⟩
  obtain ⟨start, bytes, stored, atStart, found, claimed⟩ :=
    backs.exists_start (by omega)
  have room : digitBytes * span ≤ bytes.size :=
    Nat.le_trans (Nat.mul_le_mul_left digitBytes within) claimed
  refine (ensures_writeMagnitude span value.natAbs stored atStart found
    room).mono ?_
    fun _ _ impossible => impossible
  rintro _ _ rfl
  refine assigns_place backs stored found (size_written room) enough
    (take_written wide) ?_
  intro trims
  refine eq_zero_of_mem_drop_written wide fun byte member => ?_
  exact (trims start bytes stored found).2 byte
    (List.drop_subset_drop_left _ (Nat.mul_le_mul_left digitBytes clears)
      member)

/-- The target comes to stand for the integer, unless the new storage does not
fit. -/
theorem ensures_assign (value : Int) (bounded : before.heap.Bounded)
    (backs : before.heap.Backs before.target) :
    Ensures (assign value) before
      (fun _ after =>
        Assigns value
          (growth before.target.capacity (Digits.count value.natAbs))
          before after)
      (fun error after => after = before ∧ error.IsOutOfMemory ∧
        before.heap.Lacks (growth before.target.capacity
          (Digits.count value.natAbs))) := by
  unfold assign store
  simp only [ensures_bind, ensures_get]
  refine (ensures_grow _ bounded backs).mono ?_ fun _ _ failed => failed
  rintro _ middle ⟨widens, capacity⟩
  have enough : Digits.count value.natAbs ≤ middle.target.capacity :=
    capacity ▸ Nat.le_max_right ..
  by_cases positive : 0 < middle.target.writtenSpan (Digits.count value.natAbs)
  · simp only [if_pos positive, ensures_bind, ensures_onHeap, ensures_setTarget]
    refine (ensures_overwrite widens.backs enough rfl positive).mono ?_ ?_
    · exact fun _ heap assigns => widens.toSpends.assigns bounded assigns
    · exact fun _ _ impossible => impossible.elim
  · rw [if_neg positive]
    have none : Digits.count value.natAbs = 0 ∧ middle.target.used = 0 := by
      simp only [writtenSpan] at positive
      omega
    exact widens.toSpends.assigns bounded
      (assigns_zero widens.backs none.2 (Digits.count_eq_zero_iff.mp none.1))

theorem store_eq_assign (sign : Sign) (magnitude : Nat) :
    store sign magnitude = assign (sign.apply magnitude) := by
  have sameMagnitude : (sign.apply magnitude).natAbs = magnitude := by
    cases sign <;> simp [Sign.apply]
  have sameSign : (if magnitude = 0 then Sign.nonnegative else sign) =
      if magnitude =
        0 then Sign.nonnegative else Sign.ofInt (sign.apply magnitude) := by
    split
    · rfl
    · cases sign with
      | nonnegative =>
        rw [Sign.ofInt, if_neg]
        simp only [Sign.apply]
        omega
      | negative =>
        rw [Sign.ofInt, if_pos]
        simp only [Sign.apply]
        omega
  simp only [assign, store, sameMagnitude, sameSign]

end ManagedHeap.Bignum
