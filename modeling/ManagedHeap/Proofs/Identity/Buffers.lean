import ManagedHeap.Identity.Buffers
import ManagedHeap.Proofs.Heap.Cells

/-!
# Identity text in new buffers

What the identity operations make of the bytes in a buffer. The grouped form
of a text fits into the room that is reserved for it, unless that room has a
length of more than 32 bits (`reservedLength_lt_size_groupBytes`).
-/

namespace ManagedHeap

namespace Identity

/-! ## Room for grouped text -/

/-- After `filled` characters of a group, a hyphen stands before every fifth
character but the first. -/
theorem length_groupFrom {filled : Nat} (text : List UInt8)
    (within : filled ≤ groupLength) :
    (groupFrom filled text).length =
      text.length + (filled + text.length - 1) / groupLength := by
  induction text generalizing filled with
  | nil =>
    simp only [groupFrom, groupLength, List.length_nil] at within ⊢
    omega
  | cons head tail inductionHypothesis =>
    rw [groupFrom]
    by_cases full : filled = groupLength
    · rw [if_pos full, List.length_cons, List.length_cons,
        inductionHypothesis (by simp only [groupLength]; omega)]
      simp only [groupLength, List.length_cons] at full ⊢
      omega
    · rw [if_neg full, List.length_cons, inductionHypothesis (by omega)]
      simp only [groupLength, List.length_cons]
      omega

theorem size_groupBytes (text : Bytes) :
    (groupBytes text).size =
      text.size + (text.size - 1) / groupLength := by
  rw [← Bytes.length_toList, toList_groupBytes, group,
    length_groupFrom _ (Nat.zero_le _), Bytes.length_toList, Nat.zero_add]

theorem size_groupBytes_le (text : Bytes) :
    (groupBytes text).size ≤ groupedCapacity text.size := by
  rw [size_groupBytes]
  simp only [groupedCapacity, groupLength, Positional.ceilDiv]
  omega

/-- Where the room has a length of 32 bits, all of it is reserved. -/
theorem reservedLength_of_le {length : Nat}
    (short : groupedCapacity length ≤ maxAddress) :
    reservedLength length = groupedCapacity length :=
  Object.lengthWord_of_le short

/-- Where it has not, less is reserved than is written. -/
theorem reservedLength_lt_size_groupBytes {text : Bytes}
    (long : maxAddress < groupedCapacity text.size) :
    reservedLength text.size < (groupBytes text).size := by
  rw [size_groupBytes]
  simp only [reservedLength, Object.lengthWord, groupedCapacity, groupLength,
    Positional.ceilDiv, maxAddress] at long ⊢
  omega

/-! ## New buffers -/

variable {heap : Heap} {text handle : Handle} {bytes : Bytes}

/-- The buffer that is reserved for the grouped form of a text. -/
def reservation (text : Bytes) : Object :=
  .blob (Bytes.zeros (reservedLength text.size))

/-- The error of a write that leaves the reserved buffer. -/
def overrun (text : Bytes) : Error :=
  .payloadBounds 0 (groupBytes text).size (reservedLength text.size)

/-- The grouped text is written to the front of a buffer that has room for it,
and the rest is given up. -/
theorem ensures_fill {length : Nat}
    (found : heap.objects.find? handle.address =
      some (.blob (Bytes.zeros length)))
    (room : (groupBytes bytes).size ≤ length) :
    Ensures (do
        Heap.writePayload (PayloadPointer.startOf handle) (groupBytes bytes)
        Heap.truncateBlob handle (groupBytes bytes).size
        return handle) heap
      (fun result after => result = handle ∧
        after = heap.place handle (.blob (groupBytes bytes)))
      (fun _ _ => False) := by
  rw [ensures_bind, Heap.writePayload]
  refine Ensures.read (Heap.payloadWithin_eq_ok_iff.mpr ⟨found, ?_⟩) ?_
  · show 0 + _ ≤ _
    rwa [Nat.zero_add, Bytes.size_zeros]
  · rw [ensures_modify, ensures_bind, Heap.truncateBlob]
    refine Ensures.read (Heap.blob_eq_ok_iff.mpr (Heap.find?_place_self ..)) ?_
    rw [ensures_modify, ensures_pure]
    refine ⟨rfl, (Heap.place_place ..).trans ?_⟩
    refine congrArg (fun content => Heap.place _ _ (.blob content))
      (Bytes.ext ?_)
    rw [Bytes.toList_take, Bytes.toList_overwrite, ← Bytes.length_toList]
    simp [PayloadPointer.startOf]

/-- The grouped text stands in the front of the room that was reserved. It is
not written when there is no space for that room, or when the room has a
length of more than 32 bits; then the buffer of zeros stays behind. -/
theorem ensures_ofBase32
    (found : heap.objects.find? text.address = some (.blob bytes)) :
    Ensures (ofBase32 text) heap
      (fun handle after => groupedCapacity bytes.size ≤ maxAddress ∧
        heap.Fits (reservation bytes) ∧ handle.address = heap.pointer ∧
          after = (heap.push (reservation bytes)).place handle
            (.blob (groupBytes bytes)))
      (fun error after =>
        ¬heap.Fits (reservation bytes) ∧ after = heap ∧ error.IsOutOfMemory ∨
        maxAddress < groupedCapacity bytes.size ∧
          heap.Fits (reservation bytes) ∧
          after = heap.push (reservation bytes) ∧ error = overrun bytes) := by
  unfold ofBase32
  refine Ensures.read (Heap.blob_eq_ok_iff.mpr found) ?_
  rw [ensures_bind]
  refine (Heap.allots_allocBlob heap _).mono ?_ fun _ _ failed => Or.inl failed
  rintro handle _ ⟨fits, rfl, answers⟩
  have atPointer := Handle.address_ofAddress fits.pointer_lt
  obtain rfl := answers _ atPointer
  have reserved := Heap.find?_push_self heap (reservation bytes)
  rw [← atPointer] at reserved
  by_cases short : groupedCapacity bytes.size ≤ maxAddress
  · have room := size_groupBytes_le bytes
    rw [← reservedLength_of_le short] at room
    refine (ensures_fill reserved room).mono ?_ fun _ _ impossible =>
      impossible.elim
    rintro _ _ ⟨rfl, rfl⟩
    exact ⟨short, fits, atPointer, rfl⟩
  · have long := Nat.lt_of_not_le short
    have outside := reservedLength_lt_size_groupBytes long
    rw [ensures_bind, Heap.writePayload]
    refine Ensures.read_error (Heap.payloadWithin_eq_error reserved ?_) ?_
    · show _ < 0 + _
      rwa [Nat.zero_add, Bytes.size_zeros]
    · refine Or.inr ⟨long, fits, rfl, congrArg (Error.payloadBounds 0 _) ?_⟩
      rw [Bytes.size_zeros]
      exact Object.lengthWord_of_le (Object.lengthWord_le_maxAddress _)

private theorem regular_reserved (regular : heap.Regular)
    (fits : heap.Fits (reservation bytes)) :
    (heap.push (reservation bytes)).Regular :=
  regular.push fits (by simp [reservation, Object.pointers, Object.fields])
    (by simp [reservation])

private theorem regular_cut (regular : heap.Regular)
    (short : groupedCapacity bytes.size ≤ maxAddress)
    (fits : heap.Fits (reservation bytes))
    (atPointer : handle.address = heap.pointer) :
    ((heap.push (reservation bytes)).place handle
        (.blob (groupBytes bytes))).Regular ∧
      heap.Grows ((heap.push (reservation bytes)).place handle
        (.blob (groupBytes bytes))) := by
  have bounded := regular.tidy.bounded
  have found := Heap.find?_push_self heap (reservation bytes)
  rw [← atPointer] at found
  have room : (groupBytes bytes).size ≤
      (Bytes.zeros (reservedLength bytes.size)).size := by
    rw [Bytes.size_zeros, reservedLength_of_le short]
    exact size_groupBytes_le bytes
  have recorded := Nat.le_of_lt fits.size_lt
  constructor
  · refine (regular_reserved regular fits).place found
      (Object.size_blob_mono room recorded) ?_
      (by simp [Object.pointers, Object.fields]) ?_ (by simp)
    · rintro _ ⟨⟩
      exact Nat.le_trans room recorded
    · intro address number numberFound owns
      rw [Heap.find?_push] at numberFound
      split at numberFound
      · cases numberFound
      · have older := regular.lt_of_owns numberFound owns
        rw [atPointer] at older
        exact absurd older (Nat.lt_irrefl _)
  · refine Heap.Extends.trans bounded (bounded.grows_push _)
      (Heap.extends_place _ found) ?_
    rintro _ rfl
    exact Or.inr (Nat.le_of_eq atPointer.symm)

/-! ## What is made of a buffer -/

open Heap (Makes charge makes_read makes_throw makes_allocBlobFrom)

/-- The payload of an identity text as bytes, or the rule that the text
breaks. -/
def decoded (text : Bytes) : Except Error Bytes :=
  (decodeBytes text).mapError .identity

theorem makes_toBlob (text : Handle) (regular : heap.Regular) :
    Makes (toBlob text) heap
      (heap.blob text >>= fun bytes => (decoded bytes).map .bytes)
      (charge (heap.blob text) fun bytes =>
        charge (decoded bytes) fun payload =>
          (Object.blob payload).fullSize) := by
  refine makes_read regular fun bytes _ => ?_
  unfold decoded
  cases decodeBytes bytes with
  | ok payload => exact makes_allocBlobFrom regular payload
  | error fault => exact makes_throw regular (.identity fault)

theorem makes_ofBlob (payload : Handle) (regular : heap.Regular) :
    Makes (ofBlob payload) heap
      (heap.blob payload >>= fun bytes => .ok (.bytes (encodeBytes bytes)))
      (charge (heap.blob payload) fun bytes =>
        (Object.blob (encodeBytes bytes)).fullSize) :=
  makes_read regular fun _ _ => makes_allocBlobFrom regular _

/-- What grouping makes of a text: its grouped form, or the error of a write
that leaves the buffer. -/
def grouped (text : Bytes) : Except Error Bytes :=
  if groupedCapacity text.size ≤ maxAddress then
    .ok (groupBytes text)
  else
    .error (overrun text)

theorem makes_ofBase32 (text : Handle) (regular : heap.Regular) :
    Makes (ofBase32 text) heap
      (heap.blob text >>= fun bytes => (grouped bytes).map .bytes)
      (charge (heap.blob text) fun bytes => (reservation bytes).fullSize) := by
  cases read : heap.blob text with
  | error error => exact Heap.makes_of_read_eq_error regular read
  | ok bytes =>
    refine (ensures_ofBase32 (Heap.blob_eq_ok_iff.mp read)).mono ?_ ?_
    · rintro handle _ ⟨short, fits, atPointer, rfl⟩
      obtain ⟨regularAfter, grows⟩ := regular_cut regular short fits atPointer
      refine ⟨.bytes (groupBytes bytes), ?_, regularAfter, grows, atPointer,
        Heap.find?_place_self .., fits.pointer_push⟩
      show (grouped bytes).map _ = _
      rw [grouped, if_pos short]
      rfl
    · rintro error after (⟨noFit, rfl, outOfMemory⟩ | ⟨long, fits, rfl, rfl⟩)
      · exact ⟨regular, .refl _ _,
          Or.inr ⟨outOfMemory, Heap.lacks_of_not_fits noFit⟩⟩
      · refine ⟨regular_reserved regular fits,
          regular.tidy.bounded.grows_push _, Or.inl ⟨?_, fits.pointer_push⟩⟩
        show (grouped bytes).map _ = _
        rw [grouped, if_neg (Nat.not_le.mpr long)]
        rfl

end Identity

end ManagedHeap
