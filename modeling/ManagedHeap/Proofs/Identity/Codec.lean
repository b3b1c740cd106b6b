import ManagedHeap.Identity.Buffers
import ManagedHeap.Proofs.Heap.Allocation
import ManagedHeap.Proofs.Hex

/-!
# Accepted identity texts

Reading accepts a text exactly when it is the written form of the payload that
it returns, the letters of the scheme in either case
(`decode_accepts_written`). A text whose scheme and digits are well formed is
judged by its checksum alone (`decode_of_digits`).
-/

namespace ManagedHeap.Identity

variable {text payload : List UInt8} {checksum : UInt8}

/-! ## Digits -/

theorem isUppercaseHex_iff {byte : UInt8} :
    isUppercaseHex byte = true ↔
      ∃ value < 16, Hex.digit .upper value = byte := by
  constructor
  · intro upper
    have spelled : isUppercaseHex byte = true →
        ∃ value : Fin 16, Hex.digit .upper (UInt8.ofNat value) = byte := by
      refine byte_below byte byte.toNat_lt ?_
      decide +kernel
    obtain ⟨value, isByte⟩ := spelled upper
    refine ⟨UInt8.ofNat value, ?_, isByte⟩
    have small := value.isLt
    simp only [UInt8.lt_iff_toNat_lt, UInt8.toNat_ofNat', UInt8.reduceToNat]
    omega
  · rintro ⟨value, small, rfl⟩
    have below : value.toNat < 16 := UInt8.lt_iff_toNat_lt.mp small
    refine byte_below value below ?_
    decide

theorem all_isUppercaseHex_encode (bytes : List UInt8) :
    (Hex.encode .upper bytes).all isUppercaseHex = true :=
  List.all_eq_true.mpr fun _ member =>
    isUppercaseHex_iff.mpr (Hex.exists_of_mem_encode member)

/-- Upper-case digits in pairs are the digits of some byte sequence. -/
theorem exists_encode_eq {digits : List UInt8}
    (upper : digits.all isUppercaseHex = true) (even : digits.length % 2 = 0) :
    ∃ bytes, Hex.encode .upper bytes = digits :=
  Hex.exists_encode_eq digits
    (fun digit member =>
      isUppercaseHex_iff.mp (List.all_eq_true.mp upper digit member))
    even

/-- So many digits spell at least one byte, and the last one is taken for a
checksum. -/
theorem exists_encode_concat_eq {digits : List UInt8}
    (long : 2 ≤ digits.length) (upper : digits.all isUppercaseHex = true)
    (even : digits.length % 2 = 0) :
    ∃ payload checksum,
      Hex.encode .upper (payload ++ [checksum]) = digits := by
  obtain ⟨bytes, rfl⟩ := exists_encode_eq upper even
  rcases bytes.eq_nil_or_concat with rfl | ⟨payload, checksum, rfl⟩
  · cases long
  · exact ⟨payload, checksum, by rw [List.concat_eq_append]⟩

/-! ## The scheme -/

theorem lowercase_eq_colon_iff {byte : UInt8} :
    lowercase byte = 0x3a ↔ byte = 0x3a := by
  refine byte_below byte byte.toNat_lt ?_
  decide +kernel

/-- The scheme is its two letters in either case and the colon. -/
theorem startsWithScheme_iff :
    startsWithScheme text = true ↔
      (text.take 2).map lowercase = [0x69, 0x63] ∧ text[2]? = some 0x3a := by
  rcases text with _ | ⟨first, _ | ⟨second, _ | ⟨third, rest⟩⟩⟩ <;>
    simp [startsWithScheme, scheme, lowercase_eq_colon_iff, and_assoc]

theorem drop_two_eq_cons_iff {colon : UInt8} {digits : List UInt8} :
    text.drop 2 = colon :: digits ↔
      text[2]? = some colon ∧ text.drop 3 = digits := by
  rcases text with _ | ⟨first, _ | ⟨second, _ | ⟨third, rest⟩⟩⟩ <;> simp

/-! ## Reading -/

theorem encode_eq (payload : List UInt8) :
    encode payload =
      scheme ++ Hex.encode .upper (payload ++ [Checksum.crc8 payload]) := by
  rw [encode, Hex.encode_append, List.append_assoc]
  rfl

/-- All digits but the last two are those of the payload. -/
theorem split_encode_concat (payload : List UInt8) (checksum : UInt8) :
    let digits := Hex.encode .upper (payload ++ [checksum])
    digits.take (digits.length - 2) = Hex.encode .upper payload ∧
      digits.drop (digits.length - 2) = Hex.encode .upper [checksum] := by
  intro digits
  have split : digits =
      Hex.encode .upper payload ++ Hex.encode .upper [checksum] :=
    Hex.encode_append payload [checksum]
  have position :
      digits.length - 2 = (Hex.encode .upper payload).length := by
    rw [split, List.length_append]
    exact Nat.add_sub_cancel ..
  rw [position, split]
  exact ⟨List.take_left, List.drop_left⟩

theorem decodeDigits_encode (payload : List UInt8) (checksum : UInt8) :
    decodeDigits (Hex.encode .upper (payload ++ [checksum])) =
      if Checksum.crc8 payload = checksum then .ok payload
      else .error .checksumMismatch := by
  obtain ⟨front, back⟩ := split_encode_concat payload checksum
  rw [decodeDigits, front, back, if_neg (by rw [Hex.length_encode]; omega),
    Hex.decode_encode, Hex.decode_encode]
  simp

/-- A text with the scheme and upper-case digits in pairs is judged by its
checksum. -/
theorem decode_of_digits (start : startsWithScheme text = true)
    (digits : text.drop 3 = Hex.encode .upper (payload ++ [checksum])) :
    decode text =
      if Checksum.crc8 payload = checksum then .ok payload
      else .error .checksumMismatch := by
  have long : ¬text.length < leastLength := by
    have length := congrArg List.length digits
    simp only [List.length_drop, Hex.length_encode, List.length_append,
      List.length_singleton] at length
    simp only [leastLength]
    omega
  rw [decode, if_neg long, if_neg (by simp [start]), digits,
    if_neg (by simp [all_isUppercaseHex_encode]), decodeDigits_encode]

/-- What passes the rules before the checksum rule. -/
theorem wellFormed_of_decode_eq_ok (accepted : decode text = .ok payload) :
    leastLength ≤ text.length ∧ startsWithScheme text = true ∧
      (text.drop 3).all isUppercaseHex = true ∧
      decodeDigits (text.drop 3) = .ok payload := by
  unfold decode at accepted
  dsimp only at accepted
  split at accepted
  · cases accepted
  rename_i long
  split at accepted
  · cases accepted
  rename_i start
  split at accepted
  · cases accepted
  rename_i upper
  exact ⟨Nat.le_of_not_lt long, by simpa using start, by simpa using upper,
    accepted⟩

theorem even_of_decodeDigits_eq_ok {digits : List UInt8}
    (long : 2 ≤ digits.length) (accepted : decodeDigits digits = .ok payload) :
    digits.length % 2 = 0 := by
  unfold decodeDigits at accepted
  dsimp only at accepted
  split at accepted
  · cases accepted
  rename_i even
  rw [List.length_take] at even
  omega

/-- An accepted text has the scheme, and its digits are those of the payload
and its checksum. -/
theorem digits_of_decode_eq_ok (accepted : decode text = .ok payload) :
    startsWithScheme text = true ∧
      text.drop 3 =
        Hex.encode .upper (payload ++ [Checksum.crc8 payload]) := by
  obtain ⟨long, start, upper, digitsAccepted⟩ :=
    wellFormed_of_decode_eq_ok accepted
  have pair : 2 ≤ (text.drop 3).length := by
    rw [List.length_drop]
    simp only [leastLength] at long
    omega
  have even := even_of_decodeDigits_eq_ok pair digitsAccepted
  obtain ⟨read, checksum, spelled⟩ := exists_encode_concat_eq pair upper even
  rw [← spelled, decodeDigits_encode] at digitsAccepted
  split at digitsAccepted
  · rename_i sameChecksum
    obtain rfl := Except.ok.inj digitsAccepted
    rw [sameChecksum, spelled]
    exact ⟨start, rfl⟩
  · cases digitsAccepted

theorem decode_encode (payload : List UInt8) :
    decode (encode payload) = .ok payload := by
  have digits : (encode payload).drop 3 =
      Hex.encode .upper (payload ++ [Checksum.crc8 payload]) := by
    rw [encode_eq]
    rfl
  rw [decode_of_digits (by rw [encode_eq]; rfl) digits, if_pos rfl]

/-- Two different payloads have different texts. -/
theorem encode_injective : Function.Injective encode := by
  intro left right same
  have read := decode_encode left
  rw [same, decode_encode right] at read
  exact (Except.ok.inj read).symm

/-- The accepted texts, letter by letter: the scheme in either case, and from
the colon on the text of the payload. -/
theorem decode_eq_ok_iff :
    decode text = .ok payload ↔
      leastLength ≤ text.length ∧
        (text.take 2).map lowercase = [0x69, 0x63] ∧
        text.drop 2 = (encode payload).drop 2 := by
  have written : (encode payload).drop 2 =
      0x3a :: Hex.encode .upper (payload ++ [Checksum.crc8 payload]) := by
    rw [encode_eq]
    rfl
  rw [written]
  constructor
  · intro accepted
    obtain ⟨long, _⟩ := wellFormed_of_decode_eq_ok accepted
    obtain ⟨start, digits⟩ := digits_of_decode_eq_ok accepted
    obtain ⟨letters, colon⟩ := startsWithScheme_iff.mp start
    exact ⟨long, letters, drop_two_eq_cons_iff.mpr ⟨colon, digits⟩⟩
  · rintro ⟨_, letters, rest⟩
    obtain ⟨colon, digits⟩ := drop_two_eq_cons_iff.mp rest
    rw [decode_of_digits (startsWithScheme_iff.mpr ⟨letters, colon⟩) digits,
      if_pos rfl]

/-- An accepted text is the text of its payload, but for the case of the
scheme. -/
theorem encode_eq_of_decode_eq_ok (accepted : decode text = .ok payload) :
    encode payload = (text.take 2).map lowercase ++ text.drop 2 := by
  obtain ⟨_, letters, rest⟩ := decode_eq_ok_iff.mp accepted
  rw [letters, rest, encode_eq]
  rfl

/-! ## Buffers -/

theorem decodeBytes_encodeBytes (bytes : Bytes) :
    decodeBytes (encodeBytes bytes) = .ok bytes := by
  have read := decodeBytes_eq (encodeBytes bytes)
  rw [toList_encodeBytes, decode_encode] at read
  obtain ⟨payload, isPayload, same⟩ := Except.map_eq_ok_iff.mp read
  rw [isPayload, Bytes.ext same]

/-- Bytes of the heap that the text of a payload and the payload read back
from it take. -/
def roundTripSize (bytes : Bytes) : Nat :=
  (Object.blob (encodeBytes bytes)).fullSize + (Object.blob bytes).fullSize

/-- The payload that is read back from a text in a new buffer is the payload
that was written, unless both do not fit. -/
theorem ensures_toBlob_ofBlob {heap : Heap} {source : Handle} {bytes : Bytes}
    (read : heap.blob source = .ok bytes) :
    Ensures (ofBlob source >>= toBlob) heap
      (fun result after => after.blob result = .ok bytes)
      (fun error _ => error.IsOutOfMemory ∧
        heap.config.heapLimit.toNat < heap.pointer + roundTripSize bytes) := by
  rw [ensures_bind, ofBlob]
  refine Ensures.read read ?_
  refine (Heap.allots_allocBlobFrom heap (encodeBytes bytes)).mono ?_ ?_
  · rintro written middle ⟨fits, rfl, answers⟩
    have atPointer := Handle.address_ofAddress fits.pointer_lt
    obtain rfl := answers _ atPointer
    have found := Heap.find?_push_self heap (.blob (encodeBytes bytes))
    rw [← atPointer] at found
    rw [toBlob]
    refine Ensures.read (Heap.blob_eq_ok_iff.mpr found) ?_
    rw [decodeBytes_encodeBytes]
    refine (Heap.allots_allocBlobFrom _ bytes).mono ?_ ?_
    · rintro result after ⟨resultFits, rfl, resultAnswers⟩
      have atResult := Handle.address_ofAddress resultFits.pointer_lt
      obtain rfl := resultAnswers _ atResult
      rw [Heap.blob_eq_ok_iff, atResult]
      exact Heap.find?_push_self ..
    · rintro error after ⟨noFit, _, outOfMemory⟩
      refine ⟨outOfMemory, ?_⟩
      have limit := Nat.lt_of_not_le noFit
      rwa [fits.pointer_push, Nat.add_assoc] at limit
  · rintro error after ⟨noFit, _, outOfMemory⟩
    refine ⟨outOfMemory, ?_⟩
    exact Nat.lt_of_lt_of_le (Nat.lt_of_not_le noFit)
      (Nat.add_le_add_left (Nat.le_add_right ..) _)

/-! ## Accepted texts -/

/-- Reading accepts exactly the written texts, the letters of the scheme in
either case; so reading undoes writing, writing undoes reading but for the
case of the scheme, and no two payloads have one text. Buffers are written and
read alike. -/
theorem decode_accepts_written :
    (∀ text payload, decode text = .ok payload ↔
      leastLength ≤ text.length ∧
        (text.take 2).map lowercase = [0x69, 0x63] ∧
        text.drop 2 = (encode payload).drop 2) ∧
    (∀ payload, decode (encode payload) = .ok payload) ∧
    (∀ text payload, decode text = .ok payload →
      encode payload = (text.take 2).map lowercase ++ text.drop 2) ∧
    Function.Injective encode ∧
    ∀ (heap : Heap) (source : Handle) (bytes : Bytes),
      heap.blob source = .ok bytes →
      Ensures (ofBlob source >>= toBlob) heap
        (fun result after => after.blob result = .ok bytes)
        (fun error _ => error.IsOutOfMemory ∧
          heap.config.heapLimit.toNat < heap.pointer + roundTripSize bytes) :=
  ⟨fun _ _ => decode_eq_ok_iff, decode_encode,
    fun _ _ accepted => encode_eq_of_decode_eq_ok accepted, encode_injective,
    fun _ _ _ read => ensures_toBlob_ofBlob read⟩

/-- A text with a capital in its scheme, and a buffer whose text is read
back. -/
theorem mixedCaseText_accepted :
    decode [0x69, 0x43, 0x3a, 0x41, 0x42, 0x43, 0x44, 0x45, 0x32] =
      .ok [0xab, 0xcd] ∧
    encode [0xab, 0xcd] =
      [0x69, 0x63, 0x3a, 0x41, 0x42, 0x43, 0x44, 0x45, 0x32] ∧
    Ensures (ofBlob (.ofAddress 0x10000) >>= toBlob)
      ((Heap.empty {}).push (.blob (.ofList [0xab, 0xcd])))
      (fun result after => after.blob result = .ok (.ofList [0xab, 0xcd]))
      (fun _ _ => False) := by
  obtain ⟨accepts, _, undone, _, buffers⟩ := decode_accepts_written
  have checksum : Checksum.crc8 [0xab, 0xcd] = 0xe2 := by decide +kernel
  have accepted :
      decode [0x69, 0x43, 0x3a, 0x41, 0x42, 0x43, 0x44, 0x45, 0x32] =
        .ok [0xab, 0xcd] := by
    refine (accepts _ _).mpr ⟨by decide, by decide, ?_⟩
    rw [encode_eq, checksum]
    rfl
  refine ⟨accepted, undone _ _ accepted, ?_⟩
  have read : ((Heap.empty {}).push (.blob (.ofList [0xab, 0xcd]))).blob
      (.ofAddress 0x10000) = .ok (.ofList [0xab, 0xcd]) := by
    rw [Heap.blob_eq_ok_iff]
    decide +kernel
  refine (buffers _ _ _ read).mono (fun _ _ returned => returned) ?_
  rintro _ _ ⟨_, noFit⟩
  revert noFit
  decide +kernel

end ManagedHeap.Identity
