import ManagedHeap.Proofs.Identity.Codec

/-!
# The rules of identity texts

What each rule asks of a text is said without the others (`Breaks`). Reading
goes through the rules in order and reports the first one that the text breaks
(`decode_eq_error_iff`), for every byte sequence. Nothing else can happen on
the way: reading with every access checked (`decodeChecked`) never leaves the
text and never meets digits that spell no bytes.
-/

namespace ManagedHeap.Identity

variable {text digits payload : List UInt8} {fault : IdentityFault}

/-! ## Rules -/

/-- The text begins with the two letters, each in either case, and a colon. -/
def HasScheme (text : List UInt8) : Prop :=
  (text[0]? = some 0x49 ∨ text[0]? = some 0x69) ∧
    (text[1]? = some 0x43 ∨ text[1]? = some 0x63) ∧ text[2]? = some 0x3a

/-- The text breaks a rule, whatever the other rules say about it. The last
rule compares the checksum of the bytes that all digits but two spell with the
byte that these two spell. -/
def Breaks (text : List UInt8) : IdentityFault → Prop
  | .tooShort => text.length < 5
  | .scheme => ¬HasScheme text
  | .notUppercaseHex => ∃ digit ∈ text.drop 3,
    ¬(0x30 ≤ digit ∧ digit ≤ 0x39) ∧ ¬(0x41 ≤ digit ∧ digit ≤ 0x46)
  | .oddHexDigits => (text.drop 3).length % 2 = 1
  | .checksumMismatch => ∃ payload checksum,
    text.drop 3 =
      Hex.encode .upper payload ++ Hex.encodeByte .upper checksum ∧
    Checksum.crc8 payload ≠ checksum

/-- The rules in the order in which they are checked. -/
def ruleOrder : List IdentityFault :=
  [.tooShort, .scheme, .notUppercaseHex, .oddHexDigits, .checksumMismatch]

/-- The text breaks the rule and none that is checked before it. -/
def FirstBroken (text : List UInt8) (fault : IdentityFault) : Prop :=
  Breaks text fault ∧
    ∀ earlier ∈ ruleOrder.takeWhile (· ≠ fault), ¬Breaks text earlier

/-- A lower-case letter comes from either case of it. -/
theorem lowercase_eq_letter_iff {byte letter : UInt8}
    (lower : 0x61 ≤ letter ∧ letter ≤ 0x7a) :
    lowercase byte = letter ↔ byte = letter - 0x20 ∨ byte = letter := by
  rw [lowercase]
  grind

private theorem startsWithScheme_iff_hasScheme :
    startsWithScheme text = true ↔ HasScheme text := by
  rcases text with _ | ⟨first, _ | ⟨second, _ | ⟨third, rest⟩⟩⟩ <;>
    simp [startsWithScheme, scheme, HasScheme, lowercase_eq_colon_iff,
      lowercase_eq_letter_iff]

theorem isUppercaseHex_eq_false_iff {byte : UInt8} :
    isUppercaseHex byte = false ↔
      ¬(0x30 ≤ byte ∧ byte ≤ 0x39) ∧ ¬(0x41 ≤ byte ∧ byte ≤ 0x46) := by
  simp only [isUppercaseHex, Bool.or_eq_false_iff, Bool.and_eq_false_imp,
    decide_eq_true_eq, decide_eq_false_iff_not, not_and]

theorem breaks_scheme_iff :
    Breaks text .scheme ↔ startsWithScheme text = false := by
  rw [Breaks, ← startsWithScheme_iff_hasScheme, Bool.not_eq_true]

theorem breaks_notUppercaseHex_iff :
    Breaks text .notUppercaseHex ↔
      (text.drop 3).all isUppercaseHex = false := by
  simp only [Breaks, List.all_eq_false, Bool.not_eq_true,
    isUppercaseHex_eq_false_iff]

/-! ## One rule after the other -/

private theorem decode_of_tooShort (broken : Breaks text .tooShort) :
    decode text = .error .tooShort := by
  rw [decode, if_pos (show text.length < leastLength from broken)]

private theorem decode_of_scheme (long : ¬Breaks text .tooShort)
    (broken : Breaks text .scheme) : decode text = .error .scheme := by
  rw [decode, if_neg (show ¬text.length < leastLength from long),
    if_pos (breaks_scheme_iff.mp broken)]

private theorem decode_of_notUppercaseHex (long : ¬Breaks text .tooShort)
    (start : ¬Breaks text .scheme) (broken : Breaks text .notUppercaseHex) :
    decode text = .error .notUppercaseHex := by
  rw [decode, if_neg (show ¬text.length < leastLength from long),
    if_neg (mt breaks_scheme_iff.mpr start),
    if_pos (breaks_notUppercaseHex_iff.mp broken)]

/-- A text that obeys the first three rules is judged by its digits. -/
theorem decode_eq_decodeDigits (long : ¬Breaks text .tooShort)
    (start : ¬Breaks text .scheme) (upper : ¬Breaks text .notUppercaseHex) :
    decode text = decodeDigits (text.drop 3) := by
  rw [decode, if_neg (show ¬text.length < leastLength from long),
    if_neg (mt breaks_scheme_iff.mpr start),
    if_neg (mt breaks_notUppercaseHex_iff.mpr upper)]

private theorem two_le_length_drop (long : ¬Breaks text .tooShort) :
    2 ≤ (text.drop 3).length := by
  rw [Breaks] at long
  rw [List.length_drop]
  omega

private theorem decodeDigits_of_odd (long : 2 ≤ digits.length)
    (odd : digits.length % 2 = 1) :
    decodeDigits digits = .error .oddHexDigits := by
  rw [decodeDigits, if_pos]
  rw [List.length_take]
  omega

/-- Digits that obey the first four rules are those of a payload and a
checksum. -/
theorem exists_digits (long : ¬Breaks text .tooShort)
    (upper : ¬Breaks text .notUppercaseHex)
    (even : ¬Breaks text .oddHexDigits) :
    ∃ payload checksum,
      Hex.encode .upper (payload ++ [checksum]) = text.drop 3 := by
  refine exists_encode_concat_eq (two_le_length_drop long) ?_ ?_
  · rwa [breaks_notUppercaseHex_iff, Bool.not_eq_false] at upper
  · rw [Breaks] at even
    omega

theorem breaks_checksumMismatch_iff {checksum : UInt8}
    (spelled : Hex.encode .upper (payload ++ [checksum]) = text.drop 3) :
    Breaks text .checksumMismatch ↔ Checksum.crc8 payload ≠ checksum := by
  have digits (payload : List UInt8) (checksum : UInt8) :
      Hex.encode .upper payload ++ Hex.encodeByte .upper checksum =
        Hex.encode .upper (payload ++ [checksum]) := by
    rw [Hex.encode_append]
    rfl
  simp only [Breaks, digits, ← spelled]
  constructor
  · rintro ⟨other, last, same, mismatch⟩
    obtain ⟨rfl, isLast⟩ := List.append_inj' (Hex.encode_injective same) rfl
    obtain rfl := List.singleton_inj.mp isLast
    exact mismatch
  · exact fun mismatch => ⟨payload, checksum, rfl, mismatch⟩

/-- A text that obeys the first four rules is judged by its checksum. -/
theorem decode_of_spelled {checksum : UInt8} (long : ¬Breaks text .tooShort)
    (start : ¬Breaks text .scheme) (upper : ¬Breaks text .notUppercaseHex)
    (spelled : Hex.encode .upper (payload ++ [checksum]) = text.drop 3) :
    decode text =
      if Checksum.crc8 payload = checksum then .ok payload
      else .error .checksumMismatch := by
  rw [decode_eq_decodeDigits long start upper, ← spelled, decodeDigits_encode]

/-! ## The verdict -/

private theorem decode_of_firstBroken (first : FirstBroken text fault) :
    decode text = .error fault := by
  obtain ⟨broken, obeyed⟩ := first
  cases fault with
  | tooShort => exact decode_of_tooShort broken
  | scheme => exact decode_of_scheme (obeyed _ (by decide)) broken
  | notUppercaseHex =>
    exact decode_of_notUppercaseHex (obeyed _ (by decide))
      (obeyed _ (by decide)) broken
  | oddHexDigits =>
    have long := obeyed .tooShort (by decide)
    rw [decode_eq_decodeDigits long (obeyed _ (by decide))
      (obeyed _ (by decide)),
      decodeDigits_of_odd (two_le_length_drop long) broken]
  | checksumMismatch =>
    have long := obeyed .tooShort (by decide)
    have upper := obeyed .notUppercaseHex (by decide)
    obtain ⟨payload, checksum, spelled⟩ :=
      exists_digits long upper (obeyed _ (by decide))
    rw [decode_of_spelled long (obeyed _ (by decide)) upper spelled,
      if_neg ((breaks_checksumMismatch_iff spelled).mp broken)]

private theorem exists_decode_of_obeyed (obeyed : ∀ rule, ¬Breaks text rule) :
    ∃ payload, decode text = .ok payload := by
  obtain ⟨payload, checksum, spelled⟩ :=
    exists_digits (obeyed _) (obeyed _) (obeyed _)
  have same := mt (breaks_checksumMismatch_iff spelled).mpr (obeyed _)
  rw [not_not] at same
  exact ⟨payload, by
    rw [decode_of_spelled (obeyed _) (obeyed _) (obeyed _) spelled,
      if_pos same]⟩

/-- Of the rules that a text breaks, one is checked first. -/
theorem exists_firstBroken {rule : IdentityFault} (broken : Breaks text rule) :
    ∃ fault, FirstBroken text fault := by
  by_contra noFirst
  have obeyed (fault : IdentityFault)
      (before : ∀ earlier ∈ ruleOrder.takeWhile (· ≠ fault),
        ¬Breaks text earlier) : ¬Breaks text fault :=
    fun broken => noFirst ⟨fault, broken, before⟩
  -- Each rule is obeyed because those before it are.
  have long := obeyed .tooShort (by simp [ruleOrder])
  have start := obeyed .scheme (by simp [ruleOrder, long])
  have upper := obeyed .notUppercaseHex (by simp [ruleOrder, long, start])
  have even := obeyed .oddHexDigits (by simp [ruleOrder, long, start, upper])
  have same := obeyed .checksumMismatch
    (by simp [ruleOrder, long, start, upper, even])
  cases rule <;> contradiction

theorem decode_eq_error_iff :
    decode text = .error fault ↔ FirstBroken text fault := by
  refine ⟨fun rejected => ?_, decode_of_firstBroken⟩
  by_cases broken : ∃ rule, Breaks text rule
  · obtain ⟨rule, broken⟩ := broken
    obtain ⟨first, isFirst⟩ := exists_firstBroken broken
    rw [decode_of_firstBroken isFirst] at rejected
    exact Except.error.inj rejected ▸ isFirst
  · obtain ⟨payload, accepted⟩ :=
      exists_decode_of_obeyed (not_exists.mp broken)
    rw [accepted] at rejected
    cases rejected

theorem exists_decode_iff :
    (∃ payload, decode text = .ok payload) ↔ ∀ rule, ¬Breaks text rule := by
  refine ⟨fun ⟨payload, accepted⟩ rule broken => ?_, exists_decode_of_obeyed⟩
  obtain ⟨first, isFirst⟩ := exists_firstBroken broken
  rw [decode_of_firstBroken isFirst] at accepted
  cases accepted

/-! ## Every access checked -/

/-- What could stop a reading that is no fault of the text: an access outside
of it, or digits that do not spell the bytes that are read from them. -/
inductive Slip where
  | outOfRange
  | unreadable
  deriving DecidableEq, Repr

/-- The bytes from `start` to `stop`, both within the sequence. -/
def slice (bytes : List UInt8) (start stop : Nat) :
    Except Slip (List UInt8) :=
  if start ≤ stop ∧ stop ≤ bytes.length then
    .ok ((bytes.take stop).drop start)
  else
    .error .outOfRange

def byteAt (bytes : List UInt8) (place : Nat) : Except Slip UInt8 :=
  match bytes[place]? with
  | some byte => .ok byte
  | none => .error .outOfRange

/-- The place `count` bytes before the end. -/
def placeBeforeEnd (bytes : List UInt8) (count : Nat) : Except Slip Nat :=
  if count ≤ bytes.length then
    .ok (bytes.length - count)
  else
    .error .outOfRange

def spelledBytes (digits : List UInt8) : Except Slip (List UInt8) :=
  match Hex.decode digits with
  | .ok bytes => .ok bytes
  | .error _ => .error .unreadable

def spelledByte (digits : List UInt8) : Except Slip UInt8 :=
  match Hex.decode digits with
  | .ok [byte] => .ok byte
  | _ => .error .unreadable

/-- The payload of some digits, of which the last two are the checksum. -/
def decodeDigitsChecked (digits : List UInt8) :
    Except Slip (Except IdentityFault (List UInt8)) := do
  let place ← placeBeforeEnd digits 2
  let payloadDigits ← slice digits 0 place
  let checksumDigits ← slice digits place digits.length
  if payloadDigits.length % 2 ≠ 0 then
    return .error .oddHexDigits
  else
    let payload ← spelledBytes payloadDigits
    let checksum ← spelledByte checksumDigits
    if Checksum.crc8 payload = checksum then
      return .ok payload
    else
      return .error .checksumMismatch

/-- The payload of an identity text. -/
def decodeChecked (text : List UInt8) :
    Except Slip (Except IdentityFault (List UInt8)) :=
  if text.length < leastLength then
    return .error .tooShort
  else do
    let letters ← slice text 0 2
    let colon ← byteAt text 2
    if ¬(letters.map lowercase = [0x69, 0x63] ∧ colon = 0x3a) then
      return .error .scheme
    else
      let digits ← slice text 3 text.length
      if digits.all isUppercaseHex = false then
        return .error .notUppercaseHex
      else
        decodeDigitsChecked digits

theorem slice_eq_ok {bytes : List UInt8} {start stop : Nat}
    (ordered : start ≤ stop) (within : stop ≤ bytes.length) :
    slice bytes start stop = .ok ((bytes.take stop).drop start) :=
  if_pos ⟨ordered, within⟩

private theorem slice_to_end {bytes : List UInt8} {start : Nat}
    (within : start ≤ bytes.length) :
    slice bytes start bytes.length = .ok (bytes.drop start) := by
  rw [slice_eq_ok within (Nat.le_refl _), List.take_length]

private theorem spelledBytes_encode (bytes : List UInt8) :
    spelledBytes (Hex.encode .upper bytes) = .ok bytes := by
  rw [spelledBytes, Hex.decode_encode]

private theorem spelledByte_encode (byte : UInt8) :
    spelledByte (Hex.encode .upper [byte]) = .ok byte := by
  rw [spelledByte, Hex.decode_encode]

theorem decodeDigitsChecked_eq (long : 2 ≤ digits.length)
    (upper : digits.all isUppercaseHex = true) :
    decodeDigitsChecked digits = .ok (decodeDigits digits) := by
  have place : placeBeforeEnd digits 2 = .ok (digits.length - 2) :=
    if_pos long
  have front : slice digits 0 (digits.length - 2) =
      .ok (digits.take (digits.length - 2)) :=
    slice_eq_ok (Nat.zero_le _) (Nat.sub_le digits.length 2)
  have back := slice_to_end (Nat.sub_le digits.length 2)
  simp only [decodeDigitsChecked, place, front, back, bind, Except.bind]
  by_cases even : digits.length % 2 = 0
  · obtain ⟨payload, checksum, rfl⟩ :=
      exists_encode_concat_eq long upper even
    obtain ⟨payloadDigits, checksumDigits⟩ :=
      split_encode_concat payload checksum
    rw [decodeDigits_encode, payloadDigits, checksumDigits,
      if_neg (by rw [Hex.length_encode]; omega), spelledBytes_encode,
      spelledByte_encode]
    dsimp only
    split <;> rfl
  · have odd : (digits.take (digits.length - 2)).length % 2 ≠ 0 := by
      rw [List.length_take]
      omega
    rw [decodeDigits_of_odd long (by omega), if_pos odd]
    rfl

/-- Reading never makes a slip. -/
theorem decodeChecked_eq (text : List UInt8) :
    decodeChecked text = .ok (decode text) := by
  by_cases short : Breaks text .tooShort
  · rw [decode_of_tooShort short]
    exact if_pos short
  have atLeast : 5 ≤ text.length := Nat.le_of_not_lt short
  have letters : slice text 0 2 = .ok (text.take 2) :=
    slice_eq_ok (Nat.zero_le 2) (by omega)
  have digits : slice text 3 text.length = .ok (text.drop 3) :=
    slice_to_end (by omega)
  obtain ⟨colon, atColon⟩ : ∃ colon, text[2]? = some colon :=
    ⟨_, List.getElem?_eq_getElem (by omega)⟩
  have scheme :
      ¬((text.take 2).map lowercase = [0x69, 0x63] ∧ colon = 0x3a) ↔
        Breaks text .scheme := by
    rw [breaks_scheme_iff, ← Bool.not_eq_true, startsWithScheme_iff, atColon,
      Option.some_inj]
  rw [decodeChecked, if_neg (show ¬text.length < leastLength from short)]
  simp only [letters, digits, byteAt, atColon, bind, Except.bind]
  by_cases otherScheme : Breaks text .scheme
  · rw [decode_of_scheme short otherScheme, if_pos (scheme.mpr otherScheme)]
    rfl
  rw [if_neg (mt scheme.mp otherScheme)]
  by_cases otherDigits : Breaks text .notUppercaseHex
  · rw [decode_of_notUppercaseHex short otherScheme otherDigits,
      if_pos (breaks_notUppercaseHex_iff.mp otherDigits)]
    rfl
  have upper := mt breaks_notUppercaseHex_iff.mpr otherDigits
  rw [if_neg upper, decode_eq_decodeDigits short otherScheme otherDigits]
  exact decodeDigitsChecked_eq (two_le_length_drop short)
    (eq_true_of_ne_false upper)

/-! ## Buffers -/

/-- A rejected text in a buffer is reported before any space is asked for. -/
theorem toBlob_eq_error {heap : Heap} {source : Handle} {bytes : Bytes}
    (read : heap.blob source = .ok bytes)
    (rejected : decode bytes.toList = .error fault) :
    toBlob source heap = .error (.identity fault) heap := by
  rw [← decodeBytes_eq, Except.map_eq_error_iff] at rejected
  simp only [toBlob, HeapM.inspect, bind, EStateM.bind, read, rejected]
  rfl

/-! ## The first broken rule -/

/-- A text is rejected for the first rule that it breaks, and accepted if it
breaks none. Reading makes no slip on the way. In a buffer a text is rejected
for the same rule, and the heap is left as it is. -/
theorem decode_reports_first_broken :
    (∀ text fault, decode text = .error fault ↔ FirstBroken text fault) ∧
    (∀ text, (∃ payload, decode text = .ok payload) ↔
      ∀ rule, ¬Breaks text rule) ∧
    (∀ text, decodeChecked text = .ok (decode text)) ∧
    ∀ (heap : Heap) (source : Handle) (bytes : Bytes) (fault : IdentityFault),
      heap.blob source = .ok bytes → FirstBroken bytes.toList fault →
      toBlob source heap = .error (.identity fault) heap :=
  ⟨fun _ _ => decode_eq_error_iff, fun _ => exists_decode_iff,
    decodeChecked_eq,
    fun _ _ _ _ read first =>
      toBlob_eq_error read (decode_eq_error_iff.mpr first)⟩

/-- The text `id:abc` breaks three rules, and is rejected for its scheme. -/
theorem threeBroken_rejected :
    Breaks [0x69, 0x64, 0x3a, 0x61, 0x62, 0x63] .scheme ∧
    Breaks [0x69, 0x64, 0x3a, 0x61, 0x62, 0x63] .notUppercaseHex ∧
    Breaks [0x69, 0x64, 0x3a, 0x61, 0x62, 0x63] .oddHexDigits ∧
    decode [0x69, 0x64, 0x3a, 0x61, 0x62, 0x63] = .error .scheme ∧
    toBlob (.ofAddress 0x10000)
        ((Heap.empty {}).push
          (.blob (.ofList [0x69, 0x64, 0x3a, 0x61, 0x62, 0x63]))) =
      .error (.identity .scheme)
        ((Heap.empty {}).push
          (.blob (.ofList [0x69, 0x64, 0x3a, 0x61, 0x62, 0x63]))) := by
  obtain ⟨verdict, _, _, buffers⟩ := decode_reports_first_broken
  have scheme : Breaks [0x69, 0x64, 0x3a, 0x61, 0x62, 0x63] .scheme := by
    simp [Breaks, HasScheme]
  have first : FirstBroken [0x69, 0x64, 0x3a, 0x61, 0x62, 0x63] .scheme :=
    ⟨scheme, by simp [ruleOrder, Breaks]⟩
  have read : ((Heap.empty {}).push
      (.blob (.ofList [0x69, 0x64, 0x3a, 0x61, 0x62, 0x63]))).blob
        (.ofAddress 0x10000) =
      .ok (.ofList [0x69, 0x64, 0x3a, 0x61, 0x62, 0x63]) := by
    rw [Heap.blob_eq_ok_iff]
    decide +kernel
  refine ⟨scheme, ⟨0x61, by decide⟩, rfl, (verdict _ _).mpr first, ?_⟩
  refine buffers _ _ _ _ read ?_
  rwa [Bytes.toList_ofList]

end ManagedHeap.Identity
