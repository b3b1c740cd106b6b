import ManagedHeap.Proofs.CommandLine.Commands
import ManagedHeap.Proofs.Text.Hex

/-!
# Identity commands

What the commands on identity text write, and what they take from the heap: the
payload and its text, whichever of them is computed from the other
(`exchangeSize`). The two commands undo each other, but for the case of digits
and of the scheme.
-/

namespace ManagedHeap.CommandLine

open Utf8 (IsAscii characterOf)

variable {heap : Heap} {source : Handle} {bytes : Bytes}
  {payload : List UInt8} {text : String}

/-! ## Buffers -/

/-- Bytes that a payload of some length and its identity text take from the
heap. -/
def exchangeSize (length : Nat) : Nat :=
  wordSize * Object.blobWords length +
    wordSize * Object.blobWords (5 + 2 * length)

private theorem exchangeSize_pos (length : Nat) : 0 < exchangeSize length :=
  Nat.add_pos_left (Nat.mul_pos (by decide) (Nat.add_pos_left (by decide) _)) _

private theorem takes_ofBlob (read : heap.blob source = .ok bytes) :
    Takes (Identity.ofBlob source) heap
      (Object.blob (Identity.encodeBytes bytes)).fullSize
      fun handle after =>
        after.blob handle = .ok (Identity.encodeBytes bytes) :=
  Ensures.read read (takes_allocBlobFrom heap (Identity.encodeBytes bytes))

private theorem takes_toBlob
    {found : Bytes} (read : heap.blob source = .ok bytes)
    (accepted : Identity.decodeBytes bytes = .ok found) :
    Takes (Identity.toBlob source) heap (Object.blob found).fullSize
      fun handle after => after.blob handle = .ok found := by
  apply Ensures.read read
  rw [accepted]
  exact takes_allocBlobFrom heap found

private theorem concludes_toBlob_refused {α : Type} {fault : IdentityFault}
    {next : Handle → CommandM α} (read : heap.blob source = .ok bytes)
    (refused : Identity.decodeBytes bytes = .error fault) :
    Concludes (CommandM.perform (Identity.toBlob source) >>= next) heap
      (.error (.trapped (.identity fault))) 0 := by
  have performed : Identity.toBlob source heap =
      .error (.identity fault) heap := by
    simp only [Identity.toBlob, bind, EStateM.bind, HeapM.inspect, read,
      refused]
    rfl
  simp only [Concludes, bind, EStateM.bind, CommandM.perform,
    EStateM.adaptExcept, performed]
  exact Or.inl ⟨trivial, not_lacks_zero heap⟩

private theorem concludes_bytesOf (change : List UInt8 → String)
    (read : heap.blob source = .ok bytes) :
    Concludes (change <$> bytesOf source) heap
      (.ok (change bytes.toList)) 0 := by
  have readList : (heap.blob source).map Bytes.toList = .ok bytes.toList := by
    rw [read]
    rfl
  exact concludes_inspect change readList

/-! ## Commands -/

theorem size_encodeBytes (payload : List UInt8) :
    (Identity.encodeBytes (.ofList payload)).size = 5 + 2 * payload.length := by
  rw [← Bytes.length_toList, Identity.toList_encodeBytes, Bytes.toList_ofList,
    Identity.encode_eq, List.length_append, Hex.length_encode]
  simp [Identity.scheme]
  omega

private theorem fullSize_blob_ofList (bytes : List UInt8) :
    (Object.blob (.ofList bytes)).fullSize =
      wordSize * Object.blobWords bytes.length := by
  rw [← Bytes.size_ofList]
  rfl

/-- A text that spells a payload is written as the payload's identity text. -/
theorem concludes_encode
    (spelled : Hex.decode (Utf8.encode text) = .ok payload) (heap : Heap) :
    Concludes (execute (.encode text)) heap
      (.ok (Utf8.decode (Identity.encode payload)))
      (exchangeSize payload.length) := by
  have size : exchangeSize payload.length =
      (Object.blob (.ofList payload)).fullSize +
        ((Object.blob
          (Identity.encodeBytes (.ofList payload))).fullSize + 0) := by
    rw [exchangeSize, fullSize_blob_ofList, ← size_encodeBytes]
    rfl
  have read : readHex text = pure payload := by
    rw [readHex, spelled]
  rw [size, execute, read, pure_bind]
  apply (takes_allocBlobFrom heap (.ofList payload)).concludes
  intro blob middle found
  apply (takes_ofBlob found).concludes
  intro written after foundText
  have concludes := concludes_bytesOf Utf8.decode foundText
  rwa [Identity.toList_encodeBytes, Bytes.toList_ofList] at concludes

/-- A text that spells no payload is refused before anything is allocated. -/
theorem run_encode_refused {arguments : List String} {options : Options}
    (asked : Request.ofArguments arguments = .run options (.encode text))
    (unspelled : ¬IsHexText text) :
    ∃ reason, run arguments = .of (.error (.refused reason)) := by
  cases read : Hex.decode (Utf8.encode text) with
  | ok payload => exact absurd (Hex.isHexText_of_decode read) unspelled
  | error fault =>
    refine ⟨"invalid hex: " ++ hexMessage fault, ?_⟩
    have refused : readHex text =
        throw (.refused ("invalid hex: " ++ hexMessage fault)) := by
      rw [readHex, read]
    rw [run, asked, Request.respond, execute, refused]
    rfl

private theorem length_of_decode
    (accepted : Identity.decode (Utf8.encode text) = .ok payload) :
    (Utf8.encode text).length = 5 + 2 * payload.length := by
  obtain ⟨long, _, rest⟩ := Identity.decode_eq_ok_iff.mp accepted
  have lengths := congrArg List.length rest
  rw [Identity.encode_eq, List.length_drop, List.length_drop,
    List.length_append, Hex.length_encode, List.length_append] at lengths
  simp only [Identity.leastLength] at long
  simp only [Identity.scheme, List.length_cons, List.length_nil] at lengths
  omega

private theorem decodeBytes_ofList {decoded : Except IdentityFault (List UInt8)}
    (read : Identity.decode (Utf8.encode text) = decoded) :
    (Identity.decodeBytes (.ofList (Utf8.encode text))).map Bytes.toList =
      decoded := by
  rw [Identity.decodeBytes_eq, Bytes.toList_ofList, read]

/-- An identity text is written as the digits of its payload. -/
theorem concludes_decode
    (accepted : Identity.decode (Utf8.encode text) = .ok payload)
    (heap : Heap) :
    Concludes (execute (.decode text)) heap
      (.ok (Utf8.decode (Hex.encode .lower payload)))
      (exchangeSize payload.length) := by
  obtain ⟨found, isFound, isPayload⟩ :=
    Except.map_eq_ok_iff.mp (decodeBytes_ofList accepted)
  have size : exchangeSize payload.length =
      (Object.blob (.ofList (Utf8.encode text))).fullSize +
        ((Object.blob found).fullSize + 0) := by
    rw [exchangeSize, fullSize_blob_ofList, length_of_decode accepted,
      ← isPayload, Bytes.length_toList, Nat.add_comm]
    rfl
  rw [size, execute, Text.ofString]
  apply (takes_allocBlobFrom heap (.ofList (Utf8.encode text))).concludes
  intro blob middle foundText
  apply (takes_toBlob foundText isFound).concludes
  intro result after foundPayload
  have concludes := concludes_bytesOf
    (fun bytes => Utf8.decode (Hex.encode .lower bytes)) foundPayload
  rwa [isPayload] at concludes

private theorem concludes_decode_refused {fault : IdentityFault}
    (refused : Identity.decode (Utf8.encode text) = .error fault)
    (heap : Heap) :
    Concludes (execute (.decode text)) heap
      (.error (.trapped (.identity fault)))
      ((Object.blob (.ofList (Utf8.encode text))).fullSize + 0) := by
  have read := decodeBytes_ofList refused
  cases decoded : Identity.decodeBytes (.ofList (Utf8.encode text)) with
  | ok found =>
    rw [decoded] at read
    cases read
  | error other =>
    rw [decoded] at read
    cases read
    rw [execute, Text.ofString]
    apply (takes_allocBlobFrom heap (.ofList (Utf8.encode text))).concludes
    intro blob after foundText
    exact concludes_toBlob_refused foundText decoded

/-! ## Identity texts -/

theorem isAscii_encode (payload : List UInt8) :
    IsAscii (Identity.encode payload) := by
  rw [Identity.encode_eq]
  apply Utf8.isAscii_append_iff.mpr
  constructor
  · have small : Identity.scheme.all (· < 0x80) = true := by decide
    intro byte member
    exact of_decide_eq_true (List.all_eq_true.mp small byte member)
  · exact Hex.isAscii_encode .upper _

/-- An identity text has no bytes but those of its scheme and digits. -/
theorem not_mem_encode {byte : UInt8} (outsideScheme : byte ∉ Identity.scheme)
    (noDigit : Hex.value? byte = none) (payload : List UInt8) :
    byte ∉ Identity.encode payload := by
  intro member
  rw [Identity.encode_eq, List.mem_append] at member
  cases member with
  | inl inScheme => exact outsideScheme inScheme
  | inr inDigits =>
    have digit := Hex.valid_encode .upper _ _ inDigits
    rw [noDigit] at digit
    cases digit

private theorem newline_not_mem_encode (payload : List UInt8) :
    '\n' ∉ (Utf8.decode (Identity.encode payload)).toList := by
  intro member
  have newline : '\n' = characterOf 0x0a := rfl
  rw [newline, Utf8.mem_decode_iff (isAscii_encode payload)] at member
  exact not_mem_encode (by decide) (by decide) payload member

/-- Text without a hyphen is no option. -/
theorem startsWithHyphen_decode {bytes : List UInt8} (ascii : IsAscii bytes)
    (absent : 0x2d ∉ bytes) : startsWithHyphen (Utf8.decode bytes) = false := by
  rw [startsWithHyphen, beq_eq_false_iff_ne]
  intro first
  have hyphen : '-' = characterOf 0x2d := rfl
  have member := List.mem_of_head? first
  rw [hyphen, Utf8.mem_decode_iff ascii] at member
  exact absent member

private theorem startsWithHyphen_of_isHexText (hex : IsHexText text) :
    startsWithHyphen text = false := by
  rw [startsWithHyphen, beq_eq_false_iff_ne]
  intro first
  exact absurd (hex.2 _ (List.mem_of_head? first)) (by decide)

/-- An identity text with its scheme in lower case. -/
def lowercaseScheme (text : String) : String :=
  String.ofList
    ((text.toList.take 2).map Char.toLower ++ text.toList.drop 2)

private theorem isAscii_of_lowercase {bytes : List UInt8}
    (ascii : IsAscii ((bytes.take 2).map Identity.lowercase ++ bytes.drop 2)) :
    IsAscii bytes := by
  obtain ⟨inScheme, inDigits⟩ := Utf8.isAscii_append_iff.mp ascii
  rw [← List.take_append_drop 2 bytes]
  apply Utf8.isAscii_append_iff.mpr
  constructor
  · intro byte member
    have small : Identity.lowercase byte < 0x80 → byte < 0x80 := by
      refine byte_below byte byte.toNat_lt ?_
      decide +kernel
    exact small (inScheme _ (List.mem_map_of_mem member))
  · exact inDigits

private theorem lowercaseScheme_eq
    (accepted : Identity.decode (Utf8.encode text) = .ok payload) :
    lowercaseScheme text = Utf8.decode (Identity.encode payload) := by
  have written := Identity.encode_eq_of_decode_eq_ok accepted
  have ascii : IsAscii (Utf8.encode text) := by
    apply isAscii_of_lowercase
    rw [← written]
    exact isAscii_encode payload
  apply String.toList_injective
  rw [Utf8.toList_decode (isAscii_encode payload), written, lowercaseScheme,
    String.toList_ofList, Utf8.toList_eq_map_encode ascii, List.map_append,
    ← List.map_take, ← List.map_drop, List.map_map, List.map_map]
  congr 1
  apply List.map_congr_left
  intro byte member
  exact Hex.toLower_characterOf (ascii byte (List.mem_of_mem_take member))

/-! ## Runs -/

section Runs

variable {flags : List String} {options : Options}

theorem run_encode (sets : Sets {} flags options)
    (plain : startsWithHyphen text = false)
    (spelled : Hex.decode (Utf8.encode text) = .ok payload)
    (fits : ¬Exceeds (configOf options) (exchangeSize payload.length)) :
    run (flags ++ ["encode", text]) =
      ⟨0, Utf8.decode (Identity.encode payload) ++ "\n", ""⟩ := by
  have concludes := concludes_encode spelled (Heap.empty (configOf options))
  exact run_of_fits (ofArguments_encode sets plain) concludes
    (exchangeSize_pos payload.length) fits

theorem run_decode
    (asked : Request.ofArguments (flags ++ ["decode", text]) =
      .run options (.decode text))
    (accepted : Identity.decode (Utf8.encode text) = .ok payload)
    (fits : ¬Exceeds (configOf options) (exchangeSize payload.length)) :
    run (flags ++ ["decode", text]) =
      ⟨0, Utf8.decode (Hex.encode .lower payload) ++ "\n", ""⟩ := by
  have concludes := concludes_decode accepted (Heap.empty (configOf options))
  exact run_of_fits asked concludes (exchangeSize_pos payload.length) fits

/-- A run that decodes a text had room for its payload and wrote its digits. -/
theorem payload_of_run_decode {line : String}
    (asked : Request.ofArguments (flags ++ ["decode", text]) =
      .run options (.decode text))
    (succeeded : run (flags ++ ["decode", text]) = ⟨0, line ++ "\n", ""⟩) :
    ∃ payload, Identity.decode (Utf8.encode text) = .ok payload ∧
      line = Utf8.decode (Hex.encode .lower payload) ∧
      ¬Exceeds (configOf options) (exchangeSize payload.length) := by
  cases decoded : Identity.decode (Utf8.encode text) with
  | error fault =>
    have concludes :=
      concludes_decode_refused decoded (Heap.empty (configOf options))
    have outcome := run_of_concludes asked concludes (Object.fullSize_pos _)
    rw [succeeded] at outcome
    cases outcome with
    | inl refused => cases refused.1
    | inr exhausted =>
      obtain ⟨_, _, impossible, _⟩ := exhausted
      cases impossible
  | ok payload =>
    have concludes := concludes_decode decoded (Heap.empty (configOf options))
    have outcome := run_of_concludes asked concludes
      (exchangeSize_pos payload.length)
    rw [succeeded] at outcome
    cases outcome with
    | inl concluded =>
      obtain ⟨same, fits⟩ := concluded
      have lines := congrArg Result.output same
      exact ⟨payload, rfl, (String.append_left_inj _).mp lines, fits⟩
    | inr exhausted =>
      obtain ⟨_, _, impossible, _⟩ := exhausted
      cases impossible

/-- Digits that spell a payload are encoded to a text that decodes to them, in
lower case; other texts are refused; and what is decoded from a text encodes
to it, with its scheme in lower case. -/
theorem run_exchanges (sets : Sets {} flags options) :
    (∀ hex : String, IsHexText hex →
      ¬Exceeds (configOf options) (exchangeSize (hex.length / 2)) →
      ∃ text : String, '\n' ∉ text.toList ∧
        run (flags ++ ["encode", hex]) = ⟨0, text ++ "\n", ""⟩ ∧
        run (flags ++ ["decode", text]) = ⟨0, hex.toLower ++ "\n", ""⟩) ∧
    (∀ hex : String, ¬IsHexText hex → startsWithHyphen hex = false →
      (run (flags ++ ["encode", hex])).code = 1 ∧
        (run (flags ++ ["encode", hex])).output = "") ∧
    (∀ text hex : String,
      Request.ofArguments (flags ++ ["decode", text]) =
        .run options (.decode text) →
      run (flags ++ ["decode", text]) = ⟨0, hex ++ "\n", ""⟩ →
      run (flags ++ ["encode", hex]) =
        ⟨0, lowercaseScheme text ++ "\n", ""⟩) := by
  refine ⟨?_, ?_, ?_⟩
  · intro hex isHex fits
    obtain ⟨payload, spelled, lowered, length⟩ :=
      Hex.exists_bytes_of_isHexText isHex
    have ascii := isAscii_encode payload
    have half : hex.length / 2 = payload.length := by omega
    rw [half] at fits
    refine ⟨_, newline_not_mem_encode payload, ?_, ?_⟩
    · exact run_encode sets (startsWithHyphen_of_isHexText isHex) spelled fits
    · have asked := ofArguments_decode sets
        (startsWithHyphen_decode ascii
          (not_mem_encode (by decide) (by decide) payload))
      rw [← lowered]
      apply run_decode asked _ fits
      rw [Utf8.encode_decode ascii]
      exact Identity.decode_encode payload
  · intro hex notHex plain
    obtain ⟨reason, refused⟩ :=
      run_encode_refused (ofArguments_encode sets plain) notHex
    rw [refused]
    exact ⟨rfl, rfl⟩
  · intro text hex asked succeeded
    obtain ⟨payload, accepted, isLine, fits⟩ :=
      payload_of_run_decode asked succeeded
    have isHex : IsHexText hex := by
      rw [isLine]
      exact Hex.isHexText_decode_encode .lower payload
    rw [lowercaseScheme_eq accepted]
    apply run_encode sets (startsWithHyphen_of_isHexText isHex) _ fits
    rw [isLine, Utf8.encode_decode (Hex.isAscii_encode .lower payload)]
    exact Hex.decode_encode payload

end Runs

/-- Digits of both cases, a text of other letters, and an identity text with a
capital in its scheme. -/
theorem mixedCase_run_exchanges :
    Sets {} ["-v"] ⟨true, none⟩ ∧
    IsHexText "aBcD" ∧
    ¬Exceeds (configOf ⟨true, none⟩) (exchangeSize ("aBcD".length / 2)) ∧
    (∃ text : String, '\n' ∉ text.toList ∧
      run ["-v", "encode", "aBcD"] = ⟨0, text ++ "\n", ""⟩ ∧
      run ["-v", "decode", text] = ⟨0, "aBcD".toLower ++ "\n", ""⟩) ∧
    ¬IsHexText "xyz" ∧ startsWithHyphen "xyz" = false ∧
    ((run ["-v", "encode", "xyz"]).code = 1 ∧
      (run ["-v", "encode", "xyz"]).output = "") ∧
    Request.ofArguments ["-v", "decode", "iC:ABCDE2"] =
      .run ⟨true, none⟩ (.decode "iC:ABCDE2") ∧
    run ["-v", "decode", "iC:ABCDE2"] = ⟨0, "abcd" ++ "\n", ""⟩ ∧
    run ["-v", "encode", "abcd"] =
      ⟨0, lowercaseScheme "iC:ABCDE2" ++ "\n", ""⟩ := by
  have sets : Sets {} ["-v"] ⟨true, none⟩ := .verbose (Or.inl rfl) rfl .nothing
  have digits : IsHexText "aBcD" := by
    have all : "aBcD".toList.all (IsHexDigit ·) = true := by decide
    refine ⟨by decide, fun character member => ?_⟩
    exact of_decide_eq_true (List.all_eq_true.mp all character member)
  have fits :
      ¬Exceeds (configOf ⟨true, none⟩) (exchangeSize ("aBcD".length / 2)) := by
    unfold Exceeds
    decide +kernel
  have letters : ¬IsHexText "xyz" := fun hex => absurd hex.1 (by decide)
  have plain : startsWithHyphen "xyz" = false := by decide
  have asked : Request.ofArguments ["-v", "decode", "iC:ABCDE2"] =
      .run ⟨true, none⟩ (.decode "iC:ABCDE2") := by
    decide +kernel
  have decoded :
      run ["-v", "decode", "iC:ABCDE2"] = ⟨0, "abcd" ++ "\n", ""⟩ := by
    decide +kernel
  have exchanges := run_exchanges sets
  exact ⟨sets, digits, fits, exchanges.1 "aBcD" digits fits, letters, plain,
    exchanges.2.1 "xyz" letters plain, asked, decoded,
    exchanges.2.2 "iC:ABCDE2" "abcd" asked decoded⟩

end ManagedHeap.CommandLine
