import MyDiffbot.Protocol.Crc16
import Mathlib.Data.List.Basic

/-!
# Frames of the binary protocol

`buildFrame` and `extractFrame` follow `binary_protocol.cpp`. Every access of `extractFrame` to
its buffer is a checked one, so an access past the end would be a fault of the model. None occurs:
`extractFrame_eq_ok` gives the same result as a function without checks, whatever the buffer
holds. The last section relates a candidate frame at the front of a buffer to `buildFrame`.
-/

namespace MyDiffbot.Protocol

/-- What must not happen: an access past the end of a vector, or a loop that never leaves. -/
inductive Fault
  | outOfRange
  | nonTermination
  deriving DecidableEq, Repr

abbrev Checked := Except Fault

/-- One frame as the hook `OnMessageReceived` sees it. -/
structure Message where
  msgId : Byte
  payload : List Byte
  deriving DecidableEq, Repr

def startByte : Byte := 0xAA#8

/-! ## Encoding -/

/-- The bytes the checksum covers. The length byte is the payload size cut to eight bits, and
only that many payload bytes are copied. -/
def frameBody (msgId : Byte) (payload : List Byte) : List Byte :=
  let payloadLen := BitVec.ofNat 8 payload.length
  [startByte, msgId, payloadLen] ++ payload.take payloadLen.toNat

/-- `BuildFrame`: `[0xAA][MSG_ID][LENGTH][PAYLOAD][CRC16-LE]`. -/
def buildFrame (msgId : Byte) (payload : List Byte) : List Byte :=
  let crc := crc16Ccitt (frameBody msgId payload)
  frameBody msgId payload ++ [lowByte crc, highByte crc]

def Message.encode (message : Message) : List Byte := buildFrame message.msgId message.payload

/-! ## Decoding -/

/-- `ExtractResult`; the out-parameters are written on `OK` only. -/
inductive ExtractResult
  | ok (message : Message)
  | incomplete
  | crcMismatch
  | noStartByte
  | overflow
  deriving DecidableEq, Repr

def kMaxRxBufferBytes : ℕ := 1024

/-- `buffer[i]`. -/
def readAt (buffer : List Byte) (i : ℕ) : Checked Byte :=
  match buffer[i]? with
  | some byte => .ok byte
  | none => .error .outOfRange

/-- The bytes from `buffer.begin() + first` up to `buffer.begin() + last`. -/
def readRange (buffer : List Byte) (first last : ℕ) : Checked (List Byte) :=
  if first ≤ last ∧ last ≤ buffer.length then .ok ((buffer.drop first).take (last - first))
  else .error .outOfRange

/-- `buffer.erase(buffer.begin(), buffer.begin() + count)`. -/
def eraseFront (buffer : List Byte) (count : ℕ) : Checked (List Byte) :=
  if count ≤ buffer.length then .ok (buffer.drop count) else .error .outOfRange

/-- The part of `ExtractFrame` after the garbage before 0xAA has been discarded. -/
def extractCandidate (buffer : List Byte) : Checked (ExtractResult × List Byte) := do
  if buffer.isEmpty then
    return (.noStartByte, buffer)
  if buffer.length < 3 then
    return (.incomplete, buffer)
  let payloadLen := (← readAt buffer 2).toNat
  let frameSz := 5 + payloadLen
  if buffer.length < frameSz then
    return (.incomplete, buffer)
  let calcCrc := crc16Ccitt (← readRange buffer 0 (3 + payloadLen))
  let recvCrc := joinBytes (← readAt buffer (3 + payloadLen)) (← readAt buffer (4 + payloadLen))
  if calcCrc ≠ recvCrc then
    return (.crcMismatch, ← eraseFront buffer 1)
  let outMsgId ← readAt buffer 1
  let outPayload ← readRange buffer 3 (3 + payloadLen)
  return (.ok ⟨outMsgId, outPayload⟩, ← eraseFront buffer frameSz)

/-- `ExtractFrame`: the outcome and the buffer it leaves. -/
def extractFrame (buffer : List Byte) : Checked (ExtractResult × List Byte) := do
  if buffer.length > kMaxRxBufferBytes then
    return (.overflow, [])
  -- The scan stops at the first 0xAA, or at the end of the buffer.
  let start := buffer.findIdx (· == startByte)
  extractCandidate (← eraseFront buffer start)

/-! ## Candidates -/

/-- The payload length a candidate at the front of the buffer announces in its third byte. -/
def announcedLen (buffer : List Byte) : ℕ := (buffer.getD 2 0).toNat

def frameSize (buffer : List Byte) : ℕ := 5 + announcedLen buffer

/-- Fewer than three bytes, or fewer than the candidate announces. -/
def Incomplete (buffer : List Byte) : Prop :=
  buffer.length < 3 ∨ buffer.length < frameSize buffer

instance (buffer : List Byte) : Decidable (Incomplete buffer) :=
  inferInstanceAs (Decidable (_ ∨ _))

/-- The checksum a candidate carries is the one of its header and payload. -/
def CrcMatches (buffer : List Byte) : Prop :=
  crc16Ccitt (buffer.take (3 + announcedLen buffer)) =
    joinBytes (buffer.getD (3 + announcedLen buffer) 0) (buffer.getD (4 + announcedLen buffer) 0)

instance (buffer : List Byte) : Decidable (CrcMatches buffer) :=
  inferInstanceAs (Decidable (_ = _))

/-- The frame a candidate decodes to. -/
def candidateMessage (buffer : List Byte) : Message :=
  ⟨buffer.getD 1 0, (buffer.drop 3).take (announcedLen buffer)⟩

/-- A frame decides three bytes and the size it announces. -/
theorem not_incomplete_iff {buffer : List Byte} :
    ¬Incomplete buffer ↔ frameSize buffer ≤ buffer.length := by
  unfold Incomplete frameSize
  omega

/-- What `extractFrame` does with a buffer whose front has been cleared of garbage. -/
def scanCandidate (buffer : List Byte) : ExtractResult × List Byte :=
  if buffer = [] then (.noStartByte, [])
  else if Incomplete buffer then (.incomplete, buffer)
  else if CrcMatches buffer then (.ok (candidateMessage buffer), buffer.drop (frameSize buffer))
  else (.crcMismatch, buffer.tail)

theorem readAt_eq_ok {buffer : List Byte} {i : ℕ} (hi : i < buffer.length) :
    readAt buffer i = .ok (buffer.getD i 0) := by
  simp [readAt, List.getElem?_eq_getElem hi]

theorem readRange_eq_ok (buffer : List Byte) {first last : ℕ} (horder : first ≤ last)
    (hlast : last ≤ buffer.length) :
    readRange buffer first last = .ok ((buffer.drop first).take (last - first)) :=
  if_pos ⟨horder, hlast⟩

theorem eraseFront_eq_ok {buffer : List Byte} {count : ℕ} (hcount : count ≤ buffer.length) :
    eraseFront buffer count = .ok (buffer.drop count) :=
  if_pos hcount

/-- Nothing before the first 0xAA survives the scan. -/
def dropGarbage (buffer : List Byte) : List Byte := buffer.dropWhile (· ≠ startByte)

theorem drop_findIdx_startByte (buffer : List Byte) :
    buffer.drop (buffer.findIdx (· == startByte)) = dropGarbage buffer := by
  have hpred : (fun byte : Byte ↦ byte == startByte) =
      fun byte ↦ !decide (byte ≠ startByte) := by
    funext byte
    by_cases h : byte = startByte <;> simp [h]
  rw [dropGarbage, List.dropWhile_eq_drop_findIdx_not, hpred]

theorem extractCandidate_eq_ok (buffer : List Byte) :
    extractCandidate buffer = .ok (scanCandidate buffer) := by
  unfold extractCandidate scanCandidate
  by_cases hempty : buffer = []
  · simp [hempty, pure, Except.pure]
  have hnotEmpty : buffer.isEmpty = false := by simpa using hempty
  simp only [hnotEmpty, hempty, if_false, Bool.false_eq_true]
  by_cases hshort : buffer.length < 3
  · simp [hshort, Incomplete, pure, Except.pure]
  simp only [hshort, if_false, readAt_eq_ok (by omega : 2 < buffer.length), bind, Except.bind]
  by_cases hsize : buffer.length < frameSize buffer
  · have hincomplete : Incomplete buffer := Or.inr hsize
    rw [if_pos hincomplete, if_pos (by exact hsize)]
    rfl
  have hcomplete : ¬Incomplete buffer := by
    rw [not_incomplete_iff]
    omega
  rw [if_neg hcomplete, if_neg (by exact hsize)]
  have hlen : 5 + (buffer.getD 2 0).toNat ≤ buffer.length := not_incomplete_iff.mp hcomplete
  have hbody := readRange_eq_ok buffer
    (Nat.zero_le (3 + (buffer.getD 2 0).toNat)) (by omega)
  have hpayload := readRange_eq_ok buffer
    (Nat.le_add_right 3 (buffer.getD 2 0).toNat) (by omega)
  simp only [hbody, hpayload, readAt_eq_ok (by omega : 3 + (buffer.getD 2 0).toNat < buffer.length),
    readAt_eq_ok (by omega : 4 + (buffer.getD 2 0).toNat < buffer.length),
    readAt_eq_ok (by omega : 1 < buffer.length),
    eraseFront_eq_ok (by omega : 1 ≤ buffer.length), eraseFront_eq_ok hlen,
    List.drop_zero, List.drop_one, Nat.sub_zero, Nat.add_sub_cancel_left]
  by_cases hcrc : CrcMatches buffer
  · rw [if_pos hcrc, if_neg (by exact not_not_intro hcrc)]
    rfl
  · rw [if_neg hcrc, if_pos (by exact hcrc)]
    rfl

/-- No access of `extractFrame` is out of range, on any buffer. -/
theorem extractFrame_eq_ok (buffer : List Byte) :
    extractFrame buffer = .ok
      (if kMaxRxBufferBytes < buffer.length then (.overflow, [])
        else scanCandidate (dropGarbage buffer)) := by
  unfold extractFrame
  by_cases hlen : kMaxRxBufferBytes < buffer.length
  · simp [hlen, pure, Except.pure]
  simp only [gt_iff_lt, hlen, if_false]
  rw [eraseFront_eq_ok List.findIdx_le_length, drop_findIdx_startByte]
  exact extractCandidate_eq_ok _

/-! ## Candidates and encodings

A complete candidate is its first byte, an identifier, a length, that many payload bytes and two
checksum bytes; `shaped` writes it out. -/

/-- A candidate with every field written out, whatever its first byte and checksum. -/
def shaped (first msgId : Byte) (payload : List Byte) (low high : Byte) (rest : List Byte) :
    List Byte :=
  first :: msgId :: BitVec.ofNat 8 payload.length :: (payload ++ low :: high :: rest)

theorem toNat_ofNat_length {payload : List Byte} (hpayload : payload.length ≤ 255) :
    (BitVec.ofNat 8 payload.length).toNat = payload.length := by
  rw [BitVec.toNat_ofNat, Nat.mod_eq_of_lt (by omega)]

section shaped

variable {first msgId low high : Byte} {payload rest : List Byte}

theorem announcedLen_shaped (hpayload : payload.length ≤ 255) :
    announcedLen (shaped first msgId payload low high rest) = payload.length :=
  toNat_ofNat_length hpayload

theorem frameSize_shaped (hpayload : payload.length ≤ 255) :
    frameSize (shaped first msgId payload low high rest) = 5 + payload.length := by
  rw [frameSize, announcedLen_shaped hpayload]

theorem length_shaped :
    (shaped first msgId payload low high rest).length = 5 + payload.length + rest.length := by
  simp only [shaped, List.length_cons, List.length_append]
  omega

theorem complete_shaped (hpayload : payload.length ≤ 255) :
    ¬Incomplete (shaped first msgId payload low high rest) := by
  rw [not_incomplete_iff, frameSize_shaped hpayload, length_shaped]
  omega

theorem candidateMessage_shaped (hpayload : payload.length ≤ 255) :
    candidateMessage (shaped first msgId payload low high rest) = ⟨msgId, payload⟩ := by
  rw [candidateMessage, announcedLen_shaped hpayload]
  simp [shaped]

theorem drop_frameSize_shaped (hpayload : payload.length ≤ 255) :
    (shaped first msgId payload low high rest).drop
      (frameSize (shaped first msgId payload low high rest)) = rest := by
  rw [frameSize_shaped hpayload, shaped, show 5 + payload.length = payload.length + 2 + 3 by omega]
  simp only [List.drop_succ_cons]
  simp [List.drop_append]

theorem crcMatches_shaped_iff (hpayload : payload.length ≤ 255) :
    CrcMatches (shaped first msgId payload low high rest) ↔
      crc16Ccitt (first :: msgId :: BitVec.ofNat 8 payload.length :: payload) =
        joinBytes low high := by
  rw [CrcMatches, announcedLen_shaped hpayload]
  have htake : (shaped first msgId payload low high rest).take (3 + payload.length) =
      first :: msgId :: BitVec.ofNat 8 payload.length :: payload := by
    rw [Nat.add_comm]
    simp [shaped]
  have hlow : (shaped first msgId payload low high rest).getD (3 + payload.length) 0 = low := by
    rw [Nat.add_comm]
    simp [shaped]
  have hhigh : (shaped first msgId payload low high rest).getD (4 + payload.length) 0 = high := by
    rw [show 4 + payload.length = payload.length + 1 + 3 by omega]
    simp [shaped]
  rw [htake, hlow, hhigh]

/-- A whole candidate below the overflow limit is delivered, or loses its first byte. -/
theorem extractFrame_shaped (hpayload : payload.length ≤ 255)
    (hlen : 5 + payload.length + rest.length ≤ kMaxRxBufferBytes) :
    extractFrame (shaped startByte msgId payload low high rest) = .ok
      (if CrcMatches (shaped startByte msgId payload low high rest) then
        (.ok ⟨msgId, payload⟩, rest)
      else (.crcMismatch, (shaped startByte msgId payload low high rest).tail)) := by
  have hstart : dropGarbage (shaped startByte msgId payload low high rest) =
      shaped startByte msgId payload low high rest := by
    simp [dropGarbage, shaped]
  have hne : shaped startByte msgId payload low high rest ≠ [] := List.cons_ne_nil _ _
  rw [extractFrame_eq_ok, length_shaped, if_neg (Nat.not_lt.mpr hlen), hstart, scanCandidate,
    if_neg hne, if_neg (complete_shaped hpayload), candidateMessage_shaped hpayload,
    drop_frameSize_shaped hpayload]

end shaped

/-- Every complete candidate has the shape its length byte announces. -/
theorem exists_shaped {buffer : List Byte} (hcomplete : ¬Incomplete buffer) :
    ∃ first msgId payload low high rest,
      payload.length ≤ 255 ∧ buffer = shaped first msgId payload low high rest := by
  rw [not_incomplete_iff] at hcomplete
  obtain ⟨first, msgId, len, tail, rfl⟩ :
      ∃ first msgId len tail, buffer = first :: msgId :: len :: tail := by
    match buffer, hcomplete with
    | first :: msgId :: len :: tail, _ => exact ⟨first, msgId, len, tail, rfl⟩
    | [], h | [_], h | [_, _], h => simp only [frameSize, List.length] at h; omega
  have htail : len.toNat + 2 ≤ tail.length := by
    have hsize : frameSize (first :: msgId :: len :: tail) = 5 + len.toNat := rfl
    simp only [hsize, List.length_cons] at hcomplete
    omega
  have hlen : (tail.take len.toNat).length = len.toNat := by
    rw [List.length_take]
    omega
  obtain ⟨low, high, rest, hrest⟩ :
      ∃ low high rest, tail.drop len.toNat = low :: high :: rest := by
    have hdrop : 2 ≤ (tail.drop len.toNat).length := by
      rw [List.length_drop]
      omega
    match tail.drop len.toNat, hdrop with
    | low :: high :: rest, _ => exact ⟨low, high, rest, rfl⟩
    | [], h | [_], h => simp at h
  refine ⟨first, msgId, tail.take len.toNat, low, high, rest, ?_, ?_⟩
  · have hbyte := len.isLt
    omega
  · rw [shaped, hlen, ← hrest, List.take_append_drop, BitVec.ofNat_toNat, BitVec.setWidth_eq]

theorem frameBody_of_length_le (msgId : Byte) {payload : List Byte}
    (hpayload : payload.length ≤ 255) :
    frameBody msgId payload =
      startByte :: msgId :: BitVec.ofNat 8 payload.length :: payload := by
  simp [frameBody, toNat_ofNat_length hpayload]

/-- An encoding is a candidate whose first byte is 0xAA and whose checksum is the computed one. -/
theorem buildFrame_append_eq_shaped (msgId : Byte) {payload : List Byte}
    (hpayload : payload.length ≤ 255) (rest : List Byte) :
    buildFrame msgId payload ++ rest =
      shaped startByte msgId payload (lowByte (crc16Ccitt (frameBody msgId payload)))
        (highByte (crc16Ccitt (frameBody msgId payload))) rest := by
  simp [buildFrame, shaped, frameBody_of_length_le msgId hpayload]

theorem length_buildFrame (msgId : Byte) {payload : List Byte} (hpayload : payload.length ≤ 255) :
    (buildFrame msgId payload).length = 5 + payload.length := by
  have h := congrArg List.length (buildFrame_append_eq_shaped msgId hpayload [])
  simpa [length_shaped] using h

theorem crcMatches_buildFrame (msgId : Byte) {payload : List Byte}
    (hpayload : payload.length ≤ 255) (rest : List Byte) :
    CrcMatches (buildFrame msgId payload ++ rest) := by
  rw [buildFrame_append_eq_shaped msgId hpayload, crcMatches_shaped_iff hpayload,
    joinBytes_lowByte_highByte, frameBody_of_length_le msgId hpayload]

/-- Re-encoding a frame that a candidate decodes to gives back the bytes consumed. -/
theorem encode_candidateMessage {buffer : List Byte} (hstart : buffer.head? = some startByte)
    (hcomplete : ¬Incomplete buffer) (hcrc : CrcMatches buffer) :
    (candidateMessage buffer).payload.length ≤ 255 ∧
      buffer = (candidateMessage buffer).encode ++ buffer.drop (frameSize buffer) := by
  obtain ⟨first, msgId, payload, low, high, rest, hpayload, rfl⟩ := exists_shaped hcomplete
  obtain rfl : first = startByte := by simpa [shaped] using hstart
  rw [crcMatches_shaped_iff hpayload, ← frameBody_of_length_le msgId hpayload] at hcrc
  rw [candidateMessage_shaped hpayload, drop_frameSize_shaped hpayload]
  refine ⟨hpayload, ?_⟩
  rw [Message.encode, buildFrame_append_eq_shaped msgId hpayload, hcrc, lowByte_joinBytes,
    highByte_joinBytes]

end MyDiffbot.Protocol
