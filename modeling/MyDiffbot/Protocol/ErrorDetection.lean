import MyDiffbot.Protocol.CrcPolynomial
import MyDiffbot.Protocol.Frame

/-!
# Errors on the wire

A frame arrives with some bits flipped, but for those of its start byte and its length byte, so that
the receiver still takes it for one frame. It is rejected unless the error is a codeword, where the
two checksum bytes are read high byte first although they travel low byte first. Up to three flipped
bits are always caught. Bursts of up to 16 bits are caught but for the twelve of
`undetectedBursts`, which reach from the payload into the checksum.
-/

namespace MyDiffbot.Protocol

open Polynomial Gf2

/-- A frame with the bits of a pattern flipped. -/
def corrupt (frame pattern : List Byte) : List Byte := List.zipWith (· ^^^ ·) frame pattern

/-- An error pattern for a frame with some payload. -/
structure ErrorPattern (payload : List Byte) where
  msgId : Byte
  payloadBytes : List Byte
  low : Byte
  high : Byte
  length_payloadBytes : payloadBytes.length = payload.length

namespace ErrorPattern

variable {payload : List Byte} (pattern : ErrorPattern payload)

/-- The bytes the checksum covers. -/
def body : List Byte := 0 :: pattern.msgId :: 0 :: pattern.payloadBytes

/-- The pattern in wire order. -/
def bytes : List Byte := pattern.body ++ [pattern.low, pattern.high]

/-- The pattern with its checksum bytes in the order of the code. -/
def codeBytes : List Byte := pattern.body ++ [pattern.high, pattern.low]

theorem length_codeBytes : pattern.codeBytes.length = 5 + payload.length := by
  simp only [codeBytes, body, List.length_append, List.length_cons, List.length_nil,
    pattern.length_payloadBytes]
  omega

/-- Every pattern of the frame's length that leaves the start byte and the length byte alone. -/
theorem exists_of_bytes {bytes : List Byte} (hlength : bytes.length = 5 + payload.length)
    (hstart : bytes.getD 0 0 = 0) (hlen : bytes.getD 2 0 = 0) :
    ∃ pattern : ErrorPattern payload, bytes = pattern.bytes := by
  obtain ⟨start, msgId, len, tail, rfl⟩ :
      ∃ start msgId len tail, bytes = start :: msgId :: len :: tail := by
    match bytes, hlength with
    | start :: msgId :: len :: tail, _ => exact ⟨start, msgId, len, tail, rfl⟩
    | [], h | [_], h | [_, _], h => simp only [List.length] at h; omega
  obtain rfl : start = 0 := hstart
  obtain rfl : len = 0 := hlen
  simp only [List.length_cons] at hlength
  obtain ⟨low, high, hdrop⟩ : ∃ low high, tail.drop payload.length = [low, high] := by
    have htwo : (tail.drop payload.length).length = 2 := by
      rw [List.length_drop]
      omega
    exact List.length_eq_two.mp htwo
  refine ⟨⟨msgId, tail.take payload.length, low, high, ?_⟩, ?_⟩
  · rw [List.length_take]
    omega
  · rw [ErrorPattern.bytes, body, List.cons_append, List.cons_append, List.cons_append,
      ← hdrop, List.take_append_drop]

theorem length_corrupt_payload :
    (corrupt payload pattern.payloadBytes).length = payload.length := by
  rw [corrupt, List.length_zipWith, pattern.length_payloadBytes, min_self]

/-- A corrupted frame is a candidate with corrupted fields. -/
theorem corrupt_buildFrame (msgId : Byte) (hpayload : payload.length ≤ 255) :
    corrupt (buildFrame msgId payload) pattern.bytes =
      shaped startByte (msgId ^^^ pattern.msgId) (corrupt payload pattern.payloadBytes)
        (lowByte (crc16Ccitt (frameBody msgId payload)) ^^^ pattern.low)
        (highByte (crc16Ccitt (frameBody msgId payload)) ^^^ pattern.high) [] := by
  have hframe := buildFrame_append_eq_shaped msgId hpayload []
  rw [List.append_nil] at hframe
  have htail : List.zipWith (· ^^^ ·)
      (payload ++ [lowByte (crc16Ccitt (frameBody msgId payload)),
        highByte (crc16Ccitt (frameBody msgId payload))])
      (pattern.payloadBytes ++ [pattern.low, pattern.high]) =
      List.zipWith (· ^^^ ·) payload pattern.payloadBytes ++
        [lowByte (crc16Ccitt (frameBody msgId payload)) ^^^ pattern.low,
          highByte (crc16Ccitt (frameBody msgId payload)) ^^^ pattern.high] :=
    List.zipWith_append pattern.length_payloadBytes.symm
  rw [hframe, corrupt, bytes, body, shaped, shaped, List.cons_append, List.cons_append,
    List.cons_append, List.zipWith_cons_cons, List.zipWith_cons_cons, List.zipWith_cons_cons, htail,
    pattern.length_corrupt_payload]
  simp [corrupt]

/-- The bytes the checksum covers, corrupted. -/
theorem corrupt_frameBody (msgId : Byte) (hpayload : payload.length ≤ 255) :
    corrupt (frameBody msgId payload) pattern.body =
      startByte :: (msgId ^^^ pattern.msgId) :: BitVec.ofNat 8 payload.length ::
        corrupt payload pattern.payloadBytes := by
  rw [frameBody_of_length_le msgId hpayload, corrupt, body, List.zipWith_cons_cons,
    List.zipWith_cons_cons, List.zipWith_cons_cons]
  simp [corrupt]

/-- The corrupted checksum matches the corrupted bytes if the error is a codeword. -/
theorem crcMatches_corrupt_iff (msgId : Byte) (hpayload : payload.length ≤ 255) :
    CrcMatches (corrupt (buildFrame msgId payload) pattern.bytes) ↔
      crcRemainder pattern.body = joinBytes pattern.low pattern.high := by
  have hlength := pattern.length_corrupt_payload
  have hbody : pattern.body.length = (frameBody msgId payload).length := by
    simp [body, frameBody_of_length_le msgId hpayload, pattern.length_payloadBytes]
  have hfields := pattern.corrupt_frameBody msgId hpayload
  rw [pattern.corrupt_buildFrame msgId hpayload, crcMatches_shaped_iff (by rwa [hlength]), hlength,
    ← hfields, corrupt, crc16Ccitt_zipWith_xor hbody, joinBytes_xor, joinBytes_lowByte_highByte,
    BitVec.xor_right_inj]

/-- A corrupted frame is delivered if the error is a codeword, and rejected otherwise. -/
theorem extractFrame_corrupt (msgId : Byte) (hpayload : payload.length ≤ 255) :
    extractFrame (corrupt (buildFrame msgId payload) pattern.bytes) = .ok
      (if crcRemainder pattern.body = joinBytes pattern.low pattern.high then
        (.ok ⟨msgId ^^^ pattern.msgId, corrupt payload pattern.payloadBytes⟩, [])
      else
        (.crcMismatch, (corrupt (buildFrame msgId payload) pattern.bytes).tail)) := by
  have hpayload' : (corrupt payload pattern.payloadBytes).length ≤ 255 := by
    rwa [pattern.length_corrupt_payload]
  have hmatches := pattern.crcMatches_corrupt_iff msgId hpayload
  rw [pattern.corrupt_buildFrame msgId hpayload] at hmatches ⊢
  have hshort : 5 + (corrupt payload pattern.payloadBytes).length + ([] : List Byte).length ≤
      kMaxRxBufferBytes := by
    rw [List.length_nil]
    unfold kMaxRxBufferBytes
    omega
  rw [extractFrame_shaped hpayload' hshort]
  simp only [hmatches]

/-- An error that is no codeword is caught. -/
theorem extractFrame_corrupt_of_not_dvd (msgId : Byte) (hpayload : payload.length ≤ 255)
    (hdvd : ¬crcModulus ∣ ofBits (wireBits pattern.codeBytes)) :
    extractFrame (corrupt (buildFrame msgId payload) pattern.bytes) =
      .ok (.crcMismatch, (corrupt (buildFrame msgId payload) pattern.bytes).tail) := by
  have hremainder := (crcRemainder_eq_joinBytes_iff pattern.body pattern.low pattern.high).not.mpr hdvd
  rw [pattern.extractFrame_corrupt msgId hpayload, if_neg hremainder]

/-- The order of the checksum bytes does not change how many bits are set. -/
theorem count_codeBytes :
    (wireBits pattern.codeBytes).count true = (wireBits pattern.bytes).count true := by
  have hperm : pattern.codeBytes.Perm pattern.bytes :=
    (List.Perm.swap pattern.low pattern.high []).append_left pattern.body
  exact (hperm.flatMap_right bitsOf).count_eq true

end ErrorPattern

/-! ## Few flipped bits -/

/-- Up to three flipped bits of a frame, none of them in its start byte or its length byte, are
always caught. -/
theorem extractFrame_few_flips (msgId : Byte) {payload pattern : List Byte}
    (hpayload : payload.length ≤ 255) (hlength : pattern.length = (buildFrame msgId payload).length)
    (hstart : pattern.getD 0 0 = 0) (hlen : pattern.getD 2 0 = 0)
    (hflips : ∃ byte ∈ pattern, byte ≠ 0) (hfew : (wireBits pattern).count true ≤ 3) :
    extractFrame (corrupt (buildFrame msgId payload) pattern) =
      .ok (.crcMismatch, (corrupt (buildFrame msgId payload) pattern).tail) := by
  rw [length_buildFrame msgId hpayload] at hlength
  obtain ⟨pattern, rfl⟩ := ErrorPattern.exists_of_bytes hlength hstart hlen
  refine pattern.extractFrame_corrupt_of_not_dvd msgId hpayload fun hdvd ↦ ?_
  have hcount := pattern.count_codeBytes
  have hpos : 0 < (wireBits pattern.codeBytes).count true := by
    rw [hcount]
    exact List.count_pos_iff.mpr (true_mem_wireBits_iff.mpr hflips)
  have hdegree : (ofBits (wireBits pattern.codeBytes)).degree < (2080 : ℕ) := by
    refine (degree_ofBits_lt _).trans_le ?_
    rw [length_wireBits, pattern.length_codeBytes]
    exact_mod_cast (by omega : 8 * (5 + payload.length) ≤ 2080)
  have hfour := four_le_card_support crcModulus_coeff_zero crcModulus_eval_one
    (fun d ↦ crcModulus_not_dvd) (ofBits_ne_zero (List.count_pos_iff.mp hpos)) hdegree hdvd
  rw [card_support_ofBits, hcount] at hfour
  omega

/-- A bit of the identifier, one of the payload and one of the checksum. -/
theorem extractFrame_few_flips_three :
    extractFrame (corrupt (buildFrame 0x10#8 [0x12#8, 0x34#8])
        [0x00#8, 0x10#8, 0x00#8, 0x00#8, 0x01#8, 0x00#8, 0x80#8]) =
      .ok (.crcMismatch, (corrupt (buildFrame 0x10#8 [0x12#8, 0x34#8])
        [0x00#8, 0x10#8, 0x00#8, 0x00#8, 0x01#8, 0x00#8, 0x80#8]).tail) :=
  extractFrame_few_flips 0x10#8 (by decide) (by decide) rfl rfl (by decide) (by decide)

/-! ## Bursts -/

/-- The ends of the bursts that are not caught: two bytes of the payload and the two of the
checksum, the low one first. -/
def undetectedBursts : List (List Byte) :=
  [[0x00#8, 0x01#8, 0x21#8, 0x10#8], [0x00#8, 0x02#8, 0x42#8, 0x20#8],
    [0x00#8, 0x03#8, 0x63#8, 0x30#8], [0x00#8, 0x04#8, 0x84#8, 0x40#8],
    [0x00#8, 0x05#8, 0xA5#8, 0x50#8], [0x00#8, 0x06#8, 0xC6#8, 0x60#8],
    [0x00#8, 0x07#8, 0xE7#8, 0x70#8], [0x00#8, 0x89#8, 0xA1#8, 0x00#8],
    [0x02#8, 0x35#8, 0x94#8, 0x00#8], [0x08#8, 0xC5#8, 0x40#8, 0x00#8],
    [0x11#8, 0x8A#8, 0x80#8, 0x00#8], [0x19#8, 0x4F#8, 0xC0#8, 0x00#8]]

/-- All but 16 bits lie before the first one or after the last one. -/
def Narrow (bytes : List Byte) : Prop :=
  (wireBits bytes).length ≤ (wireBits bytes).findIdx id + (wireBits bytes).reverse.findIdx id + 16

instance (bytes : List Byte) : Decidable (Narrow bytes) := inferInstanceAs (Decidable (_ ≤ _))

/-- The codewords that begin in the last byte of the payload. -/
theorem mem_undetectedBursts_of_low : ∀ byte : Byte,
    crcRemainder [0#8, byte] ≠ 0#16 →
    Narrow [0#8, byte, lowByte (crcRemainder [0#8, byte]), highByte (crcRemainder [0#8, byte])] →
    [0#8, byte, lowByte (crcRemainder [0#8, byte]), highByte (crcRemainder [0#8, byte])] ∈
      undetectedBursts := by
  decide +kernel

/-- The codewords that end in the low byte of the checksum. -/
theorem mem_undetectedBursts_of_high : ∀ low : Byte, low ≠ 0#8 →
    Narrow [highByte ((unshift crcTaps)^[16] (joinBytes low 0#8)),
      lowByte ((unshift crcTaps)^[16] (joinBytes low 0#8)), low, 0#8] →
    [highByte ((unshift crcTaps)^[16] (joinBytes low 0#8)),
      lowByte ((unshift crcTaps)^[16] (joinBytes low 0#8)), low, 0#8] ∈ undetectedBursts := by
  decide +kernel

/-- A narrow error of which the first byte and the last one are not zero does not exist. -/
theorem eq_zero_of_narrow {first second third last : Byte}
    (hnarrow : Narrow [first, second, third, last]) (hfirst : first ≠ 0#8) : last = 0#8 := by
  by_contra hlast
  have hbegin := Burst.findIdx_append_lt (true_mem_bitsOf_iff.mpr hfirst)
    (wireBits [second, third, last])
  have hend := Burst.findIdx_append_lt (List.mem_reverse.mpr (true_mem_bitsOf_iff.mpr hlast))
    (wireBits [first, second, third]).reverse
  rw [← List.reverse_append, List.length_reverse, length_bitsOf] at hend
  rw [length_bitsOf] at hbegin
  have hlength : (wireBits [first, second, third, last]).length = 32 := length_wireBits _
  have hback : wireBits [first, second, third, last] =
      wireBits [first, second, third] ++ bitsOf last := by
    simp [wireBits]
  have hfront : wireBits [first, second, third, last] =
      bitsOf first ++ wireBits [second, third, last] := rfl
  unfold Narrow at hnarrow
  rw [hlength] at hnarrow
  rw [← hback] at hend
  rw [← hfront] at hbegin
  omega

/-- A codeword of four bytes that is a burst and reaches into the checksum is one of the twelve. -/
theorem mem_undetectedBursts {first second low high : Byte}
    (hcode : crcRemainder [first, second] = joinBytes low high)
    (hburst : Burst 16 (wireBits [first, second, low, high])) (hcrc : low ≠ 0#8 ∨ high ≠ 0#8) :
    [first, second, low, high] ∈ undetectedBursts := by
  have hnarrow : Narrow [first, second, low, high] := hburst.length_le
  have hlow : low = lowByte (crcRemainder [first, second]) := by rw [hcode, lowByte_joinBytes]
  have hhigh : high = highByte (crcRemainder [first, second]) := by rw [hcode, highByte_joinBytes]
  by_cases hfirst : first = 0#8
  · subst hfirst
    have hne : crcRemainder [0#8, second] ≠ 0#16 := by
      intro hzero
      rw [hzero] at hlow hhigh
      exact hcrc.elim (fun h ↦ h hlow) fun h ↦ h hhigh
    rw [hlow, hhigh] at hnarrow ⊢
    exact mem_undetectedBursts_of_low second hne hnarrow
  · obtain rfl := eq_zero_of_narrow hnarrow hfirst
    have hback : (unshift crcTaps)^[16] (joinBytes low 0#8) = joinBytes second first := by
      rw [← hcode, crcRemainder_two, iterate_unshift_shift (by decide)]
    have hmem := mem_undetectedBursts_of_high low (hcrc.elim id fun h ↦ absurd rfl h)
    rw [hback, lowByte_joinBytes, highByte_joinBytes] at hmem
    exact hmem hnarrow

theorem crcRemainder_of_mem_undetectedBursts : ∀ last ∈ undetectedBursts,
    crcRemainder (last.take 2) = joinBytes (last.getD 2 0) (last.getD 3 0) := by
  decide +kernel

namespace ErrorPattern

variable {payload : List Byte} (pattern : ErrorPattern payload)

/-- The last two bytes that the checksum covers. -/
theorem exists_body_eq : ∃ front first second,
    front.length = payload.length + 1 ∧ pattern.body = front ++ [first, second] := by
  have hlength : pattern.body.length = payload.length + 3 := by
    simp [body, pattern.length_payloadBytes]
  have htwo : (pattern.body.drop (payload.length + 1)).length = 2 := by
    rw [List.length_drop]
    omega
  obtain ⟨first, second, hdrop⟩ := List.length_eq_two.mp htwo
  refine ⟨pattern.body.take (payload.length + 1), first, second, ?_, ?_⟩
  · rw [List.length_take]
    omega
  · rw [← hdrop, List.take_append_drop]

/-- A burst that is a codeword reaches into the checksum. -/
theorem crc_ne_zero_of_burst (hburst : Burst 16 (wireBits pattern.bytes))
    (hflips : true ∈ wireBits pattern.bytes)
    (hcode : crcRemainder pattern.body = joinBytes pattern.low pattern.high) :
    pattern.low ≠ 0#8 ∨ pattern.high ≠ 0#8 := by
  by_contra hzero
  obtain ⟨hlow, hhigh⟩ := not_or.mp hzero
  have hsame : pattern.body ++ [pattern.high, pattern.low] = pattern.bytes := by
    rw [bytes, not_not.mp hlow, not_not.mp hhigh]
  rw [crcRemainder_eq_joinBytes_iff, hsame] at hcode
  exact hburst.not_dvd hflips crcModulus_coeff_zero (le_of_eq crcModulus_degree.symm) hcode

/-- A burst that reaches into the checksum leaves all bytes zero but the last four. -/
theorem eq_replicate_of_burst (hburst : Burst 16 (wireBits pattern.bytes))
    (hcrc : pattern.low ≠ 0#8 ∨ pattern.high ≠ 0#8) {front : List Byte} {first second : Byte}
    (hbody : pattern.body = front ++ [first, second]) :
    front = List.replicate front.length 0#8 := by
  have hfront : wireBits pattern.bytes =
      wireBits front ++ wireBits [first, second, pattern.low, pattern.high] := by
    rw [← wireBits_append, bytes, hbody, List.append_assoc]
    rfl
  have hback : wireBits pattern.bytes =
      wireBits pattern.body ++ wireBits [pattern.low, pattern.high] := wireBits_append _ _
  have hlength : (wireBits pattern.bytes).length = 8 * front.length + 32 := by
    rw [hfront, List.length_append, length_wireBits, length_wireBits]
    rfl
  have hone : true ∈ (wireBits pattern.bytes).drop ((wireBits pattern.bytes).length - 16) := by
    have hbodyLength : (wireBits pattern.body).length = 8 * front.length + 32 - 16 := by
      rw [length_wireBits, hbody, List.length_append, List.length_cons, List.length_cons,
        List.length_nil]
      omega
    rw [hlength, hback, List.drop_left' hbodyLength, true_mem_wireBits_iff]
    simpa using hcrc
  have htake := hburst.take_eq_replicate hone (n := 8 * front.length) (by omega)
  rw [hfront, List.take_left' (length_wireBits front)] at htake
  refine List.eq_replicate_iff.mpr ⟨rfl, fun byte hbyte ↦ ?_⟩
  by_contra hne
  have hmem : true ∈ wireBits front := true_mem_wireBits_iff.mpr ⟨byte, hbyte, hne⟩
  rw [htake] at hmem
  simp at hmem

/-- A burst is a codeword exactly if it is one of the twelve at the end of the frame. -/
theorem crcRemainder_body_eq_iff (hburst : Burst 16 (wireBits pattern.bytes))
    (hflips : true ∈ wireBits pattern.bytes) :
    crcRemainder pattern.body = joinBytes pattern.low pattern.high ↔
      ∃ last ∈ undetectedBursts,
        pattern.bytes = List.replicate (pattern.bytes.length - 4) 0#8 ++ last := by
  obtain ⟨front, first, second, hfront, hbody⟩ := pattern.exists_body_eq
  have hbytes : pattern.bytes = front ++ [first, second, pattern.low, pattern.high] := by
    rw [bytes, hbody, List.append_assoc]
    rfl
  have hlength : pattern.bytes.length - 4 = front.length := by
    rw [hbytes, List.length_append]
    exact Nat.add_sub_cancel _ _
  rw [hlength]
  constructor
  · intro hcode
    have hcrc := pattern.crc_ne_zero_of_burst hburst hflips hcode
    have hzero := pattern.eq_replicate_of_burst hburst hcrc hbody
    have hlast := hburst.drop (8 * front.length)
    rw [hbytes, wireBits_append, List.drop_left' (length_wireBits front)] at hlast
    rw [hbody, hzero, crcRemainder_replicate_append] at hcode
    refine ⟨_, mem_undetectedBursts hcode hlast hcrc, ?_⟩
    rw [← hzero]
    exact hbytes
  · rintro ⟨last, hlast, hequal⟩
    obtain ⟨hzero, rfl⟩ := List.append_inj (hbytes.symm.trans hequal) List.length_replicate.symm
    rw [hbody, hzero, crcRemainder_replicate_append]
    exact crcRemainder_of_mem_undetectedBursts _ hlast

end ErrorPattern

/-- A burst of up to 16 bits that leaves the start byte and the length byte of a frame alone is
caught, unless it is one of the twelve at the end of the frame. -/
theorem extractFrame_burst_iff (msgId : Byte) {payload pattern : List Byte}
    (hpayload : payload.length ≤ 255) (hlength : pattern.length = (buildFrame msgId payload).length)
    (hstart : pattern.getD 0 0 = 0) (hlen : pattern.getD 2 0 = 0)
    (hflips : ∃ byte ∈ pattern, byte ≠ 0) (hburst : Burst 16 (wireBits pattern)) :
    extractFrame (corrupt (buildFrame msgId payload) pattern) =
        .ok (.crcMismatch, (corrupt (buildFrame msgId payload) pattern).tail) ↔
      ¬∃ last ∈ undetectedBursts, pattern = List.replicate (pattern.length - 4) 0 ++ last := by
  rw [length_buildFrame msgId hpayload] at hlength
  obtain ⟨pattern, rfl⟩ := ErrorPattern.exists_of_bytes hlength hstart hlen
  have hcode := pattern.crcRemainder_body_eq_iff hburst (true_mem_wireBits_iff.mpr hflips)
  rw [pattern.extractFrame_corrupt msgId hpayload]
  refine Iff.trans ?_ hcode.not
  by_cases hequal : crcRemainder pattern.body = joinBytes pattern.low pattern.high
  · simp [hequal]
  · simp [hequal]

/-- A burst over the whole payload. -/
theorem extractFrame_burst_payload :
    extractFrame (corrupt (buildFrame 0x10#8 [0x12#8, 0x34#8])
        [0x00#8, 0x00#8, 0x00#8, 0xFF#8, 0xFF#8, 0x00#8, 0x00#8]) =
        .ok (.crcMismatch, (corrupt (buildFrame 0x10#8 [0x12#8, 0x34#8])
          [0x00#8, 0x00#8, 0x00#8, 0xFF#8, 0xFF#8, 0x00#8, 0x00#8]).tail) ↔
      ¬∃ last ∈ undetectedBursts,
        [0x00#8, 0x00#8, 0x00#8, 0xFF#8, 0xFF#8, 0x00#8, 0x00#8] =
          List.replicate ([0x00#8, 0x00#8, 0x00#8, 0xFF#8, 0xFF#8, 0x00#8, 0x00#8].length - 4) 0 ++
            last :=
  extractFrame_burst_iff 0x10#8 (by decide) (by decide) rfl rfl (by decide)
    ⟨24, wireBits [0xFF#8, 0xFF#8], 16, by decide, by decide⟩

/-- A frame with one zero byte of payload is delivered as one with payload 0x89 if the burst 0x89A1
meets the end of its payload and the beginning of its checksum. -/
theorem not_extractFrame_burst :
    ¬∀ (msgId : Byte) (payload pattern : List Byte), payload.length ≤ 255 →
      pattern.length = (buildFrame msgId payload).length → pattern.getD 0 0 = 0 →
      pattern.getD 2 0 = 0 → (∃ byte ∈ pattern, byte ≠ 0) → Burst 16 (wireBits pattern) →
      ∃ rest, extractFrame (corrupt (buildFrame msgId payload) pattern) =
        .ok (.crcMismatch, rest) := by
  intro h
  obtain ⟨rest, hmismatch⟩ := h 0x10#8 [0x00#8]
    [0x00#8, 0x00#8, 0x00#8, 0x89#8, 0xA1#8, 0x00#8] (by decide) (by decide) rfl rfl (by decide)
    ⟨24, wireBits [0x89#8, 0xA1#8], 8, by decide, by decide⟩
  have hdelivered : extractFrame (corrupt (buildFrame 0x10#8 [0x00#8])
      [0x00#8, 0x00#8, 0x00#8, 0x89#8, 0xA1#8, 0x00#8]) = .ok (.ok ⟨0x10#8, [0x89#8]⟩, []) := by
    decide +kernel
  rw [hdelivered] at hmismatch
  cases hmismatch

end MyDiffbot.Protocol
