import MyDiffbot.Protocol.Frame
import MyDiffbot.Incremental.Scanner
import Mathlib.Algebra.Order.Ring.Nat

/-!
# The reference parse of a byte stream

One left-to-right parse of a whole stream, stated on its own terms: bytes before 0xAA are dropped,
a complete candidate is taken when its checksum matches, 0xAA alone is dropped when it does not,
and the parse stops at the first incomplete candidate. It is an incremental scanner, so it may be
interrupted anywhere. Its events account for every byte of the stream (`emits_account`), and it
finds a frame again after arbitrary noise (`emits_noise`).
-/

namespace MyDiffbot.Protocol

open Incremental

/-- The four ways a byte leaves the stream; a frame takes its whole encoding with it. -/
inductive RxEvent
  | skipped (byte : Byte)
  | rejected
  | frame (message : Message)
  deriving DecidableEq, Repr

/-- The bytes an event removes. -/
def RxEvent.span : RxEvent → List Byte
  | .skipped byte => [byte]
  | .rejected => [startByte]
  | .frame message => message.encode

def RxEvent.message? : RxEvent → Option Message
  | .frame message => some message
  | _ => none

/-- One decision at the front of the stream. -/
def referenceStep (buffer : List Byte) : Option (RxEvent × List Byte) :=
  match buffer with
  | [] => none
  | byte :: rest =>
    if byte ≠ startByte then some (.skipped byte, rest)
    else if Incomplete buffer then none
    else if CrcMatches buffer then
      some (.frame (candidateMessage buffer), buffer.drop (frameSize buffer))
    else some (.rejected, rest)

section step

variable {byte : Byte} {buffer rest more : List Byte}

theorem referenceStep_skipped (hbyte : byte ≠ startByte) (rest : List Byte) :
    referenceStep (byte :: rest) = some (.skipped byte, rest) := by
  simp only [referenceStep, if_pos hbyte]

theorem referenceStep_incomplete (hincomplete : Incomplete (startByte :: rest)) :
    referenceStep (startByte :: rest) = none := by
  simp only [referenceStep, ne_eq, not_true_eq_false, if_false, if_pos hincomplete]

theorem referenceStep_frame (hcomplete : ¬Incomplete (startByte :: rest))
    (hcrc : CrcMatches (startByte :: rest)) :
    referenceStep (startByte :: rest) =
      some (.frame (candidateMessage (startByte :: rest)),
        (startByte :: rest).drop (frameSize (startByte :: rest))) := by
  simp only [referenceStep, ne_eq, not_true_eq_false, if_false, if_neg hcomplete, if_pos hcrc]

theorem referenceStep_rejected (hcomplete : ¬Incomplete (startByte :: rest))
    (hcrc : ¬CrcMatches (startByte :: rest)) :
    referenceStep (startByte :: rest) = some (.rejected, rest) := by
  simp only [referenceStep, ne_eq, not_true_eq_false, if_false, if_neg hcomplete, if_neg hcrc]

/-- Everything a step can do, with the tests that lead there. -/
theorem referenceStep_cases {event : RxEvent} (h : referenceStep buffer = some (event, rest)) :
    (∃ byte, byte ≠ startByte ∧ buffer = byte :: rest ∧ event = .skipped byte) ∨
    (buffer.head? = some startByte ∧ ¬Incomplete buffer ∧ CrcMatches buffer ∧
      event = .frame (candidateMessage buffer) ∧ rest = buffer.drop (frameSize buffer)) ∨
    (buffer = startByte :: rest ∧ ¬Incomplete buffer ∧ ¬CrcMatches buffer ∧
      event = .rejected) := by
  cases buffer with
  | nil => simp [referenceStep] at h
  | cons byte tail =>
    by_cases hbyte : byte = startByte
    · subst hbyte
      by_cases hincomplete : Incomplete (startByte :: tail)
      · rw [referenceStep_incomplete hincomplete] at h
        cases h
      · by_cases hcrc : CrcMatches (startByte :: tail)
        · rw [referenceStep_frame hincomplete hcrc] at h
          obtain ⟨rfl, rfl⟩ := Prod.mk.inj (Option.some.inj h)
          exact .inr (.inl ⟨rfl, hincomplete, hcrc, rfl, rfl⟩)
        · rw [referenceStep_rejected hincomplete hcrc] at h
          obtain ⟨rfl, rfl⟩ := Prod.mk.inj (Option.some.inj h)
          exact .inr (.inr ⟨rfl, hincomplete, hcrc, rfl⟩)
    · rw [referenceStep_skipped hbyte] at h
      obtain ⟨rfl, rfl⟩ := Prod.mk.inj (Option.some.inj h)
      exact .inl ⟨byte, hbyte, rfl, rfl⟩

/-- An event removes exactly its span; a frame is re-encoded to the bytes it came from. -/
theorem referenceStep_span {event : RxEvent} (h : referenceStep buffer = some (event, rest)) :
    buffer = event.span ++ rest := by
  rcases referenceStep_cases h with ⟨byte, _, rfl, rfl⟩ | ⟨hstart, hcomplete, hcrc, rfl, rfl⟩ |
    ⟨rfl, _, _, rfl⟩
  · rfl
  · exact (encode_candidateMessage hstart hcomplete hcrc).2
  · rfl

theorem referenceStep_shrinks {event : RxEvent} (h : referenceStep buffer = some (event, rest)) :
    rest.length < buffer.length := by
  rcases referenceStep_cases h with ⟨byte, _, rfl, _⟩ | ⟨_, hcomplete, _, _, rfl⟩ | ⟨rfl, _, _, _⟩
  · simp
  · rw [not_incomplete_iff] at hcomplete
    rw [List.length_drop]
    unfold frameSize at *
    omega
  · simp

/-- More input changes nothing about a candidate that is already complete. -/
theorem complete_append (hcomplete : ¬Incomplete buffer) (more : List Byte) :
    ¬Incomplete (buffer ++ more) ∧ (CrcMatches (buffer ++ more) ↔ CrcMatches buffer) ∧
      candidateMessage (buffer ++ more) = candidateMessage buffer ∧
      (buffer ++ more).drop (frameSize (buffer ++ more)) =
        buffer.drop (frameSize buffer) ++ more := by
  obtain ⟨first, msgId, payload, low, high, rest, hpayload, rfl⟩ := exists_shaped hcomplete
  have happend : shaped first msgId payload low high rest ++ more =
      shaped first msgId payload low high (rest ++ more) := by
    simp [shaped]
  rw [happend, crcMatches_shaped_iff hpayload, crcMatches_shaped_iff hpayload,
    candidateMessage_shaped hpayload, candidateMessage_shaped hpayload,
    drop_frameSize_shaped hpayload, drop_frameSize_shaped hpayload]
  exact ⟨complete_shaped hpayload, Iff.rfl, rfl, rfl⟩

theorem referenceStep_append {event : RxEvent} (more : List Byte)
    (h : referenceStep buffer = some (event, rest)) :
    referenceStep (buffer ++ more) = some (event, rest ++ more) := by
  rcases referenceStep_cases h with ⟨byte, hbyte, rfl, rfl⟩ |
    ⟨hstart, hcomplete, hcrc, rfl, rfl⟩ | ⟨rfl, hcomplete, hcrc, rfl⟩
  · exact referenceStep_skipped hbyte _
  · obtain ⟨hcomplete', hcrc', hmessage, hdrop⟩ := complete_append hcomplete more
    obtain ⟨tail, rfl⟩ : ∃ tail, buffer = startByte :: tail := by
      cases buffer with
      | nil => simp at hstart
      | cons byte tail => exact ⟨tail, by simpa using hstart⟩
    rw [← hmessage, ← hdrop]
    exact referenceStep_frame hcomplete' (hcrc'.mpr hcrc)
  · obtain ⟨hcomplete', hcrc', _, _⟩ := complete_append hcomplete more
    exact referenceStep_rejected hcomplete' (mt hcrc'.mp hcrc)

end step

/-- The reference parse as an incremental scanner. -/
def reference : Scanner Byte RxEvent where
  step := referenceStep
  step_shrinks := referenceStep_shrinks
  step_append := referenceStep_append

/-- The parse waits exactly on an empty buffer or on an incomplete candidate. -/
theorem reference_waits_iff {buffer : List Byte} :
    reference.Waits buffer ↔
      buffer = [] ∨ (buffer.head? = some startByte ∧ Incomplete buffer) := by
  change referenceStep buffer = none ↔ _
  cases buffer with
  | nil => simp [referenceStep]
  | cons byte rest =>
    by_cases hbyte : byte = startByte
    · subst hbyte
      by_cases hincomplete : Incomplete (startByte :: rest)
      · simp [referenceStep_incomplete hincomplete, hincomplete]
      · by_cases hcrc : CrcMatches (startByte :: rest)
        · simp [referenceStep_frame hincomplete hcrc, hincomplete]
        · simp [referenceStep_rejected hincomplete hcrc, hincomplete]
    · simp [referenceStep_skipped hbyte, hbyte]

/-- The length byte has eight bits, so an incomplete candidate is shorter than 260 bytes. -/
theorem Incomplete.length_lt {buffer : List Byte} (h : Incomplete buffer) :
    buffer.length < 260 := by
  have hbyte := (buffer.getD 2 0).isLt
  unfold Incomplete frameSize announcedLen at h
  omega

theorem length_lt_of_waits {buffer : List Byte} (h : reference.Waits buffer) :
    buffer.length < 260 := by
  rcases reference_waits_iff.mp h with rfl | ⟨_, hincomplete⟩
  · simp
  · exact hincomplete.length_lt

/-! ## Results of a parse -/

/-- The frames among the events, in order. -/
def messages (events : List RxEvent) : List Message := events.filterMap RxEvent.message?

/-- The number of candidates whose checksum did not match. -/
def rejections (events : List RxEvent) : ℕ := events.count .rejected

/-- The frames among the events, each with the position of its first byte. -/
def framesAt : ℕ → List RxEvent → List (ℕ × Message)
  | _, [] => []
  | cursor, event :: events =>
    (event.message?.map (cursor, ·)).toList ++ framesAt (cursor + event.span.length) events

theorem messages_cons (event : RxEvent) (events : List RxEvent) :
    messages (event :: events) = event.message?.toList ++ messages events := by
  cases event <;> rfl

theorem rejections_cons (event : RxEvent) (events : List RxEvent) :
    rejections (event :: events) = (if event = .rejected then 1 else 0) + rejections events := by
  rw [rejections, List.count_cons, Nat.add_comm]
  simp [rejections]

theorem framesAt_append (cursor : ℕ) (first second : List RxEvent) :
    framesAt cursor (first ++ second) =
      framesAt cursor first ++
        framesAt (cursor + (first.map RxEvent.span).flatten.length) second := by
  induction first generalizing cursor with
  | nil => simp [framesAt]
  | cons event first ih =>
    simp [framesAt, ih, Nat.add_assoc]

/-! ## Round trip -/

theorem referenceStep_encode {message : Message} (hpayload : message.payload.length ≤ 255)
    (rest : List Byte) :
    referenceStep (message.encode ++ rest) = some (.frame message, rest) := by
  have hshape := buildFrame_append_eq_shaped message.msgId hpayload rest
  have hcrc := crcMatches_buildFrame message.msgId hpayload rest
  have hmessage : candidateMessage (message.encode ++ rest) = message := by
    rw [Message.encode, hshape, candidateMessage_shaped hpayload]
  have hdrop : (message.encode ++ rest).drop (frameSize (message.encode ++ rest)) = rest := by
    rw [Message.encode, hshape, drop_frameSize_shaped hpayload]
  obtain ⟨tail, htail⟩ : ∃ tail, message.encode ++ rest = startByte :: tail :=
    ⟨_, hshape⟩
  rw [htail] at hmessage hdrop ⊢
  rw [referenceStep_frame, hmessage, hdrop]
  · rw [← htail, Message.encode, hshape]
    exact complete_shaped hpayload
  · rw [← htail]
    exact hcrc

/-- A stream of encodings parses to exactly the frames encoded, with nothing left. -/
theorem emits_encodings {sent : List Message} (hsent : ∀ message ∈ sent,
    message.payload.length ≤ 255) (rest : List Byte) :
    reference.Emits ((sent.map Message.encode).flatten ++ rest) (sent.map .frame) rest := by
  induction sent with
  | nil => exact .refl rest
  | cons message sent ih =>
    rw [List.map_cons, List.flatten_cons, List.append_assoc]
    exact .cons (referenceStep_encode (hsent message List.mem_cons_self) _)
      (ih fun later hlater ↦ hsent later (List.mem_cons_of_mem _ hlater))

theorem messages_map_frame (sent : List Message) : messages (sent.map .frame) = sent := by
  induction sent with
  | nil => rfl
  | cons message sent ih => rw [List.map_cons, messages, List.filterMap_cons]; exact congrArg _ ih

theorem rejections_map_frame (sent : List Message) : rejections (sent.map .frame) = 0 := by
  rw [rejections, List.count_eq_zero]
  simp

/-- Encodings that were cut anywhere parse to the frames that arrived whole, and a piece of the next
one is left. -/
theorem drain_of_cut_encodings {sent : List Message} {stream more : List Byte}
    (hsent : ∀ message ∈ sent, message.payload.length ≤ 255)
    (hcut : stream ++ more = (sent.map Message.encode).flatten) :
    ∃ arrived coming, sent = arrived ++ coming ∧
      (reference.drain stream).1 = arrived.map .frame ∧
      stream = (arrived.map Message.encode).flatten ++ (reference.drain stream).2 ∧
      ∀ message ∈ coming.head?, (reference.drain stream).2.length < message.encode.length := by
  have hfull : reference.drain (stream ++ more) = (sent.map .frame, []) := by
    have hencodings := emits_encodings hsent []
    rw [List.append_nil, ← hcut] at hencodings
    exact hencodings.eq_drain (reference_waits_iff.mpr (.inl rfl))
  rw [reference.drain_append] at hfull
  obtain ⟨arrived, coming, rfl, harrived, -⟩ :=
    List.map_eq_append_iff.mp (congrArg Prod.fst hfull).symm
  have hspans := (reference.emits_drain stream).spans referenceStep_span
  rw [← harrived, List.map_map] at hspans
  refine ⟨arrived, coming, rfl, harrived.symm, hspans, ?_⟩
  intro message hmessage
  obtain ⟨later, rfl⟩ := List.head?_eq_some_iff.mp hmessage
  have hrest : (reference.drain stream).2 ++ more =
      message.encode ++ (later.map Message.encode).flatten := by
    have hboth : (arrived.map Message.encode).flatten ++ ((reference.drain stream).2 ++ more) =
        (arrived.map Message.encode).flatten ++
          (message.encode ++ (later.map Message.encode).flatten) := by
      calc
        _ = stream ++ more := by
          rw [← List.append_assoc]
          exact congrArg (· ++ more) hspans.symm
        _ = ((arrived ++ message :: later).map Message.encode).flatten := hcut
        _ = _ := by rw [List.map_append, List.flatten_append, List.map_cons, List.flatten_cons]
    exact List.append_cancel_left hboth
  by_contra hlong
  obtain ⟨rest, hrest⟩ := List.prefix_of_prefix_length_le ⟨_, hrest.symm⟩
    (List.prefix_append (reference.drain stream).2 more) (not_lt.mp hlong)
  -- The whole frame would have been parsed.
  have hwaits : referenceStep (reference.drain stream).2 = none := reference.waits_drain stream
  have hpayload := hsent message (List.mem_append_right _ List.mem_cons_self)
  rw [← hrest, referenceStep_encode hpayload] at hwaits
  cases hwaits

/-! ## Accounting for every byte -/

/-- A candidate that is complete in what follows and whose checksum does not match. -/
def Rejected (buffer : List Byte) : Prop := ¬Incomplete buffer ∧ ¬CrcMatches buffer

/-- Every 0xAA of a gap starts a rejected candidate of the stream `gap ++ rest`. -/
def GapRejected (gap rest : List Byte) : Prop :=
  ∀ before after, gap = before ++ startByte :: after → Rejected (startByte :: after ++ rest)

/-- `g0 ++ BuildFrame(m1) ++ g1 ++ ... ++ BuildFrame(mn) ++ gn`, for the first gap `g0` and the
segments `(m1, g1), ..., (mn, gn)`. -/
def weave : List Byte → List (Message × List Byte) → List Byte
  | gap, [] => gap
  | gap, (message, next) :: segments => gap ++ message.encode ++ weave next segments

/-- Every gap of a woven stream is rejected by the rest of that stream and the tail `rest`. -/
def GapsRejected (rest : List Byte) : List Byte → List (Message × List Byte) → Prop
  | gap, [] => GapRejected gap rest
  | gap, (message, next) :: segments =>
    GapRejected gap (message.encode ++ weave next segments ++ rest) ∧
      GapsRejected rest next segments

/-- The number of 0xAA bytes in all the gaps. -/
def gapStarts (gap : List Byte) (segments : List (Message × List Byte)) : ℕ :=
  gap.count startByte + (segments.map fun segment ↦ segment.2.count startByte).sum

theorem GapRejected.cons {byte : Byte} {gap rest : List Byte} (h : GapRejected gap rest)
    (hbyte : byte = startByte → Rejected (byte :: gap ++ rest)) :
    GapRejected (byte :: gap) rest := by
  intro before after hsplit
  cases before with
  | nil =>
    obtain ⟨rfl, rfl⟩ := List.cons.inj hsplit
    exact hbyte rfl
  | cons first before => exact h before after (List.cons.inj hsplit).2

theorem GapsRejected.cons {byte : Byte} {gap rest : List Byte}
    {segments : List (Message × List Byte)} (h : GapsRejected rest gap segments)
    (hbyte : byte = startByte → Rejected (byte :: weave gap segments ++ rest)) :
    GapsRejected rest (byte :: gap) segments := by
  cases segments with
  | nil => exact GapRejected.cons h hbyte
  | cons segment segments =>
    refine ⟨h.1.cons fun hstart ↦ ?_, h.2⟩
    simpa [weave] using hbyte hstart

theorem weave_cons (byte : Byte) (gap : List Byte) (segments : List (Message × List Byte)) :
    weave (byte :: gap) segments = byte :: weave gap segments := by
  cases segments <;> simp [weave]

/-- The events of a run account for the whole stream: frames, gaps and the unread tail. -/
theorem emits_account {stream rest : List Byte} {events : List RxEvent}
    (run : reference.Emits stream events rest) :
    ∃ gap segments, stream = weave gap segments ++ rest ∧
      segments.map Prod.fst = messages events ∧ GapsRejected rest gap segments ∧
      gapStarts gap segments = rejections events := by
  induction run with
  | refl rest =>
    refine ⟨[], [], rfl, rfl, ?_, rfl⟩
    intro before after hsplit
    simp at hsplit
  | @cons buffer after final event events hstep _ ih =>
    obtain ⟨gap, segments, hstream, hmessages, hgaps, hcount⟩ := ih
    rcases referenceStep_cases hstep with ⟨byte, hbyte, hbuffer, rfl⟩ |
      ⟨hstart, hcomplete, hcrc, rfl, hafter⟩ | ⟨hbuffer, hcomplete, hcrc, rfl⟩
    · refine ⟨byte :: gap, segments, ?_, hmessages, hgaps.cons (absurd · hbyte), ?_⟩
      · rw [weave_cons, hbuffer, hstream, List.cons_append]
      · simp [gapStarts, rejections, hbyte] at hcount ⊢
        exact hcount
    · refine ⟨[], (candidateMessage buffer, gap) :: segments, ?_, ?_, ⟨?_, hgaps⟩, ?_⟩
      · have hspan := (encode_candidateMessage hstart hcomplete hcrc).2
        rw [← hafter, hstream] at hspan
        simpa [weave] using hspan
      · simp [messages, RxEvent.message?, hmessages]
      · intro before later hsplit
        simp at hsplit
      · simp [gapStarts, rejections] at hcount ⊢
        exact hcount
    · refine ⟨startByte :: gap, segments, ?_, hmessages, hgaps.cons fun _ ↦ ?_, ?_⟩
      · rw [weave_cons, hbuffer, hstream, List.cons_append]
      · rw [List.cons_append, ← hstream, ← hbuffer]
        exact ⟨hcomplete, hcrc⟩
      · simp [gapStarts, rejections] at hcount ⊢
        omega

/-! ## Finding a frame after noise -/

/-- No 0xAA of the noise starts a candidate that reaches past the noise and whose checksum
matches; candidates are read from the whole stream `noise ++ rest`. -/
def Undisturbed (noise rest : List Byte) : Prop :=
  ∀ i, noise[i]? = some startByte →
    noise.length < i + frameSize ((noise ++ rest).drop i) →
    ¬CrcMatches ((noise ++ rest).drop i)

theorem Undisturbed.suffix (front : List Byte) {noise rest : List Byte}
    (h : Undisturbed (front ++ noise) rest) : Undisturbed noise rest := by
  intro i hstart hpast
  have hdrop : (front ++ noise ++ rest).drop (front.length + i) = (noise ++ rest).drop i := by
    rw [List.append_assoc, List.drop_append, List.drop_of_length_le (by omega)]
    simp
  have hindex : (front ++ noise)[front.length + i]? = some startByte := by
    rw [List.getElem?_append_right (by omega), Nat.add_sub_cancel_left]
    exact hstart
  have hclear := h (front.length + i) hindex
  rw [hdrop, List.length_append] at hclear
  exact hclear (by omega)

/-- The longest candidate has 260 bytes, so behind the noise 259 bytes complete every false one. -/
theorem complete_of_length {buffer : List Byte} (h : 260 ≤ buffer.length) :
    ¬Incomplete buffer :=
  fun hincomplete ↦ absurd hincomplete.length_lt (by omega)

/-- Skipping garbage, consuming what the noise itself frames and rejecting every false start, the
parse arrives at the end of the noise exactly. -/
theorem emits_noise {noise rest : List Byte} (hrest : 259 ≤ rest.length)
    (hclear : Undisturbed noise rest) :
    ∃ events, reference.Emits (noise ++ rest) events rest := by
  induction hn : noise.length using Nat.strongRecOn generalizing noise with
  | _ n ih =>
    cases noise with
    | nil => exact ⟨[], .refl rest⟩
    | cons byte noise =>
      have htail : Undisturbed noise rest := .suffix [byte] hclear
      obtain ⟨events, hevents⟩ := ih noise.length (by simp at hn; omega) htail rfl
      by_cases hbyte : byte = startByte
      · subst hbyte
        have hcomplete : ¬Incomplete (startByte :: noise ++ rest) :=
          complete_of_length (by simp; omega)
        by_cases hcrc : CrcMatches (startByte :: noise ++ rest)
        · -- A matching candidate lies inside the noise, so a whole frame of noise is consumed.
          have hinside : frameSize (startByte :: noise ++ rest) ≤ (startByte :: noise).length := by
            by_contra hpast
            exact hclear 0 rfl (by simpa using hpast) hcrc
          obtain ⟨later, hlater⟩ := ih
            ((startByte :: noise).drop (frameSize (startByte :: noise ++ rest))).length
            (by rw [List.length_drop, hn]; unfold frameSize; simp at hn; omega)
            (.suffix ((startByte :: noise).take (frameSize (startByte :: noise ++ rest)))
              (by rwa [List.take_append_drop])) rfl
          rw [← List.drop_append_of_le_length hinside] at hlater
          exact ⟨_, .cons (referenceStep_frame hcomplete hcrc) hlater⟩
        · exact ⟨_, .cons (referenceStep_rejected hcomplete hcrc) hevents⟩
      · exact ⟨_, .cons (referenceStep_skipped hbyte _) hevents⟩

/-- The frame behind the noise is found at the position where the noise ends. -/
theorem mem_framesAt_of_noise {noise rest : List Byte} {message : Message}
    (hpayload : message.payload.length ≤ 255)
    (hrest : 259 ≤ (message.encode ++ rest).length)
    (hclear : Undisturbed noise (message.encode ++ rest)) :
    (noise.length, message) ∈
      framesAt 0 (reference.drain (noise ++ (message.encode ++ rest))).1 := by
  obtain ⟨events, hevents⟩ := emits_noise hrest hclear
  have hnoise : noise = (events.map RxEvent.span).flatten :=
    List.append_cancel_right (hevents.spans referenceStep_span)
  have hframe : reference.Emits (message.encode ++ rest) [.frame message] rest :=
    .single (referenceStep_encode hpayload rest)
  rw [(hevents.trans hframe).drain, framesAt_append, framesAt_append, ← hnoise]
  simp [framesAt, RxEvent.message?]

end MyDiffbot.Protocol
