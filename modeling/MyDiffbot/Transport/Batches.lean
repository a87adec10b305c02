import MyDiffbot.Transport.Receive

/-!
# Streams delivered in batches

A byte stream reaches the transport in the batches of successive `Read` calls, each fed in chunks.
Since the parse is an incremental scanner, what a sequence of batches does depends on their
concatenation only (`readBatches_spec`). The statements about whole streams follow from the facts
about the reference parse: frames sent are frames dispatched, the parser finds a frame again behind
noise, every byte is accounted for, and the receive buffer stays within its bound.
-/

namespace MyDiffbot.Transport.SerialTransport

open Protocol

/-- `Read` on one batch after the other, with all runs of `ExtractFrames` made meanwhile. -/
def readBatches : List (List Byte) → SerialTransport → SerialTransport × List ExtractRun
  | [], s => (s, [])
  | batch :: batches, s =>
    let (s, runs) := read batch s
    let (s, later) := readBatches batches s
    (s, runs ++ later)

theorem dispatched_eq_messages {runs : List ExtractRun} {events : List RxEvent}
    (h : Follows (runs.flatMap ExtractRun.calls) events) : dispatched runs = messages events :=
  h.messages

/-- Batches on an open port whose buffer waits: the transport and the calls are those of the
concatenated stream. -/
theorem readBatches_spec (batches : List (List Byte)) {s : SerialTransport}
    (hopen : s.isOpen = true) (hwaits : reference.Waits s.rxBuffer) :
    (readBatches batches s).1 = s.after batches.flatten ∧
      Follows ((readBatches batches s).2.flatMap ExtractRun.calls)
        (reference.drain (s.rxBuffer ++ batches.flatten)).1 := by
  induction batches generalizing s with
  | nil =>
    rw [List.flatten_nil, after_nil hwaits, List.append_nil, reference.drain_of_waits hwaits]
    exact ⟨rfl, .nil⟩
  | cons batch batches ih =>
    obtain ⟨hread, _, hfollows⟩ := read_spec batch hopen hwaits
    have hopen' : (s.after batch).isOpen = true := by
      rw [isOpen, after_serialDev]
      exact hopen
    obtain ⟨hlater, hlaterFollows⟩ := ih hopen' (reference.waits_drain _)
    have hafter : (readBatches (batch :: batches) s).1 = (readBatches batches (s.after batch)).1 := by
      rw [← hread]
      rfl
    have hruns : (readBatches (batch :: batches) s).2 =
        (read batch s).2 ++ (readBatches batches (s.after batch)).2 := by
      rw [← hread]
      rfl
    rw [hafter, hlater, after_append, List.flatten_cons, hruns, List.flatMap_append,
      ← List.append_assoc, reference.drain_append (s.rxBuffer ++ batch)]
    exact ⟨rfl, hfollows.append hlaterFollows⟩

/-- From an empty buffer, the calls follow the reference parse of the stream. -/
theorem readBatches_follows (batches : List (List Byte)) {s : SerialTransport}
    (hopen : s.isOpen = true) (hempty : s.rxBuffer = []) :
    Follows ((readBatches batches s).2.flatMap ExtractRun.calls)
      (reference.drain batches.flatten).1 := by
  have hwaits : reference.Waits s.rxBuffer := reference_waits_iff.mpr (.inl hempty)
  simpa only [hempty, List.nil_append] using (readBatches_spec batches hopen hwaits).2

theorem readBatches_rxBuffer (batches : List (List Byte)) {s : SerialTransport}
    (hopen : s.isOpen = true) (hempty : s.rxBuffer = []) :
    (readBatches batches s).1.rxBuffer = (reference.drain batches.flatten).2 := by
  have hwaits : reference.Waits s.rxBuffer := reference_waits_iff.mpr (.inl hempty)
  rw [(readBatches_spec batches hopen hwaits).1, after_rxBuffer, hempty, List.nil_append]

theorem readBatches_counts (batches : List (List Byte)) {s : SerialTransport}
    (hopen : s.isOpen = true) (hempty : s.rxBuffer = []) :
    (readBatches batches s).1.crcErrorCount =
        s.crcErrorCount + rejections (reference.drain batches.flatten).1 ∧
      (readBatches batches s).1.receivedMessageCount =
        s.receivedMessageCount + (messages (reference.drain batches.flatten).1).length := by
  have hwaits : reference.Waits s.rxBuffer := reference_waits_iff.mpr (.inl hempty)
  rw [(readBatches_spec batches hopen hwaits).1, after, hempty, List.nil_append]
  exact foldl_record_counts _ _

/-- A transport just after its first `Connect`, for the examples of this module. -/
def connected : SerialTransport :=
  (connect ⟨false, false, false⟩ (configure "/dev/ttyACM0" 115200 100 initial)).2

/-! ## Independence of the batches -/

/-- What a stream leaves behind: the frames dispatched, the two counters and the buffer. -/
structure Outcome where
  dispatched : List Message
  crcErrorCount : ℕ
  receivedMessageCount : ℕ
  rxBuffer : List Byte
  deriving DecidableEq, Repr

def outcome (batches : List (List Byte)) (s : SerialTransport) : Outcome where
  dispatched := dispatched (readBatches batches s).2
  crcErrorCount := (readBatches batches s).1.crcErrorCount
  receivedMessageCount := (readBatches batches s).1.receivedMessageCount
  rxBuffer := (readBatches batches s).1.rxBuffer

/-- The outcome of one reference parse of the whole stream. -/
def referenceOutcome (stream : List Byte) (s : SerialTransport) : Outcome where
  dispatched := messages (reference.drain stream).1
  crcErrorCount := s.crcErrorCount + rejections (reference.drain stream).1
  receivedMessageCount := s.receivedMessageCount + (messages (reference.drain stream).1).length
  rxBuffer := (reference.drain stream).2

theorem outcome_eq (batches : List (List Byte)) {s : SerialTransport}
    (hopen : s.isOpen = true) (hempty : s.rxBuffer = []) :
    outcome batches s = referenceOutcome batches.flatten s := by
  obtain ⟨hcrc, hreceived⟩ := readBatches_counts batches hopen hempty
  rw [outcome, referenceOutcome,
    dispatched_eq_messages (readBatches_follows batches hopen hempty), hcrc, hreceived,
    readBatches_rxBuffer batches hopen hempty]

/-- However a stream is cut into batches, its outcome is that of the reference parse. -/
theorem outcome_eq_reference {stream : List Byte} {batches other : List (List Byte)}
    {s : SerialTransport} (hopen : s.isOpen = true) (hempty : s.rxBuffer = [])
    (hbatches : batches.flatten = stream) (hother : other.flatten = stream) :
    outcome batches s = referenceOutcome stream s ∧ outcome other s = outcome batches s := by
  rw [outcome_eq batches hopen hempty, outcome_eq other hopen hempty, hbatches, hother]
  exact ⟨rfl, rfl⟩

theorem outcome_eq_reference_split :
    let stream := [0x00#8, 0xAA#8, 0x05#8, 0x00#8, 0x34#8, 0x49#8, 0xAA#8]
    let batches := [[0x00#8, 0xAA#8], [0x05#8, 0x00#8, 0x34#8], [0x49#8, 0xAA#8]]
    outcome batches connected = referenceOutcome stream connected ∧
      outcome [stream] connected = outcome batches connected :=
  outcome_eq_reference rfl rfl rfl rfl

/-! ## Round trip -/

/-- Whatever is sent as frames of at most 255 payload bytes is dispatched, in order and alone. -/
theorem readBatches_roundtrip (sent : List Message) (batches : List (List Byte))
    {s : SerialTransport} (hopen : s.isOpen = true) (hempty : s.rxBuffer = [])
    (hsent : ∀ message ∈ sent, message.payload.length ≤ 255)
    (hstream : batches.flatten = (sent.map fun message ↦
      buildFrame message.msgId message.payload).flatten) :
    dispatched (readBatches batches s).2 = sent ∧
      (readBatches batches s).1.crcErrorCount = s.crcErrorCount ∧
      (readBatches batches s).1.rxBuffer = [] := by
  have hrun : reference.Emits batches.flatten (sent.map .frame) [] := by
    have hencodings := emits_encodings hsent []
    rw [List.append_nil] at hencodings
    rw [hstream]
    exact hencodings
  have hdrain : reference.drain batches.flatten = (sent.map .frame, []) :=
    hrun.eq_drain (reference_waits_iff.mpr (.inl rfl))
  obtain ⟨hcrc, _⟩ := readBatches_counts batches hopen hempty
  rw [dispatched_eq_messages (readBatches_follows batches hopen hempty), hcrc,
    readBatches_rxBuffer batches hopen hempty, hdrain]
  exact ⟨messages_map_frame sent, by rw [rejections_map_frame, Nat.add_zero], rfl⟩

theorem readBatches_roundtrip_straddled :
    let sent := [⟨MsgId.reset, []⟩, ⟨MsgId.heartbeat, [startByte]⟩]
    let batches := [[0xAA#8, 0x05#8, 0x00#8], [0x34#8, 0x49#8, 0xAA#8, 0x20#8],
      [0x01#8, 0xAA#8, 0x4A#8, 0xA7#8]]
    dispatched (readBatches batches connected).2 = sent ∧
      (readBatches batches connected).1.crcErrorCount = connected.crcErrorCount ∧
      (readBatches batches connected).1.rxBuffer = [] :=
  readBatches_roundtrip [⟨MsgId.reset, []⟩, ⟨MsgId.heartbeat, [startByte]⟩] _ rfl rfl
    (by decide) (by decide +kernel)

theorem foldl_record_frame (s : SerialTransport) (sent : List Message) :
    (sent.map RxEvent.frame).foldl record s = sent.foldl (fun s message ↦ s.receive message) s := by
  induction sent generalizing s with
  | nil => rfl
  | cons message sent ih => exact ih _

/-- `Read` of whole frames receives them one after the other. -/
theorem read_encodings {sent : List Message} {s : SerialTransport} (hopen : s.isOpen = true)
    (hempty : s.rxBuffer = []) (hsent : ∀ message ∈ sent, message.payload.length ≤ 255) :
    (read (sent.map Message.encode).flatten s).1 =
      sent.foldl (fun s message ↦ s.receive message) s := by
  have hwaits : reference.Waits s.rxBuffer := reference_waits_iff.mpr (.inl hempty)
  have hdrain : reference.drain (sent.map Message.encode).flatten = (sent.map .frame, []) := by
    have hencodings := emits_encodings hsent []
    rw [List.append_nil] at hencodings
    exact hencodings.eq_drain (reference_waits_iff.mpr (.inl rfl))
  rw [(read_spec _ hopen hwaits).1, after, hempty, List.nil_append, hdrain, ← foldl_record_frame,
    ← foldl_record_withBuffer, ← hempty]

/-! ## Resynchronisation -/

/-- A frame behind noise is dispatched from the position where the noise ends, whenever no false
candidate of the noise reaches into it with a matching checksum. -/
theorem mem_dispatchedAt_of_noise (noise suffix : List Byte) {msgId : Byte} {payload : List Byte}
    {batches : List (List Byte)} {s : SerialTransport} (hopen : s.isOpen = true)
    (hempty : s.rxBuffer = []) (hpayload : payload.length ≤ 255)
    (hlength : 259 ≤ (buildFrame msgId payload).length + suffix.length)
    (hclear : Undisturbed noise (buildFrame msgId payload ++ suffix))
    (hstream : batches.flatten = noise ++ buildFrame msgId payload ++ suffix) :
    (noise.length, ⟨msgId, payload⟩) ∈
      dispatchedAt 0 ((readBatches batches s).2.flatMap ExtractRun.calls) := by
  have hrest : 259 ≤ (buildFrame msgId payload ++ suffix).length := by
    rw [List.length_append]
    exact hlength
  rw [(readBatches_follows batches hopen hempty).framesAt, hstream, List.append_assoc]
  exact mem_framesAt_of_noise hpayload hrest hclear

theorem mem_dispatchedAt_of_noise_false_start :
    let noise := [0xAA#8, 0x10#8, 0x02#8]
    let stream := noise ++ buildFrame MsgId.reset [] ++ List.replicate 254 0x00#8
    (noise.length, ⟨MsgId.reset, []⟩) ∈
      dispatchedAt 0 ((readBatches [stream] connected).2.flatMap ExtractRun.calls) := by
  refine mem_dispatchedAt_of_noise [0xAA#8, 0x10#8, 0x02#8] (List.replicate 254 0x00#8) rfl rfl
    (by decide) (by decide +kernel) ?_ (List.append_nil _)
  -- Only the first byte is a start byte; its candidate ends inside the frame behind it.
  intro i hstart _
  obtain rfl : i = 0 := by
    rcases i with _ | _ | _ | i
    · rfl
    all_goals simp [startByte] at hstart
  decide +kernel

/-! ## Accounting -/

/-- Every byte of a stream belongs to a dispatched frame, to a gap of discarded bytes or to the
final buffer. Each 0xAA of a gap is a rejected candidate and is counted once. -/
theorem readBatches_account (batches : List (List Byte)) {s : SerialTransport}
    (hopen : s.isOpen = true) (hempty : s.rxBuffer = []) :
    ∃ gap segments,
      batches.flatten = weave gap segments ++ (readBatches batches s).1.rxBuffer ∧
      segments.map Prod.fst = dispatched (readBatches batches s).2 ∧
      GapsRejected (readBatches batches s).1.rxBuffer gap segments ∧
      (readBatches batches s).1.crcErrorCount = s.crcErrorCount + gapStarts gap segments ∧
      (readBatches batches s).1.receivedMessageCount =
        s.receivedMessageCount + segments.length := by
  obtain ⟨gap, segments, hstream, hmessages, hgaps, hcount⟩ :=
    emits_account (reference.emits_drain batches.flatten)
  obtain ⟨hcrc, hreceived⟩ := readBatches_counts batches hopen hempty
  refine ⟨gap, segments, ?_, ?_, ?_, ?_, ?_⟩
  · rw [readBatches_rxBuffer batches hopen hempty]
    exact hstream
  · rw [dispatched_eq_messages (readBatches_follows batches hopen hempty)]
    exact hmessages
  · rw [readBatches_rxBuffer batches hopen hempty]
    exact hgaps
  · rw [hcrc, hcount]
  · rw [hreceived, ← hmessages, List.length_map]

theorem readBatches_account_split :
    let batches := [[0x00#8, 0xAA#8], [0x05#8, 0x00#8, 0x34#8], [0x49#8, 0xAA#8]]
    ∃ gap segments,
      batches.flatten = weave gap segments ++ (readBatches batches connected).1.rxBuffer ∧
      segments.map Prod.fst = dispatched (readBatches batches connected).2 ∧
      GapsRejected (readBatches batches connected).1.rxBuffer gap segments ∧
      (readBatches batches connected).1.crcErrorCount =
        connected.crcErrorCount + gapStarts gap segments ∧
      (readBatches batches connected).1.receivedMessageCount =
        connected.receivedMessageCount + segments.length :=
  readBatches_account _ rfl rfl

/-! ## The receive buffer -/

/-- What the buffer looks like between two runs of `ExtractFrames`. -/
structure BufferOk (buffer : List Byte) : Prop where
  start : buffer = [] ∨ buffer.head? = some startByte
  length_lt : buffer.length < 260
  incomplete : Incomplete buffer

theorem bufferOk_of_waits {buffer : List Byte} (h : reference.Waits buffer) : BufferOk buffer := by
  rcases reference_waits_iff.mp h with rfl | ⟨hstart, hincomplete⟩
  · exact ⟨.inl rfl, by decide, .inl (by decide)⟩
  · exact ⟨.inr hstart, hincomplete.length_lt, hincomplete⟩

inductive ReceiveOp
  | read (raw : List Byte)
  | reset
  deriving DecidableEq, Repr

/-- Any sequence of `Read` and `Reset`, with every access checked. -/
def runOps : List ReceiveOp → SerialTransport → Checked (SerialTransport × List ExtractRun)
  | [], s => return (s, [])
  | .read raw :: ops, s => do
    let (s, runs) ← readChecked raw s
    let (s, later) ← runOps ops s
    return (s, runs ++ later)
  | .reset :: ops, s => runOps ops s.reset

theorem read_waits (raw : List Byte) {s : SerialTransport}
    (hwaits : reference.Waits s.rxBuffer) :
    reference.Waits (read raw s).1.rxBuffer ∧ ∀ run ∈ (read raw s).2, RunOk run := by
  by_cases hopen : s.isOpen = true
  · obtain ⟨hread, hruns, _⟩ := read_spec raw hopen hwaits
    rw [hread]
    exact ⟨reference.waits_drain _, hruns⟩
  · have hread := readChecked_eq raw s
    rw [readChecked, if_neg hopen] at hread
    rw [← Except.ok.inj hread]
    exact ⟨hwaits, by simp⟩

theorem runOps_waits (ops : List ReceiveOp) {s : SerialTransport}
    (hwaits : reference.Waits s.rxBuffer) :
    ∃ after runs, runOps ops s = .ok (after, runs) ∧ reference.Waits after.rxBuffer ∧
      ∀ run ∈ runs, RunOk run := by
  induction ops generalizing s with
  | nil => exact ⟨s, [], rfl, hwaits, by simp⟩
  | cons op ops ih =>
    cases op with
    | read raw =>
      obtain ⟨hafter, hruns⟩ := read_waits raw hwaits
      obtain ⟨after, later, hops, hfinal, hlater⟩ := ih hafter
      refine ⟨after, (read raw s).2 ++ later, ?_, hfinal, fun run hrun ↦ ?_⟩
      · simp only [runOps, readChecked_eq, hops, bind, Except.bind, pure, Except.pure]
      · exact (List.mem_append.mp hrun).elim (hruns run) (hlater run)
    | reset => exact ih (reference_waits_iff.mpr (.inl rfl))

/-- Whatever arrives, every run of `ExtractFrames` ends with all its accesses in range, leaves a
short incomplete candidate, and never meets the 1024-byte guard. -/
theorem runOps_bufferOk (ops : List ReceiveOp) {s : SerialTransport} (hempty : s.rxBuffer = []) :
    ∃ after runs, runOps ops s = .ok (after, runs) ∧ BufferOk after.rxBuffer ∧
      ∀ run ∈ runs, BufferOk run.left ∧ run.fed.length ≤ kMaxRxBufferBytes ∧
        ∀ call ∈ run.calls, call.result ≠ .overflow := by
  obtain ⟨after, runs, hops, hwaits, hruns⟩ :=
    runOps_waits ops (reference_waits_iff.mpr (.inl hempty))
  refine ⟨after, runs, hops, bufferOk_of_waits hwaits, fun run hrun ↦ ?_⟩
  have hrunOk := hruns run hrun
  have hfed := hrunOk.fed_length
  refine ⟨bufferOk_of_waits hrunOk.left_waits, ?_, hrunOk.noOverflow⟩
  unfold kMaxRxBufferBytes
  omega

theorem runOps_bufferOk_backlog :
    ∃ after runs,
      runOps [.read (List.replicate 3000 startByte), .reset, .read [startByte]] connected =
        .ok (after, runs) ∧ BufferOk after.rxBuffer ∧
      ∀ run ∈ runs, BufferOk run.left ∧ run.fed.length ≤ kMaxRxBufferBytes ∧
        ∀ call ∈ run.calls, call.result ≠ .overflow :=
  runOps_bufferOk _ rfl

end MyDiffbot.Transport.SerialTransport
