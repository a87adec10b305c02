import MyDiffbot.Protocol.Reference
import MyDiffbot.Transport.Serial
import Mathlib.Data.List.TakeWhile

/-!
# Reading a byte stream in batches

The receive path of the transport refines the reference parse. A run of `ExtractFrames` on a
buffer below the overflow limit drains the reference scanner; between runs the buffer waits, hence
is shorter than 260 bytes, hence the next chunk of 256 keeps it below the limit. Chunks and batches
therefore leave no trace in what is dispatched, counted and kept.
-/

namespace MyDiffbot.Transport.SerialTransport

open Protocol Incremental

/-! ## The effect of parse events -/

/-- What one event of the reference parse does to the transport. -/
def record (s : SerialTransport) : RxEvent → SerialTransport
  | .skipped _ => s
  | .rejected => { s with crcErrorCount := s.crcErrorCount + 1 }
  | .frame message => s.receive message

section record

variable (s : SerialTransport) (events : List RxEvent)

@[simp]
theorem receive_rxBuffer (message : Message) : (s.receive message).rxBuffer = s.rxBuffer := by
  unfold receive interceptAck
  split <;> rfl

theorem foldl_record_withBuffer (buffer : List Byte) :
    events.foldl record { s with rxBuffer := buffer } =
      { events.foldl record s with rxBuffer := buffer } := by
  induction events generalizing s with
  | nil => rfl
  | cons event events ih =>
    rw [List.foldl_cons, List.foldl_cons, ← ih]
    congr 1
    cases event with
    | skipped _ => rfl
    | rejected => rfl
    | frame message => exact receive_withBuffer s message buffer

@[simp]
theorem record_serialDev (event : RxEvent) : (s.record event).serialDev = s.serialDev := by
  cases event with
  | skipped _ => rfl
  | rejected => rfl
  | frame message => exact receive_serialDev s message

@[simp]
theorem foldl_record_serialDev : (events.foldl record s).serialDev = s.serialDev := by
  induction events generalizing s with
  | nil => rfl
  | cons event events ih => rw [List.foldl_cons, ih, record_serialDev]

theorem receive_counts (message : Message) :
    (s.receive message).crcErrorCount = s.crcErrorCount ∧
      (s.receive message).receivedMessageCount = s.receivedMessageCount + 1 := by
  unfold receive interceptAck
  split <;> exact ⟨rfl, rfl⟩

theorem foldl_record_counts :
    (events.foldl record s).crcErrorCount = s.crcErrorCount + rejections events ∧
      (events.foldl record s).receivedMessageCount =
        s.receivedMessageCount + (messages events).length := by
  induction events generalizing s with
  | nil => exact ⟨rfl, rfl⟩
  | cons event events ih =>
    obtain ⟨hcrc, hreceived⟩ := ih (s.record event)
    rw [List.foldl_cons, hcrc, hreceived, messages_cons, rejections_cons]
    cases event with
    | skipped byte => simp [record, RxEvent.message?]
    | rejected => simp [record, RxEvent.message?, Nat.add_assoc]
    | frame message =>
      obtain ⟨hsame, hnext⟩ := receive_counts s message
      simp [record, hsame, hnext, RxEvent.message?, Nat.add_assoc, Nat.add_comm 1]

end record

/-! ## Calls and events -/

theorem dispatchedAt_append (cursor : ℕ) (first second : List ExtractCall) :
    dispatchedAt cursor (first ++ second) =
      dispatchedAt cursor first ++
        dispatchedAt (cursor + (first.map ExtractCall.removed).sum) second := by
  induction first generalizing cursor with
  | nil => simp [dispatchedAt]
  | cons call first ih => simp [dispatchedAt, ih, Nat.add_assoc]

theorem map_snd_dispatchedAt (cursor : ℕ) (calls : List ExtractCall) :
    (dispatchedAt cursor calls).map Prod.snd = calls.filterMap ExtractCall.message? := by
  induction calls generalizing cursor with
  | nil => rfl
  | cons call calls ih =>
    rw [dispatchedAt, List.map_append, ih, List.filterMap_cons]
    cases call.message? <;> rfl

theorem map_snd_framesAt (cursor : ℕ) (events : List RxEvent) :
    (framesAt cursor events).map Prod.snd = messages events := by
  induction events generalizing cursor with
  | nil => rfl
  | cons event events ih =>
    rw [framesAt, List.map_append, ih, messages, messages, List.filterMap_cons]
    cases event.message? <;> rfl

/-- Some calls of `ExtractFrame` remove and extract what some parse events do. -/
structure Follows (calls : List ExtractCall) (events : List RxEvent) : Prop where
  framesAt : ∀ cursor, dispatchedAt cursor calls = framesAt cursor events
  removed : (calls.map ExtractCall.removed).sum = (events.map RxEvent.span).flatten.length
  noOverflow : ∀ call ∈ calls, call.result ≠ .overflow

namespace Follows

variable {calls later : List ExtractCall} {events more : List RxEvent}

theorem nil : Follows [] [] := ⟨fun _ ↦ rfl, rfl, by simp⟩

theorem append (first : Follows calls events) (second : Follows later more) :
    Follows (calls ++ later) (events ++ more) where
  framesAt cursor := by
    rw [dispatchedAt_append, framesAt_append, first.framesAt, second.framesAt, first.removed]
  removed := by
    rw [List.map_append, List.sum_append, List.map_append, List.flatten_append,
      List.length_append, first.removed, second.removed]
  noOverflow call hcall := by
    rcases List.mem_append.mp hcall with h | h
    · exact first.noOverflow call h
    · exact second.noOverflow call h

theorem messages (h : Follows calls events) :
    calls.filterMap ExtractCall.message? = messages events := by
  rw [← map_snd_dispatchedAt 0, h.framesAt, map_snd_framesAt]

end Follows

theorem flatten_span_skipped (garbage : List Byte) :
    ((garbage.map RxEvent.skipped).map RxEvent.span).flatten = garbage := by
  induction garbage with
  | nil => rfl
  | cons byte garbage ih => simp only [List.map_cons, List.flatten_cons, ih]; rfl

theorem framesAt_skipped (cursor : ℕ) (garbage : List Byte) :
    framesAt cursor (garbage.map RxEvent.skipped) = [] := by
  induction garbage generalizing cursor with
  | nil => rfl
  | cons byte garbage ih => exact ih _

/-- A call that extracted nothing follows the garbage it discarded and a rejection, if any. -/
theorem follows_quiet (garbage : List Byte) (tail : List RxEvent) {result : ExtractResult}
    {removed : ℕ} (hresult : ∀ message, result ≠ .ok message) (hoverflow : result ≠ .overflow)
    (htail : ∀ cursor, framesAt cursor tail = [])
    (hremoved : removed = ((garbage.map RxEvent.skipped ++ tail).map RxEvent.span).flatten.length) :
    Follows [⟨result, removed⟩] (garbage.map RxEvent.skipped ++ tail) where
  framesAt cursor := by
    rw [framesAt_append, framesAt_skipped, htail]
    cases result with
    | ok message => exact absurd rfl (hresult message)
    | _ => rfl
  removed := by simpa using hremoved
  noOverflow call hcall := by
    obtain rfl := List.mem_singleton.mp hcall
    exact hoverflow

/-- A call that extracted a frame removed the garbage before it and then the frame. -/
theorem follows_frame {garbage : List Byte} {message : Message} {removed : ℕ}
    (hremoved :
      removed = ((garbage.map RxEvent.skipped ++ [RxEvent.frame message]).map RxEvent.span).flatten.length) :
    Follows [⟨.ok message, removed⟩] (garbage.map RxEvent.skipped ++ [.frame message]) where
  framesAt cursor := by
    rw [framesAt_append, framesAt_skipped, flatten_span_skipped]
    rw [List.map_append, List.flatten_append, flatten_span_skipped] at hremoved
    simp only [List.map_cons, List.map_nil, List.flatten_cons, List.flatten_nil, List.append_nil,
      List.length_append, RxEvent.span] at hremoved
    simp only [dispatchedAt, ExtractCall.message?, Protocol.framesAt, RxEvent.message?,
      Option.map_some, Option.toList_some, List.nil_append, List.append_nil, hremoved]
    rw [← Nat.add_assoc, Nat.add_sub_cancel]
  removed := by simpa using hremoved
  noOverflow call hcall := by
    obtain rfl := List.mem_singleton.mp hcall
    simp

/-! ## One call of `ExtractFrame` -/

theorem emits_garbage (garbage : List Byte) (hgarbage : ∀ byte ∈ garbage, byte ≠ startByte)
    (rest : List Byte) : reference.Emits (garbage ++ rest) (garbage.map RxEvent.skipped) rest := by
  induction garbage with
  | nil => exact .refl rest
  | cons byte garbage ih =>
    exact .cons (referenceStep_skipped (hgarbage byte List.mem_cons_self) _)
      (ih fun later hlater ↦ hgarbage later (List.mem_cons_of_mem _ hlater))

theorem dropGarbage_spec (buffer : List Byte) :
    ∃ garbage : List Byte, reference.Emits buffer (garbage.map RxEvent.skipped) (dropGarbage buffer) ∧
      (dropGarbage buffer = [] ∨ ∃ rest, dropGarbage buffer = startByte :: rest) := by
  refine ⟨buffer.takeWhile (· ≠ startByte), ?_, ?_⟩
  · have hsplit := List.takeWhile_append_dropWhile (p := (· ≠ startByte)) (l := buffer)
    have hgarbage := emits_garbage (buffer.takeWhile (· ≠ startByte))
      (fun byte hbyte ↦ by simpa using List.mem_takeWhile_imp hbyte) (dropGarbage buffer)
    rwa [dropGarbage, hsplit] at hgarbage
  · have hhead := List.head?_dropWhile_not (· ≠ startByte) buffer
    rw [dropGarbage]
    cases hrest : buffer.dropWhile (· ≠ startByte) with
    | nil => exact .inl rfl
    | cons byte rest =>
      rw [hrest] at hhead
      exact .inr ⟨rest, by simpa using hhead⟩

/-- Everything a call below the overflow limit can do, as events of the reference parse. -/
theorem extractFrame_cases {buffer : List Byte} (hlen : buffer.length ≤ kMaxRxBufferBytes) :
    ∃ result rest events, extractFrame buffer = .ok (result, rest) ∧
      reference.Emits buffer events rest ∧
      Follows [⟨result, buffer.length - rest.length⟩] events ∧
      ((∃ message, ∃ garbage : List Byte, result = .ok message ∧
          events = garbage.map RxEvent.skipped ++ [.frame message]) ∨
        (∃ garbage : List Byte, result = .crcMismatch ∧
          events = garbage.map RxEvent.skipped ++ [.rejected]) ∨
        ((result = .incomplete ∨ result = .noStartByte) ∧ reference.Waits rest ∧
          ∃ garbage : List Byte, events = garbage.map RxEvent.skipped)) := by
  obtain ⟨garbage, hgarbage, hcandidate⟩ := dropGarbage_spec buffer
  have hextract : extractFrame buffer = .ok (scanCandidate (dropGarbage buffer)) := by
    rw [extractFrame_eq_ok, if_neg (by omega)]
  have hremoved : ∀ {events rest}, reference.Emits buffer events rest →
      buffer.length - rest.length = (events.map RxEvent.span).flatten.length := by
    intro events rest run
    have hspans := congrArg List.length (run.spans referenceStep_span)
    rw [List.length_append] at hspans
    omega
  rcases hcandidate with hempty | ⟨tail, hstart⟩
  · refine ⟨.noStartByte, [], garbage.map RxEvent.skipped, ?_, hempty ▸ hgarbage, ?_, .inr (.inr ?_)⟩
    · rw [hextract, hempty]
      rfl
    · rw [hempty] at hgarbage
      simpa only [List.append_nil] using follows_quiet garbage []
        (by simp) (by simp) (fun _ ↦ rfl) (by rw [List.append_nil]; exact hremoved hgarbage)
    · exact ⟨.inr rfl, reference_waits_iff.mpr (.inl rfl), garbage, rfl⟩
  rw [hstart] at hextract hgarbage
  by_cases hincomplete : Incomplete (startByte :: tail)
  · refine ⟨.incomplete, startByte :: tail, garbage.map RxEvent.skipped, ?_, hgarbage, ?_,
      .inr (.inr ?_)⟩
    · rw [hextract, scanCandidate, if_neg (by simp), if_pos hincomplete]
    · simpa only [List.append_nil] using follows_quiet garbage []
        (by simp) (by simp) (fun _ ↦ rfl) (by rw [List.append_nil]; exact hremoved hgarbage)
    · exact ⟨.inl rfl, reference_waits_iff.mpr (.inr ⟨rfl, hincomplete⟩), garbage, rfl⟩
  by_cases hcrc : CrcMatches (startByte :: tail)
  · have hframe := hgarbage.trans (.single (referenceStep_frame hincomplete hcrc))
    refine ⟨_, _, _, ?_, hframe, follows_frame (hremoved hframe), .inl ⟨_, garbage, rfl, rfl⟩⟩
    rw [hextract, scanCandidate, if_neg (by simp), if_neg hincomplete, if_pos hcrc]
  · have hrejected := hgarbage.trans (.single (referenceStep_rejected hincomplete hcrc))
    refine ⟨.crcMismatch, tail, _, ?_, hrejected,
      follows_quiet garbage _ (by simp) (by simp) (fun _ ↦ rfl) (hremoved hrejected),
      .inr (.inl ⟨garbage, rfl, rfl⟩)⟩
    rw [hextract, scanCandidate, if_neg (by simp), if_neg hincomplete, if_neg hcrc]
    rfl

/-! ## One run of `ExtractFrames` -/

theorem foldl_record_skipped (s : SerialTransport) (garbage : List Byte) :
    (garbage.map RxEvent.skipped).foldl record s = s := by
  induction garbage with
  | nil => rfl
  | cons byte garbage ih => exact ih

/-- The loop drains the reference scanner and records its events. -/
theorem extractFramesLoop_eq {fuel : ℕ} {s : SerialTransport}
    (hlen : s.rxBuffer.length ≤ kMaxRxBufferBytes) (hfuel : s.rxBuffer.length < fuel) :
    ∃ calls, Follows calls (reference.drain s.rxBuffer).1 ∧
      extractFramesLoop fuel s =
        .ok ({ (reference.drain s.rxBuffer).1.foldl record s with
          rxBuffer := (reference.drain s.rxBuffer).2 }, calls) := by
  induction fuel generalizing s with
  | zero => omega
  | succ fuel ih =>
    obtain ⟨result, rest, events, hextract, hemits, hfollows, hcases⟩ := extractFrame_cases hlen
    rcases hcases with ⟨message, garbage, rfl, rfl⟩ | ⟨garbage, rfl, rfl⟩ |
      ⟨hstop, hwaits, garbage, rfl⟩
    · have hshort := extractFrame_shrinks hextract (.inl ⟨message, rfl⟩)
      have hbuffer : (receive message { s with rxBuffer := rest }).rxBuffer = rest :=
        receive_rxBuffer _ message
      obtain ⟨calls, hcalls, hloop⟩ := ih (s := receive message { s with rxBuffer := rest })
        (by rw [hbuffer]; omega) (by rw [hbuffer]; omega)
      rw [hbuffer] at hcalls hloop
      refine ⟨_, by rw [hemits.drain]; exact hfollows.append hcalls, ?_⟩
      rw [extractFramesLoop_frame hextract hloop, receive_withBuffer, foldl_record_withBuffer,
        hemits.drain, List.foldl_append, List.foldl_append, foldl_record_skipped]
      rfl
    · have hshort := extractFrame_shrinks hextract (.inr rfl)
      obtain ⟨calls, hcalls, hloop⟩ := ih (s := { s.record .rejected with rxBuffer := rest })
        (by change rest.length ≤ _; omega) (by change rest.length < _; omega)
      refine ⟨_, by rw [hemits.drain]; exact hfollows.append hcalls, ?_⟩
      rw [extractFramesLoop_crcMismatch hextract hloop, foldl_record_withBuffer, hemits.drain,
        List.foldl_append, List.foldl_append, foldl_record_skipped]
      rfl
    · rw [hemits.drain, reference.drain_of_waits hwaits]
      refine ⟨_, by simpa using hfollows, ?_⟩
      rw [extractFramesLoop_break hextract (.inr hstop), List.append_nil, foldl_record_skipped]

/-- The transport after a stream has been read: its events recorded, its tail buffered. -/
def after (stream : List Byte) (s : SerialTransport) : SerialTransport :=
  { (reference.drain (s.rxBuffer ++ stream)).1.foldl record s with
    rxBuffer := (reference.drain (s.rxBuffer ++ stream)).2 }

@[simp]
theorem after_rxBuffer (stream : List Byte) (s : SerialTransport) :
    (s.after stream).rxBuffer = (reference.drain (s.rxBuffer ++ stream)).2 := rfl

@[simp]
theorem after_serialDev (stream : List Byte) (s : SerialTransport) :
    (s.after stream).serialDev = s.serialDev := foldl_record_serialDev s _

theorem after_append (first second : List Byte) (s : SerialTransport) :
    (s.after first).after second = s.after (first ++ second) := by
  unfold after
  rw [foldl_record_withBuffer, ← List.append_assoc,
    reference.drain_append (s.rxBuffer ++ first), List.foldl_append]

theorem after_nil {s : SerialTransport} (hwaits : reference.Waits s.rxBuffer) :
    s.after [] = s := by
  unfold after
  rw [List.append_nil, reference.drain_of_waits hwaits]
  rfl

/-- A run of `ExtractFrames` on a buffer that a chunk was appended to. -/
theorem extractFramesChecked_eq (s : SerialTransport) (chunk : List Byte)
    (hlen : (s.rxBuffer ++ chunk).length ≤ kMaxRxBufferBytes) :
    ∃ calls, Follows calls (reference.drain (s.rxBuffer ++ chunk)).1 ∧
      extractFramesChecked { s with rxBuffer := s.rxBuffer ++ chunk } =
        .ok (s.after chunk, ⟨s.rxBuffer ++ chunk, calls, (s.after chunk).rxBuffer⟩) := by
  obtain ⟨calls, hcalls, hloop⟩ :=
    extractFramesLoop_eq (s := { s with rxBuffer := s.rxBuffer ++ chunk }) hlen
      (Nat.lt_succ_self _)
  rw [foldl_record_withBuffer] at hloop
  refine ⟨calls, hcalls, ?_⟩
  simp only [extractFramesChecked, hloop, bind, Except.bind, pure, Except.pure]
  rfl

/-! ## Chunks and batches -/

theorem flatten_map_take_drop (raw : List Byte) (count : ℕ) :
    ((List.range count).map fun i ↦
      (raw.drop (kChunkBytes * i)).take kChunkBytes).flatten = raw.take (kChunkBytes * count) := by
  induction count with
  | zero => simp
  | succ count ih =>
    rw [List.range_succ, List.map_append, List.flatten_append, ih, Nat.mul_succ, List.take_add]
    simp

/-- The chunks of a batch are the batch. -/
theorem flatten_chunksOf (raw : List Byte) : (chunksOf raw).flatten = raw := by
  rw [chunksOf, flatten_map_take_drop, List.take_of_length_le]
  unfold kChunkBytes
  omega

theorem length_le_of_mem_chunksOf {raw chunk : List Byte} (h : chunk ∈ chunksOf raw) :
    chunk.length ≤ kChunkBytes := by
  obtain ⟨i, _, rfl⟩ := List.mem_map.mp h
  exact List.length_take_le _ _

/-- A run that found fewer than 260 + 256 bytes, met no overflow and left a waiting buffer. -/
structure RunOk (run : ExtractRun) : Prop where
  fed_length : run.fed.length < 516
  noOverflow : ∀ call ∈ run.calls, call.result ≠ .overflow
  left_waits : reference.Waits run.left

/-- Feeding chunks to a waiting buffer drains the concatenation, one healthy run per chunk. -/
theorem feedChunks_eq (chunks : List (List Byte)) {s : SerialTransport}
    (hchunks : ∀ chunk ∈ chunks, chunk.length ≤ kChunkBytes)
    (hwaits : reference.Waits s.rxBuffer) :
    ∃ runs : List ExtractRun, (∀ run ∈ runs, RunOk run) ∧
      Follows (runs.flatMap ExtractRun.calls)
        (reference.drain (s.rxBuffer ++ chunks.flatten)).1 ∧
      feedChunks chunks s = .ok (s.after chunks.flatten, runs) := by
  induction chunks generalizing s with
  | nil =>
    rw [List.flatten_nil, after_nil hwaits, List.append_nil, reference.drain_of_waits hwaits]
    exact ⟨[], by simp, .nil, rfl⟩
  | cons chunk chunks ih =>
    have hchunk := hchunks chunk List.mem_cons_self
    have hshort := length_lt_of_waits hwaits
    have hfed : (s.rxBuffer ++ chunk).length < 516 := by
      rw [List.length_append]
      unfold kChunkBytes at hchunk
      omega
    obtain ⟨calls, hcalls, hfirst⟩ := extractFramesChecked_eq s chunk
      (by unfold kMaxRxBufferBytes; omega)
    obtain ⟨runs, hruns, hfollows, hrest⟩ := ih (s := s.after chunk)
      (fun later hlater ↦ hchunks later (List.mem_cons_of_mem _ hlater))
      (reference.waits_drain _)
    rw [after_append, ← List.flatten_cons] at hrest
    rw [List.flatten_cons, ← List.append_assoc, reference.drain_append (s.rxBuffer ++ chunk)]
    refine ⟨⟨s.rxBuffer ++ chunk, calls, (s.after chunk).rxBuffer⟩ :: runs, ?_,
      hcalls.append hfollows, ?_⟩
    · intro run hrun
      rcases List.mem_cons.mp hrun with rfl | hrun
      · exact ⟨hfed, hcalls.noOverflow, reference.waits_drain _⟩
      · exact hruns run hrun
    · simp only [feedChunks, hfirst, hrest, bind, Except.bind, pure, Except.pure,
        List.flatten_cons]

/-- `Read` on an open port whose buffer waits. -/
theorem read_spec (raw : List Byte) {s : SerialTransport} (hopen : s.isOpen = true)
    (hwaits : reference.Waits s.rxBuffer) :
    (read raw s).1 = s.after raw ∧ (∀ run ∈ (read raw s).2, RunOk run) ∧
      Follows ((read raw s).2.flatMap ExtractRun.calls)
        (reference.drain (s.rxBuffer ++ raw)).1 := by
  obtain ⟨runs, hruns, hfollows, hfeed⟩ :=
    feedChunks_eq (chunksOf raw) (fun _ ↦ length_le_of_mem_chunksOf) hwaits
  rw [flatten_chunksOf] at hfollows hfeed
  have hread := readChecked_eq raw s
  rw [readChecked, if_pos hopen, hfeed] at hread
  obtain hread := Except.ok.inj hread
  rw [← hread]
  exact ⟨rfl, hruns, hfollows⟩

end MyDiffbot.Transport.SerialTransport
