import MyDiffbot.Protocol.Frame
import Mathlib.Data.Int.Basic
import Mathlib.Tactic.SplitIfs

/-!
# The serial transport

`SerialTransport` of `serial_transport.cpp`: the port, the receive buffer with its parse loop, and
the one-slot pending ACK. `ExtractFrames` and `Read` are written with checked buffer accesses and
with a bound on the turns of the `while (true)` loop, so that an access out of range and a loop
that never leaves would both show as faults. `extractFramesChecked_ok` excludes them from every
state, and `read` is the function that remains.

Counters are mathematical integers. The hook `OnMessageReceived` appears as the sequence of its
calls, which a subclass folds over its own state.
-/

namespace MyDiffbot.Transport

open Protocol

/-! ## Protocol constants -/

namespace MsgId

def handshake : Byte := 0x09#8
def wheelVelocity : Byte := 0x01#8
def setPidGains : Byte := 0x03#8
def setCmdTimeout : Byte := 0x04#8
def reset : Byte := 0x05#8
def deactivate : Byte := 0x08#8
def rgbLedSet : Byte := 0x36#8
def wheelFeedback : Byte := 0x10#8
def imuData : Byte := 0x11#8
def pidDebug : Byte := 0x13#8
def heartbeat : Byte := 0x20#8
def ack : Byte := 0xF0#8

end MsgId

/-- `AckStatus`; the cast from the wire admits every byte, five of which are named. -/
abbrev AckStatus := Byte

namespace AckStatus

def ok : AckStatus := 0x00#8
def invalidParam : AckStatus := 0x01#8
def commandFailed : AckStatus := 0x02#8
def timeout : AckStatus := 0x03#8
def unknown : AckStatus := 0xFF#8

end AckStatus

/-- `std::chrono::steady_clock::time_point`; zero is the default-constructed one. -/
abbrev SteadyTime := ℤ

/-! ## State -/

/-- The part of `LibSerial::SerialPort` that can be observed: whether it is open, and whether its
rate was set and its buffers flushed since it was opened. -/
structure SerialPort where
  isOpen : Bool
  baudRate : Option ℕ
  flushed : Bool
  deriving DecidableEq, Repr

structure SerialTransport where
  serialDev : SerialPort
  rxBuffer : List Byte
  receivedMessageCount : ℕ
  crcErrorCount : ℕ
  port : String
  baudRate : ℤ
  readTimeoutMs : ℕ
  configured : Bool
  ackReceived : Bool
  pendingAckMsgId : Byte
  pendingAckStatus : AckStatus
  lastHeartbeatTime : SteadyTime
  firmwareVersion : Byte
  deriving DecidableEq, Repr

namespace SerialTransport

/-- The default member initialisers. -/
def initial : SerialTransport where
  serialDev := ⟨false, none, false⟩
  rxBuffer := []
  receivedMessageCount := 0
  crcErrorCount := 0
  port := ""
  baudRate := 57600
  readTimeoutMs := 100
  configured := false
  ackReceived := false
  pendingAckMsgId := 0
  pendingAckStatus := AckStatus.unknown
  lastHeartbeatTime := 0
  firmwareVersion := 0

def isOpen (s : SerialTransport) : Bool := s.serialDev.isOpen

/-! ## Connection lifecycle -/

def convertBaudRate (baudRate : ℤ) : ℕ :=
  if baudRate ∈ [1200, 1800, 2400, 4800, 9600, 19200, 38400, 57600, 115200, 230400] then
    baudRate.toNat
  else 57600

/-- Which calls of the port library throw during one `Connect`. -/
structure ConnectFaults where
  openThrows : Bool
  setBaudRateThrows : Bool
  flushThrows : Bool
  deriving DecidableEq, Repr

/-- `Connect`. An exception of `SetBaudRate` or `FlushIOBuffers` leaves the port open. -/
def connect (faults : ConnectFaults) (s : SerialTransport) : Bool × SerialTransport :=
  if !s.configured then (false, s)
  else if s.isOpen then (true, s)
  else if faults.openThrows then (false, s)
  else
    let s := { s with serialDev := ⟨true, none, false⟩ }
    if faults.setBaudRateThrows then (false, s)
    else
      let s := { s with
        serialDev := { s.serialDev with baudRate := some (convertBaudRate s.baudRate) } }
      if faults.flushThrows then (false, s)
      else
        let s := { s with serialDev := { s.serialDev with flushed := true } }
        (s.isOpen, s)

def configure (port : String) (baudRate : ℤ) (readTimeoutMs : ℕ) (s : SerialTransport) :
    SerialTransport :=
  if port = "" then s
  else { s with port, baudRate, readTimeoutMs, configured := true }

/-- `SerialTransport::Reset`; the hook `OnReset` is empty. -/
def reset (s : SerialTransport) : SerialTransport :=
  { s with rxBuffer := [], receivedMessageCount := 0, crcErrorCount := 0 }

def shutdown (s : SerialTransport) : SerialTransport :=
  let s := s.reset
  if s.isOpen then { s with serialDev := { s.serialDev with isOpen := false } } else s

/-! ## Receiving -/

/-- ACK frames fill the pending slot whatever it holds. -/
def interceptAck (message : Message) (s : SerialTransport) : SerialTransport :=
  if message.msgId = MsgId.ack ∧ 10 ≤ message.payload.length then
    { s with
      pendingAckMsgId := message.payload.getD 8 0
      pendingAckStatus := message.payload.getD 9 0
      ackReceived := true }
  else s

/-- What the parse loop does with one extracted frame before it calls the hook. -/
def receive (message : Message) (s : SerialTransport) : SerialTransport :=
  interceptAck message { s with receivedMessageCount := s.receivedMessageCount + 1 }

/-- One call of `ExtractFrame` and the number of bytes it took from the front of the buffer. -/
structure ExtractCall where
  result : ExtractResult
  removed : ℕ
  deriving DecidableEq, Repr

/-- The message of a call that extracted a frame, which is passed on to `OnMessageReceived`. -/
def ExtractCall.message? (call : ExtractCall) : Option Message :=
  match call.result with
  | .ok message => some message
  | _ => none

/-- The extracted frames, each with the stream position of its first byte, for calls made when
`cursor` bytes of the stream had left the buffer. A frame is the last thing its call removes. -/
def dispatchedAt : ℕ → List ExtractCall → List (ℕ × Message)
  | _, [] => []
  | cursor, call :: calls =>
    (call.message?.map fun message ↦
      (cursor + call.removed - message.encode.length, message)).toList ++
      dispatchedAt (cursor + call.removed) calls

/-- One run of `ExtractFrames`: the buffer it found, its calls, and the buffer it left. -/
structure ExtractRun where
  fed : List Byte
  calls : List ExtractCall
  left : List Byte
  deriving DecidableEq, Repr

/-- The `while (true)` loop of `ExtractFrames`, for at most `fuel` turns. -/
def extractFramesLoop : ℕ → SerialTransport → Checked (SerialTransport × List ExtractCall)
  | 0, _ => .error .nonTermination
  | fuel + 1, s => do
    let (result, buffer) ← extractFrame s.rxBuffer
    let call : ExtractCall := ⟨result, s.rxBuffer.length - buffer.length⟩
    let s := { s with rxBuffer := buffer }
    match result with
    | .ok message =>
      let (s, calls) ← extractFramesLoop fuel (s.receive message)
      return (s, call :: calls)
    | .crcMismatch =>
      let (s, calls) ← extractFramesLoop fuel { s with crcErrorCount := s.crcErrorCount + 1 }
      return (s, call :: calls)
    | .overflow => return (s, [call])
    | .incomplete | .noStartByte => return (s, [call])

/-- `ExtractFrames`; more turns than buffered bytes are never needed. -/
def extractFramesChecked (s : SerialTransport) : Checked (SerialTransport × ExtractRun) := do
  let (after, calls) ← extractFramesLoop (s.rxBuffer.length + 1) s
  return (after, ⟨s.rxBuffer, calls, after.rxBuffer⟩)

def kChunkBytes : ℕ := 256

/-- The ranges `[offset, min(size, offset + 256))` of the feeding loop in `Read`. -/
def chunksOf (raw : List Byte) : List (List Byte) :=
  (List.range ((raw.length + (kChunkBytes - 1)) / kChunkBytes)).map fun i ↦
    (raw.drop (kChunkBytes * i)).take kChunkBytes

def feedChunks : List (List Byte) → SerialTransport →
    Checked (SerialTransport × List ExtractRun)
  | [], s => return (s, [])
  | chunk :: chunks, s => do
    let (s, run) ← extractFramesChecked { s with rxBuffer := s.rxBuffer ++ chunk }
    let (s, runs) ← feedChunks chunks s
    return (s, run :: runs)

/-- `Read`, given the bytes the port delivers; none stands for no data and for an exception. -/
def readChecked (raw : List Byte) (s : SerialTransport) :
    Checked (SerialTransport × List ExtractRun) :=
  if s.isOpen then feedChunks (chunksOf raw) s else return (s, [])

/-! ## No faults -/

theorem length_dropGarbage_le (buffer : List Byte) :
    (dropGarbage buffer).length ≤ buffer.length :=
  (List.dropWhile_sublist _).length_le

theorem scanCandidate_shrinks {buffer rest : List Byte} {result : ExtractResult}
    (h : scanCandidate buffer = (result, rest))
    (hcontinue : (∃ message, result = .ok message) ∨ result = .crcMismatch) :
    rest.length < buffer.length := by
  unfold scanCandidate at h
  split_ifs at h with hempty hincomplete hcrc
  · obtain ⟨rfl, rfl⟩ := Prod.mk.inj h
    simp at hcontinue
  · obtain ⟨rfl, rfl⟩ := Prod.mk.inj h
    simp at hcontinue
  · obtain ⟨rfl, rfl⟩ := Prod.mk.inj h
    rw [not_incomplete_iff] at hincomplete
    rw [List.length_drop]
    unfold frameSize at *
    omega
  · obtain ⟨rfl, rfl⟩ := Prod.mk.inj h
    rw [List.length_tail]
    have hpos := List.length_pos_of_ne_nil hempty
    omega

/-- A turn of the loop either leaves or shortens the buffer. -/
theorem extractFrame_shrinks {buffer rest : List Byte} {result : ExtractResult}
    (h : extractFrame buffer = .ok (result, rest))
    (hcontinue : (∃ message, result = .ok message) ∨ result = .crcMismatch) :
    rest.length < buffer.length := by
  rw [extractFrame_eq_ok] at h
  split_ifs at h with hlen
  · obtain ⟨rfl, rfl⟩ := Prod.mk.inj (Except.ok.inj h)
    simp at hcontinue
  · have hshort := scanCandidate_shrinks (Except.ok.inj h) hcontinue
    have hgarbage := length_dropGarbage_le buffer
    omega

section loop

variable {fuel : ℕ} {s after : SerialTransport} {rest : List Byte} {calls : List ExtractCall}

theorem extractFramesLoop_frame {message : Message}
    (hextract : extractFrame s.rxBuffer = .ok (.ok message, rest))
    (hloop : extractFramesLoop fuel (receive message { s with rxBuffer := rest }) =
      .ok (after, calls)) :
    extractFramesLoop (fuel + 1) s =
      .ok (after, ⟨.ok message, s.rxBuffer.length - rest.length⟩ :: calls) := by
  simp only [extractFramesLoop, hextract, hloop, bind, Except.bind, pure, Except.pure]

theorem extractFramesLoop_crcMismatch
    (hextract : extractFrame s.rxBuffer = .ok (.crcMismatch, rest))
    (hloop : extractFramesLoop fuel
      { s with rxBuffer := rest, crcErrorCount := s.crcErrorCount + 1 } = .ok (after, calls)) :
    extractFramesLoop (fuel + 1) s =
      .ok (after, ⟨.crcMismatch, s.rxBuffer.length - rest.length⟩ :: calls) := by
  simp only [extractFramesLoop, hextract, hloop, bind, Except.bind, pure, Except.pure]

theorem extractFramesLoop_break {result : ExtractResult}
    (hextract : extractFrame s.rxBuffer = .ok (result, rest))
    (hbreak : result = .overflow ∨ result = .incomplete ∨ result = .noStartByte) :
    extractFramesLoop (fuel + 1) s =
      .ok ({ s with rxBuffer := rest }, [⟨result, s.rxBuffer.length - rest.length⟩]) := by
  rcases hbreak with rfl | rfl | rfl <;>
    simp only [extractFramesLoop, hextract, bind, Except.bind, pure, Except.pure]

end loop

@[simp]
theorem receive_serialDev (s : SerialTransport) (message : Message) :
    (receive message s).serialDev = s.serialDev := by
  unfold receive interceptAck
  split <;> rfl

theorem receive_withBuffer (s : SerialTransport) (message : Message) (buffer : List Byte) :
    receive message { s with rxBuffer := buffer } =
      { receive message s with rxBuffer := buffer } := by
  unfold receive interceptAck
  split <;> rfl

/-- Every run of the loop leaves, with all accesses in range, within one turn more than there are
buffered bytes. -/
theorem extractFramesLoop_ok {fuel : ℕ} {s : SerialTransport}
    (hfuel : s.rxBuffer.length < fuel) : ∃ after, extractFramesLoop fuel s = .ok after := by
  induction fuel generalizing s with
  | zero => omega
  | succ fuel ih =>
    obtain ⟨result, rest, hextract⟩ :
        ∃ result rest, extractFrame s.rxBuffer = .ok (result, rest) :=
      ⟨_, _, extractFrame_eq_ok _⟩
    cases result with
    | ok message =>
      have hshort := extractFrame_shrinks hextract (.inl ⟨message, rfl⟩)
      obtain ⟨after, hafter⟩ := ih (s := receive message { s with rxBuffer := rest }) (by
        rw [receive_withBuffer]
        change rest.length < fuel
        omega)
      exact ⟨_, extractFramesLoop_frame hextract hafter⟩
    | crcMismatch =>
      have hshort := extractFrame_shrinks hextract (.inr rfl)
      obtain ⟨after, hafter⟩ :=
        ih (s := { s with rxBuffer := rest, crcErrorCount := s.crcErrorCount + 1 }) (by
          change rest.length < fuel
          omega)
      exact ⟨_, extractFramesLoop_crcMismatch hextract hafter⟩
    | incomplete => exact ⟨_, extractFramesLoop_break hextract (.inr (.inl rfl))⟩
    | noStartByte => exact ⟨_, extractFramesLoop_break hextract (.inr (.inr rfl))⟩
    | overflow => exact ⟨_, extractFramesLoop_break hextract (.inl rfl)⟩

theorem extractFramesChecked_ok (s : SerialTransport) :
    ∃ after, extractFramesChecked s = .ok after := by
  obtain ⟨after, hafter⟩ := extractFramesLoop_ok (s := s) (Nat.lt_succ_self _)
  simp only [extractFramesChecked, hafter, bind, Except.bind]
  exact ⟨_, rfl⟩

theorem feedChunks_ok (chunks : List (List Byte)) (s : SerialTransport) :
    ∃ after, feedChunks chunks s = .ok after := by
  induction chunks generalizing s with
  | nil => exact ⟨_, rfl⟩
  | cons chunk chunks ih =>
    obtain ⟨first, hfirst⟩ := extractFramesChecked_ok { s with rxBuffer := s.rxBuffer ++ chunk }
    obtain ⟨after, hafter⟩ := ih first.1
    simp only [feedChunks, hfirst, hafter, bind, Except.bind]
    exact ⟨_, rfl⟩

theorem readChecked_ok (raw : List Byte) (s : SerialTransport) :
    ∃ after, readChecked raw s = .ok after := by
  unfold readChecked
  split
  · exact feedChunks_ok _ s
  · exact ⟨_, rfl⟩

/-- The value of a computation that is known not to fault. -/
def valueOf {α : Type} (computation : Checked α) (hok : ∃ value, computation = .ok value) : α :=
  match computation, hok with
  | .ok value, _ => value
  | .error _, hok => False.elim (by obtain ⟨_, h⟩ := hok; cases h)

theorem ok_valueOf {α : Type} {computation : Checked α}
    (hok : ∃ value, computation = .ok value) : computation = .ok (valueOf computation hok) := by
  obtain ⟨value, rfl⟩ := hok
  rfl

/-- `Read`: the transport after it and the runs of `ExtractFrames` it made. -/
def read (raw : List Byte) (s : SerialTransport) : SerialTransport × List ExtractRun :=
  valueOf (readChecked raw s) (readChecked_ok raw s)

theorem readChecked_eq (raw : List Byte) (s : SerialTransport) :
    readChecked raw s = .ok (read raw s) :=
  ok_valueOf _

theorem read_of_closed (raw : List Byte) {s : SerialTransport} (hclosed : s.isOpen = false) :
    read raw s = (s, []) := by
  have hread := readChecked_eq raw s
  rw [readChecked, hclosed] at hread
  exact (Except.ok.inj hread).symm

/-- The calls of `OnMessageReceived` made by some runs, in order. -/
def dispatched (runs : List ExtractRun) : List Message :=
  (runs.flatMap ExtractRun.calls).filterMap ExtractCall.message?

/-! ## What reading changes -/

/-- A part of the state that the parse loop changes with the frames it receives only. -/
structure View (β : Type) where
  of : SerialTransport → β
  step : β → Message → β
  of_receive : ∀ s message, of (receive message s) = step (of s) message
  of_rxBuffer : ∀ s buffer, of { s with rxBuffer := buffer } = of s
  of_crcErrorCount : ∀ s count, of { s with crcErrorCount := count } = of s

namespace View

variable {β : Type} (view : View β)

theorem extractFramesLoop {fuel : ℕ} {s after : SerialTransport} {calls : List ExtractCall}
    (h : extractFramesLoop fuel s = .ok (after, calls)) :
    view.of after = (calls.filterMap ExtractCall.message?).foldl view.step (view.of s) := by
  induction fuel generalizing s calls with
  | zero => cases h
  | succ fuel ih =>
    obtain ⟨result, rest, hextract⟩ :
        ∃ result rest, extractFrame s.rxBuffer = .ok (result, rest) :=
      ⟨_, _, extractFrame_eq_ok _⟩
    simp only [SerialTransport.extractFramesLoop, hextract, bind, Except.bind, pure,
      Except.pure] at h
    cases result with
    | ok message =>
      cases hloop :
          SerialTransport.extractFramesLoop fuel (receive message { s with rxBuffer := rest }) with
      | error fault => simp [hloop] at h
      | ok turns =>
        simp only [hloop] at h
        obtain ⟨rfl, rfl⟩ := Prod.mk.inj (Except.ok.inj h)
        rw [ih hloop, view.of_receive, view.of_rxBuffer]
        rfl
    | crcMismatch =>
      cases hloop : SerialTransport.extractFramesLoop fuel
          { s with rxBuffer := rest, crcErrorCount := s.crcErrorCount + 1 } with
      | error fault => simp [hloop] at h
      | ok turns =>
        simp only [hloop] at h
        obtain ⟨rfl, rfl⟩ := Prod.mk.inj (Except.ok.inj h)
        have hcrc := view.of_crcErrorCount { s with rxBuffer := rest } (s.crcErrorCount + 1)
        rw [ih hloop, hcrc, view.of_rxBuffer]
        rfl
    | incomplete | noStartByte | overflow =>
      obtain ⟨rfl, rfl⟩ := Prod.mk.inj (Except.ok.inj h)
      exact view.of_rxBuffer s rest

theorem feedChunks {chunks : List (List Byte)} {s after : SerialTransport}
    {runs : List ExtractRun} (h : feedChunks chunks s = .ok (after, runs)) :
    view.of after = (dispatched runs).foldl view.step (view.of s) := by
  induction chunks generalizing s runs with
  | nil =>
    obtain ⟨rfl, rfl⟩ := Prod.mk.inj (Except.ok.inj h)
    rfl
  | cons chunk chunks ih =>
    obtain ⟨⟨first, calls⟩, hfirst⟩ :=
      extractFramesLoop_ok (s := { s with rxBuffer := s.rxBuffer ++ chunk }) (Nat.lt_succ_self _)
    obtain ⟨⟨rest, later⟩, hrest⟩ := feedChunks_ok chunks first
    simp only [SerialTransport.feedChunks, extractFramesChecked, hfirst, hrest, bind, Except.bind,
      pure, Except.pure] at h
    obtain ⟨rfl, rfl⟩ := Prod.mk.inj (Except.ok.inj h)
    have hview := view.extractFramesLoop hfirst
    rw [view.of_rxBuffer s (s.rxBuffer ++ chunk)] at hview
    rw [ih hrest, hview, dispatched, dispatched, List.flatMap_cons, List.filterMap_append,
      List.foldl_append]

/-- `Read` changes the view with the frames it dispatches, from every state. -/
theorem read (raw : List Byte) (s : SerialTransport) :
    view.of (read raw s).1 = (dispatched (read raw s).2).foldl view.step (view.of s) := by
  have hread := readChecked_eq raw s
  unfold readChecked at hread
  split at hread
  · exact view.feedChunks hread
  · rw [← Except.ok.inj hread]
    rfl

end View

/-- A part of the state that no frame changes is left alone. -/
theorem read_constant {β : Type} (of : SerialTransport → β)
    (hreceive : ∀ s message, of (receive message s) = of s)
    (hbuffer : ∀ s buffer, of { s with rxBuffer := buffer } = of s)
    (hcrc : ∀ s count, of { s with crcErrorCount := count } = of s)
    (raw : List Byte) (s : SerialTransport) : of (read raw s).1 = of s := by
  refine (View.read ⟨of, fun value _ ↦ value, hreceive, hbuffer, hcrc⟩ raw s).trans ?_
  induction dispatched (read raw s).2 with
  | nil => rfl
  | cons message messages ih => exact ih

theorem read_serialDev (raw : List Byte) (s : SerialTransport) :
    (read raw s).1.serialDev = s.serialDev :=
  read_constant serialDev receive_serialDev (fun _ _ ↦ rfl) (fun _ _ ↦ rfl) raw s

/-! ## Waiting for an ACK -/

/-- The test and the consumption in the polling loop of `WaitForAck`. A handshake ACK carries the
firmware version in its status byte and is normalised to `OK`. -/
def takeAck (expectedMsgId : Byte) (s : SerialTransport) :
    Option (AckStatus × SerialTransport) :=
  if s.ackReceived ∧ s.pendingAckMsgId = expectedMsgId then
    let s := { s with ackReceived := false }
    let s := if expectedMsgId = MsgId.handshake then
      { s with firmwareVersion := s.pendingAckStatus, pendingAckStatus := AckStatus.ok } else s
    some (s.pendingAckStatus, s)
  else none

/-- `IsHeartbeatHealthy` at the steady clock reading `now`; the age is in milliseconds, rounded
towards zero. -/
def isHeartbeatHealthy (maxAgeMs : ℕ) (now : SteadyTime) (s : SerialTransport) : Bool :=
  if s.lastHeartbeatTime = 0 then false
  else decide ((now - s.lastHeartbeatTime).tdiv 1000000 ≤ (maxAgeMs : ℤ))

end SerialTransport

end MyDiffbot.Transport
