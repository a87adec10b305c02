import MyDiffbot.Transport.Payload
import MyDiffbot.Transport.Receive
import MyDiffbot.Incremental.Trace
import Mathlib.Data.Fin.VecNotation

/-!
# The Kestrel driver

`Kestrel` of `kestrel_transport.cpp`: a serial transport whose hook decodes the telemetry, and the
commands of the base. Every operation returns, besides its result, the effects it had in order: the
commands handed to the port and the messages passed to the hook.

What the environment decides are arguments: the bytes each `Read` finds, the readings of the steady
clock, whether a write throws, and how often a wait polls before its deadline. The feedback after
any operation is determined by the messages among its effects (`Effect.feedback`).
-/

namespace MyDiffbot.Transport

open Protocol Numeric Incremental

/-! ## Decoded feedback -/

/-- `IMUSnapshot`; the quaternion is in the order w, x, y, z. -/
structure ImuSnapshot where
  count : ℕ
  linAcc : Fin 3 → ℚ
  angVel : Fin 3 → ℚ
  quat : Fin 4 → ℚ
  /-- sys, gyro, acc, mag -/
  cal : Fin 4 → ℤ
  tempC : ℤ
  deriving DecidableEq

/-- The members of `Kestrel` that its hook writes. -/
structure Feedback where
  leftEncoderTicks : ℤ
  rightEncoderTicks : ℤ
  wheelFeedbackCount : ℕ
  wheelFeedbackStampSec : ℚ
  leftWheelFwMrps : ℤ
  rightWheelFwMrps : ℤ
  leftWheelDir : ℤ
  rightWheelDir : ℤ
  leftDutyPermille : ℤ
  rightDutyPermille : ℤ
  imu : ImuSnapshot
  imuHealthy : Bool
  deriving DecidableEq

/-- Identity orientation until the first frame. -/
def ImuSnapshot.initial : ImuSnapshot where
  count := 0
  linAcc := ![0, 0, 0]
  angVel := ![0, 0, 0]
  quat := ![1, 0, 0, 0]
  cal := ![0, 0, 0, 0]
  tempC := 0

namespace Feedback

def initial : Feedback where
  leftEncoderTicks := 0
  rightEncoderTicks := 0
  wheelFeedbackCount := 0
  wheelFeedbackStampSec := 0
  leftWheelFwMrps := 0
  rightWheelFwMrps := 0
  leftWheelDir := 1
  rightWheelDir := 1
  leftDutyPermille := 0
  rightDutyPermille := 0
  imu := ImuSnapshot.initial
  imuHealthy := false

/-- The direction of the ticks since the previous frame; no change keeps the last one. -/
def direction (ticks previous dir : ℤ) : ℤ :=
  if ticks ≠ previous then if previous < ticks then 1 else -1 else dir

def onWheelFeedback (p : WheelFeedbackPayload) (f : Feedback) : Feedback :=
  let leftWheelDir := direction p.leftEncoderTicks f.leftEncoderTicks f.leftWheelDir
  let rightWheelDir := direction p.rightEncoderTicks f.rightEncoderTicks f.rightWheelDir
  { f with
    leftWheelDir, rightWheelDir
    leftWheelFwMrps := leftWheelDir * p.leftWheelMrps
    rightWheelFwMrps := rightWheelDir * p.rightWheelMrps
    leftEncoderTicks := p.leftEncoderTicks
    rightEncoderTicks := p.rightEncoderTicks
    wheelFeedbackStampSec := p.timestampSec + p.timestampNsec * 1e-9
    wheelFeedbackCount := f.wheelFeedbackCount + 1 }

/-- The quaternion of an IMU frame in the snapshot's order and scale. -/
def quatOf (p : ImuDataPayload) : Fin 4 → ℚ :=
  ![p.quatW * kBno055QuatScale, p.quatX * kBno055QuatScale, p.quatY * kBno055QuatScale,
    p.quatZ * kBno055QuatScale]

def onImuData (p : ImuDataPayload) (f : Feedback) : Feedback :=
  { f with
    imu :=
      { count := f.imu.count + 1
        linAcc := ![p.linAx * kBno055AccScale, p.linAy * kBno055AccScale, p.linAz * kBno055AccScale]
        angVel :=
          ![p.angVx * kBno055GyroScale, p.angVy * kBno055GyroScale, p.angVz * kBno055GyroScale]
        quat := quatOf p
        -- The wire order is sys, acc, gyro, mag.
        cal := ![p.calSys, p.calGyro, p.calAcc, p.calMag]
        tempC := p.tempC } }

def onPidDebug (p : PidDebugPayload) (f : Feedback) : Feedback :=
  { f with leftDutyPermille := p.leftDutyPermille, rightDutyPermille := p.rightDutyPermille }

def onHeartbeat (p : HeartbeatPayload) (f : Feedback) : Feedback :=
  { f with imuHealthy := p.systemStatus.testBit 1 }

/-- `Kestrel::OnMessageReceived`, but for the heartbeat time of the base class. A payload shorter
than its struct is ignored. -/
def onMessageReceived (f : Feedback) (message : Message) : Feedback :=
  let payload := message.payload
  if message.msgId = MsgId.wheelFeedback then
    if payload.length < WheelFeedbackPayload.size then f
    else f.onWheelFeedback (.ofBytes payload)
  else if message.msgId = MsgId.imuData then
    if payload.length < ImuDataPayload.size then f else f.onImuData (.ofBytes payload)
  else if message.msgId = MsgId.pidDebug then
    if payload.length < PidDebugPayload.size then f else f.onPidDebug (.ofBytes payload)
  else if message.msgId = MsgId.heartbeat then
    if payload.length < HeartbeatPayload.size then f else f.onHeartbeat (.ofBytes payload)
  else f

end Feedback

/-- The left and right ticks of a full-length WHEEL_FEEDBACK frame. -/
def wheelTicks? (message : Message) : Option (ℤ × ℤ) :=
  if message.msgId = MsgId.wheelFeedback ∧ WheelFeedbackPayload.size ≤ message.payload.length then
    let p := WheelFeedbackPayload.ofBytes message.payload
    some (p.leftEncoderTicks, p.rightEncoderTicks)
  else none

/-- The quaternion of a full-length IMU_DATA frame. -/
def imuQuat? (message : Message) : Option (Fin 4 → ℚ) :=
  if message.msgId = MsgId.imuData ∧ ImuDataPayload.size ≤ message.payload.length then
    some (Feedback.quatOf (.ofBytes message.payload))
  else none

/-! ## Effects -/

inductive DiagnosticLevel
  | ok
  | warn
  | error
  deriving DecidableEq, Repr

/-- `diagnostic_msgs::msg::DiagnosticStatus`. -/
structure DiagnosticStatus where
  level : DiagnosticLevel
  name : String
  message : String
  hardwareId : String
  values : List (String × String)
  deriving DecidableEq, Repr

inductive Effect
  /-- A command was handed to the port, whose write may have thrown. -/
  | handed (command : Command) (throws : Bool)
  /-- A message was passed to the hook. -/
  | parsed (message : Message)
  /-- A diagnostic was published. -/
  | diagnostic (status : DiagnosticStatus)
  deriving DecidableEq

def Effect.message? : Effect → Option Message
  | .parsed message => some message
  | _ => none

/-- A command that was handed to the port, and whether its write threw. -/
structure Attempt where
  command : Command
  throws : Bool
  deriving DecidableEq

/-- The command, if it was sent. -/
def Attempt.sent? (attempt : Attempt) : Option Command :=
  if attempt.throws then none else some attempt.command

def Effect.attempt? : Effect → Option Attempt
  | .handed command throws => some ⟨command, throws⟩
  | _ => none

/-- The messages among some effects. -/
def parsedMessages (effects : List Effect) : List Message := effects.filterMap Effect.message?

/-- The writes among some effects. -/
def attempts (effects : List Effect) : List Attempt := effects.filterMap Effect.attempt?

/-- The commands that were handed to the port, sent or not. -/
def handedCommands (effects : List Effect) : List Command := (attempts effects).map Attempt.command

/-- The commands that were sent: those whose write returned. -/
def sentCommands (effects : List Effect) : List Command :=
  (attempts effects).filterMap Attempt.sent?

/-! ## The driver -/

structure Kestrel where
  base : SerialTransport
  feedback : Feedback
  deriving DecidableEq

/-- One call of `Read`: the bytes it finds, and the steady clock while it parses them. -/
structure Poll where
  raw : List Byte
  now : SteadyTime
  deriving DecidableEq, Repr

/-- One call of a command with an ACK: whether its write throws, and the polls of its wait. The
deadline passes after the last of them. -/
structure Exchange where
  throws : Bool
  polls : List Poll
  deriving DecidableEq, Repr

namespace Kestrel

def initial : Kestrel := ⟨SerialTransport.initial, Feedback.initial⟩

def isOpen (k : Kestrel) : Bool := k.base.isOpen

/-- `OnMessageReceived`. -/
def onMessageReceived (now : SteadyTime) (k : Kestrel) (message : Message) : Kestrel where
  base :=
    if message.msgId = MsgId.heartbeat ∧ HeartbeatPayload.size ≤ message.payload.length then
      { k.base with lastHeartbeatTime := now }
    else k.base
  feedback := k.feedback.onMessageReceived message

/-- `Read` with the hook. The hook writes nothing that the parse loop reads, so its calls are
folded over the result of the loop. -/
def read (poll : Poll) (k : Kestrel) : Kestrel × List Effect :=
  let (base, runs) := k.base.read poll.raw
  let messages := SerialTransport.dispatched runs
  (messages.foldl (onMessageReceived poll.now) { k with base }, messages.map .parsed)

/-- `WriteCommand`. -/
def writeCommand (throws : Bool) (command : Command) (k : Kestrel) : Bool × List Effect :=
  if k.isOpen then (!throws, [.handed command throws]) else (false, [])

/-- `WaitForAck`. -/
def waitForAck (expectedMsgId : Byte) :
    List Poll → Kestrel → AckStatus × Kestrel × List Effect
  | [], k => (AckStatus.timeout, k, [])
  | poll :: polls, k =>
    let (k, effects) := k.read poll
    match k.base.takeAck expectedMsgId with
    | some (status, base) => (status, { k with base }, effects)
    | none =>
      let (status, k, later) := waitForAck expectedMsgId polls k
      (status, k, effects ++ later)

/-- A command that is written and then waited for. -/
def request (command : Command) (exchange : Exchange) (k : Kestrel) :
    AckStatus × Kestrel × List Effect :=
  let (written, effects) := k.writeCommand exchange.throws command
  if !written then (AckStatus.commandFailed, k, effects)
  else
    let (status, k, later) := k.waitForAck command.msgId exchange.polls
    (status, k, effects ++ later)

/-- A command that is written and not acknowledged. -/
def post (command : Command) (throws : Bool) (k : Kestrel) : AckStatus × List Effect :=
  let (written, effects) := k.writeCommand throws command
  (if written then AckStatus.ok else AckStatus.commandFailed, effects)

def handshake : Exchange → Kestrel → AckStatus × Kestrel × List Effect := request .handshake

def setPidGains (gains : Fin 6 → ℤ) : Exchange → Kestrel → AckStatus × Kestrel × List Effect :=
  request (.setPidGains gains)

def setCommandTimeout (timeoutMs : ℤ) :
    Exchange → Kestrel → AckStatus × Kestrel × List Effect :=
  request (.setCmdTimeout timeoutMs)

def deactivate : Exchange → Kestrel → AckStatus × Kestrel × List Effect := request .deactivate

/-- `Kestrel::Reset`, the command. -/
def reset : Exchange → Kestrel → AckStatus × Kestrel × List Effect := request .reset

/-- The milli-revolutions per second of a wheel command in rad/s. -/
def mrpsOf (radS : Double) : Option ℤ := (radS.scale (1000 / (2 * mPi))).castTo int32

def setWheelVelocity (leftRadS rightRadS : Double) : Bool → Kestrel → AckStatus × List Effect :=
  post (.wheelVelocity (mrpsOf leftRadS) (mrpsOf rightRadS))

def setRgbLed (red green blue mode : Byte) : Bool → Kestrel → AckStatus × List Effect :=
  post (.rgbLedSet red green blue mode)

/-- `Connect`, of the base. -/
def connect (faults : SerialTransport.ConnectFaults) (k : Kestrel) : Bool × Kestrel :=
  let (connected, base) := k.base.connect faults
  (connected, { k with base })

def shutdown (k : Kestrel) : Kestrel := { k with base := k.base.shutdown }

def configure (port : String) (baudRate : ℤ) (readTimeoutMs : ℕ) (k : Kestrel) : Kestrel :=
  { k with base := k.base.configure port baudRate readTimeoutMs }

end Kestrel

/-! ## What the messages do to the feedback -/

namespace Feedback

def ticks (f : Feedback) : ℤ × ℤ := (f.leftEncoderTicks, f.rightEncoderTicks)

theorem onMessageReceived_wheel (f : Feedback) (message : Message) :
    (f.onMessageReceived message).ticks = (wheelTicks? message).getD f.ticks ∧
      (f.onMessageReceived message).wheelFeedbackCount =
        f.wheelFeedbackCount + (wheelTicks? message).toList.length := by
  unfold onMessageReceived wheelTicks?
  by_cases hwheel : message.msgId = MsgId.wheelFeedback
  · by_cases hshort : message.payload.length < WheelFeedbackPayload.size
    · simp [hwheel, hshort, not_le.mpr hshort]
    · simp only [hwheel, hshort, not_lt.mp hshort, if_true, if_false, and_self]
      exact ⟨rfl, rfl⟩
  · simp only [hwheel, if_false, false_and, Option.getD_none, Option.toList_none, List.length_nil,
      Nat.add_zero]
    split_ifs <;> exact ⟨rfl, rfl⟩

theorem onMessageReceived_imu (f : Feedback) (message : Message) :
    (f.onMessageReceived message).imu.quat = (imuQuat? message).getD f.imu.quat ∧
      (f.onMessageReceived message).imu.count =
        f.imu.count + (imuQuat? message).toList.length := by
  unfold onMessageReceived imuQuat?
  by_cases himu : message.msgId = MsgId.imuData
  · have hother : MsgId.imuData ≠ MsgId.wheelFeedback := by decide
    by_cases hshort : message.payload.length < ImuDataPayload.size
    · simp [himu, hother, hshort, not_le.mpr hshort]
    · simp only [himu, hother, hshort, not_lt.mp hshort, if_true, if_false, and_self]
      exact ⟨rfl, rfl⟩
  · simp only [himu, if_false, false_and, Option.getD_none, Option.toList_none, List.length_nil,
      Nat.add_zero]
    split_ifs <;> exact ⟨rfl, rfl⟩

/-- The ticks are those of the last wheel frame, and the frames are counted. -/
theorem foldl_wheel (messages : List Message) (f : Feedback) :
    (messages.foldl onMessageReceived f).ticks =
        (messages.filterMap wheelTicks?).getLastD f.ticks ∧
      (messages.foldl onMessageReceived f).wheelFeedbackCount =
        f.wheelFeedbackCount + (messages.filterMap wheelTicks?).length := by
  refine ⟨foldl_eq_getLastD ticks (fun f message ↦ (onMessageReceived_wheel f message).1)
    messages f, ?_⟩
  induction messages generalizing f with
  | nil => rfl
  | cons message messages ih =>
    rw [List.foldl_cons, ih, (onMessageReceived_wheel f message).2, List.filterMap_cons]
    cases wheelTicks? message <;> simp [Nat.add_assoc, Nat.add_comm 1]

/-- The quaternion is that of the last IMU frame. -/
theorem foldl_quat (messages : List Message) (f : Feedback) :
    (messages.foldl onMessageReceived f).imu.quat =
      (messages.filterMap imuQuat?).getLastD f.imu.quat := by
  exact foldl_eq_getLastD (fun f : Feedback ↦ f.imu.quat)
    (fun f message ↦ (onMessageReceived_imu f message).1) messages f

/-- The IMU frames are counted. -/
theorem foldl_imuCount (messages : List Message) (f : Feedback) :
    (messages.foldl onMessageReceived f).imu.count =
      f.imu.count + (messages.filterMap imuQuat?).length := by
  induction messages generalizing f with
  | nil => rfl
  | cons message messages ih =>
    rw [List.foldl_cons, ih, (onMessageReceived_imu f message).2, List.filterMap_cons]
    cases imuQuat? message <;> simp [Nat.add_assoc, Nat.add_comm 1]

end Feedback

/-! ## What an operation can do -/

theorem parsedMessages_append (first second : List Effect) :
    parsedMessages (first ++ second) = parsedMessages first ++ parsedMessages second :=
  List.filterMap_append

theorem attempts_append (first second : List Effect) :
    attempts (first ++ second) = attempts first ++ attempts second :=
  List.filterMap_append

theorem handedCommands_append (first second : List Effect) :
    handedCommands (first ++ second) = handedCommands first ++ handedCommands second := by
  rw [handedCommands, attempts_append, List.map_append]
  rfl

theorem sentCommands_append (first second : List Effect) :
    sentCommands (first ++ second) = sentCommands first ++ sentCommands second := by
  rw [sentCommands, attempts_append, List.filterMap_append]
  rfl

theorem Attempt.sent?_eq_some {attempt : Attempt} {command : Command}
    (h : attempt.sent? = some command) : attempt.command = command := by
  unfold Attempt.sent? at h
  split at h
  · cases h
  · exact Option.some.inj h

theorem parsedMessages_map_parsed (messages : List Message) :
    parsedMessages (messages.map .parsed) = messages := by
  induction messages with
  | nil => rfl
  | cons message messages ih => exact congrArg (message :: ·) ih

/-- What no attempt has is not sent either. -/
theorem filterMap_sent_eq_nil {β : Type} {kind? : Command → Option β} {tries : List Attempt}
    (h : ∀ attempt ∈ tries, kind? attempt.command = none) :
    (tries.filterMap Attempt.sent?).filterMap kind? = [] := by
  refine List.filterMap_eq_nil_iff.mpr fun command hcommand ↦ ?_
  obtain ⟨attempt, hattempt, hsent⟩ := List.mem_filterMap.mp hcommand
  rw [← Attempt.sent?_eq_some hsent]
  exact h attempt hattempt

theorem attempts_map_parsed (messages : List Message) : attempts (messages.map .parsed) = [] := by
  induction messages with
  | nil => rfl
  | cons message messages ih => exact ih

namespace Kestrel

/-- From one driver state to another with some effects: the feedback follows the parsed messages
and the port is as open as it was. -/
structure Evolves (k : Kestrel) (effects : List Effect) (next : Kestrel) : Prop where
  feedback : next.feedback = (parsedMessages effects).foldl Feedback.onMessageReceived k.feedback
  isOpen : next.isOpen = k.isOpen

namespace Evolves

variable {k middle next : Kestrel} {effects later : List Effect}

theorem refl (k : Kestrel) : Evolves k [] k := ⟨rfl, rfl⟩

theorem trans (first : Evolves k effects middle) (second : Evolves middle later next) :
    Evolves k (effects ++ later) next where
  feedback := by
    rw [second.feedback, first.feedback, parsedMessages_append, List.foldl_append]
  isOpen := second.isOpen.trans first.isOpen

/-- Effects that are not messages leave the feedback as it is. -/
theorem silent (k : Kestrel) (h : parsedMessages effects = []) : Evolves k effects k :=
  ⟨by rw [h]; rfl, rfl⟩

end Evolves

/-- The heartbeat time after some messages that are parsed at one time. -/
def heartbeatAfter (now : SteadyTime) (messages : List Message) (before : SteadyTime) : SteadyTime :=
  messages.foldl (fun time message ↦
    if message.msgId = MsgId.heartbeat ∧ HeartbeatPayload.size ≤ message.payload.length then now
    else time) before

/-- Of the base class, the hook changes the heartbeat time only. -/
theorem foldl_onMessageReceived (now : SteadyTime) (messages : List Message) (k : Kestrel) :
    messages.foldl (onMessageReceived now) k =
      ⟨{ k.base with lastHeartbeatTime := heartbeatAfter now messages k.base.lastHeartbeatTime },
        messages.foldl Feedback.onMessageReceived k.feedback⟩ := by
  induction messages generalizing k with
  | nil => rfl
  | cons message messages ih =>
    rw [List.foldl_cons, ih, heartbeatAfter, heartbeatAfter, List.foldl_cons, List.foldl_cons]
    unfold onMessageReceived
    split <;> rfl

theorem read_eq (poll : Poll) (k : Kestrel) :
    k.read poll =
      (⟨{ (k.base.read poll.raw).1 with
          lastHeartbeatTime := heartbeatAfter poll.now
            (SerialTransport.dispatched (k.base.read poll.raw).2)
            (k.base.read poll.raw).1.lastHeartbeatTime },
        (SerialTransport.dispatched (k.base.read poll.raw).2).foldl Feedback.onMessageReceived
          k.feedback⟩,
        (SerialTransport.dispatched (k.base.read poll.raw).2).map .parsed) :=
  Prod.ext (foldl_onMessageReceived poll.now _ _) rfl

theorem read_evolves (poll : Poll) (k : Kestrel) :
    Evolves k (k.read poll).2 (k.read poll).1 ∧ attempts (k.read poll).2 = [] := by
  rw [k.read_eq]
  refine ⟨⟨?_, ?_⟩, attempts_map_parsed _⟩
  · rw [parsedMessages_map_parsed]
  · exact congrArg SerialPort.isOpen (SerialTransport.read_serialDev poll.raw k.base)

theorem takeAck_serialDev {msgId : Byte} {s next : SerialTransport} {status : AckStatus}
    (h : s.takeAck msgId = some (status, next)) : next.serialDev = s.serialDev := by
  unfold SerialTransport.takeAck at h
  split at h
  · obtain ⟨-, rfl⟩ := Prod.mk.inj (Option.some.inj h)
    dsimp only
    split <;> rfl
  · cases h

section waitForAck

variable {expectedMsgId : Byte} {poll : Poll} {k : Kestrel} {base : SerialTransport}
  {status : AckStatus}

theorem waitForAck_of_ack (polls : List Poll)
    (htake : (k.read poll).1.base.takeAck expectedMsgId = some (status, base)) :
    k.waitForAck expectedMsgId (poll :: polls) =
      (status, { (k.read poll).1 with base }, (k.read poll).2) := by
  rw [waitForAck]
  simp only [htake]

theorem waitForAck_of_no_ack (polls : List Poll)
    (htake : (k.read poll).1.base.takeAck expectedMsgId = none) :
    k.waitForAck expectedMsgId (poll :: polls) =
      (((k.read poll).1.waitForAck expectedMsgId polls).1,
        ((k.read poll).1.waitForAck expectedMsgId polls).2.1,
        (k.read poll).2 ++ ((k.read poll).1.waitForAck expectedMsgId polls).2.2) := by
  rw [waitForAck]
  simp only [htake]

end waitForAck

theorem waitForAck_evolves (expectedMsgId : Byte) (polls : List Poll) (k : Kestrel) :
    Evolves k (k.waitForAck expectedMsgId polls).2.2 (k.waitForAck expectedMsgId polls).2.1 ∧
      attempts (k.waitForAck expectedMsgId polls).2.2 = [] := by
  induction polls generalizing k with
  | nil => exact ⟨.refl k, rfl⟩
  | cons poll polls ih =>
    obtain ⟨hread, hnothing⟩ := read_evolves poll k
    cases htake : (k.read poll).1.base.takeAck expectedMsgId with
    | some result =>
      obtain ⟨status, base⟩ := result
      have hserial := congrArg SerialPort.isOpen (takeAck_serialDev htake)
      rw [waitForAck_of_ack polls htake]
      exact ⟨⟨hread.feedback, hserial.trans hread.isOpen⟩, hnothing⟩
    | none =>
      obtain ⟨hrest, hquiet⟩ := ih (k.read poll).1
      rw [waitForAck_of_no_ack polls htake]
      exact ⟨hread.trans hrest, by rw [attempts_append, hnothing, hquiet]; rfl⟩

/-- A request tries one write if the port is open, and no other. -/
theorem request_attempts (command : Command) (exchange : Exchange) (k : Kestrel) :
    attempts (k.request command exchange).2.2 =
      if k.isOpen then [⟨command, exchange.throws⟩] else [] := by
  unfold request writeCommand
  cases k.isOpen with
  | false => rfl
  | true =>
    obtain ⟨_, hquiet⟩ := waitForAck_evolves command.msgId exchange.polls k
    cases exchange.throws with
    | true => rfl
    | false =>
      change attempts ([.handed command false] ++
        (k.waitForAck command.msgId exchange.polls).2.2) = [⟨command, false⟩]
      rw [attempts_append, hquiet]
      rfl

theorem request_evolves (command : Command) (exchange : Exchange) (k : Kestrel) :
    Evolves k (k.request command exchange).2.2 (k.request command exchange).2.1 ∧
      handedCommands (k.request command exchange).2.2 = if k.isOpen then [command] else [] := by
  constructor
  · unfold request writeCommand
    cases k.isOpen with
    | false => exact .refl k
    | true =>
      cases exchange.throws with
      | true => exact .silent k rfl
      | false =>
        have hwritten : Evolves k [.handed command false] k := .silent k rfl
        exact hwritten.trans (waitForAck_evolves command.msgId exchange.polls k).1
  · rw [handedCommands, request_attempts]
    split <;> rfl

/-- A request that is answered was written. -/
theorem throws_of_request_ok {command : Command} {exchange : Exchange} {k : Kestrel}
    (hok : (k.request command exchange).1 = AckStatus.ok) : exchange.throws = false := by
  unfold request writeCommand at hok
  cases hthrows : exchange.throws with
  | false => rfl
  | true =>
    rw [hthrows] at hok
    cases hopen : k.isOpen <;> rw [hopen] at hok <;> cases hok

theorem post_attempts (command : Command) (throws : Bool) (k : Kestrel) :
    attempts (k.post command throws).2 = if k.isOpen then [⟨command, throws⟩] else [] := by
  unfold post writeCommand
  cases k.isOpen <;> rfl

theorem post_evolves (command : Command) (throws : Bool) (k : Kestrel) :
    Evolves k (k.post command throws).2 k ∧
      handedCommands (k.post command throws).2 = if k.isOpen then [command] else [] := by
  constructor
  · unfold post writeCommand
    cases k.isOpen with
    | false => exact .refl k
    | true => exact .silent k rfl
  · rw [handedCommands, post_attempts]
    split <;> rfl

end Kestrel

end MyDiffbot.Transport
