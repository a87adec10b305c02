import MyDiffbot.Incremental.Streams
import MyDiffbot.Transport.Kestrel

/-!
# Telemetry streams

Frames of different ids are decoded into different members, so handling them commutes, and what a
sequence of frames leaves depends on the subsequence of each id only
(`process_eq_of_sameStreams`). The arrival time of a heartbeat is set aside: it depends on when the
frame is parsed.
-/

namespace MyDiffbot.Transport

open Protocol Incremental

/-! ## The hook -/

namespace Feedback

/-- Everything the hook can do with a message, from any state. -/
inductive Handled (message : Message) : Prop
  | wheel (p : WheelFeedbackPayload) (hmsgId : message.msgId = MsgId.wheelFeedback)
      (h : ∀ f : Feedback, f.onMessageReceived message = f.onWheelFeedback p)
  | imu (p : ImuDataPayload) (hmsgId : message.msgId = MsgId.imuData)
      (h : ∀ f : Feedback, f.onMessageReceived message = f.onImuData p)
  | pid (p : PidDebugPayload) (hmsgId : message.msgId = MsgId.pidDebug)
      (h : ∀ f : Feedback, f.onMessageReceived message = f.onPidDebug p)
  | heartbeat (p : HeartbeatPayload) (hmsgId : message.msgId = MsgId.heartbeat)
      (h : ∀ f : Feedback, f.onMessageReceived message = f.onHeartbeat p)
  | ignored (h : ∀ f : Feedback, f.onMessageReceived message = f)

theorem handled (message : Message) : Handled message := by
  have himu : MsgId.imuData ≠ MsgId.wheelFeedback := by decide
  have hpid : MsgId.pidDebug ≠ MsgId.wheelFeedback ∧ MsgId.pidDebug ≠ MsgId.imuData := by decide
  have hheartbeat : MsgId.heartbeat ≠ MsgId.wheelFeedback ∧ MsgId.heartbeat ≠ MsgId.imuData ∧
      MsgId.heartbeat ≠ MsgId.pidDebug := by decide
  by_cases hwheel : message.msgId = MsgId.wheelFeedback
  · by_cases hshort : message.payload.length < WheelFeedbackPayload.size
    · exact .ignored fun f ↦ by simp [onMessageReceived, hwheel, hshort]
    · exact .wheel _ hwheel fun f ↦ by simp [onMessageReceived, hwheel, hshort]; rfl
  by_cases hdata : message.msgId = MsgId.imuData
  · by_cases hshort : message.payload.length < ImuDataPayload.size
    · exact .ignored fun f ↦ by simp [onMessageReceived, hdata, himu, hshort]
    · exact .imu _ hdata fun f ↦ by simp [onMessageReceived, hdata, himu, hshort]; rfl
  by_cases hdebug : message.msgId = MsgId.pidDebug
  · by_cases hshort : message.payload.length < PidDebugPayload.size
    · exact .ignored fun f ↦ by simp [onMessageReceived, hdebug, hpid, hshort]
    · exact .pid _ hdebug fun f ↦ by simp [onMessageReceived, hdebug, hpid, hshort]; rfl
  by_cases hbeat : message.msgId = MsgId.heartbeat
  · by_cases hshort : message.payload.length < HeartbeatPayload.size
    · exact .ignored fun f ↦ by simp [onMessageReceived, hbeat, hheartbeat, hshort]
    · exact .heartbeat _ hbeat fun f ↦ by simp [onMessageReceived, hbeat, hheartbeat, hshort]; rfl
  · exact .ignored fun f ↦ by simp [onMessageReceived, hwheel, hdata, hdebug, hbeat]

/-- Messages of different ids are decoded into different members. -/
theorem onMessageReceived_commutes : Commutes Message.msgId onMessageReceived := by
  intro f first second hdifferent
  cases handled first with
  | ignored h => rw [h, h]
  | wheel p hmsgId h =>
    cases handled second with
    | wheel _ hmsgId' => exact absurd (hmsgId.trans hmsgId'.symm) hdifferent
    | imu q _ h' | pid q _ h' | heartbeat q _ h' => rw [h, h, h', h']; rfl
    | ignored h' => rw [h', h']
  | imu p hmsgId h =>
    cases handled second with
    | imu _ hmsgId' => exact absurd (hmsgId.trans hmsgId'.symm) hdifferent
    | wheel q _ h' | pid q _ h' | heartbeat q _ h' => rw [h, h, h', h']; rfl
    | ignored h' => rw [h', h']
  | pid p hmsgId h =>
    cases handled second with
    | pid _ hmsgId' => exact absurd (hmsgId.trans hmsgId'.symm) hdifferent
    | wheel q _ h' | imu q _ h' | heartbeat q _ h' => rw [h, h, h', h']; rfl
    | ignored h' => rw [h', h']
  | heartbeat p hmsgId h =>
    cases handled second with
    | heartbeat _ hmsgId' => exact absurd (hmsgId.trans hmsgId'.symm) hdifferent
    | wheel q _ h' | imu q _ h' | pid q _ h' => rw [h, h, h', h']; rfl
    | ignored h' => rw [h', h']

end Feedback

/-! ## The base class -/

/-- Only ACK frames reach the slot, and all frames are counted. -/
theorem SerialTransport.receive_commutes :
    Commutes Message.msgId fun s message ↦ SerialTransport.receive message s := by
  intro s first second hdifferent
  unfold receive interceptAck
  by_cases hfirst : first.msgId = MsgId.ack ∧ 10 ≤ first.payload.length
  · have hsecond : ¬(second.msgId = MsgId.ack ∧ 10 ≤ second.payload.length) :=
      fun hsecond ↦ hdifferent (hfirst.1.trans hsecond.1.symm)
    simp only [hfirst, hsecond, and_self, if_true, if_false]
  · simp only [hfirst, if_false]
    split_ifs <;> rfl

namespace Kestrel

/-- One extracted frame: the interception of the base class, then the hook. -/
def handle (now : SteadyTime) (k : Kestrel) (message : Message) : Kestrel :=
  onMessageReceived now { k with base := k.base.receive message } message

/-- Some frames, each with the steady clock when it is parsed. -/
def process (frames : List (SteadyTime × Message)) (k : Kestrel) : Kestrel :=
  frames.foldl (fun k frame ↦ k.handle frame.1 frame.2) k

/-- The state but for the arrival time of the last heartbeat. -/
def timeless (k : Kestrel) : Kestrel := { k with base := { k.base with lastHeartbeatTime := 0 } }

theorem timeless_process (frames : List (SteadyTime × Message)) (k : Kestrel) :
    (k.process frames).timeless =
      ⟨(frames.map Prod.snd).foldl (fun s message ↦ s.receive message) k.timeless.base,
        (frames.map Prod.snd).foldl Feedback.onMessageReceived k.feedback⟩ := by
  unfold process
  induction frames generalizing k with
  | nil => rfl
  | cons frame frames ih =>
    have hbase : (k.handle frame.1 frame.2).timeless.base =
        k.timeless.base.receive frame.2 := by
      unfold handle onMessageReceived timeless SerialTransport.receive SerialTransport.interceptAck
      dsimp only
      split_ifs <;> rfl
    rw [List.foldl_cons, ih, hbase]
    rfl

/-- Sequences of frames with the same subsequence of every id, parsed at any times, leave the same
state but for the arrival time of the last heartbeat. -/
theorem process_eq_of_sameStreams {frames other : List (SteadyTime × Message)}
    (h : SameStreams Message.msgId (frames.map Prod.snd) (other.map Prod.snd)) (k : Kestrel) :
    (k.process frames).timeless = (k.process other).timeless := by
  rw [timeless_process, timeless_process,
    h.foldl_eq SerialTransport.receive_commutes, h.foldl_eq Feedback.onMessageReceived_commutes]

/-- A wheel frame and the ACK of a reset. -/
def wheelMessage : Message :=
  ⟨MsgId.wheelFeedback, bytesOf 8 0 ++ bytesOf 8 100 ++ bytesOf 8 200 ++ bytesOf 8 0⟩

def ackMessage : Message := ⟨MsgId.ack, bytesOf 8 0 ++ [MsgId.reset, AckStatus.ok]⟩

/-- They change places, and with them the times at which they are parsed. -/
theorem process_eq_of_sameStreams_swapped :
    (initial.process [(1, wheelMessage), (2, ackMessage)]).timeless =
      (initial.process [(1, ackMessage), (2, wheelMessage)]).timeless := by
  have hdifferent : wheelMessage.msgId ≠ ackMessage.msgId := by decide
  have hstreams : SameStreams Message.msgId [wheelMessage, ackMessage] [ackMessage, wheelMessage] :=
    .swap [] [] hdifferent
  exact @process_eq_of_sameStreams [(1, wheelMessage), (2, ackMessage)]
    [(1, ackMessage), (2, wheelMessage)] hstreams initial

/-! ## Reading -/

/-- The part of the base class that a `Read` changes with its frames only. -/
def framesView : SerialTransport.View SerialTransport where
  of s := { s with rxBuffer := [], crcErrorCount := 0, lastHeartbeatTime := 0 }
  step s message := s.receive message
  of_receive s message := by
    unfold SerialTransport.receive SerialTransport.interceptAck
    split <;> rfl
  of_rxBuffer _ _ := rfl
  of_crcErrorCount _ _ := rfl

/-- The state but for the bytes that are not parsed yet, the CRC errors and the heartbeat time. -/
def telemetry (k : Kestrel) : Kestrel := ⟨framesView.of k.base, k.feedback⟩

/-- `Read` after `Read`. -/
def readAll : List Poll → Kestrel → Kestrel × List Effect
  | [], k => (k, [])
  | poll :: polls, k =>
    let (k, effects) := k.read poll
    let (k, later) := readAll polls k
    (k, effects ++ later)

theorem read_telemetry (poll : Poll) (k : Kestrel) :
    (k.read poll).1.telemetry =
      ⟨(parsedMessages (k.read poll).2).foldl framesView.step k.telemetry.base,
        (parsedMessages (k.read poll).2).foldl Feedback.onMessageReceived k.feedback⟩ := by
  have hbase := framesView.read poll.raw k.base
  rw [k.read_eq, parsedMessages_map_parsed]
  exact congrArg (Kestrel.mk · _) hbase

theorem readAll_telemetry (polls : List Poll) (k : Kestrel) :
    (k.readAll polls).1.telemetry =
      ⟨(parsedMessages (k.readAll polls).2).foldl framesView.step k.telemetry.base,
        (parsedMessages (k.readAll polls).2).foldl Feedback.onMessageReceived k.feedback⟩ := by
  induction polls generalizing k with
  | nil => rfl
  | cons poll polls ih =>
    have hread := k.read_telemetry poll
    change ((k.read poll).1.readAll polls).1.telemetry = ⟨(parsedMessages ((k.read poll).2 ++
      ((k.read poll).1.readAll polls).2)).foldl framesView.step k.telemetry.base,
      (parsedMessages ((k.read poll).2 ++ ((k.read poll).1.readAll polls).2)).foldl
        Feedback.onMessageReceived k.feedback⟩
    rw [ih, parsedMessages_append, List.foldl_append, List.foldl_append, hread]
    congr 2
    exact congrArg Kestrel.feedback hread

/-- Runs of `Read` that parse the same streams, in whatever batches, leave the same telemetry. -/
theorem readAll_eq_of_sameStreams {polls other : List Poll} {k : Kestrel}
    (h : SameStreams Message.msgId (parsedMessages (k.readAll polls).2)
      (parsedMessages (k.readAll other).2)) :
    (k.readAll polls).1.telemetry = (k.readAll other).1.telemetry := by
  have hbase := h.foldl_eq SerialTransport.receive_commutes k.telemetry.base
  rw [readAll_telemetry, readAll_telemetry, h.foldl_eq Feedback.onMessageReceived_commutes]
  exact congrArg (Kestrel.mk · _) hbase

end Kestrel

end MyDiffbot.Transport
