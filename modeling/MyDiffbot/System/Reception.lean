import MyDiffbot.System.Diffbot
import MyDiffbot.Transport.Batches
import MyDiffbot.Transport.Stream

/-!
# The host's side of the wire

The component reads the port in its `read`, and also while an activation, a deactivation or a retune
waits for an ACK, where frames of the base that nobody waits for arrive as well. `received` is what
an event takes from the port. From one `on_cleanup` to the next, the component parses the frames of
the bytes it takes as if they had come in one piece (`heard_of_session`): no frame that was read is
lost, repeated or reordered by the call that read it.
-/

namespace MyDiffbot.System

open Protocol Numeric Transport Incremental

/-! ## Bytes taken from the port -/

namespace MyDiffbotSystemHardware

/-- The bytes that `HandshakeWithRetry` takes, given what the attempts meet. -/
def handshakeBytes : List Exchange → Kestrel → List Byte
  | [], _ => []
  | attempt :: attempts, k =>
    k.requestBytes .handshake attempt ++
      if (k.handshake attempt).1 = AckStatus.ok then []
      else handshakeBytes attempts (k.handshake attempt).2.1

/-- The bytes that the tuning of an activation takes. -/
def tuningBytes (input : ActivateInput) (h : MyDiffbotSystemHardware) : List Byte :=
  h.kestrel.requestBytes (.setPidGains h.gains) input.gains ++
    (h.kestrel.setPidGains h.gains input.gains).2.1.requestBytes
      (.setCmdTimeout h.cmdTimeoutMs) input.timeout

def activateBytes (input : ActivateInput) (h : MyDiffbotSystemHardware) : List Byte :=
  let (connected, k) := h.kestrel.connect input.faults
  if !connected then []
  else
    let (greeted, tuned, _) := handshakeWithRetry (List.ofFn input.handshakes) k
    handshakeBytes (List.ofFn input.handshakes) k ++
      if !greeted then [] else tuningBytes input { h with kestrel := tuned }

def deactivateBytes (input : DeactivateInput) (h : MyDiffbotSystemHardware) : List Byte :=
  h.kestrel.requestBytes .deactivate input.deactivate ++
    (h.kestrel.deactivate input.deactivate).2.1.requestBytes .reset input.reset

/-- The bytes that the retunes of a `write` take. -/
def writeBytes (input : WriteInput) (h : MyDiffbotSystemHardware) : List Byte :=
  let gains := fun i ↦ (Double.finite (h.overlayGains i)).clampCast int32
  let timeoutMs := (Double.finite h.overlayTimeout).clampCast uint16
  if !h.kestrel.isOpen then []
  else
    (if h.overlayGains ≠ h.sentPidGains then
      h.kestrel.requestBytes (.setPidGains gains) input.gains else []) ++
      if h.overlayTimeout ≠ h.sentCmdTimeoutMs then
        (h.retuneGains input.gains).1.kestrel.requestBytes (.setCmdTimeout timeoutMs) input.timeout
      else []

/-! ## What each callback hears -/

variable (h : MyDiffbotSystemHardware)

theorem handshakeWithRetry_hears (attempts : List Exchange) {k : Kestrel}
    (hwaits : reference.Waits k.base.rxBuffer) :
    k.Hears (handshakeBytes attempts k) (handshakeWithRetry attempts k).2.2
      (handshakeWithRetry attempts k).2.1 := by
  induction attempts generalizing k with
  | nil => exact .silent hwaits rfl
  | cons attempt attempts ih =>
    have hattempt := Kestrel.request_hears .handshake attempt hwaits
    simp only [handshakeBytes, handshakeWithRetry]
    split
    · rw [List.append_nil]
      exact hattempt
    · exact hattempt.trans (ih hattempt.waits)

theorem sendTuning_hears (input : ActivateInput)
    (hwaits : reference.Waits h.kestrel.base.rxBuffer) :
    h.kestrel.Hears (h.tuningBytes input) (h.sendTuning input).2
      (h.sendTuning input).1.kestrel := by
  have hgains := Kestrel.request_hears (.setPidGains h.gains) input.gains hwaits
  exact hgains.trans
    (Kestrel.request_hears (.setCmdTimeout h.cmdTimeoutMs) input.timeout hgains.waits)

/-- A connection keeps what was received before it. -/
theorem connect_keeps (faults : SerialTransport.ConnectFaults) (k : Kestrel) :
    (k.connect faults).2.base.rxBuffer = k.base.rxBuffer ∧
      (k.connect faults).2.base.receivedMessageCount = k.base.receivedMessageCount ∧
      (k.connect faults).2.base.crcErrorCount = k.base.crcErrorCount := by
  unfold Kestrel.connect SerialTransport.connect
  dsimp only
  split_ifs <;> exact ⟨rfl, rfl, rfl⟩

theorem onActivate_hears (input : ActivateInput)
    (hwaits : reference.Waits h.kestrel.base.rxBuffer) :
    h.kestrel.Hears (h.activateBytes input) (h.onActivate input).2.2
      (h.onActivate input).2.1.kestrel := by
  obtain ⟨hbuffer, hreceived, hrejected⟩ := connect_keeps input.faults h.kestrel
  have hconnect : h.kestrel.Hears [] [] (h.kestrel.connect input.faults).2 :=
    (Kestrel.Hears.silent hwaits rfl).congr hbuffer hreceived hrejected
  have hgreet := hconnect.trans (handshakeWithRetry_hears (List.ofFn input.handshakes) hconnect.waits)
  unfold onActivate activateBytes
  dsimp only
  split_ifs with hconnected hgreeted
  · exact hconnect
  · rw [List.append_nil]
    exact hgreet
  · exact hgreet.trans (sendTuning_hears (resetSession input.now { h with
      jointCommand := setEach h.interfaces.jointCommands
        (fun name ↦ some (.finite (h.jointState name))) h.jointCommand
      kestrel := (handshakeWithRetry (List.ofFn input.handshakes)
        (h.kestrel.connect input.faults).2).2.1 }) input hgreet.waits)

theorem onDeactivate_hears (input : DeactivateInput)
    (hwaits : reference.Waits h.kestrel.base.rxBuffer) :
    h.kestrel.Hears (h.deactivateBytes input) (h.onDeactivate input).2.2
      (h.onDeactivate input).2.1.kestrel := by
  have hstop := Kestrel.post_hears
    (.wheelVelocity (Kestrel.mrpsOf (.finite 0)) (Kestrel.mrpsOf (.finite 0)))
    input.wheelThrows hwaits
  have hdeactivate := hstop.trans (Kestrel.request_hears .deactivate input.deactivate hwaits)
  exact hdeactivate.trans (Kestrel.request_hears .reset input.reset hdeactivate.waits)

theorem read_hears (input : ReadInput) (hwaits : reference.Waits h.kestrel.base.rxBuffer) :
    h.kestrel.Hears (h.kestrel.readBytes input.poll) (h.read input).2.2
      (h.read input).2.1.kestrel := by
  cases hopen : h.kestrel.isOpen with
  | false =>
    rw [h.read_of_closed input hopen, Kestrel.readBytes, hopen]
    exact .silent hwaits rfl
  | true =>
    have hread := Kestrel.read_hears input.poll hwaits
    obtain ⟨_, _, _, _, status?, _, heffects⟩ := h.read_eq input hopen
    rw [heffects, h.read_kestrel input hopen]
    simpa only [List.append_nil] using
      hread.trans (.silent hread.waits (parsedMessages_diagnostic status?).1)

theorem writeTuning_hears (input : WriteInput) (hopen : h.kestrel.isOpen = true)
    (hwaits : reference.Waits h.kestrel.base.rxBuffer) :
    h.kestrel.Hears (h.writeBytes input) (h.writeTuning input).2
      (h.writeTuning input).1.kestrel := by
  have hgains : h.kestrel.Hears
      (if h.overlayGains ≠ h.sentPidGains then
        h.kestrel.requestBytes
          (.setPidGains fun i ↦ (Double.finite (h.overlayGains i)).clampCast int32) input.gains
      else []) (h.retuneGains input.gains).2 (h.retuneGains input.gains).1.kestrel := by
    unfold retuneGains
    dsimp only
    split_ifs
    · exact Kestrel.request_hears _ input.gains hwaits
    · exact .silent hwaits rfl
  have hsame : (h.retuneGains input.gains).1.overlayTimeout = h.overlayTimeout ∧
      (h.retuneGains input.gains).1.sentCmdTimeoutMs = h.sentCmdTimeoutMs := by
    obtain ⟨⟨k, hstate, _⟩, _⟩ := h.retuneGains_eq input.gains
    rw [hstate]
    exact ⟨rfl, rfl⟩
  have htimeout : (h.retuneGains input.gains).1.kestrel.Hears
      (if h.overlayTimeout ≠ h.sentCmdTimeoutMs then
        (h.retuneGains input.gains).1.kestrel.requestBytes
          (.setCmdTimeout ((Double.finite h.overlayTimeout).clampCast uint16)) input.timeout
      else []) ((h.retuneGains input.gains).1.retuneTimeout input.timeout).2
      ((h.retuneGains input.gains).1.retuneTimeout input.timeout).1.kestrel := by
    unfold retuneTimeout
    rw [hsame.1, hsame.2]
    dsimp only
    split_ifs
    · exact Kestrel.request_hears _ input.timeout hgains.waits
    · exact .silent hgains.waits rfl
  unfold writeBytes
  rw [hopen]
  exact hgains.trans htimeout

theorem writeLed_hears (input : WriteInput) (hwaits : reference.Waits h.kestrel.base.rxBuffer) :
    h.kestrel.Hears [] (h.writeLed input).2 (h.writeLed input).1.kestrel := by
  unfold writeLed
  split
  · exact .silent hwaits rfl
  · split
    · exact .silent hwaits rfl
    · dsimp only
      split
      · exact .silent hwaits rfl
      · exact Kestrel.post_hears _ input.ledThrows hwaits

theorem writeWheels_hears (input : WriteInput) (hwaits : reference.Waits h.kestrel.base.rxBuffer) :
    h.kestrel.Hears [] (h.writeWheels input).2 (h.writeWheels input).1.kestrel := by
  have hpost := Kestrel.post_hears
    (.wheelVelocity (Kestrel.mrpsOf h.wheelCommands.1) (Kestrel.mrpsOf h.wheelCommands.2))
    input.wheelThrows hwaits
  unfold writeWheels
  cases h.stopped with
  | false => exact hpost
  | true =>
    simp only [Bool.not_true, Bool.false_or, if_true]
    split
    · exact hpost
    · exact .silent hwaits rfl

theorem write_hears (input : WriteInput) (hwaits : reference.Waits h.kestrel.base.rxBuffer) :
    h.kestrel.Hears (h.writeBytes input) (h.write input).2.2 (h.write input).2.1.kestrel := by
  cases hopen : h.kestrel.isOpen with
  | false =>
    rw [h.write_of_closed input hopen, writeBytes, hopen]
    exact .silent hwaits rfl
  | true =>
    rw [h.write_parts input hopen]
    have htuning := h.writeTuning_hears input hopen hwaits
    have hled := htuning.trans (writeLed_hears _ input htuning.waits)
    simpa only [List.append_nil] using hled.trans (writeWheels_hears _ input hled.waits)

end MyDiffbotSystemHardware

/-! ## Runs -/

/-- What one event took from the port, and its effects. -/
structure Reception where
  bytes : List Byte
  effects : List Effect

/-- The bytes that an event takes from the port. -/
def received (c : Component) : Event → List Byte
  | .activate input => c.hardware.activateBytes input
  | .deactivate input => c.hardware.deactivateBytes input
  | .read input => c.hardware.kestrel.readBytes input.poll
  | .write input => c.hardware.writeBytes input
  | _ => []

/-- The component, of which the bytes it takes are seen beside its effects. -/
def reception : Machine Component Event Reception :=
  component.observe fun c event effects ↦ [⟨received c event, effects⟩]

/-- All bytes of a run, in one piece. -/
def streamOf (trace : List Reception) : List Byte := trace.flatMap Reception.bytes

/-- All effects of a run. -/
def effectsOf (trace : List Reception) : List Effect := trace.flatMap Reception.effects

section run

variable {c next last : Component} {event : Event} {events : List Event} {trace : List Reception}

theorem step_hears {effects : List Effect}
    (hwaits : reference.Waits c.hardware.kestrel.base.rxBuffer) (hevent : event ≠ .cleanup)
    (hstep : component.step c event = some (next, effects)) :
    c.hardware.kestrel.Hears (received c event) effects next.hardware.kestrel := by
  cases steps_of_step hstep with
  | setJointCommand | setGpioCommand | configure => exact .silent hwaits rfl
  | cleanup => exact absurd rfl hevent
  | activate input => exact c.hardware.onActivate_hears input hwaits
  | deactivate input => exact c.hardware.onDeactivate_hears input hwaits
  | read input => exact c.hardware.read_hears input hwaits
  | write input => exact c.hardware.write_hears input hwaits

/-- A run without `on_cleanup` hears all its bytes as one piece. -/
theorem heard_of_run (hwaits : reference.Waits c.hardware.kestrel.base.rxBuffer)
    (hrun : reception.run c events = some (last, trace)) (hcleanup : .cleanup ∉ events) :
    c.hardware.kestrel.Hears (streamOf trace) (effectsOf trace) last.hardware.kestrel ∧
      Continues c (effectsOf trace) last := by
  have halong : reception.Along (fun _ event ↦ event ≠ .cleanup) c events :=
    Machine.along_of_forall fun event hevent ↦ ne_of_mem_of_not_mem hevent hcleanup
  have hstart : c.hardware.kestrel.Hears (streamOf []) (effectsOf []) c.hardware.kestrel :=
    .silent hwaits rfl
  refine Machine.run_invariant_nil (fun (state : Component) trace ↦
      c.hardware.kestrel.Hears (streamOf trace) (effectsOf trace) state.hardware.kestrel ∧
        Continues c (effectsOf trace) state)
    (fun hbefore hallowed hstep ↦ ?_) hrun halong ⟨hstart, continues_refl c⟩
  obtain ⟨effects, hcomponent, rfl⟩ := Machine.observe_step_eq_some.mp hstep
  rw [streamOf, effectsOf, List.flatMap_append, List.flatMap_append, List.flatMap_singleton,
    List.flatMap_singleton]
  exact ⟨hbefore.1.trans (step_hears hbefore.1.waits hallowed hcomponent),
    hbefore.2.trans (step_continues hcomponent)⟩

end run

/-! ## Sessions -/

/-- A component that was initialised or cleaned up, and has met nothing since. -/
inductive Begun : Component → Prop
  | init (info : HardwareInfo) (params : HardwareParameters) :
      Begun (.unconfigured (MyDiffbotSystemHardware.onInit info params).2)
  | cleanup {c next : Component} {effects : List Effect}
      (hstep : component.step c .cleanup = some (next, effects)) : Begun next

/-- A session begins with nothing buffered and nothing counted. -/
theorem Begun.fresh {c : Component} (h : Begun c) :
    c.hardware.kestrel.base.rxBuffer = [] ∧
      c.hardware.kestrel.base.receivedMessageCount = 0 ∧
      c.hardware.kestrel.base.crcErrorCount = 0 := by
  cases h with
  | init info params =>
    unfold Component.unconfigured MyDiffbotSystemHardware.onInit Kestrel.configure
      SerialTransport.configure
    dsimp only
    split_ifs <;> exact ⟨rfl, rfl, rfl⟩
  | cleanup hstep =>
    cases steps_of_step hstep with
    | cleanup =>
      unfold MyDiffbotSystemHardware.onCleanup Kestrel.shutdown SerialTransport.shutdown
      dsimp only
      split_ifs <;> exact ⟨rfl, rfl, rfl⟩

section session

variable {begun last : Component} {events : List Event} {trace : List Reception}

/-- Until its `on_cleanup`, a session parses and counts what the reference parser finds in all the
bytes it took, whichever calls took them, and its feedback follows these messages. -/
theorem heard_of_session (hbegun : Begun begun)
    (hrun : reception.run begun events = some (last, trace)) (hcleanup : .cleanup ∉ events) :
    parsedMessages (effectsOf trace) = messages (reference.drain (streamOf trace)).1 ∧
      last.hardware.kestrel.base.rxBuffer = (reference.drain (streamOf trace)).2 ∧
      last.hardware.kestrel.base.receivedMessageCount =
        (messages (reference.drain (streamOf trace)).1).length ∧
      last.hardware.kestrel.base.crcErrorCount =
        rejections (reference.drain (streamOf trace)).1 ∧
      last.hardware.kestrel.feedback =
        (messages (reference.drain (streamOf trace)).1).foldl Feedback.onMessageReceived
          begun.hardware.kestrel.feedback := by
  obtain ⟨hbuffer, hreceived, hrejected⟩ := hbegun.fresh
  have hwaits : reference.Waits begun.hardware.kestrel.base.rxBuffer :=
    reference_waits_iff.mpr (.inl hbuffer)
  obtain ⟨hheard, hcontinues⟩ := heard_of_run hwaits hrun hcleanup
  have hparsed := hheard.parsed
  have hleft := hheard.rxBuffer
  have hcounted := hheard.received
  have hcrc := hheard.rejected
  have hfeedback := hcontinues.feedback
  rw [hbuffer, List.nil_append] at hparsed hleft hcrc
  rw [hreceived, Nat.zero_add, hparsed] at hcounted
  rw [hrejected, Nat.zero_add] at hcrc
  rw [hparsed] at hfeedback
  exact ⟨hparsed, hleft, hcounted, hcrc, hfeedback⟩

/-- If the bytes of a session are frames of the base, cut off anywhere, then it has parsed exactly
the frames of which it took the last byte, and it keeps the piece of the next one. -/
theorem telemetry_of_session {sent : List Message} {more : List Byte} (hbegun : Begun begun)
    (hrun : reception.run begun events = some (last, trace)) (hcleanup : .cleanup ∉ events)
    (hsent : ∀ message ∈ sent, message.payload.length ≤ 255)
    (hcut : streamOf trace ++ more = (sent.map Message.encode).flatten) :
    ∃ coming, sent = parsedMessages (effectsOf trace) ++ coming ∧
      streamOf trace = ((parsedMessages (effectsOf trace)).map Message.encode).flatten ++
        last.hardware.kestrel.base.rxBuffer ∧
      (∀ message ∈ coming.head?,
        last.hardware.kestrel.base.rxBuffer.length < message.encode.length) ∧
      last.hardware.kestrel.base.crcErrorCount = 0 := by
  obtain ⟨hparsed, hbuffer, -, hcrc, -⟩ := heard_of_session hbegun hrun hcleanup
  obtain ⟨arrived, coming, hsplit, hevents, hstream, hshort⟩ := drain_of_cut_encodings hsent hcut
  rw [hevents, messages_map_frame] at hparsed
  rw [hevents, rejections_map_frame] at hcrc
  rw [hparsed, hbuffer]
  exact ⟨coming, hsplit, hstream, hshort, hcrc⟩

end session

/-! ## The IMU states of a session -/

/-- The payload of a full-length IMU_DATA frame. -/
def imuFrame? (message : Message) : Option ImuDataPayload :=
  if message.msgId = MsgId.imuData ∧ ImuDataPayload.size ≤ message.payload.length then
    some (.ofBytes message.payload)
  else none

/-- What an IMU frame has for each interface of the sensor. -/
def imuReading (p : ImuDataPayload) : InterfaceDescription → Option ℚ :=
  MyDiffbotSystemHardware.imuValue (Feedback.initial.onImuData p).imu

/-- Of an IMU frame the interfaces get the same, whatever was received before it. -/
theorem onMessageReceived_imuValue (f : Feedback) (message : Message) :
    MyDiffbotSystemHardware.imuValue (f.onMessageReceived message).imu =
      ((imuFrame? message).map imuReading).getD (MyDiffbotSystemHardware.imuValue f.imu) := by
  unfold Feedback.onMessageReceived imuFrame?
  by_cases himu : message.msgId = MsgId.imuData
  · have hother : MsgId.imuData ≠ MsgId.wheelFeedback := by decide
    by_cases hshort : message.payload.length < ImuDataPayload.size
    · simp [himu, hother, hshort, not_le.mpr hshort]
    · simp only [himu, hother, hshort, not_lt.mp hshort, if_true, if_false, and_self]
      rfl
  · simp only [himu, if_false, false_and, Option.map_none, Option.getD_none]
    split_ifs <;> rfl

/-- What the IMU states are to show after some messages: the last IMU frame, if there is one. -/
def imuShown (f : Feedback) (messages : List Message) : InterfaceDescription → Option ℚ :=
  ((messages.filterMap imuFrame?).map imuReading).getLastD
    (MyDiffbotSystemHardware.imuValue f.imu)

theorem imuValue_foldl (messages : List Message) (f : Feedback) :
    MyDiffbotSystemHardware.imuValue (messages.foldl Feedback.onMessageReceived f).imu =
      imuShown f messages := by
  rw [imuShown, List.map_filterMap]
  exact foldl_eq_getLastD (fun f : Feedback ↦ MyDiffbotSystemHardware.imuValue f.imu)
    onMessageReceived_imuValue messages f

section session

variable {begun last : Component} {events : List Event} {trace : List Reception}

end session

/-! ## A session with a frame in two pieces -/

def ackMessage (msgId : Byte) : Message := ⟨MsgId.ack, bytesOf 8 0 ++ [msgId, AckStatus.ok]⟩

/-- An IMU frame of the identity. -/
def cutMessage : Message := ⟨MsgId.imuData, bytesOf 20 0 ++ bytesOf 2 16384 ++ bytesOf 11 0⟩

/-- An activation in which the IMU frame arrives in two pieces, with the answers to two commands. -/
def cutActivation : MyDiffbotSystemHardware.ActivateInput :=
  { activateAt 100 with
    handshakes := fun _ ↦
      ⟨false, [⟨(ackMessage MsgId.handshake).encode ++ cutMessage.encode.take 20, 1⟩]⟩
    gains :=
      ⟨false, [⟨cutMessage.encode.drop 20 ++ (ackMessage MsgId.setPidGains).encode, 1⟩]⟩ }

def cutSession : List Event := [.configure, .activate cutActivation]

/-- What the base sends in this session. -/
def cutSent : List Message :=
  [ackMessage MsgId.handshake, cutMessage, ackMessage MsgId.setPidGains,
    ackMessage MsgId.setCmdTimeout]

theorem exists_of_cutSession :
    ∃ last trace, reception.run diffbot (cutSession ++ [.read (readAt 200 [])]) =
        some (last, trace) ∧
      streamOf trace = (cutSent.map Message.encode).flatten ∧
      last.hardware.kestrel.isOpen = true ∧
      ⟨"bno055_imu", "orientation.w"⟩ ∈ last.hardware.interfaces.sensorStates := by
  have hrun : ((reception.run diffbot (cutSession ++ [.read (readAt 200 [])])).map fun result ↦
      (streamOf result.2, result.1.hardware.kestrel.isOpen, decide
        (⟨"bno055_imu", "orientation.w"⟩ ∈ result.1.hardware.interfaces.sensorStates))) =
      some ((cutSent.map Message.encode).flatten, true, true) := by
    decide +kernel
  obtain ⟨⟨last, trace⟩, hrun, hseen⟩ := Option.map_eq_some_iff.mp hrun
  obtain ⟨hstream, hopen, hname⟩ : _ ∧ _ ∧ _ := by simpa using hseen
  exact ⟨last, trace, hrun, hstream, hopen, hname⟩

theorem heard_of_session_cut :
    ∃ last trace, reception.run diffbot (cutSession ++ [.read (readAt 200 [])]) =
        some (last, trace) ∧
      last.hardware.kestrel.base.receivedMessageCount = 4 := by
  obtain ⟨last, trace, hrun, hstream, -⟩ := exists_of_cutSession
  obtain ⟨-, -, hreceived, -⟩ :=
    heard_of_session (.init diffbotInfo diffbotParameters) hrun (by simp [cutSession])
  refine ⟨last, trace, hrun, hreceived.trans ?_⟩
  rw [hstream]
  decide +kernel

theorem telemetry_of_session_cut :
    ∃ last trace coming, reception.run diffbot (cutSession ++ [.read (readAt 200 [])]) =
        some (last, trace) ∧ cutSent = parsedMessages (effectsOf trace) ++ coming := by
  obtain ⟨last, trace, hrun, hstream, -⟩ := exists_of_cutSession
  obtain ⟨coming, hsplit, -⟩ := @telemetry_of_session _ _ _ _ cutSent []
    (.init diffbotInfo diffbotParameters) hrun (by simp [cutSession]) (by decide)
    ((List.append_nil _).trans hstream)
  exact ⟨last, trace, coming, hrun, hsplit⟩

end MyDiffbot.System
