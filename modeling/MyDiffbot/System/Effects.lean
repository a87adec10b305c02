import MyDiffbot.System.Cycle

/-!
# What the callbacks can do

One lemma for each function of the component: which members it may change, which commands it sends,
and how the driver evolves meanwhile. The members a result does not name are those it started with.
-/

namespace MyDiffbot.System

open Protocol Numeric Transport Incremental

namespace MyDiffbotSystemHardware

variable (h : MyDiffbotSystemHardware)

/-! ## Reading -/

theorem readImu_eq (input : ReadInput) (publishDiag : Bool) :
    ∃ count change, (h.readImu input publishDiag).1 =
      { h with
        sensorState :=
          setEach h.interfaces.sensorStates (imuValue h.kestrel.feedback.imu) h.sensorState
        lastImuCount := count
        lastImuCountChange := change } := by
  by_cases hcount : h.kestrel.feedback.imu.count = h.lastImuCount
  · refine ⟨h.lastImuCount, h.lastImuCountChange, ?_⟩
    unfold readImu
    cases publishDiag <;> simp [hcount]
  · refine ⟨h.kestrel.feedback.imu.count, input.imuChange, ?_⟩
    unfold readImu
    cases publishDiag <;> simp [hcount]

theorem checkWheelFeedback_eq (now : Time) (f : Feedback) :
    ∃ count change stale left right stamp leftRad rightRad, h.checkWheelFeedback now f =
      { h with
        lastWheelCount := count
        lastWheelCountChange := change
        wheelFeedbackStale := stale
        measLeftPrev := left
        measRightPrev := right
        measStampPrev := stamp
        leftMeasRad := leftRad
        rightMeasRad := rightRad } := by
  unfold checkWheelFeedback restartWindow
  dsimp only
  split_ifs <;> exact ⟨_, _, _, _, _, _, _, _, rfl⟩

theorem measureSpeed_eq (f : Feedback) :
    ∃ left right stamp leftRad rightRad, h.measureSpeed f =
      { h with
        measLeftPrev := left
        measRightPrev := right
        measStampPrev := stamp
        leftMeasRad := leftRad
        rightMeasRad := rightRad } := by
  unfold measureSpeed restartWindow
  dsimp only
  split_ifs <;> exact ⟨_, _, _, _, _, rfl⟩

/-- The joint state after the loop over the joints, for whatever speeds were measured. -/
def movedJoints (f : Feedback) (leftRad rightRad : ℚ) : Store ℚ :=
  h.interfaces.jointStates.keys.foldl
    (moveJoint (f.leftEncoderTicks - h.leftEncoderPrev) (f.rightEncoderTicks - h.rightEncoderPrev)
      leftRad rightRad h.cpr) h.jointState

theorem moveJoints_eq (f : Feedback) :
    ∃ left right stamp leftRad rightRad, h.moveJoints f =
      { h with
        jointState := h.movedJoints f leftRad rightRad
        leftEncoderPrev := f.leftEncoderTicks
        rightEncoderPrev := f.rightEncoderTicks
        measLeftPrev := left
        measRightPrev := right
        measStampPrev := stamp
        leftMeasRad := leftRad
        rightMeasRad := rightRad } := by
  obtain ⟨left, right, stamp, leftRad, rightRad, hspeed⟩ := measureSpeed_eq
    { h with
      leftEncoderPrev := f.leftEncoderTicks
      rightEncoderPrev := f.rightEncoderTicks } f
  refine ⟨left, right, stamp, leftRad, rightRad, ?_⟩
  unfold moveJoints
  dsimp only
  rw [hspeed]
  rfl

theorem readWheels_of_uncounted (input : ReadInput)
    (hcount : h.kestrel.feedback.wheelFeedbackCount = 0) : h.readWheels input = h := by
  simp only [readWheels, hcount, if_true]

theorem readWheels_of_unseeded (input : ReadInput)
    (hcount : h.kestrel.feedback.wheelFeedbackCount ≠ 0) (hinit : h.ticksInit = false) :
    h.readWheels input = h.seedWheels h.kestrel.feedback := by
  simp only [readWheels, hcount, hinit, if_false, Bool.not_false, if_true]

theorem readWheels_of_seeded (input : ReadInput)
    (hcount : h.kestrel.feedback.wheelFeedbackCount ≠ 0) (hinit : h.ticksInit = true) :
    h.readWheels input =
      (h.checkWheelFeedback input.wheel h.kestrel.feedback).moveJoints h.kestrel.feedback := by
  simp only [readWheels, hcount, hinit, if_false, Bool.not_true, Bool.false_eq_true]

/-- `ReadWheels` after the first frame of a session. -/
theorem readWheels_eq (input : ReadInput)
    (hcount : h.kestrel.feedback.wheelFeedbackCount ≠ 0) (hinit : h.ticksInit = true) :
    ∃ count change stale left right stamp leftRad rightRad, h.readWheels input =
      { h with
        jointState := h.movedJoints h.kestrel.feedback leftRad rightRad
        leftEncoderPrev := h.kestrel.feedback.leftEncoderTicks
        rightEncoderPrev := h.kestrel.feedback.rightEncoderTicks
        lastWheelCount := count
        lastWheelCountChange := change
        wheelFeedbackStale := stale
        measLeftPrev := left
        measRightPrev := right
        measStampPrev := stamp
        leftMeasRad := leftRad
        rightMeasRad := rightRad } := by
  obtain ⟨count, change, stale, _, _, _, _, _, hcheck⟩ :=
    h.checkWheelFeedback_eq input.wheel h.kestrel.feedback
  obtain ⟨left, right, stamp, leftRad, rightRad, hmove⟩ :=
    (h.checkWheelFeedback input.wheel h.kestrel.feedback).moveJoints_eq h.kestrel.feedback
  refine ⟨count, change, stale, left, right, stamp, leftRad, rightRad, ?_⟩
  rw [h.readWheels_of_seeded input hcount hinit, hmove, hcheck]
  congr 1

/-- What reading never touches. -/
structure ReadKeeps (next : MyDiffbotSystemHardware) : Prop where
  interfaces : next.interfaces = h.interfaces
  jointCommand : next.jointCommand = h.jointCommand
  gpioCommand : next.gpioCommand = h.gpioCommand
  cpr : next.cpr = h.cpr
  sentPidGains : next.sentPidGains = h.sentPidGains
  sentCmdTimeoutMs : next.sentCmdTimeoutMs = h.sentCmdTimeoutMs
  lastActiveTime : next.lastActiveTime = h.lastActiveTime

/-- `ReadWheels` writes the odometry and the speed measurement, and nothing else. -/
theorem readWheels_writes (input : ReadInput) :
    ∃ jointState left right init count change stale measLeft measRight stamp leftRad rightRad,
      h.readWheels input =
        { h with
          jointState := jointState
          leftEncoderPrev := left
          rightEncoderPrev := right
          ticksInit := init
          lastWheelCount := count
          lastWheelCountChange := change
          wheelFeedbackStale := stale
          measLeftPrev := measLeft
          measRightPrev := measRight
          measStampPrev := stamp
          leftMeasRad := leftRad
          rightMeasRad := rightRad } := by
  by_cases hcount : h.kestrel.feedback.wheelFeedbackCount = 0
  · rw [h.readWheels_of_uncounted input hcount]
    exact ⟨_, _, _, _, _, _, _, _, _, _, _, _, rfl⟩
  cases hinit : h.ticksInit with
  | false =>
    rw [h.readWheels_of_unseeded input hcount hinit]
    exact ⟨_, _, _, _, _, _, _, _, _, _, _, _, rfl⟩
  | true =>
    obtain ⟨_, _, _, _, _, _, _, _, hmove⟩ := h.readWheels_eq input hcount hinit
    rw [hmove]
    exact ⟨_, _, _, _, _, _, _, _, _, _, _, _, rfl⟩

theorem readWheels_keeps (input : ReadInput) :
    ReadKeeps h (h.readWheels input) ∧ (h.readWheels input).kestrel = h.kestrel ∧
      (h.readWheels input).sensorState = h.sensorState := by
  obtain ⟨_, _, _, _, _, _, _, _, _, _, _, _, hwrites⟩ := h.readWheels_writes input
  rw [hwrites]
  exact ⟨⟨rfl, rfl, rfl, rfl, rfl, rfl, rfl⟩, rfl, rfl⟩

/-- The state in which `read` calls `ReadWheels`: frames parsed, IMU and led states written. -/
theorem read_eq (input : ReadInput) (hopen : h.kestrel.isOpen = true) :
    ∃ gpioState lastDiagPub count change status?,
      (h.read input).2.1 =
          ({ h with
            kestrel := (h.kestrel.read input.poll).1
            sensorState := setEach h.interfaces.sensorStates
              (imuValue (h.kestrel.read input.poll).1.feedback.imu) h.sensorState
            gpioState := gpioState
            lastDiagPub := lastDiagPub
            lastImuCount := count
            lastImuCountChange := change } : MyDiffbotSystemHardware).readWheels input ∧
        (h.read input).2.2 =
          (h.kestrel.read input.poll).2 ++ (Option.map Effect.diagnostic status?).toList := by
  have hread : ∃ gpioState lastDiagPub publishDiag,
      (h.read input).2.1 = (({ h with
        kestrel := (h.kestrel.read input.poll).1
        gpioState := gpioState
        lastDiagPub := lastDiagPub } : MyDiffbotSystemHardware).readImu input
          publishDiag).1.readWheels input ∧
      ∃ status?, (h.read input).2.2 =
        (h.kestrel.read input.poll).2 ++ (Option.map Effect.diagnostic status?).toList := by
    unfold read
    rw [hopen]
    exact ⟨_, _, _, rfl, _, rfl⟩
  obtain ⟨gpioState, lastDiagPub, publishDiag, hstate, status?, heffects⟩ := hread
  obtain ⟨count, change, himu⟩ := readImu_eq _ input publishDiag
  rw [himu] at hstate
  exact ⟨gpioState, lastDiagPub, count, change, status?, hstate, heffects⟩

theorem read_kestrel (input : ReadInput) (hopen : h.kestrel.isOpen = true) :
    (h.read input).2.1.kestrel = (h.kestrel.read input.poll).1 := by
  obtain ⟨_, _, _, _, _, hstate, _⟩ := h.read_eq input hopen
  rw [hstate, (readWheels_keeps _ input).2.1]

theorem read_of_closed (input : ReadInput) (hclosed : h.kestrel.isOpen = false) :
    h.read input = (.error, h, []) := by
  unfold read
  rw [hclosed]
  rfl

theorem parsedMessages_diagnostic (status? : Option DiagnosticStatus) :
    parsedMessages (status?.map Effect.diagnostic).toList = [] ∧
      attempts (status?.map Effect.diagnostic).toList = [] := by
  cases status? <;> exact ⟨rfl, rfl⟩

/-- `read` parses frames and sends nothing. -/
theorem read_evolves (input : ReadInput) :
    h.kestrel.Evolves (h.read input).2.2 (h.read input).2.1.kestrel ∧
      attempts (h.read input).2.2 = [] := by
  cases hopen : h.kestrel.isOpen with
  | false =>
    rw [h.read_of_closed input hopen]
    exact ⟨.refl _, rfl⟩
  | true =>
    obtain ⟨_, _, _, _, status?, hstate, heffects⟩ := h.read_eq input hopen
    obtain ⟨hread, hnothing⟩ := h.kestrel.read_evolves input.poll
    obtain ⟨hparsed, hquiet⟩ := parsedMessages_diagnostic status?
    rw [hstate, heffects, (readWheels_keeps _ input).2.1, attempts_append, hnothing, hquiet]
    refine ⟨?_, rfl⟩
    simpa only [List.append_nil] using hread.trans (.silent _ hparsed)

theorem read_keeps (input : ReadInput) : ReadKeeps h (h.read input).2.1 := by
  cases hopen : h.kestrel.isOpen with
  | false =>
    rw [h.read_of_closed input hopen]
    exact ⟨rfl, rfl, rfl, rfl, rfl, rfl, rfl⟩
  | true =>
    obtain ⟨_, _, _, _, _, hstate, _⟩ := h.read_eq input hopen
    rw [hstate]
    obtain ⟨hkeeps, _⟩ := readWheels_keeps _ input
    exact ⟨hkeeps.interfaces, hkeeps.jointCommand, hkeeps.gpioCommand, hkeeps.cpr,
      hkeeps.sentPidGains, hkeeps.sentCmdTimeoutMs, hkeeps.lastActiveTime⟩

/-- An open `read` copies the IMU snapshot into the sensor states. -/
theorem read_sensorState (input : ReadInput) (hopen : h.kestrel.isOpen = true) :
    (h.read input).2.1.sensorState = setEach h.interfaces.sensorStates
      (imuValue (h.read input).2.1.kestrel.feedback.imu) h.sensorState := by
  obtain ⟨_, _, _, _, _, hstate, _⟩ := h.read_eq input hopen
  rw [hstate]
  obtain ⟨_, hkestrel, hsensors⟩ := readWheels_keeps _ input
  rw [hkestrel, hsensors]

/-! ## Writing -/

/-- The gain a `write` asks for: the command, if there is one and it is finite. -/
theorem overlayGains_apply (i : Fin 6) :
    h.overlayGains i =
      if gainInterface i ∈ h.interfaces.gpioCommands then
        (h.gpioCommand (gainInterface i)).finite?.getD (h.sentPidGains i)
      else h.sentPidGains i := by
  refine foldl_overlay (fun gains : Fin 6 → ℚ ↦ gains i) (fun gains name ↦ ?_) _ _
  by_cases hname : name = gainInterface i
  · subst hname
    cases h.gpioCommand (gainInterface i) <;> simp [Double.finite?]
  · cases h.gpioCommand name <;> simp [hname]

theorem overlayTimeout_eq :
    h.overlayTimeout =
      if timeoutInterface ∈ h.interfaces.gpioCommands then
        (h.gpioCommand timeoutInterface).finite?.getD h.sentCmdTimeoutMs
      else h.sentCmdTimeoutMs := by
  refine foldl_overlay (fun timeout : ℚ ↦ timeout) (fun timeout name ↦ ?_) _ _
  by_cases hname : name = timeoutInterface
  · subst hname
    cases h.gpioCommand timeoutInterface <;> simp [Double.finite?]
  · cases h.gpioCommand name <;> simp [hname]

theorem retuneGains_eq (exchange : Exchange) :
    (∃ k, (h.retuneGains exchange).1 = { h with kestrel := k, sentPidGains := h.overlayGains } ∧
      h.kestrel.Evolves (h.retuneGains exchange).2 k) ∧
    handedCommands (h.retuneGains exchange).2 =
      if h.overlayGains ≠ h.sentPidGains ∧ h.kestrel.isOpen = true then
        [.setPidGains fun i ↦ (Double.finite (h.overlayGains i)).clampCast int32]
      else [] := by
  unfold retuneGains
  dsimp only
  split_ifs with hchange hguard hguard
  · obtain ⟨hevolves, hsent⟩ := Kestrel.request_evolves
      (.setPidGains fun i ↦ (Double.finite (h.overlayGains i)).clampCast int32) exchange h.kestrel
    exact ⟨⟨_, rfl, hevolves⟩, hsent.trans (if_pos hguard.2)⟩
  · obtain ⟨hevolves, hsent⟩ := Kestrel.request_evolves
      (.setPidGains fun i ↦ (Double.finite (h.overlayGains i)).clampCast int32) exchange h.kestrel
    exact ⟨⟨_, rfl, hevolves⟩, hsent.trans (if_neg fun hopen ↦ hguard ⟨hchange, hopen⟩)⟩
  · exact absurd hguard.1 hchange
  · refine ⟨⟨h.kestrel, ?_, .refl _⟩, rfl⟩
    rw [not_not.mp hchange]

theorem retuneTimeout_eq (exchange : Exchange) :
    (∃ k, (h.retuneTimeout exchange).1 =
        { h with kestrel := k, sentCmdTimeoutMs := h.overlayTimeout } ∧
      h.kestrel.Evolves (h.retuneTimeout exchange).2 k) ∧
    handedCommands (h.retuneTimeout exchange).2 =
      if h.overlayTimeout ≠ h.sentCmdTimeoutMs ∧ h.kestrel.isOpen = true then
        [.setCmdTimeout ((Double.finite h.overlayTimeout).clampCast uint16)]
      else [] := by
  unfold retuneTimeout
  dsimp only
  split_ifs with hchange hguard hguard
  · obtain ⟨hevolves, hsent⟩ := Kestrel.request_evolves
      (.setCmdTimeout ((Double.finite h.overlayTimeout).clampCast uint16)) exchange h.kestrel
    exact ⟨⟨_, rfl, hevolves⟩, hsent.trans (if_pos hguard.2)⟩
  · obtain ⟨hevolves, hsent⟩ := Kestrel.request_evolves
      (.setCmdTimeout ((Double.finite h.overlayTimeout).clampCast uint16)) exchange h.kestrel
    exact ⟨⟨_, rfl, hevolves⟩, hsent.trans (if_neg fun hopen ↦ hguard ⟨hchange, hopen⟩)⟩
  · exact absurd hguard.1 hchange
  · refine ⟨⟨h.kestrel, ?_, .refl _⟩, rfl⟩
    rw [not_not.mp hchange]

/-- The retunes a `write` sends. -/
def retunes : List Command :=
  (if h.overlayGains ≠ h.sentPidGains then
    [.setPidGains fun i ↦ (Double.finite (h.overlayGains i)).clampCast int32] else []) ++
  if h.overlayTimeout ≠ h.sentCmdTimeoutMs then
    [.setCmdTimeout ((Double.finite h.overlayTimeout).clampCast uint16)] else []

theorem mem_retunes {command : Command} (hmem : command ∈ h.retunes) :
    (∃ gains, command = .setPidGains gains) ∨ ∃ timeoutMs, command = .setCmdTimeout timeoutMs := by
  rcases List.mem_append.mp hmem with hgains | htimeout
  · split_ifs at hgains
    · exact .inl ⟨_, List.mem_singleton.mp hgains⟩
    · exact absurd hgains List.not_mem_nil
  · split_ifs at htimeout
    · exact .inr ⟨_, List.mem_singleton.mp htimeout⟩
    · exact absurd htimeout List.not_mem_nil

theorem writeTuning_eq (input : WriteInput) (hopen : h.kestrel.isOpen = true) :
    (∃ k, (h.writeTuning input).1 = { h with
          kestrel := k
          sentPidGains := h.overlayGains
          sentCmdTimeoutMs := h.overlayTimeout } ∧
      h.kestrel.Evolves (h.writeTuning input).2 k) ∧
    handedCommands (h.writeTuning input).2 = h.retunes := by
  obtain ⟨⟨k, hgains, hfirst⟩, hgainsSent⟩ := h.retuneGains_eq input.gains
  obtain ⟨⟨final, htimeout, hsecond⟩, htimeoutSent⟩ :=
    (h.retuneGains input.gains).1.retuneTimeout_eq input.timeout
  rw [hgains] at hsecond htimeoutSent
  have hstillOpen : k.isOpen = true := hfirst.isOpen.trans hopen
  simp only [hopen, hstillOpen, and_true] at hgainsSent htimeoutSent
  have hnode : (h.writeTuning input).1 =
      ((h.retuneGains input.gains).1.retuneTimeout input.timeout).1 := by
    unfold writeTuning
    rfl
  have heffects : (h.writeTuning input).2 = (h.retuneGains input.gains).2 ++
      ((h.retuneGains input.gains).1.retuneTimeout input.timeout).2 := by
    unfold writeTuning
    rfl
  refine ⟨⟨final, ?_, ?_⟩, ?_⟩
  · rw [hnode, htimeout, hgains]
    rfl
  · rw [heffects, hgains]
    exact hfirst.trans hsecond
  · rw [heffects, hgains, handedCommands_append, hgainsSent, htimeoutSent]
    rfl

/-- The LED frame of a `write`, if there is one. -/
theorem writeLed_eq (input : WriteInput) :
    (∃ led send, (h.writeLed input).1 = { h with sentLed := led, lastLedSend := send }) ∧
      h.kestrel.Evolves (h.writeLed input).2 h.kestrel ∧
      ∀ command ∈ handedCommands (h.writeLed input).2,
        ∃ red green blue mode, command = .rgbLedSet red green blue mode := by
  have hnone : h.kestrel.Evolves [] h.kestrel ∧ ∀ command ∈ handedCommands [],
      ∃ red green blue mode, command = .rgbLedSet red green blue mode :=
    ⟨.refl _, fun _ hmem ↦ absurd hmem List.not_mem_nil⟩
  unfold writeLed
  split
  · exact ⟨⟨_, _, rfl⟩, hnone⟩
  · split
    · exact ⟨⟨_, _, rfl⟩, hnone⟩
    · rename_i led _
      dsimp only
      split
      · exact ⟨⟨_, _, rfl⟩, hnone⟩
      · obtain ⟨hevolves, hsent⟩ := Kestrel.post_evolves
          (.rgbLedSet led.r led.g led.b led.fwMode) input.ledThrows h.kestrel
        refine ⟨⟨_, _, rfl⟩, hevolves, fun command hcommand ↦ ?_⟩
        have hmem := hsent ▸ hcommand
        split at hmem
        · exact ⟨_, _, _, _, List.mem_singleton.mp hmem⟩
        · exact absurd hmem List.not_mem_nil

theorem mrpsOf_of_isZero {command : Double} (hzero : command.isZero = true) :
    Kestrel.mrpsOf command = some 0 := by
  rw [Double.isZero_iff.mp hzero]
  calc
    Kestrel.mrpsOf (.finite 0) = Double.castTo int32 (.finite 0) := by
      simp only [Kestrel.mrpsOf, Double.scale, zero_mul]
    _ = some 0 := Double.castTo_zero int32

/-- The wheel velocity frame of a `write`, if there is one. -/
def wheelFrame (input : WriteInput) : Option Command :=
  if !h.stopped || decide (seconds (input.grace - h.lastActiveTime) < 1) then
    some (.wheelVelocity (Kestrel.mrpsOf h.wheelCommands.1) (Kestrel.mrpsOf h.wheelCommands.2))
  else none

theorem writeWheels_eq (input : WriteInput) (hopen : h.kestrel.isOpen = true) :
    (h.writeWheels input).1 =
        { h with lastActiveTime := if h.stopped then h.lastActiveTime else input.active } ∧
      h.kestrel.Evolves (h.writeWheels input).2 h.kestrel ∧
      attempts (h.writeWheels input).2 =
        ((h.wheelFrame input).map (Attempt.mk · input.wheelThrows)).toList := by
  obtain ⟨hevolves, _⟩ := Kestrel.post_evolves
    (.wheelVelocity (Kestrel.mrpsOf h.wheelCommands.1) (Kestrel.mrpsOf h.wheelCommands.2))
    input.wheelThrows h.kestrel
  have hattempts := Kestrel.post_attempts
    (.wheelVelocity (Kestrel.mrpsOf h.wheelCommands.1) (Kestrel.mrpsOf h.wheelCommands.2))
    input.wheelThrows h.kestrel
  rw [hopen, if_pos rfl] at hattempts
  unfold writeWheels wheelFrame
  cases h.stopped with
  | false => exact ⟨rfl, hevolves, hattempts⟩
  | true =>
    simp only [Bool.not_true, Bool.false_or, if_true]
    split
    · exact ⟨trivial, hevolves, hattempts⟩
    · exact ⟨trivial, .refl _, rfl⟩

/-- A `write` on an open port is its three parts in order. -/
theorem write_parts (input : WriteInput) (hopen : h.kestrel.isOpen = true) :
    (h.write input).2 =
      ((((h.writeTuning input).1.writeLed input).1.writeWheels input).1,
        (h.writeTuning input).2 ++ ((h.writeTuning input).1.writeLed input).2 ++
          (((h.writeTuning input).1.writeLed input).1.writeWheels input).2) := by
  unfold write
  rw [hopen]
  rfl

/-- Everything a `write` on an open port changes. -/
theorem write_state (input : WriteInput) (hopen : h.kestrel.isOpen = true) :
    ∃ k led send, (h.write input).2.1 = { h with
          kestrel := k
          sentPidGains := h.overlayGains
          sentCmdTimeoutMs := h.overlayTimeout
          sentLed := led
          lastLedSend := send
          lastActiveTime := if h.stopped then h.lastActiveTime else input.active } ∧
      h.kestrel.Evolves (h.write input).2.2 k := by
  obtain ⟨⟨k, htuning, htuned⟩, _⟩ := h.writeTuning_eq input hopen
  obtain ⟨⟨led, send, hled⟩, hlit, _⟩ := (h.writeTuning input).1.writeLed_eq input
  have hstillOpen : ((h.writeTuning input).1.writeLed input).1.kestrel.isOpen = true := by
    rw [hled, htuning]
    exact htuned.isOpen.trans hopen
  obtain ⟨hwheels, hmoved, _⟩ := writeWheels_eq _ input hstillOpen
  rw [h.write_parts input hopen]
  refine ⟨k, led, send, ?_, ?_⟩
  · rw [hwheels, hled, htuning]
    rfl
  · have hkestrel : (h.writeTuning input).1.kestrel = k := by rw [htuning]
    have hsame : ((h.writeTuning input).1.writeLed input).1.kestrel = k := by rw [hled, htuning]
    rw [hkestrel] at hlit
    rw [hsame] at hmoved
    exact (htuned.trans hlit).trans hmoved

/-- Everything a `write` on an open port tries to send. -/
theorem write_attempts (input : WriteInput) (hopen : h.kestrel.isOpen = true) :
    ∃ tuning led : List Attempt, tuning.map Attempt.command = h.retunes ∧
      (∀ attempt ∈ led, ∃ red green blue mode, attempt.command = .rgbLedSet red green blue mode) ∧
      attempts (h.write input).2.2 =
        tuning ++ led ++ ((h.wheelFrame input).map (Attempt.mk · input.wheelThrows)).toList := by
  obtain ⟨⟨k, htuning, htuned⟩, hretunes⟩ := h.writeTuning_eq input hopen
  obtain ⟨⟨led, send, hled⟩, _, hlit⟩ := (h.writeTuning input).1.writeLed_eq input
  have hstillOpen : ((h.writeTuning input).1.writeLed input).1.kestrel.isOpen = true := by
    rw [hled, htuning]
    exact htuned.isOpen.trans hopen
  obtain ⟨_, _, hwheels⟩ := writeWheels_eq _ input hstillOpen
  refine ⟨_, _, hretunes, fun attempt hattempt ↦ hlit _ (List.mem_map_of_mem hattempt), ?_⟩
  rw [h.write_parts input hopen, attempts_append, attempts_append, hwheels, hled, htuning]
  rfl

theorem write_handed (input : WriteInput) (hopen : h.kestrel.isOpen = true) :
    ∃ ledCommands : List Command,
      (∀ command ∈ ledCommands,
        ∃ red green blue mode, command = .rgbLedSet red green blue mode) ∧
      handedCommands (h.write input).2.2 =
        h.retunes ++ ledCommands ++ (h.wheelFrame input).toList := by
  obtain ⟨tuning, led, htuning, hled, hattempts⟩ := h.write_attempts input hopen
  refine ⟨led.map Attempt.command, List.forall_mem_map.mpr hled, ?_⟩
  rw [handedCommands, hattempts, List.map_append, List.map_append, htuning]
  cases h.wheelFrame input <;> rfl

theorem write_of_closed (input : WriteInput) (hclosed : h.kestrel.isOpen = false) :
    h.write input = (.error, h, []) := by
  unfold write
  rw [hclosed]
  rfl

/-! ## Lifecycle callbacks -/

/-- What the callbacks around a session leave alone. -/
structure SessionKeeps (next : MyDiffbotSystemHardware) (effects : List Effect) : Prop where
  interfaces : next.interfaces = h.interfaces
  jointState : next.jointState = h.jointState
  sensorState : next.sensorState = h.sensorState
  cpr : next.cpr = h.cpr
  feedback : next.kestrel.feedback =
    (parsedMessages effects).foldl Feedback.onMessageReceived h.kestrel.feedback

theorem handshakeWithRetry_evolves (attempts : List Exchange) (k : Kestrel) :
    k.Evolves (handshakeWithRetry attempts k).2.2 (handshakeWithRetry attempts k).2.1 := by
  induction attempts generalizing k with
  | nil => exact .refl k
  | cons attempt attempts ih =>
    obtain ⟨hattempt, _⟩ := Kestrel.request_evolves .handshake attempt k
    simp only [handshakeWithRetry]
    split
    · exact hattempt
    · exact hattempt.trans (ih (k.handshake attempt).2.1)

theorem sendTuning_eq (input : ActivateInput) :
    ∃ k command gains timeout, (h.sendTuning input).1 =
        { h with
          kestrel := k
          gpioCommand := command
          sentPidGains := gains
          sentCmdTimeoutMs := timeout } ∧
      h.kestrel.Evolves (h.sendTuning input).2 k := by
  obtain ⟨hgains, _⟩ := Kestrel.request_evolves (.setPidGains h.gains) input.gains h.kestrel
  obtain ⟨htimeout, _⟩ := Kestrel.request_evolves (.setCmdTimeout h.cmdTimeoutMs) input.timeout
    (h.kestrel.setPidGains h.gains input.gains).2.1
  exact ⟨_, _, _, _, rfl, hgains.trans htimeout⟩

/-- A connection that succeeds leaves the port open. -/
theorem connect_isOpen (faults : SerialTransport.ConnectFaults) (k : Kestrel)
    (hconnected : (k.connect faults).1 = true) : (k.connect faults).2.isOpen = true := by
  unfold Kestrel.connect Kestrel.isOpen SerialTransport.connect at *
  dsimp only at *
  split_ifs at hconnected ⊢ with hconfigured hopen hthrows hbaud hflush
  · exact hopen
  · rfl

theorem handshakeWithRetry_sent (attempts : List Exchange) (k : Kestrel) :
    ∀ command ∈ handedCommands (handshakeWithRetry attempts k).2.2, command = .handshake := by
  induction attempts generalizing k with
  | nil => exact fun _ hmem ↦ absurd hmem List.not_mem_nil
  | cons attempt attempts ih =>
    have hattempt : ∀ command ∈ handedCommands (k.handshake attempt).2.2, command = .handshake := by
      have hsent := (Kestrel.request_evolves .handshake attempt k).2
      intro command hmem
      rw [Kestrel.handshake, hsent] at hmem
      split at hmem
      · exact List.mem_singleton.mp hmem
      · exact absurd hmem List.not_mem_nil
    simp only [handshakeWithRetry]
    split
    · exact hattempt
    · rw [handedCommands_append]
      exact List.forall_mem_append.mpr ⟨hattempt, ih _⟩

/-- A successful activation greets the base on an open port, resets the session and sends the
tuning. -/
theorem onActivate_of_success (input : ActivateInput)
    (hsuccess : (h.onActivate input).1 = .success) :
    ∃ jointCommand k effects, k.isOpen = true ∧
      (∀ command ∈ handedCommands effects, command = .handshake) ∧
      k.feedback = (parsedMessages effects).foldl Feedback.onMessageReceived h.kestrel.feedback ∧
      (h.onActivate input).2 =
        ((sendTuning input (resetSession input.now { h with jointCommand, kestrel := k })).1,
          effects ++
            (sendTuning input (resetSession input.now { h with jointCommand, kestrel := k })).2) := by
  have hgreet := handshakeWithRetry_evolves (List.ofFn input.handshakes)
    (h.kestrel.connect input.faults).2
  have hsent := handshakeWithRetry_sent (List.ofFn input.handshakes)
    (h.kestrel.connect input.faults).2
  unfold onActivate at hsuccess ⊢
  dsimp only at hsuccess ⊢
  split_ifs at hsuccess ⊢ with hconnected hgreeted
  have hopen := connect_isOpen input.faults h.kestrel (by simpa using hconnected)
  exact ⟨_, _, _, hgreet.isOpen.trans hopen, hsent, hgreet.feedback, rfl⟩

/-- An activation parses frames; if it succeeds, the next wheel feedback will be a seed. -/
theorem onActivate_keeps (input : ActivateInput) :
    SessionKeeps h (h.onActivate input).2.1 (h.onActivate input).2.2 ∧
      ((h.onActivate input).1 = .success → (h.onActivate input).2.1.ticksInit = false) := by
  have hgreet := handshakeWithRetry_evolves (List.ofFn input.handshakes)
    (h.kestrel.connect input.faults).2
  unfold onActivate
  dsimp only
  split
  · exact ⟨⟨rfl, rfl, rfl, rfl, rfl⟩, fun hsuccess ↦ by cases hsuccess⟩
  · split
    · exact ⟨⟨rfl, rfl, rfl, rfl, hgreet.feedback⟩, fun hsuccess ↦ by cases hsuccess⟩
    · obtain ⟨k, command, gains, timeout, htuned, hevolves⟩ := sendTuning_eq (resetSession _ _) input
      rw [htuned]
      exact ⟨⟨rfl, rfl, rfl, rfl, (hgreet.trans hevolves).feedback⟩, fun _ ↦ rfl⟩

theorem onDeactivate_eq (input : DeactivateInput) :
    ∃ k, (h.onDeactivate input).2.1 =
        { h with
          gpioCommand := setEach h.interfaces.gpioCommands (fun _ ↦ some (.finite 0)) h.gpioCommand
          kestrel := k } ∧
      h.kestrel.Evolves (h.onDeactivate input).2.2 k := by
  obtain ⟨hstop, _⟩ := Kestrel.post_evolves
    (.wheelVelocity (Kestrel.mrpsOf (.finite 0)) (Kestrel.mrpsOf (.finite 0)))
    input.wheelThrows h.kestrel
  obtain ⟨hdeactivate, _⟩ := Kestrel.request_evolves .deactivate input.deactivate h.kestrel
  obtain ⟨hreset, _⟩ := Kestrel.request_evolves .reset input.reset
    (h.kestrel.deactivate input.deactivate).2.1
  exact ⟨_, rfl, (hstop.trans hdeactivate).trans hreset⟩

theorem onCleanup_isOpen : h.onCleanup.2.kestrel.isOpen = false := by
  change h.kestrel.base.shutdown.serialDev.isOpen = false
  unfold SerialTransport.shutdown
  dsimp only
  split
  · rfl
  · rename_i hclosed
    exact Bool.not_eq_true _ ▸ hclosed

end MyDiffbotSystemHardware

end MyDiffbot.System
