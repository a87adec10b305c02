import MyDiffbot.System.Hardware

/-!
# The control cycle

`read` and `write` of the hardware component, with the functions they are made of: `ReadImu`,
`ReadWheels`, `WriteTuning` and `WriteLed`. A clock that is read on some branches only has its
reading in the input all the same.
-/

namespace MyDiffbot.System

open Protocol Numeric Transport

namespace MyDiffbotSystemHardware

/-! ## Reading -/

/-- The readings of the clock in one `read`, in the order they are taken. -/
structure ReadInput where
  poll : Poll
  diagDue : Time
  diagPub : Time
  imuChange : Time
  imuStale : Time
  wheel : Time
  deriving DecidableEq, Repr

/-- The value of an interface of the IMU sensor. -/
def imuValue (imu : ImuSnapshot) (name : InterfaceDescription) : Option ℚ :=
  if name.prefixName ≠ "bno055_imu" then none
  else match name.interfaceName with
    | "orientation.w" => some (imu.quat 0)
    | "orientation.x" => some (imu.quat 1)
    | "orientation.y" => some (imu.quat 2)
    | "orientation.z" => some (imu.quat 3)
    | "angular_velocity.x" => some (imu.angVel 0)
    | "angular_velocity.y" => some (imu.angVel 1)
    | "angular_velocity.z" => some (imu.angVel 2)
    | "linear_acceleration.x" => some (imu.linAcc 0)
    | "linear_acceleration.y" => some (imu.linAcc 1)
    | "linear_acceleration.z" => some (imu.linAcc 2)
    | _ => none

/-- The diagnostic of the BNO055. -/
def imuStatus (healthy stale : Bool) (imu : ImuSnapshot) : DiagnosticStatus where
  level :=
    if !healthy || stale then .error else if 2 ≤ imu.cal 0 then .ok else .warn
  name := "my_diffbot/imu: BNO055"
  message :=
    if !healthy || stale then
      if stale then "IMU data stale (no frames > 0.5 s)" else "MCU reports IMU unhealthy"
    else if 2 ≤ imu.cal 0 then "IMU OK"
    else "IMU fusion calibration low (move robot / figure-8)"
  hardwareId := "kestrel"
  values :=
    [("cal_sys", toString (imu.cal 0)), ("cal_gyro", toString (imu.cal 1)),
      ("cal_acc", toString (imu.cal 2)), ("cal_mag", toString (imu.cal 3)),
      ("temperature_c", toString imu.tempC), ("frame_count", toString imu.count)]

/-- `ReadImu`: the sensor states, and the status if one is due. -/
def readImu (input : ReadInput) (publishDiag : Bool) (h : MyDiffbotSystemHardware) :
    MyDiffbotSystemHardware × Option DiagnosticStatus :=
  let imu := h.kestrel.feedback.imu
  let h := { h with sensorState := setEach h.interfaces.sensorStates (imuValue imu) h.sensorState }
  let h :=
    if imu.count ≠ h.lastImuCount then
      { h with lastImuCount := imu.count, lastImuCountChange := input.imuChange }
    else h
  if !publishDiag then (h, none)
  else
    let stale := decide (0.5 < seconds (input.imuStale - h.lastImuCountChange))
    (h, some (imuStatus h.kestrel.feedback.imuHealthy stale imu))

/-- The first frame after an activation only sets the previous values. -/
def seedWheels (f : Feedback) (h : MyDiffbotSystemHardware) : MyDiffbotSystemHardware :=
  { h with
    leftEncoderPrev := f.leftEncoderTicks
    rightEncoderPrev := f.rightEncoderTicks
    measLeftPrev := f.leftEncoderTicks
    measRightPrev := f.rightEncoderTicks
    measStampPrev := f.wheelFeedbackStampSec
    ticksInit := true }

def restartWindow (f : Feedback) (h : MyDiffbotSystemHardware) : MyDiffbotSystemHardware :=
  { h with
    measLeftPrev := f.leftEncoderTicks
    measRightPrev := f.rightEncoderTicks
    measStampPrev := f.wheelFeedbackStampSec }

/-- The staleness test of `ReadWheels`. -/
def checkWheelFeedback (now : Time) (f : Feedback) (h : MyDiffbotSystemHardware) :
    MyDiffbotSystemHardware :=
  if f.wheelFeedbackCount ≠ h.lastWheelCount then
    let h := { h with lastWheelCount := f.wheelFeedbackCount, lastWheelCountChange := now }
    if h.wheelFeedbackStale then { h with wheelFeedbackStale := false }.restartWindow f else h
  else if kWheelFeedbackTimeoutSec < seconds (now - h.lastWheelCountChange) then
    { h with wheelFeedbackStale := true, leftMeasRad := 0, rightMeasRad := 0 }
  else h

/-- The measured speed: ticks differentiated over a window of frame time, then filtered. -/
def measureSpeed (f : Feedback) (h : MyDiffbotSystemHardware) : MyDiffbotSystemHardware :=
  let windowSec := f.wheelFeedbackStampSec - h.measStampPrev
  if windowSec < 0 ∨ 1 < windowSec then h.restartWindow f
  else if kMeasWindowSec ≤ windowSec then
    let scale := 2 * mPi / (h.cpr * windowSec)
    { h with
      leftMeasRad := h.leftMeasRad +
        kMeasEmaAlpha * ((f.leftEncoderTicks - h.measLeftPrev) * scale - h.leftMeasRad)
      rightMeasRad := h.rightMeasRad +
        kMeasEmaAlpha * ((f.rightEncoderTicks - h.measRightPrev) * scale - h.rightMeasRad)
      }.restartWindow f
  else h

/-- One turn of the loop over the joint states. -/
def moveJoint (leftDelta rightDelta : ℤ) (leftVelocity rightVelocity cpr : ℚ)
    (jointState : Store ℚ) (name : InterfaceDescription) : Store ℚ :=
  if name.interfaceName ≠ hwIfPosition then jointState
  else
    let left := contains name.prefixName "left"
    let encoderDelta := if left then leftDelta else rightDelta
    let velocity := if left then leftVelocity else rightVelocity
    let jointState :=
      Function.update jointState name (jointState name + encoderDelta * 2 * mPi / cpr)
    Function.update jointState ⟨name.prefixName, hwIfVelocity⟩ velocity

/-- The end of `ReadWheels`: the encoder deltas since the previous call become joint positions. -/
def moveJoints (f : Feedback) (h : MyDiffbotSystemHardware) : MyDiffbotSystemHardware :=
  let leftDelta := f.leftEncoderTicks - h.leftEncoderPrev
  let rightDelta := f.rightEncoderTicks - h.rightEncoderPrev
  let h := ({ h with
    leftEncoderPrev := f.leftEncoderTicks
    rightEncoderPrev := f.rightEncoderTicks }).measureSpeed f
  { h with
    jointState := h.interfaces.jointStates.keys.foldl
      (moveJoint leftDelta rightDelta h.leftMeasRad h.rightMeasRad h.cpr) h.jointState }

/-- `ReadWheels`. -/
def readWheels (input : ReadInput) (h : MyDiffbotSystemHardware) : MyDiffbotSystemHardware :=
  let f := h.kestrel.feedback
  if f.wheelFeedbackCount = 0 then h
  else if !h.ticksInit then h.seedWheels f
  else (h.checkWheelFeedback input.wheel f).moveJoints f

/-- `read`. -/
def read (input : ReadInput) (h : MyDiffbotSystemHardware) :
    ReturnType × MyDiffbotSystemHardware × List Effect :=
  if !h.kestrel.isOpen then (.error, h, [])
  else
    let (k, effects) := h.kestrel.read input.poll
    let publishDiag := decide (1 ≤ seconds (input.diagDue - h.lastDiagPub))
    let h := { h with
      kestrel := k
      gpioState := setEach h.interfaces.gpioCommands
        (fun name ↦ if name.prefixName = "led" then some (h.gpioCommand name) else none) h.gpioState
      lastDiagPub := if publishDiag then input.diagPub else h.lastDiagPub }
    let (h, status?) := h.readImu input publishDiag
    (.ok, h.readWheels input, effects ++ (status?.map Effect.diagnostic).toList)

/-! ## Writing -/

/-- The environment of one `write`: its time argument, the waits of the two retunes, and the
readings of the clock in the order they are taken. -/
structure WriteInput where
  time : Time
  gains : Exchange
  timeout : Exchange
  /-- What `ResolveLed` gives where it is undefined: nothing is known of it. -/
  ledUndefined : LedOutput
  ledDue : Time
  ledThrows : Bool
  ledSend : Time
  active : Time
  grace : Time
  wheelThrows : Bool
  deriving DecidableEq, Repr

/-- The finite gain commands over the gains last sent. -/
def overlayGains (h : MyDiffbotSystemHardware) : Fin 6 → ℚ :=
  h.interfaces.gpioCommands.keys.foldl (fun pidCmd name i ↦
    match h.gpioCommand name with
    | .finite value => if name = gainInterface i then value else pidCmd i
    | _ => pidCmd i) h.sentPidGains

/-- The finite timeout command over the timeout last sent. -/
def overlayTimeout (h : MyDiffbotSystemHardware) : ℚ :=
  h.interfaces.gpioCommands.keys.foldl (fun timeoutCmd name ↦
    match h.gpioCommand name with
    | .finite value => if name = timeoutInterface then value else timeoutCmd
    | _ => timeoutCmd) h.sentCmdTimeoutMs

def retuneGains (exchange : Exchange) (h : MyDiffbotSystemHardware) :
    MyDiffbotSystemHardware × List Effect :=
  let pidCmd := h.overlayGains
  if pidCmd ≠ h.sentPidGains then
    let gains := fun i ↦ (Double.finite (pidCmd i)).clampCast int32
    let (_, k, effects) := h.kestrel.setPidGains gains exchange
    ({ h with kestrel := k, sentPidGains := pidCmd }, effects)
  else (h, [])

def retuneTimeout (exchange : Exchange) (h : MyDiffbotSystemHardware) :
    MyDiffbotSystemHardware × List Effect :=
  let timeoutCmd := h.overlayTimeout
  if timeoutCmd ≠ h.sentCmdTimeoutMs then
    let timeoutMs := (Double.finite timeoutCmd).clampCast uint16
    let (_, k, effects) := h.kestrel.setCommandTimeout timeoutMs exchange
    ({ h with kestrel := k, sentCmdTimeoutMs := timeoutCmd }, effects)
  else (h, [])

/-- `WriteTuning`. The second comparison reads nothing that the first retune has changed. -/
def writeTuning (input : WriteInput) (h : MyDiffbotSystemHardware) :
    MyDiffbotSystemHardware × List Effect :=
  let (h, gainEffects) := h.retuneGains input.gains
  let (h, timeoutEffects) := h.retuneTimeout input.timeout
  (h, gainEffects ++ timeoutEffects)

/-- The period command; a value that is not finite holds the colour. -/
def ledPeriodMs : Double → ℚ
  | .finite value => value
  | _ => 0

/-- What the led commands resolve to. -/
def ledRequest (input : WriteInput) (h : MyDiffbotSystemHardware) : Option LedOutput :=
  (resolveLed ((h.gpioCommand ⟨"led", "led_mode"⟩).clampCast int32)
    ((h.gpioCommand ⟨"led", "led_color"⟩).clampCast uint32).toNat
    ((h.gpioCommand ⟨"led", "led_color_alt"⟩).clampCast uint32).toNat
    (ledPeriodMs (h.gpioCommand ⟨"led", "led_period_ms"⟩)) (seconds input.time)).getD
      (some input.ledUndefined)

/-- `WriteLed`. -/
def writeLed (input : WriteInput) (h : MyDiffbotSystemHardware) :
    MyDiffbotSystemHardware × List Effect :=
  if ⟨"led", "led_mode"⟩ ∉ h.interfaces.gpioCommands then (h, [])
  else match h.ledRequest input with
    | none => (h, [])
    | some led =>
      let refreshDue := decide (1 ≤ seconds (input.ledDue - h.lastLedSend))
      if h.sentLed = some led ∧ !refreshDue then (h, [])
      else
        let (_, effects) := h.kestrel.setRgbLed led.r led.g led.b led.fwMode input.ledThrows
        ({ h with sentLed := some led, lastLedSend := input.ledSend }, effects)

/-- The left and the right wheel command. -/
def wheelCommands (h : MyDiffbotSystemHardware) : Double × Double :=
  h.interfaces.jointCommands.keys.foldl (fun (left, right) name ↦
    if contains name.prefixName "left" then (h.jointCommand name, right)
    else if contains name.prefixName "right" then (left, h.jointCommand name)
    else (left, right)) (.finite 0, .finite 0)

def stopped (h : MyDiffbotSystemHardware) : Bool :=
  h.wheelCommands.1.isZero && h.wheelCommands.2.isZero

/-- The end of `write`: a zero command is repeated for a second, then nothing is sent. -/
def writeWheels (input : WriteInput) (h : MyDiffbotSystemHardware) :
    MyDiffbotSystemHardware × List Effect :=
  let (leftCmd, rightCmd) := h.wheelCommands
  let stopped := h.stopped
  let h := { h with lastActiveTime := if stopped then h.lastActiveTime else input.active }
  let inStopGrace := decide (seconds (input.grace - h.lastActiveTime) < 1)
  (h, if !stopped || inStopGrace then
      (h.kestrel.setWheelVelocity leftCmd rightCmd input.wheelThrows).2
    else [])

/-- `write`. -/
def write (input : WriteInput) (h : MyDiffbotSystemHardware) :
    ReturnType × MyDiffbotSystemHardware × List Effect :=
  if !h.kestrel.isOpen then (.error, h, [])
  else
    let tuned := h.writeTuning input
    let lit := tuned.1.writeLed input
    let driven := lit.1.writeWheels input
    (.ok, driven.1, tuned.2 ++ lit.2 ++ driven.2)

end MyDiffbotSystemHardware

end MyDiffbot.System
