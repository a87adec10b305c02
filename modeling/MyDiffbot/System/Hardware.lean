import MyDiffbot.System.Interfaces
import MyDiffbot.Protocol.Led
import MyDiffbot.Transport.Kestrel

/-!
# The hardware component

`My_diffbotSystemHardware` of `my_diffbot_system.cpp`: the lifecycle callbacks and the two halves of
the control cycle, in the order in which the source reads clocks and sends commands. Every callback
takes what its environment decides (clock readings, bytes, failures) and returns its effects.

A double is an exact rational here: no operation rounds, and neither does the conversion of a wheel
frame's stamp to seconds. Positions, speeds and sensor values are rational, since only decoded
integers enter them. Command values and the gpio states that mirror them can also be infinite or NaN,
and a conversion of one to an integer type stays undefined where the language leaves it so. Joints, gpios and sensors have different
names, so the values of each kind are kept apart. Left out are the introspection mirrors,
logging, and the publisher node.
-/

namespace MyDiffbot.System

open Protocol Numeric Transport

/-! ## State -/

structure MyDiffbotSystemHardware where
  interfaces : Interfaces
  jointState : Store ℚ
  sensorState : Store ℚ
  gpioState : Store Double
  jointCommand : Store Double
  gpioCommand : Store Double
  kestrel : Kestrel
  cpr : ℚ
  /-- kp_l, ki_l, kd_l, kp_r, ki_r, kd_r -/
  gains : Fin 6 → ℤ
  cmdTimeoutMs : ℤ
  sentPidGains : Fin 6 → ℚ
  sentCmdTimeoutMs : ℚ
  lastActiveTime : Time
  ticksInit : Bool
  leftEncoderPrev : ℤ
  rightEncoderPrev : ℤ
  measLeftPrev : ℤ
  measRightPrev : ℤ
  measStampPrev : ℚ
  leftMeasRad : ℚ
  rightMeasRad : ℚ
  lastWheelCount : ℕ
  lastWheelCountChange : Time
  wheelFeedbackStale : Bool
  sentLed : Option LedOutput
  lastLedSend : Time
  lastDiagPub : Time
  lastImuCount : ℕ
  lastImuCountChange : Time

inductive CallbackReturn
  | success
  | failure
  | error
  deriving DecidableEq, Repr

inductive ReturnType
  | ok
  | error
  deriving DecidableEq, Repr

def hwIfPosition : String := "position"

def hwIfVelocity : String := "velocity"

/-- `kGainOrder`. -/
def kGainOrder : Fin 6 → String := ![ "kp_l", "ki_l", "kd_l", "kp_r", "ki_r", "kd_r"]

/-- The gpio command interface of a gain. -/
def gainInterface (i : Fin 6) : InterfaceDescription := ⟨"kestrel_pid", kGainOrder i⟩

def timeoutInterface : InterfaceDescription := ⟨"kestrel_watchdog", "cmd_timeout_ms"⟩

def kWheelFeedbackTimeoutSec : ℚ := 0.5

def kMeasWindowSec : ℚ := 0.04

def kMeasEmaAlpha : ℚ := 0.4

/-- `find(part) != npos`. -/
def contains (text part : String) : Bool := decide (part.toList <:+: text.toList)

/-! ## Initialisation -/

/-- `std::stoi` of the text of an integer. It throws where the integer does not fit an `int`, and
`on_init` fails. -/
def stoi (value : ℤ) : Option Int32 :=
  if -2 ^ 31 ≤ value ∧ value < 2 ^ 31 then some (Int32.ofInt value) else none

/-- The hardware parameters that `std::stoi` has accepted; the optional ones have defaults. -/
structure HardwareParameters where
  serialPort : String
  baudRate : Int32
  timeoutMs : Int32
  encoderCountsPerRevolution : Int32
  cmdTimeoutMs : Option Int32
  kpL : Option Int32
  kiL : Option Int32
  kdL : Option Int32
  kpR : Option Int32
  kiR : Option Int32
  kdR : Option Int32
  deriving DecidableEq

/-- Each wheel joint has one velocity command and position and velocity states. -/
def jointOk (joint : ComponentInfo) : Bool :=
  joint.commandInterfaces = [hwIfVelocity] ∧ joint.stateInterfaces = [hwIfPosition, hwIfVelocity]

namespace MyDiffbotSystemHardware

/-- The default member initialisers. -/
def initial (interfaces : Interfaces) : MyDiffbotSystemHardware where
  interfaces := interfaces
  jointState := fun _ ↦ 0
  sensorState := fun _ ↦ 0
  gpioState := fun _ ↦ .nan
  jointCommand := fun _ ↦ .nan
  gpioCommand := fun _ ↦ .nan
  kestrel := Kestrel.initial
  cpr := 1
  gains := ![1000, 2000, 0, 1000, 2000, 0]
  cmdTimeoutMs := 250
  sentPidGains := fun _ ↦ 0
  sentCmdTimeoutMs := 0
  lastActiveTime := 0
  ticksInit := false
  leftEncoderPrev := 0
  rightEncoderPrev := 0
  measLeftPrev := 0
  measRightPrev := 0
  measStampPrev := 0
  leftMeasRad := 0
  rightMeasRad := 0
  lastWheelCount := 0
  lastWheelCountChange := 0
  wheelFeedbackStale := false
  sentLed := none
  lastLedSend := 0
  lastDiagPub := 0
  lastImuCount := 0
  lastImuCountChange := 0

/-- `on_init`. The parameters are applied before the joints are checked, and the driver is
configured after. -/
def onInit (info : HardwareInfo) (params : HardwareParameters) :
    CallbackReturn × MyDiffbotSystemHardware :=
  let h := { initial (.ofInfo info) with
    cpr := params.encoderCountsPerRevolution.toInt
    -- The cast to `uint16_t` wraps.
    cmdTimeoutMs := (params.cmdTimeoutMs.getD 250).toInt % 2 ^ 16
    gains := ![(params.kpL.getD 1500).toInt, (params.kiL.getD 3000).toInt,
      (params.kdL.getD 0).toInt, (params.kpR.getD 1500).toInt, (params.kiR.getD 3000).toInt,
      (params.kdR.getD 0).toInt] }
  if info.joints.all jointOk then
    (.success, { h with
      kestrel := h.kestrel.configure params.serialPort params.baudRate.toInt
        (params.timeoutMs.toInt % 2 ^ 64).toNat })
  else (.error, h)

/-! ## Configuration -/

/-- `on_configure`. -/
def onConfigure (h : MyDiffbotSystemHardware) : CallbackReturn × MyDiffbotSystemHardware :=
  (.success, { h with
    jointState := setEach h.interfaces.jointStates (fun _ ↦ some 0) h.jointState
    jointCommand := setEach h.interfaces.jointCommands (fun _ ↦ some (.finite 0)) h.jointCommand
    gpioCommand := setEach h.interfaces.gpioCommands (fun _ ↦ some (.finite 0)) h.gpioCommand
    gpioState := setEach h.interfaces.gpioStates (fun _ ↦ some (.finite 0)) h.gpioState
    sensorState := setEach h.interfaces.sensorStates (fun _ ↦ some 0) h.sensorState })

/-- `on_cleanup`. -/
def onCleanup (h : MyDiffbotSystemHardware) : CallbackReturn × MyDiffbotSystemHardware :=
  (.success, { h with kestrel := h.kestrel.shutdown })

/-! ## Activation -/

def kMaxAttempts : ℕ := 10

/-- `HandshakeWithRetry`, given what the attempts meet. -/
def handshakeWithRetry : List Exchange → Kestrel → Bool × Kestrel × List Effect
  | [], k => (false, k, [])
  | attempt :: attempts, k =>
    let (status, k, effects) := k.handshake attempt
    if status = AckStatus.ok then (true, k, effects)
    else
      let (connected, k, later) := handshakeWithRetry attempts k
      (connected, k, effects ++ later)

structure ActivateInput where
  faults : SerialTransport.ConnectFaults
  handshakes : Fin kMaxAttempts → Exchange
  now : Time
  gains : Exchange
  timeout : Exchange

/-- The members that `on_activate` resets once the handshake has succeeded. -/
def resetSession (now : Time) (h : MyDiffbotSystemHardware) : MyDiffbotSystemHardware :=
  { h with
    lastActiveTime := now
    lastImuCountChange := now
    lastDiagPub := now
    lastLedSend := now
    lastImuCount := 0
    lastWheelCount := 0
    lastWheelCountChange := now
    wheelFeedbackStale := false
    ticksInit := false
    leftMeasRad := 0
    rightMeasRad := 0
    sentLed := none }

/-- `tuning_seeds`. -/
def tuningSeed (h : MyDiffbotSystemHardware) (name : InterfaceDescription) : Option Double :=
  if name = timeoutInterface then some (.finite h.sentCmdTimeoutMs)
  else ((List.finRange 6).find? fun i ↦ gainInterface i = name).map fun i ↦
    .finite (h.sentPidGains i)

/-- The end of `on_activate`: the configured tuning is sent, remembered as sent, and written to the
gpio commands that exist. -/
def sendTuning (input : ActivateInput) (h : MyDiffbotSystemHardware) :
    MyDiffbotSystemHardware × List Effect :=
  let (_, k, gainEffects) := h.kestrel.setPidGains h.gains input.gains
  let (_, k, timeoutEffects) := k.setCommandTimeout h.cmdTimeoutMs input.timeout
  let h := { h with
    kestrel := k
    sentPidGains := fun i ↦ h.gains i
    sentCmdTimeoutMs := h.cmdTimeoutMs }
  ({ h with gpioCommand := setEach h.interfaces.gpioCommands h.tuningSeed h.gpioCommand },
    gainEffects ++ timeoutEffects)

/-- `on_activate`. -/
def onActivate (input : ActivateInput) (h : MyDiffbotSystemHardware) :
    CallbackReturn × MyDiffbotSystemHardware × List Effect :=
  let h := { h with
    jointCommand := setEach h.interfaces.jointCommands
      (fun name ↦ some (.finite (h.jointState name))) h.jointCommand }
  let (connected, k) := h.kestrel.connect input.faults
  let h := { h with kestrel := k }
  if !connected then (.failure, h, [])
  else
    let (greeted, k, effects) := handshakeWithRetry (List.ofFn input.handshakes) h.kestrel
    let h := { h with kestrel := k }
    if !greeted then (.failure, h, effects)
    else
      let tuned := (h.resetSession input.now).sendTuning input
      (.success, tuned.1, effects ++ tuned.2)

structure DeactivateInput where
  wheelThrows : Bool
  deactivate : Exchange
  reset : Exchange

/-- `on_deactivate`. -/
def onDeactivate (input : DeactivateInput) (h : MyDiffbotSystemHardware) :
    CallbackReturn × MyDiffbotSystemHardware × List Effect :=
  let h := { h with
    gpioCommand := setEach h.interfaces.gpioCommands (fun _ ↦ some (.finite 0)) h.gpioCommand }
  let (_, stopEffects) := h.kestrel.setWheelVelocity (.finite 0) (.finite 0) input.wheelThrows
  let (_, k, deactivateEffects) := h.kestrel.deactivate input.deactivate
  let (_, k, resetEffects) := k.reset input.reset
  (.success, { h with kestrel := k }, stopEffects ++ deactivateEffects ++ resetEffects)

end MyDiffbotSystemHardware

end MyDiffbot.System
