import MyDiffbot.System.Lifecycle

/-!
# The robot of the description package

The hardware description and the parameters of `my_diffbot_ros2_control.xacro`, and the frames its
base sends. They serve the runs that the other modules exhibit.
-/

namespace MyDiffbot.System

open Protocol Numeric Transport

def wheelJoint (name : String) : ComponentInfo :=
  ⟨name, [hwIfVelocity], [hwIfPosition, hwIfVelocity]⟩

def diffbotInfo : HardwareInfo where
  joints := [wheelJoint "right_wheel_joint", wheelJoint "left_wheel_joint"]
  gpios :=
    [⟨"led", ["led_mode", "led_color", "led_color_alt", "led_period_ms"],
        ["led_mode", "led_color", "led_color_alt", "led_period_ms"]⟩,
      ⟨"kestrel_pid", ["kp_l", "ki_l", "kd_l", "kp_r", "ki_r", "kd_r"], []⟩,
      ⟨"kestrel_watchdog", ["cmd_timeout_ms"], []⟩]
  sensors :=
    [⟨"bno055_imu", [], ["orientation.x", "orientation.y", "orientation.z", "orientation.w",
      "angular_velocity.x", "angular_velocity.y", "angular_velocity.z", "linear_acceleration.x",
      "linear_acceleration.y", "linear_acceleration.z"]⟩]

def diffbotParameters : HardwareParameters where
  serialPort := "/dev/ttyACM0"
  baudRate := 115200
  timeoutMs := 20
  encoderCountsPerRevolution := 515
  cmdTimeoutMs := some 250
  kpL := some 1500
  kiL := some 3000
  kdL := some 0
  kpR := some 1500
  kiR := some 3000
  kdR := some 0

/-- The component after `on_init`. -/
def diffbot : Component :=
  .unconfigured (MyDiffbotSystemHardware.onInit diffbotInfo diffbotParameters).2

example : (MyDiffbotSystemHardware.onInit diffbotInfo diffbotParameters).1 = .success := by
  decide

def leftPosition : InterfaceDescription := ⟨"left_wheel_joint", hwIfPosition⟩

def leftVelocity : InterfaceDescription := ⟨"left_wheel_joint", hwIfVelocity⟩

/-! ## Frames of the base -/

/-- An ACK frame. -/
def ackBytes (msgId : Byte) (status : AckStatus) : List Byte :=
  buildFrame MsgId.ack (bytesOf 8 0 ++ [msgId, status])

def wheelFeedbackBytes (leftTicks rightTicks : ℤ) : List Byte :=
  buildFrame MsgId.wheelFeedback
    (bytesOf 8 0 ++ bytesOf 8 leftTicks ++ bytesOf 8 rightTicks ++ bytesOf 8 0)

/-- An IMU frame in which everything but the quaternion is zero. -/
def imuDataBytes (quatW quatX quatY quatZ : ℤ) : List Byte :=
  buildFrame MsgId.imuData (bytesOf 20 0 ++ bytesOf 2 quatW ++ bytesOf 2 quatX ++ bytesOf 2 quatY ++
    bytesOf 2 quatZ ++ bytesOf 5 0)

/-- An exchange in which the ACK arrives with the first poll. -/
def acked (msgId : Byte) : Exchange := ⟨false, [⟨ackBytes msgId AckStatus.ok, 1⟩]⟩

/-- An activation in which everything is acknowledged at once. -/
def activateAt (now : Time) : MyDiffbotSystemHardware.ActivateInput where
  faults := ⟨false, false, false⟩
  handshakes := fun _ ↦ acked MsgId.handshake
  now := now
  gains := acked MsgId.setPidGains
  timeout := acked MsgId.setCmdTimeout

def deactivateAcked : MyDiffbotSystemHardware.DeactivateInput where
  wheelThrows := false
  deactivate := acked MsgId.deactivate
  reset := acked MsgId.reset

/-- A `read` that finds some bytes, with all clock readings at one time. -/
def readAt (now : Time) (raw : List Byte) : MyDiffbotSystemHardware.ReadInput where
  poll := ⟨raw, now⟩
  diagDue := now
  diagPub := now
  imuChange := now
  imuStale := now
  wheel := now

/-- A `write` with all clock readings at one time and no answer to its retunes. -/
def writeAt (now : Time) : MyDiffbotSystemHardware.WriteInput where
  time := now
  gains := ⟨false, []⟩
  timeout := ⟨false, []⟩
  ledUndefined := ⟨0, 0, 0, 0⟩
  ledDue := now
  ledThrows := false
  ledSend := now
  active := now
  grace := now
  wheelThrows := false

end MyDiffbot.System
