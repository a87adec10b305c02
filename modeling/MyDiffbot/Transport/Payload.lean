import MyDiffbot.Transport.Serial
import MyDiffbot.Numeric.Double
import Mathlib.Data.Fintype.Basic

/-!
# Payloads of the base

The packed structs of `binary_protocol.hpp`, read from and written to little-endian bytes. Of the
telemetry structs, the fields that the driver keeps are decoded. Of the commands, everything but the
timestamp is kept, which `Command.payload` takes as an argument. A wheel speed whose conversion from
`double` is undefined is `none`, and has no payload.
-/

namespace MyDiffbot.Transport

open Protocol Numeric

/-! ## Fields -/

def littleEndian : List Byte → ℕ
  | [] => 0
  | byte :: bytes => byte.toNat + 256 * littleEndian bytes

/-- An unsigned field of `size` bytes at an offset of the struct. -/
def unsignedAt (payload : List Byte) (offset size : ℕ) : ℕ :=
  littleEndian ((payload.drop offset).take size)

/-- A two's-complement field of `size` bytes at an offset of the struct. -/
def signedAt (payload : List Byte) (offset size : ℕ) : ℤ :=
  let raw := unsignedAt payload offset size
  if raw < 2 ^ (8 * size - 1) then raw else raw - 2 ^ (8 * size)

/-- The low `size` bytes of an integer, lowest first; negative ones in two's complement. -/
def bytesOf (size : ℕ) (value : ℤ) : List Byte :=
  (List.range size).map fun i ↦ BitVec.ofInt 8 (value / 256 ^ i)

/-! ## Telemetry -/

/-- `WheelFeedbackPayload`; the speeds are magnitudes. -/
structure WheelFeedbackPayload where
  timestampSec : ℕ
  timestampNsec : ℕ
  leftEncoderTicks : ℤ
  rightEncoderTicks : ℤ
  leftWheelMrps : ℕ
  rightWheelMrps : ℕ
  deriving DecidableEq, Repr

def WheelFeedbackPayload.size : ℕ := 32

def WheelFeedbackPayload.ofBytes (payload : List Byte) : WheelFeedbackPayload where
  timestampSec := unsignedAt payload 0 4
  timestampNsec := unsignedAt payload 4 4
  leftEncoderTicks := signedAt payload 8 8
  rightEncoderTicks := signedAt payload 16 8
  leftWheelMrps := unsignedAt payload 24 4
  rightWheelMrps := unsignedAt payload 28 4

/-- `IMUDataPayload`. -/
structure ImuDataPayload where
  linAx : ℤ
  linAy : ℤ
  linAz : ℤ
  angVx : ℤ
  angVy : ℤ
  angVz : ℤ
  quatW : ℤ
  quatX : ℤ
  quatY : ℤ
  quatZ : ℤ
  calSys : ℕ
  calAcc : ℕ
  calGyro : ℕ
  calMag : ℕ
  tempC : ℤ
  deriving DecidableEq, Repr

def ImuDataPayload.size : ℕ := 33

def ImuDataPayload.ofBytes (payload : List Byte) : ImuDataPayload where
  linAx := signedAt payload 8 2
  linAy := signedAt payload 10 2
  linAz := signedAt payload 12 2
  angVx := signedAt payload 14 2
  angVy := signedAt payload 16 2
  angVz := signedAt payload 18 2
  quatW := signedAt payload 20 2
  quatX := signedAt payload 22 2
  quatY := signedAt payload 24 2
  quatZ := signedAt payload 26 2
  calSys := unsignedAt payload 28 1
  calAcc := unsignedAt payload 29 1
  calGyro := unsignedAt payload 30 1
  calMag := unsignedAt payload 31 1
  tempC := signedAt payload 32 1

structure PidDebugPayload where
  leftDutyPermille : ℤ
  rightDutyPermille : ℤ
  deriving DecidableEq, Repr

def PidDebugPayload.size : ℕ := 52

def PidDebugPayload.ofBytes (payload : List Byte) : PidDebugPayload where
  leftDutyPermille := signedAt payload 8 4
  rightDutyPermille := signedAt payload 12 4

structure HeartbeatPayload where
  systemStatus : ℕ
  deriving DecidableEq, Repr

def HeartbeatPayload.size : ℕ := 17

def HeartbeatPayload.ofBytes (payload : List Byte) : HeartbeatPayload where
  systemStatus := unsignedAt payload 16 1

def kBno055AccScale : ℚ := 1 / 100

def kBno055GyroScale : ℚ := 1 / 16 * 3.14159265358979323846 / 180

def kBno055QuatScale : ℚ := 1 / 16384

/-! ## Commands -/

def protocolVersion : ℕ := 1000000

/-- What the host sends. -/
inductive Command
  | handshake
  | wheelVelocity (leftMrps rightMrps : Option ℤ)
  | setPidGains (gains : Fin 6 → ℤ)
  | setCmdTimeout (timeoutMs : ℤ)
  | deactivate
  | reset
  | rgbLedSet (red green blue mode : Byte)
  deriving DecidableEq

namespace Command

def msgId : Command → Byte
  | handshake => MsgId.handshake
  | wheelVelocity _ _ => MsgId.wheelVelocity
  | setPidGains _ => MsgId.setPidGains
  | setCmdTimeout _ => MsgId.setCmdTimeout
  | deactivate => MsgId.deactivate
  | reset => MsgId.reset
  | rgbLedSet _ _ _ _ => MsgId.rgbLedSet

/-- The struct behind the timestamp. -/
def fields : Command → Option (List Byte)
  | handshake => some (bytesOf 4 protocolVersion)
  | wheelVelocity leftMrps rightMrps => do
    return bytesOf 4 (← leftMrps) ++ bytesOf 4 (← rightMrps)
  | setPidGains gains => some ((List.ofFn gains).flatMap (bytesOf 4))
  | setCmdTimeout timeoutMs => some (bytesOf 2 timeoutMs)
  | deactivate => some []
  | reset => some []
  | rgbLedSet red green blue mode => some [red, green, blue, mode]

/-- `ToBytes` of the command's struct, for a reading of the system clock. -/
def payload (timestampSec timestampNsec : ℕ) (command : Command) : Option (List Byte) :=
  command.fields.map fun fields ↦ bytesOf 4 timestampSec ++ bytesOf 4 timestampNsec ++ fields

end Command

theorem length_bytesOf (size : ℕ) (value : ℤ) : (bytesOf size value).length = size := by
  simp [bytesOf]

theorem length_flatMap_bytesOf (size : ℕ) (values : List ℤ) :
    (values.flatMap (bytesOf size)).length = size * values.length := by
  induction values with
  | nil => rfl
  | cons value values ih =>
    rw [List.flatMap_cons, List.length_append, length_bytesOf, ih, List.length_cons]
    ring

/-- No command exceeds what one frame carries. -/
theorem Command.length_payload_le {timestampSec timestampNsec : ℕ} {command : Command}
    {bytes : List Byte} (h : command.payload timestampSec timestampNsec = some bytes) :
    bytes.length ≤ 32 := by
  obtain ⟨fields, hfields, rfl⟩ := Option.map_eq_some_iff.mp h
  rw [List.length_append, List.length_append, length_bytesOf, length_bytesOf]
  have hlength : fields.length ≤ 24 := by
    cases command with
    | handshake =>
      obtain rfl := Option.some.inj hfields
      rw [length_bytesOf]
      omega
    | wheelVelocity leftMrps rightMrps =>
      cases leftMrps with
      | none => simp [Command.fields] at hfields
      | some left =>
        cases rightMrps with
        | none => simp [Command.fields] at hfields
        | some right =>
          obtain rfl := Option.some.inj hfields
          rw [List.length_append, length_bytesOf, length_bytesOf]
          omega
    | setPidGains gains =>
      obtain rfl := Option.some.inj hfields
      rw [length_flatMap_bytesOf, List.length_ofFn]
    | setCmdTimeout timeoutMs =>
      obtain rfl := Option.some.inj hfields
      rw [length_bytesOf]
      omega
    | deactivate | reset | rgbLedSet red green blue mode =>
      obtain rfl := Option.some.inj hfields
      simp
  omega

end MyDiffbot.Transport
