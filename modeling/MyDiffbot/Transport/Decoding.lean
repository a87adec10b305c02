import MyDiffbot.Transport.Reconnect
import Mathlib.Tactic.LinearCombination

/-!
# Decoding the telemetry

The telemetry structs with all their fields, in the widths and the order of `binary_protocol.hpp`, as
the base packs them on a little-endian host. Whatever a field holds, `OnMessageReceived` stores that
value, whatever bytes follow the struct, and a shorter payload changes nothing
(`onMessageReceived_decodes`).
-/

namespace MyDiffbot.Transport

open Protocol Numeric

/-! ## Packed fields -/

/-- A field of a packed struct: its size in bytes and its value. -/
structure PackedField where
  size : ℕ
  value : ℤ

/-- The fields one after the other, without padding. -/
def pack (fields : List PackedField) : List Byte :=
  fields.flatMap fun field ↦ bytesOf field.size field.value

/-- Where field `k` begins. -/
def fieldOffset (fields : List PackedField) (k : ℕ) : ℕ :=
  ((fields.take k).map PackedField.size).sum

theorem fieldOffset_of_sizes {fields : List PackedField} {sizes : List ℕ}
    (hsizes : fields.map PackedField.size = sizes) (k : ℕ) :
    fieldOffset fields k = (sizes.take k).sum := by
  rw [fieldOffset, List.map_take, hsizes]

theorem length_pack (fields : List PackedField) :
    (pack fields).length = (fields.map PackedField.size).sum := by
  rw [pack, List.length_flatMap]
  simp only [length_bytesOf]

theorem bytesOf_succ (size : ℕ) (value : ℤ) :
    bytesOf (size + 1) value = BitVec.ofInt 8 value :: bytesOf size (value / 256) := by
  unfold bytesOf
  rw [List.range_succ_eq_map, List.map_cons, List.map_map, pow_zero, Int.ediv_one]
  congr 1
  apply List.map_congr_left
  intro i _
  rw [Function.comp_apply, Nat.succ_eq_add_one, pow_succ', Int.ediv_ediv_of_nonneg (by decide)]

/-- Little-endian bytes hold their value up to the width. -/
theorem littleEndian_bytesOf (size : ℕ) (value : ℤ) :
    (littleEndian (bytesOf size value) : ℤ) = value % 256 ^ size := by
  induction size generalizing value with
  | zero => exact (Int.emod_one value).symm
  | succ size ih =>
    have hlow : ((BitVec.ofInt 8 value).toNat : ℤ) = value % 256 := by
      rw [BitVec.toNat_ofInt]
      omega
    set q := value / 256 with hq
    have hvalue : value % 256 + 256 * q = value := Int.emod_add_mul_ediv value 256
    have hquotient : q % 256 ^ size + 256 ^ size * (q / 256 ^ size) = q := Int.emod_add_mul_ediv q _
    have hpos : (0 : ℤ) < 256 ^ size := by positivity
    have hbyte := Int.emod_nonneg value (by decide : (256 : ℤ) ≠ 0)
    have hbyte' := Int.emod_lt_of_pos value (by decide : (0 : ℤ) < 256)
    have hrest := Int.emod_nonneg q hpos.ne'
    have hrest' := Int.emod_lt_of_pos q hpos
    calc ((littleEndian (bytesOf (size + 1) value) : ℕ) : ℤ)
        = value % 256 + 256 * (q % 256 ^ size) := by
          rw [bytesOf_succ, littleEndian, Nat.cast_add, Nat.cast_mul, ih, hlow]
          rfl
      _ = (value % 256 + 256 * (q % 256 ^ size)) % 256 ^ (size + 1) := by
          refine (Int.emod_eq_of_lt (by positivity) ?_).symm
          rw [pow_succ]
          linarith
      _ = (value % 256 + 256 * (q % 256 ^ size) + 256 ^ (size + 1) * (q / 256 ^ size)) %
            256 ^ (size + 1) := (Int.add_mul_emod_self_left _ _ _).symm
      _ = value % 256 ^ (size + 1) := by
          congr 1
          rw [pow_succ]
          linear_combination hvalue + 256 * hquotient

/-- The bytes of a field in a packed struct, whatever follows it. -/
theorem take_drop_pack {fields : List PackedField} {k : ℕ} {field : PackedField}
    (hfield : fields[k]? = some field) (extra : List Byte) :
    ((pack fields ++ extra).drop (fieldOffset fields k)).take field.size =
      bytesOf field.size field.value := by
  obtain ⟨hk, rfl⟩ := List.getElem?_eq_some_iff.mp hfield
  have hsplit : pack fields ++ extra = pack (fields.take k) ++
      (bytesOf fields[k].size fields[k].value ++ (pack (fields.drop (k + 1)) ++ extra)) := by
    rw [← List.append_assoc, ← List.append_assoc]
    congr 1
    have hfields := List.take_append_drop k fields
    rw [List.drop_eq_getElem_cons hk] at hfields
    conv_lhs => rw [← hfields]
    rw [pack, List.flatMap_append, List.flatMap_cons, List.append_assoc]
    rfl
  have hoffset : (pack (fields.take k)).length = fieldOffset fields k := length_pack _
  rw [hsplit, ← hoffset, List.drop_left]
  exact List.take_left' (length_bytesOf _ _)

/-- Reading an unsigned field of a packed struct gives what was stored there. -/
theorem unsignedAt_pack {fields : List PackedField} {k size offset : ℕ} {x : BitVec (8 * size)}
    (hfield : fields[k]? = some ⟨size, x.toNat⟩) (hoffset : fieldOffset fields k = offset)
    (extra : List Byte) : unsignedAt (pack fields ++ extra) offset size = x.toNat := by
  subst hoffset
  have hbytes := take_drop_pack hfield extra
  dsimp only at hbytes
  rw [unsignedAt, hbytes]
  have hvalue := littleEndian_bytesOf size x.toNat
  have hlt : (x.toNat : ℤ) < 256 ^ size := by
    have hx := x.isLt
    rw [pow_mul] at hx
    exact_mod_cast hx
  rw [Int.emod_eq_of_lt (Int.natCast_nonneg _) hlt] at hvalue
  exact_mod_cast hvalue

/-- Reading a signed field gives what was stored there, with its sign. -/
theorem signedAt_pack {fields : List PackedField} {k size offset : ℕ} {x : BitVec (8 * size)}
    (hfield : fields[k]? = some ⟨size, x.toInt⟩) (hoffset : fieldOffset fields k = offset)
    (hsize : size ≠ 0) (extra : List Byte) :
    signedAt (pack fields ++ extra) offset size = x.toInt := by
  subst hoffset
  have hbytes := take_drop_pack hfield extra
  dsimp only at hbytes
  have hvalue := littleEndian_bytesOf size x.toInt
  have hpow : (256 : ℤ) ^ size = 2 ^ (8 * size) := by rw [pow_mul]; rfl
  have hhalf : (2 : ℤ) ^ (8 * size) = 2 * 2 ^ (8 * size - 1) := by
    rw [← pow_succ', Nat.sub_add_cancel (by omega)]
  have hlow := x.le_toInt
  have hhigh := x.toInt_lt
  have hnat : ((2 ^ (8 * size - 1) : ℕ) : ℤ) = 2 ^ (8 * size - 1) := by push_cast; rfl
  rw [signedAt, unsignedAt, hbytes]
  rw [hpow] at hvalue
  -- A negative value comes back as its complement.
  rcases le_or_gt 0 x.toInt with hsign | hsign
  · rw [Int.emod_eq_of_lt hsign (by linarith)] at hvalue
    rw [if_pos (by omega), hvalue]
  · have hcomplement : x.toInt % 2 ^ (8 * size) = x.toInt + 2 ^ (8 * size) := by
      rw [← Int.add_emod_right, Int.emod_eq_of_lt (by linarith) (by linarith)]
    rw [hcomplement] at hvalue
    rw [if_neg (by omega), hvalue]
    exact add_sub_cancel_right _ _

/-! ## The structs on the wire -/

def unsignedField (size : ℕ) (x : BitVec (8 * size)) : PackedField := ⟨size, x.toNat⟩

def signedField (size : ℕ) (x : BitVec (8 * size)) : PackedField := ⟨size, x.toInt⟩

/-- `WheelFeedbackPayload` with all its fields, 32 B. -/
structure WheelFeedbackWire where
  timestampSec : BitVec 32
  timestampNsec : BitVec 32
  leftEncoderTicks : BitVec 64
  rightEncoderTicks : BitVec 64
  leftWheelMrps : BitVec 32
  rightWheelMrps : BitVec 32

def WheelFeedbackWire.fields (p : WheelFeedbackWire) : List PackedField :=
  [unsignedField 4 p.timestampSec, unsignedField 4 p.timestampNsec,
    signedField 8 p.leftEncoderTicks, signedField 8 p.rightEncoderTicks,
    unsignedField 4 p.leftWheelMrps, unsignedField 4 p.rightWheelMrps]

/-- `IMUDataPayload` with all its fields, 33 B. -/
structure ImuDataWire where
  timestampSec : BitVec 32
  timestampNsec : BitVec 32
  linAx : BitVec 16
  linAy : BitVec 16
  linAz : BitVec 16
  angVx : BitVec 16
  angVy : BitVec 16
  angVz : BitVec 16
  quatW : BitVec 16
  quatX : BitVec 16
  quatY : BitVec 16
  quatZ : BitVec 16
  calSys : BitVec 8
  calAcc : BitVec 8
  calGyro : BitVec 8
  calMag : BitVec 8
  tempC : BitVec 8

def ImuDataWire.fields (p : ImuDataWire) : List PackedField :=
  [unsignedField 4 p.timestampSec, unsignedField 4 p.timestampNsec,
    signedField 2 p.linAx, signedField 2 p.linAy, signedField 2 p.linAz,
    signedField 2 p.angVx, signedField 2 p.angVy, signedField 2 p.angVz,
    signedField 2 p.quatW, signedField 2 p.quatX, signedField 2 p.quatY, signedField 2 p.quatZ,
    unsignedField 1 p.calSys, unsignedField 1 p.calAcc, unsignedField 1 p.calGyro,
    unsignedField 1 p.calMag, signedField 1 p.tempC]

/-- `PidDebugPayload` with all its fields, 52 B. -/
structure PidDebugWire where
  timestampSec : BitVec 32
  timestampNsec : BitVec 32
  leftDutyPermille : BitVec 32
  rightDutyPermille : BitVec 32
  leftSetpointMilli : BitVec 32
  rightSetpointMilli : BitVec 32
  leftIntegralMilli : BitVec 32
  rightIntegralMilli : BitVec 32
  leftEncoderTicks : BitVec 64
  rightEncoderTicks : BitVec 64
  status : BitVec 32

def PidDebugWire.fields (p : PidDebugWire) : List PackedField :=
  [unsignedField 4 p.timestampSec, unsignedField 4 p.timestampNsec,
    signedField 4 p.leftDutyPermille, signedField 4 p.rightDutyPermille,
    signedField 4 p.leftSetpointMilli, signedField 4 p.rightSetpointMilli,
    signedField 4 p.leftIntegralMilli, signedField 4 p.rightIntegralMilli,
    signedField 8 p.leftEncoderTicks, signedField 8 p.rightEncoderTicks, unsignedField 4 p.status]

/-- `HeartbeatPayload` with all its fields, 17 B. -/
structure HeartbeatWire where
  timestampSec : BitVec 32
  timestampNsec : BitVec 32
  uptimeSec : BitVec 32
  crcErrorCount : BitVec 16
  timeoutEventCount : BitVec 16
  systemStatus : BitVec 8

def HeartbeatWire.fields (p : HeartbeatWire) : List PackedField :=
  [unsignedField 4 p.timestampSec, unsignedField 4 p.timestampNsec, unsignedField 4 p.uptimeSec,
    unsignedField 2 p.crcErrorCount, unsignedField 2 p.timeoutEventCount,
    unsignedField 1 p.systemStatus]

/-- The telemetry that `OnMessageReceived` decodes. -/
inductive Telemetry
  | wheelFeedback (p : WheelFeedbackWire)
  | imuData (p : ImuDataWire)
  | pidDebug (p : PidDebugWire)
  | heartbeat (p : HeartbeatWire)

namespace Telemetry

def msgId : Telemetry → Byte
  | wheelFeedback _ => MsgId.wheelFeedback
  | imuData _ => MsgId.imuData
  | pidDebug _ => MsgId.pidDebug
  | heartbeat _ => MsgId.heartbeat

def fields : Telemetry → List PackedField
  | wheelFeedback p => p.fields
  | imuData p => p.fields
  | pidDebug p => p.fields
  | heartbeat p => p.fields

/-- The size of the struct on the wire. -/
def size : Telemetry → ℕ
  | wheelFeedback _ => 32
  | imuData _ => 33
  | pidDebug _ => 52
  | heartbeat _ => 17

/-- The driver with the values of the fields it keeps. The direction of a wheel is the sign of the
difference of its ticks. -/
def stored (now : SteadyTime) (k : Kestrel) : Telemetry → Kestrel
  | wheelFeedback p =>
    let f := k.feedback
    let left := Feedback.direction p.leftEncoderTicks.toInt f.leftEncoderTicks f.leftWheelDir
    let right := Feedback.direction p.rightEncoderTicks.toInt f.rightEncoderTicks f.rightWheelDir
    { k with feedback :=
      { f with
        leftEncoderTicks := p.leftEncoderTicks.toInt
        rightEncoderTicks := p.rightEncoderTicks.toInt
        leftWheelDir := left
        rightWheelDir := right
        leftWheelFwMrps := left * p.leftWheelMrps.toNat
        rightWheelFwMrps := right * p.rightWheelMrps.toNat
        wheelFeedbackStampSec := p.timestampSec.toNat + p.timestampNsec.toNat * 1e-9
        wheelFeedbackCount := f.wheelFeedbackCount + 1 } }
  | imuData p =>
    { k with feedback :=
      { k.feedback with imu :=
        { count := k.feedback.imu.count + 1
          linAcc := ![p.linAx.toInt * kBno055AccScale, p.linAy.toInt * kBno055AccScale,
            p.linAz.toInt * kBno055AccScale]
          angVel := ![p.angVx.toInt * kBno055GyroScale, p.angVy.toInt * kBno055GyroScale,
            p.angVz.toInt * kBno055GyroScale]
          quat := ![p.quatW.toInt * kBno055QuatScale, p.quatX.toInt * kBno055QuatScale,
            p.quatY.toInt * kBno055QuatScale, p.quatZ.toInt * kBno055QuatScale]
          cal := ![p.calSys.toNat, p.calGyro.toNat, p.calAcc.toNat, p.calMag.toNat]
          tempC := p.tempC.toInt } } }
  | pidDebug p =>
    { k with feedback :=
      { k.feedback with
        leftDutyPermille := p.leftDutyPermille.toInt
        rightDutyPermille := p.rightDutyPermille.toInt } }
  | heartbeat p =>
    { k with
      base := { k.base with lastHeartbeatTime := now }
      feedback := { k.feedback with imuHealthy := p.systemStatus.getLsbD 1 } }

end Telemetry

/-! ## Reading the structs -/

theorem WheelFeedbackWire.sizes (p : WheelFeedbackWire) :
    p.fields.map PackedField.size = [4, 4, 8, 8, 4, 4] := rfl

theorem ofBytes_wheelFeedback (p : WheelFeedbackWire) (extra : List Byte) :
    WheelFeedbackPayload.ofBytes (pack p.fields ++ extra) =
      ⟨p.timestampSec.toNat, p.timestampNsec.toNat, p.leftEncoderTicks.toInt,
        p.rightEncoderTicks.toInt, p.leftWheelMrps.toNat, p.rightWheelMrps.toNat⟩ := by
  have hoffset := fieldOffset_of_sizes p.sizes
  rw [WheelFeedbackPayload.ofBytes, WheelFeedbackPayload.mk.injEq]
  refine ⟨?_, ?_, ?_, ?_, ?_, ?_⟩
  · exact @unsignedAt_pack p.fields 0 4 _ _ rfl (hoffset 0) extra
  · exact @unsignedAt_pack p.fields 1 4 _ _ rfl (hoffset 1) extra
  · exact @signedAt_pack p.fields 2 8 _ _ rfl (hoffset 2) (by decide) extra
  · exact @signedAt_pack p.fields 3 8 _ _ rfl (hoffset 3) (by decide) extra
  · exact @unsignedAt_pack p.fields 4 4 _ _ rfl (hoffset 4) extra
  · exact @unsignedAt_pack p.fields 5 4 _ _ rfl (hoffset 5) extra

theorem ImuDataWire.sizes (p : ImuDataWire) :
    p.fields.map PackedField.size = [4, 4, 2, 2, 2, 2, 2, 2, 2, 2, 2, 2, 1, 1, 1, 1, 1] := rfl

theorem ofBytes_imuData (p : ImuDataWire) (extra : List Byte) :
    ImuDataPayload.ofBytes (pack p.fields ++ extra) =
      ⟨p.linAx.toInt, p.linAy.toInt, p.linAz.toInt, p.angVx.toInt, p.angVy.toInt, p.angVz.toInt,
        p.quatW.toInt, p.quatX.toInt, p.quatY.toInt, p.quatZ.toInt, p.calSys.toNat,
        p.calAcc.toNat, p.calGyro.toNat, p.calMag.toNat, p.tempC.toInt⟩ := by
  have hoffset := fieldOffset_of_sizes p.sizes
  rw [ImuDataPayload.ofBytes, ImuDataPayload.mk.injEq]
  refine ⟨?_, ?_, ?_, ?_, ?_, ?_, ?_, ?_, ?_, ?_, ?_, ?_, ?_, ?_, ?_⟩
  · exact @signedAt_pack p.fields 2 2 _ _ rfl (hoffset 2) (by decide) extra
  · exact @signedAt_pack p.fields 3 2 _ _ rfl (hoffset 3) (by decide) extra
  · exact @signedAt_pack p.fields 4 2 _ _ rfl (hoffset 4) (by decide) extra
  · exact @signedAt_pack p.fields 5 2 _ _ rfl (hoffset 5) (by decide) extra
  · exact @signedAt_pack p.fields 6 2 _ _ rfl (hoffset 6) (by decide) extra
  · exact @signedAt_pack p.fields 7 2 _ _ rfl (hoffset 7) (by decide) extra
  · exact @signedAt_pack p.fields 8 2 _ _ rfl (hoffset 8) (by decide) extra
  · exact @signedAt_pack p.fields 9 2 _ _ rfl (hoffset 9) (by decide) extra
  · exact @signedAt_pack p.fields 10 2 _ _ rfl (hoffset 10) (by decide) extra
  · exact @signedAt_pack p.fields 11 2 _ _ rfl (hoffset 11) (by decide) extra
  · exact @unsignedAt_pack p.fields 12 1 _ _ rfl (hoffset 12) extra
  · exact @unsignedAt_pack p.fields 13 1 _ _ rfl (hoffset 13) extra
  · exact @unsignedAt_pack p.fields 14 1 _ _ rfl (hoffset 14) extra
  · exact @unsignedAt_pack p.fields 15 1 _ _ rfl (hoffset 15) extra
  · exact @signedAt_pack p.fields 16 1 _ _ rfl (hoffset 16) (by decide) extra

theorem PidDebugWire.sizes (p : PidDebugWire) :
    p.fields.map PackedField.size = [4, 4, 4, 4, 4, 4, 4, 4, 8, 8, 4] := rfl

theorem ofBytes_pidDebug (p : PidDebugWire) (extra : List Byte) :
    PidDebugPayload.ofBytes (pack p.fields ++ extra) =
      ⟨p.leftDutyPermille.toInt, p.rightDutyPermille.toInt⟩ := by
  have hoffset := fieldOffset_of_sizes p.sizes
  rw [PidDebugPayload.ofBytes, PidDebugPayload.mk.injEq]
  constructor
  · exact @signedAt_pack p.fields 2 4 _ _ rfl (hoffset 2) (by decide) extra
  · exact @signedAt_pack p.fields 3 4 _ _ rfl (hoffset 3) (by decide) extra

theorem HeartbeatWire.sizes (p : HeartbeatWire) :
    p.fields.map PackedField.size = [4, 4, 4, 2, 2, 1] := rfl

theorem ofBytes_heartbeat (p : HeartbeatWire) (extra : List Byte) :
    HeartbeatPayload.ofBytes (pack p.fields ++ extra) = ⟨p.systemStatus.toNat⟩ := by
  rw [HeartbeatPayload.ofBytes, HeartbeatPayload.mk.injEq]
  exact @unsignedAt_pack p.fields 5 1 _ _ rfl (fieldOffset_of_sizes p.sizes 5) extra

theorem length_pack_fields (t : Telemetry) : (pack t.fields).length = t.size := by
  rw [length_pack]
  cases t with
  | wheelFeedback p => exact congrArg List.sum p.sizes
  | imuData p => exact congrArg List.sum p.sizes
  | pidDebug p => exact congrArg List.sum p.sizes
  | heartbeat p => exact congrArg List.sum p.sizes

/-! ## Speeds and directions -/

/-- The direction of either wheel is a sign. -/
def Feedback.Directed (f : Feedback) : Prop :=
  f.leftWheelDir.natAbs = 1 ∧ f.rightWheelDir.natAbs = 1

theorem natAbs_direction {dir : ℤ} (hdir : dir.natAbs = 1) (ticks previous : ℤ) :
    (Feedback.direction ticks previous dir).natAbs = 1 := by
  unfold Feedback.direction
  split_ifs
  · rfl
  · rfl
  · exact hdir

theorem Feedback.Directed.onMessageReceived {f : Feedback} (h : f.Directed) (message : Message) :
    (f.onMessageReceived message).Directed := by
  dsimp only [Feedback.onMessageReceived]
  split_ifs
  · exact h
  · exact ⟨natAbs_direction h.1 _ _, natAbs_direction h.2 _ _⟩
  -- No other message touches the directions.
  all_goals exact h

theorem Feedback.Directed.evolves {k next : Kestrel} {effects : List Effect}
    (h : k.feedback.Directed) (hevolves : Kestrel.Evolves k effects next) :
    next.feedback.Directed := by
  rw [hevolves.feedback]
  exact List.foldlRecOn (motive := Feedback.Directed) _ _ h
    fun _ hdirected message _ ↦ hdirected.onMessageReceived message

theorem Reachable.directed {k : Kestrel} (h : Reachable k) : k.feedback.Directed := by
  have hinitial : Kestrel.initial.feedback.Directed := ⟨rfl, rfl⟩
  refine @Reachable.invariant k h (fun k ↦ k.feedback.Directed) hinitial fun k op hdirected ↦ ?_
  cases op with
  | configure port baudRate readTimeoutMs => exact hdirected
  | connect faults => exact hdirected
  | shutdown => exact hdirected
  | read poll => exact hdirected.evolves (k.read_evolves poll).1
  | wait expectedMsgId polls => exact hdirected.evolves (k.waitForAck_evolves expectedMsgId polls).1
  | isHeartbeatHealthy maxAgeMs now => exact hdirected

/-! ## What is decoded -/

section cases

variable (now : SteadyTime) (k : Kestrel) (payload : List Byte)

theorem onMessageReceived_wheelFeedback :
    k.onMessageReceived now ⟨MsgId.wheelFeedback, payload⟩ =
      if payload.length < WheelFeedbackPayload.size then k
      else { k with feedback := k.feedback.onWheelFeedback (.ofBytes payload) } := by
  have hother : MsgId.wheelFeedback ≠ MsgId.heartbeat := by decide
  rw [Kestrel.onMessageReceived, if_neg fun h ↦ hother h.1]
  exact apply_ite (Kestrel.mk k.base) _ _ _

theorem onMessageReceived_imuData :
    k.onMessageReceived now ⟨MsgId.imuData, payload⟩ =
      if payload.length < ImuDataPayload.size then k
      else { k with feedback := k.feedback.onImuData (.ofBytes payload) } := by
  have hother : MsgId.imuData ≠ MsgId.heartbeat := by decide
  rw [Kestrel.onMessageReceived, if_neg fun h ↦ hother h.1]
  exact apply_ite (Kestrel.mk k.base) _ _ _

theorem onMessageReceived_pidDebug :
    k.onMessageReceived now ⟨MsgId.pidDebug, payload⟩ =
      if payload.length < PidDebugPayload.size then k
      else { k with feedback := k.feedback.onPidDebug (.ofBytes payload) } := by
  have hother : MsgId.pidDebug ≠ MsgId.heartbeat := by decide
  rw [Kestrel.onMessageReceived, if_neg fun h ↦ hother h.1]
  exact apply_ite (Kestrel.mk k.base) _ _ _

theorem onMessageReceived_heartbeat :
    k.onMessageReceived now ⟨MsgId.heartbeat, payload⟩ =
      if payload.length < HeartbeatPayload.size then k
      else
        { base := { k.base with lastHeartbeatTime := now }
          feedback := k.feedback.onHeartbeat (.ofBytes payload) } := by
  rw [Kestrel.onMessageReceived]
  by_cases hshort : payload.length < HeartbeatPayload.size
  · rw [if_neg (fun h ↦ absurd h.2 (not_le.mpr hshort)), if_pos hshort]
    exact congrArg (Kestrel.mk k.base) (if_pos hshort)
  · rw [if_pos ⟨rfl, not_lt.mp hshort⟩, if_neg hshort]
    exact congrArg (Kestrel.mk _) (if_neg hshort)

end cases

theorem onMessageReceived_stored (now : SteadyTime) (k : Kestrel) (t : Telemetry)
    (extra : List Byte) :
    k.onMessageReceived now ⟨t.msgId, pack t.fields ++ extra⟩ = t.stored now k := by
  have hlong : ¬(pack t.fields ++ extra).length < t.size := by
    rw [List.length_append, length_pack_fields]
    omega
  cases t with
  | wheelFeedback p =>
    refine (onMessageReceived_wheelFeedback now k _).trans ((if_neg hlong).trans ?_)
    rw [Telemetry.fields, ofBytes_wheelFeedback]
    rfl
  | imuData p =>
    refine (onMessageReceived_imuData now k _).trans ((if_neg hlong).trans ?_)
    rw [Telemetry.fields, ofBytes_imuData]
    rfl
  | pidDebug p =>
    refine (onMessageReceived_pidDebug now k _).trans ((if_neg hlong).trans ?_)
    rw [Telemetry.fields, ofBytes_pidDebug]
    rfl
  | heartbeat p =>
    refine (onMessageReceived_heartbeat now k _).trans ((if_neg hlong).trans ?_)
    rw [Telemetry.fields, ofBytes_heartbeat]
    rfl

theorem onMessageReceived_of_short (now : SteadyTime) (k : Kestrel) (t : Telemetry)
    {payload : List Byte} (hshort : payload.length < t.size) :
    k.onMessageReceived now ⟨t.msgId, payload⟩ = k := by
  cases t with
  | wheelFeedback p => exact (onMessageReceived_wheelFeedback now k payload).trans (if_pos hshort)
  | imuData p => exact (onMessageReceived_imuData now k payload).trans (if_pos hshort)
  | pidDebug p => exact (onMessageReceived_pidDebug now k payload).trans (if_pos hshort)
  | heartbeat p => exact (onMessageReceived_heartbeat now k payload).trans (if_pos hshort)

/-- Telemetry is decoded to the values it was packed from, whatever bytes follow; a payload that is
shorter than its struct leaves the driver as it is. On a driver that was used as a transport the
stored speeds have the magnitudes on the wire. -/
theorem onMessageReceived_decodes (now : SteadyTime) (k : Kestrel) :
    (∀ t : Telemetry, (pack t.fields).length = t.size ∧
      (∀ extra, k.onMessageReceived now ⟨t.msgId, pack t.fields ++ extra⟩ = t.stored now k) ∧
      ∀ payload, payload.length < t.size → k.onMessageReceived now ⟨t.msgId, payload⟩ = k) ∧
    (Reachable k → ∀ (p : WheelFeedbackWire) (extra : List Byte),
      let next := k.onMessageReceived now ⟨MsgId.wheelFeedback, pack p.fields ++ extra⟩
      next.feedback.leftWheelFwMrps.natAbs = p.leftWheelMrps.toNat ∧
        next.feedback.rightWheelFwMrps.natAbs = p.rightWheelMrps.toNat) := by
  refine ⟨fun t ↦ ⟨length_pack_fields t, onMessageReceived_stored now k t,
    fun payload ↦ onMessageReceived_of_short now k t⟩, ?_⟩
  intro hreachable p extra next
  have hnext : next = (Telemetry.wheelFeedback p).stored now k :=
    onMessageReceived_stored now k (.wheelFeedback p) extra
  have hmagnitude : ∀ (ticks previous : ℤ) {dir : ℤ}, dir.natAbs = 1 → ∀ mrps : ℕ,
      (Feedback.direction ticks previous dir * mrps).natAbs = mrps := by
    intro ticks previous dir hdir mrps
    rw [Int.natAbs_mul, natAbs_direction hdir, one_mul, Int.natAbs_natCast]
  obtain ⟨hleft, hright⟩ := hreachable.directed
  rw [hnext]
  exact ⟨hmagnitude _ _ hleft _, hmagnitude _ _ hright _⟩

/-- A fresh driver, and a frame that goes backwards at full magnitude. -/
theorem onMessageReceived_decodes_initial :
    let frame : WheelFeedbackWire := ⟨5#32, 500000000#32, -1#64, 7#64, 4294967295#32, 0#32⟩
    let next := Kestrel.initial.onMessageReceived 0 ⟨MsgId.wheelFeedback, pack frame.fields ++ [9#8]⟩
    next.feedback.leftWheelFwMrps.natAbs = 4294967295 ∧ next.feedback.leftEncoderTicks = -1 := by
  refine ⟨?_, ?_⟩
  · exact ((onMessageReceived_decodes 0 Kestrel.initial).2 ⟨[], [], rfl⟩ _ _).1
  · decide +kernel

end MyDiffbot.Transport
