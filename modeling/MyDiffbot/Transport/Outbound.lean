import MyDiffbot.Transport.Batches
import MyDiffbot.Transport.Decoding
import Mathlib.Data.List.GetD
import Mathlib.Tactic.FinCases

/-!
# Commands on the wire

A command frame carries a packed struct: a timestamp and the fields of the command. Of values that
fit their fields the struct loses nothing, so that no two stamped commands have one message, and the
messages of commands are exactly those whose payload is as long as the struct of their MSG_ID
(`message?_injective_and_image`). Frames that are written one after the other are therefore received
as they were meant by whoever parses the stream, in whatever batches it arrives.
-/

namespace MyDiffbot.Transport

open Protocol Numeric

/-! ## Packed structs, back and forth -/

theorem littleEndian_injective {bytes other : List Byte} (hlength : bytes.length = other.length)
    (h : littleEndian bytes = littleEndian other) : bytes = other := by
  induction bytes generalizing other with
  | nil => exact (List.length_eq_zero_iff.mp hlength.symm).symm
  | cons byte bytes ih =>
    cases other with
    | nil => cases hlength
    | cons first other =>
      have hbyte := byte.isLt
      have hfirst := first.isLt
      rw [littleEndian, littleEndian] at h
      have hlow : byte.toNat = first.toNat := by omega
      have hrest : littleEndian bytes = littleEndian other := by omega
      rw [BitVec.eq_of_toNat_eq hlow, ih (Nat.succ.inj hlength) hrest]

/-- Bytes are those of every value that they hold up to the width. -/
theorem bytesOf_eq {size : ℕ} {value : ℤ} {bytes : List Byte} (hlength : bytes.length = size)
    (hvalue : value % 256 ^ size = littleEndian bytes) : bytesOf size value = bytes := by
  apply littleEndian_injective
  · rw [length_bytesOf, hlength]
  · have hbytes := littleEndian_bytesOf size value
    rw [hvalue] at hbytes
    exact_mod_cast hbytes

theorem littleEndian_lt (bytes : List Byte) : littleEndian bytes < 256 ^ bytes.length := by
  induction bytes with
  | nil => exact Nat.one_pos
  | cons byte bytes ih =>
    have hbyte := byte.isLt
    rw [littleEndian, List.length_cons, pow_succ]
    omega

section slice

variable (payload : List Byte) (offset size : ℕ) (hlength : offset + size ≤ payload.length)

include hlength

theorem length_slice : ((payload.drop offset).take size).length = size := by
  rw [List.length_take, List.length_drop]
  omega

theorem unsignedAt_lt : unsignedAt payload offset size < 256 ^ size := by
  have hlt := littleEndian_lt ((payload.drop offset).take size)
  rwa [length_slice payload offset size hlength] at hlt

theorem bytesOf_unsignedAt :
    bytesOf size (unsignedAt payload offset size) = (payload.drop offset).take size := by
  apply bytesOf_eq (length_slice payload offset size hlength)
  apply Int.emod_eq_of_lt (Int.natCast_nonneg _)
  exact_mod_cast unsignedAt_lt payload offset size hlength

theorem signedAt_range (hsize : size ≠ 0) :
    -2 ^ (8 * size - 1) ≤ signedAt payload offset size ∧
      signedAt payload offset size < 2 ^ (8 * size - 1) := by
  have hlt := unsignedAt_lt payload offset size hlength
  have hhalf : (256 : ℕ) ^ size = 2 * 2 ^ (8 * size - 1) := by
    rw [← pow_succ', Nat.sub_add_cancel (by omega), pow_mul]
    rfl
  have hfull : (2 : ℤ) ^ (8 * size) = 2 * 2 ^ (8 * size - 1) := by
    rw [← pow_succ', Nat.sub_add_cancel (by omega)]
  rw [hhalf] at hlt
  have hcast : ((2 ^ (8 * size - 1) : ℕ) : ℤ) = 2 ^ (8 * size - 1) := by push_cast; rfl
  unfold signedAt
  dsimp only
  split_ifs with hsign
  · omega
  · rw [hfull]
    omega

theorem bytesOf_signedAt :
    bytesOf size (signedAt payload offset size) = (payload.drop offset).take size := by
  apply bytesOf_eq (length_slice payload offset size hlength)
  have hpow : (2 : ℤ) ^ (8 * size) = 256 ^ size := by rw [pow_mul]; rfl
  have hraw : (unsignedAt payload offset size : ℤ) % 256 ^ size =
      littleEndian ((payload.drop offset).take size) := by
    apply Int.emod_eq_of_lt (Int.natCast_nonneg _)
    exact_mod_cast unsignedAt_lt payload offset size hlength
  unfold signedAt
  dsimp only
  split_ifs
  · exact hraw
  · rw [hpow, Int.sub_emod_right, hraw]

end slice

theorem signedAt_int32 (payload : List Byte) (offset : ℕ) (hlength : offset + 4 ≤ payload.length) :
    int32.lowest ≤ signedAt payload offset 4 ∧ signedAt payload offset 4 ≤ int32.max := by
  obtain ⟨hlow, hhigh⟩ := signedAt_range payload offset 4 hlength (by decide)
  exact ⟨hlow, Int.le_sub_one_of_lt hhigh⟩

/-- An unsigned field gives back what fits it. -/
theorem unsignedAt_pack_of_lt {fields : List PackedField} {k size offset value : ℕ}
    (hfield : fields[k]? = some ⟨size, value⟩) (hoffset : fieldOffset fields k = offset)
    (hvalue : value < 256 ^ size) : unsignedAt (pack fields) offset size = value := by
  have hwidth : 2 ^ (8 * size) = 256 ^ size := by
    rw [pow_mul]
    rfl
  have hbits : (BitVec.ofNat (8 * size) value).toNat = value := by
    rw [BitVec.toNat_ofNat, hwidth, Nat.mod_eq_of_lt hvalue]
  rw [← hbits] at hfield ⊢
  simpa only [List.append_nil, hbits] using unsignedAt_pack hfield hoffset []

/-- Bytes keep what fits them, read without a sign. -/
theorem bytesOf_unsigned_injective {size : ℕ} {value other : ℤ} (hvalue : 0 ≤ value ∧ value < 256 ^ size)
    (hother : 0 ≤ other ∧ other < 256 ^ size) (h : bytesOf size value = bytesOf size other) :
    value = other := by
  have hresidue := congrArg (fun bytes ↦ (littleEndian bytes : ℤ)) h
  simp only [littleEndian_bytesOf] at hresidue
  rwa [Int.emod_eq_of_lt hvalue.1 hvalue.2, Int.emod_eq_of_lt hother.1 hother.2] at hresidue

theorem bytesOf_int32_injective {value other : ℤ}
    (hvalue : int32.lowest ≤ value ∧ value ≤ int32.max)
    (hother : int32.lowest ≤ other ∧ other ≤ int32.max) (h : bytesOf 4 value = bytesOf 4 other) :
    value = other := by
  have hresidue := congrArg (fun bytes ↦ (littleEndian bytes : ℤ)) h
  simp only [littleEndian_bytesOf] at hresidue
  simp only [int32] at hvalue hother
  omega

/-- Structs of the same layout have the same bytes only if their fields do. -/
theorem pack_injective {fields other : List PackedField}
    (hsizes : fields.map PackedField.size = other.map PackedField.size)
    (h : pack fields = pack other) :
    fields.map (fun field ↦ bytesOf field.size field.value) =
      other.map fun field ↦ bytesOf field.size field.value := by
  induction fields generalizing other with
  | nil =>
    obtain rfl := List.map_eq_nil_iff.mp hsizes.symm
    rfl
  | cons field fields ih =>
    cases other with
    | nil => cases hsizes
    | cons first other =>
      obtain ⟨hsize, hsizes⟩ := List.cons.inj hsizes
      have hlength : (bytesOf field.size field.value).length =
          (bytesOf first.size first.value).length := by
        rw [length_bytesOf, length_bytesOf, hsize]
      obtain ⟨hfirst, hrest⟩ := List.append_inj h hlength
      exact congrArg₂ List.cons hfirst (ih hsizes hrest)

/-- The fields are what a payload holds from some offset on, one after the other. -/
def HoldsFrom (payload : List Byte) : ℕ → List PackedField → Prop
  | _, [] => True
  | offset, field :: fields =>
    bytesOf field.size field.value = (payload.drop offset).take field.size ∧
      HoldsFrom payload (offset + field.size) fields

/-- A payload is the struct of the fields it holds. -/
theorem pack_of_holdsFrom {payload : List Byte} {fields : List PackedField} (offset : ℕ)
    (h : HoldsFrom payload offset fields)
    (hlength : payload.length = offset + (fields.map PackedField.size).sum) :
    pack fields = payload.drop offset := by
  induction fields generalizing offset with
  | nil =>
    rw [List.drop_of_length_le (by simpa using hlength.le)]
    rfl
  | cons field fields ih =>
    obtain ⟨hfield, hfields⟩ := h
    rw [List.map_cons, List.sum_cons, ← Nat.add_assoc] at hlength
    have hrest := ih _ hfields hlength
    rw [← List.drop_drop] at hrest
    calc
      pack (field :: fields) = bytesOf field.size field.value ++ pack fields := rfl
      _ = (payload.drop offset).take field.size ++ (payload.drop offset).drop field.size := by
        rw [hfield, hrest]
      _ = payload.drop offset := List.take_append_drop _ _

/-! ## Commands as structs -/

namespace Command

/-- The fields of the struct behind the timestamp. -/
def packedFields : Command → Option (List PackedField)
  | handshake => some [⟨4, protocolVersion⟩]
  | wheelVelocity leftMrps rightMrps => do
    return [⟨4, ← leftMrps⟩, ⟨4, ← rightMrps⟩]
  | setPidGains gains => some (List.ofFn fun i ↦ ⟨4, gains i⟩)
  | setCmdTimeout timeoutMs => some [⟨2, timeoutMs⟩]
  | deactivate => some []
  | reset => some []
  | rgbLedSet red green blue mode =>
    some [⟨1, red.toNat⟩, ⟨1, green.toNat⟩, ⟨1, blue.toNat⟩, ⟨1, mode.toNat⟩]

theorem bytesOf_byte (byte : Byte) : bytesOf 1 byte.toNat = [byte] := by
  have hbyte := byte.isLt
  refine bytesOf_eq rfl ?_
  rw [littleEndian, littleEndian]
  omega

theorem fields_eq (command : Command) : command.fields = command.packedFields.map pack := by
  cases command with
  | handshake => simp [fields, packedFields, pack]
  | wheelVelocity leftMrps rightMrps =>
    cases leftMrps <;> cases rightMrps <;> simp [fields, packedFields, pack]
  | setPidGains gains => simp [fields, packedFields, pack, List.ofFn_succ]
  | setCmdTimeout timeoutMs => simp [fields, packedFields, pack]
  | deactivate | reset => rfl
  | rgbLedSet red green blue mode => simp [fields, packedFields, pack, bytesOf_byte]

/-- Every value fits the field that carries it. -/
def InRange : Command → Prop
  | wheelVelocity leftMrps rightMrps =>
    (∀ value ∈ leftMrps, int32.lowest ≤ value ∧ value ≤ int32.max) ∧
      ∀ value ∈ rightMrps, int32.lowest ≤ value ∧ value ≤ int32.max
  | setPidGains gains => ∀ i, int32.lowest ≤ gains i ∧ gains i ≤ int32.max
  | setCmdTimeout timeoutMs => uint16.lowest ≤ timeoutMs ∧ timeoutMs ≤ uint16.max
  | _ => True

/-- The sizes of the fields behind the timestamp, in the struct that goes with a MSG_ID. -/
def fieldSizes? (msgId : Byte) : Option (List ℕ) :=
  if msgId = MsgId.handshake then some [4]
  else if msgId = MsgId.wheelVelocity then some [4, 4]
  else if msgId = MsgId.setPidGains then some [4, 4, 4, 4, 4, 4]
  else if msgId = MsgId.setCmdTimeout then some [2]
  else if msgId = MsgId.deactivate then some []
  else if msgId = MsgId.reset then some []
  else if msgId = MsgId.rgbLedSet then some [1, 1, 1, 1]
  else none

theorem eq_handshake {command : Command} (h : command.msgId = MsgId.handshake) :
    command = handshake := by
  cases command <;> first | rfl | exact absurd h (by simp only [msgId]; decide)

section packedFields

variable {command other : Command} {fields otherFields : List PackedField}

theorem packedFields_wheelVelocity {leftMrps rightMrps : Option ℤ}
    (h : (wheelVelocity leftMrps rightMrps).packedFields = some fields) :
    ∃ left right : ℤ, leftMrps = some left ∧ rightMrps = some right ∧
      fields = [⟨4, left⟩, ⟨4, right⟩] := by
  obtain ⟨left, hleft, h⟩ := Option.bind_eq_some_iff.mp h
  obtain ⟨right, hright, h⟩ := Option.bind_eq_some_iff.mp h
  exact ⟨left, right, hleft, hright, (Option.some.inj h).symm⟩

theorem sizes_of_packedFields (h : command.packedFields = some fields) :
    fieldSizes? command.msgId = some (fields.map PackedField.size) := by
  cases command with
  | wheelVelocity leftMrps rightMrps =>
    obtain ⟨left, right, rfl, rfl, rfl⟩ := packedFields_wheelVelocity h
    rfl
  | setPidGains gains =>
    obtain rfl := Option.some.inj h
    rw [List.map_ofFn]
    rfl
  | handshake | setCmdTimeout | deactivate | reset | rgbLedSet =>
    obtain rfl := Option.some.inj h
    rfl

/-- A command whose values fit is determined by its MSG_ID and the bytes of its fields. -/
theorem eq_of_packedFields (hrange : command.InRange) (hother : other.InRange)
    (hid : command.msgId = other.msgId) (hfields : command.packedFields = some fields)
    (hotherFields : other.packedFields = some otherFields)
    (hbytes : fields.map (fun field ↦ bytesOf field.size field.value) =
      otherFields.map fun field ↦ bytesOf field.size field.value) : command = other := by
  -- Commands of different kinds have different MSG_IDs.
  cases command with
  | handshake => cases other <;> first | rfl | exact absurd hid (by simp only [msgId]; decide)
  | deactivate => cases other <;> first | rfl | exact absurd hid (by simp only [msgId]; decide)
  | reset => cases other <;> first | rfl | exact absurd hid (by simp only [msgId]; decide)
  | wheelVelocity leftMrps rightMrps =>
    cases other with
    | wheelVelocity otherLeft otherRight =>
      obtain ⟨left, right, rfl, rfl, rfl⟩ := packedFields_wheelVelocity hfields
      obtain ⟨left', right', rfl, rfl, rfl⟩ := packedFields_wheelVelocity hotherFields
      obtain ⟨hleft, hbytes⟩ := List.cons.inj hbytes
      rw [bytesOf_int32_injective (hrange.1 left rfl) (hother.1 left' rfl) hleft,
        bytesOf_int32_injective (hrange.2 right rfl) (hother.2 right' rfl) (List.cons.inj hbytes).1]
    | _ => exact absurd hid (by simp only [msgId]; decide)
  | setPidGains gains =>
    cases other with
    | setPidGains otherGains =>
      obtain rfl := Option.some.inj hfields
      obtain rfl := Option.some.inj hotherFields
      rw [List.map_ofFn, List.map_ofFn] at hbytes
      have hgains := List.ofFn_injective hbytes
      exact congrArg setPidGains (funext fun i ↦
        bytesOf_int32_injective (hrange i) (hother i) (congrFun hgains i))
    | _ => exact absurd hid (by simp only [msgId]; decide)
  | setCmdTimeout timeoutMs =>
    cases other with
    | setCmdTimeout otherTimeout =>
      obtain rfl := Option.some.inj hfields
      obtain rfl := Option.some.inj hotherFields
      have hsame := @bytesOf_unsigned_injective 2 timeoutMs otherTimeout
        ⟨hrange.1, Int.lt_of_le_sub_one hrange.2⟩ ⟨hother.1, Int.lt_of_le_sub_one hother.2⟩
        (List.cons.inj hbytes).1
      rw [hsame]
    | _ => exact absurd hid (by simp only [msgId]; decide)
  | rgbLedSet red green blue mode =>
    cases other with
    | rgbLedSet otherRed otherGreen otherBlue otherMode =>
      obtain rfl := Option.some.inj hfields
      obtain rfl := Option.some.inj hotherFields
      simp only [List.map_cons, List.map_nil, bytesOf_byte, List.cons.injEq, and_true] at hbytes
      obtain ⟨rfl, rfl, rfl, rfl⟩ := hbytes
      rfl
    | _ => exact absurd hid (by simp only [msgId]; decide)

end packedFields

end Command

/-- A command with the reading of the system clock that is sent with it. -/
structure Stamped where
  timestampSec : ℕ
  timestampNsec : ℕ
  command : Command
  deriving DecidableEq

namespace Stamped

/-- The message whose frame `WriteCommand` hands to the port. -/
def message? (s : Stamped) : Option Message :=
  (s.command.payload s.timestampSec s.timestampNsec).map (Message.mk s.command.msgId)

def packed (s : Stamped) : Option (List PackedField) :=
  s.command.packedFields.map fun fields ↦ ⟨4, s.timestampSec⟩ :: ⟨4, s.timestampNsec⟩ :: fields

/-- The timestamp and the values of the command fit their fields. -/
structure WellFormed (s : Stamped) : Prop where
  timestampSec : s.timestampSec < 2 ^ 32
  timestampNsec : s.timestampNsec < 2 ^ 32
  command : s.command.InRange

theorem message?_eq (s : Stamped) :
    s.message? = s.packed.map fun fields ↦ ⟨s.command.msgId, pack fields⟩ := by
  rw [message?, packed, Command.payload, Command.fields_eq, Option.map_map, Option.map_map,
    Option.map_map]
  simp only [Function.comp_def, pack, List.flatMap_cons, List.append_assoc]

section message

variable {s t : Stamped} {message : Message}

/-- A message is the struct of a stamped command. -/
theorem exists_of_message? (h : s.message? = some message) :
    ∃ fields, s.command.packedFields = some fields ∧ message.msgId = s.command.msgId ∧
      message.payload = pack (⟨4, s.timestampSec⟩ :: ⟨4, s.timestampNsec⟩ :: fields) := by
  rw [message?_eq, packed, Option.map_map] at h
  obtain ⟨fields, hfields, rfl⟩ := Option.map_eq_some_iff.mp h
  exact ⟨fields, hfields, rfl, rfl⟩

/-- No two stamped commands have one message. -/
theorem message?_injective (hs : s.WellFormed) (ht : t.WellFormed) (h : s.message? = some message)
    (h' : t.message? = some message) : s = t := by
  obtain ⟨fields, hfields, hid, hpayload⟩ := exists_of_message? h
  obtain ⟨fields', hfields', hid', hpayload'⟩ := exists_of_message? h'
  have hsameId := hid.symm.trans hid'
  have hsizes := Command.sizes_of_packedFields hfields
  rw [hsameId, Command.sizes_of_packedFields hfields'] at hsizes
  have hbytes := pack_injective (by simp [Option.some.inj hsizes]) (hpayload.symm.trans hpayload')
  simp only [List.map_cons, List.cons.injEq] at hbytes
  obtain ⟨hsecBytes, hnsecBytes, hfieldBytes⟩ := hbytes
  have hsec : (s.timestampSec : ℤ) = t.timestampSec := by
    refine bytesOf_unsigned_injective ⟨Int.natCast_nonneg _, ?_⟩ ⟨Int.natCast_nonneg _, ?_⟩ hsecBytes
    · exact_mod_cast hs.timestampSec
    · exact_mod_cast ht.timestampSec
  have hnsec : (s.timestampNsec : ℤ) = t.timestampNsec := by
    refine bytesOf_unsigned_injective ⟨Int.natCast_nonneg _, ?_⟩ ⟨Int.natCast_nonneg _, ?_⟩ hnsecBytes
    · exact_mod_cast hs.timestampNsec
    · exact_mod_cast ht.timestampNsec
  have hcommand := Command.eq_of_packedFields hs.command ht.command hsameId hfields hfields'
    hfieldBytes
  cases s
  cases t
  simp only [Stamped.mk.injEq]
  exact ⟨by exact_mod_cast hsec, by exact_mod_cast hnsec, hcommand⟩

/-- The payload is as long as the struct of the MSG_ID, and a HANDSHAKE names the version. -/
structure IsCommand (message : Message) : Prop where
  length : (Command.fieldSizes? message.msgId).map (8 + ·.sum) = some message.payload.length
  version : message.msgId = MsgId.handshake → unsignedAt message.payload 8 4 = protocolVersion

theorem isCommand_of_message? (h : s.message? = some message) : IsCommand message := by
  obtain ⟨fields, hfields, hid, hpayload⟩ := exists_of_message? h
  constructor
  · rw [hid, Command.sizes_of_packedFields hfields, hpayload, length_pack]
    simp only [Option.map_some, List.map_cons, List.sum_cons, ← Nat.add_assoc]
  · intro hhandshake
    rw [Command.eq_handshake (hid.symm.trans hhandshake)] at hfields
    obtain rfl := Option.some.inj hfields
    rw [hpayload]
    exact @unsignedAt_pack_of_lt _ 2 4 8 protocolVersion rfl rfl (by decide)

end message

/-- The stamp and the fields of a payload that reads as a command make up the payload. -/
theorem pack_of_stamped {p : List Byte} {fields : List PackedField}
    (hlength : p.length = 8 + (fields.map PackedField.size).sum) (hfields : HoldsFrom p 8 fields) :
    pack (⟨4, unsignedAt p 0 4⟩ :: ⟨4, unsignedAt p 4 4⟩ :: fields) = p := by
  refine pack_of_holdsFrom 0 ⟨?_, ?_, hfields⟩ ?_
  · exact bytesOf_unsignedAt p 0 4 (by omega)
  · exact bytesOf_unsignedAt p 4 4 (by omega)
  · rw [hlength]
    simp only [List.map_cons, List.sum_cons]
    omega

/-- A payload of the length that its MSG_ID asks for holds the fields of a command that fit. -/
theorem exists_packedFields {message : Message} (h : IsCommand message) :
    ∃ (command : Command) (fields : List PackedField), command.msgId = message.msgId ∧
      command.InRange ∧ command.packedFields = some fields ∧
      message.payload.length = 8 + (fields.map PackedField.size).sum ∧
      HoldsFrom message.payload 8 fields := by
  obtain ⟨msgId, p⟩ := message
  obtain ⟨hlength, hversion⟩ := h
  unfold Command.fieldSizes? at hlength
  dsimp only at hlength hversion
  split_ifs at hlength with hid hid hid hid hid hid hid
  all_goals
    simp only [Option.map_some, Option.some_inj, List.sum_cons, List.sum_nil, Option.map_none,
      reduceCtorEq] at hlength
  · have hfield := bytesOf_unsignedAt p 8 4 (by omega)
    rw [hversion hid] at hfield
    exact ⟨.handshake, _, hid.symm, trivial, rfl, hlength.symm, hfield, trivial⟩
  · refine ⟨.wheelVelocity (some (signedAt p 8 4)) (some (signedAt p 12 4)), _, hid.symm, ⟨?_, ?_⟩,
      rfl, hlength.symm, ?_, ?_, trivial⟩
    · rintro _ ⟨⟩
      exact signedAt_int32 p 8 (by omega)
    · rintro _ ⟨⟩
      exact signedAt_int32 p 12 (by omega)
    · exact bytesOf_signedAt p 8 4 (by omega)
    · exact bytesOf_signedAt p 12 4 (by omega)
  · refine ⟨.setPidGains fun i ↦ signedAt p (8 + 4 * i) 4, _, hid.symm,
      fun i ↦ signedAt_int32 p _ (by omega), rfl, hlength.symm, ?_⟩
    simp only [List.ofFn_succ, List.ofFn_zero, HoldsFrom, and_true]
    have hgain : ∀ offset, offset + 4 ≤ 32 → bytesOf 4 (signedAt p offset 4) =
        (p.drop offset).take 4 := fun offset hoffset ↦ bytesOf_signedAt p offset 4 (by omega)
    exact ⟨hgain 8 (by decide), hgain 12 (by decide), hgain 16 (by decide), hgain 20 (by decide),
      hgain 24 (by decide), hgain 28 (by decide)⟩
  · have hlt : unsignedAt p 8 2 < 256 ^ 2 := unsignedAt_lt p 8 2 (by omega)
    refine ⟨.setCmdTimeout (unsignedAt p 8 2), _, hid.symm, ⟨Int.natCast_nonneg _, ?_⟩, rfl,
      hlength.symm, ?_, trivial⟩
    · exact Int.le_sub_one_of_lt (by exact_mod_cast hlt)
    · exact bytesOf_unsignedAt p 8 2 (by omega)
  · exact ⟨.deactivate, _, hid.symm, trivial, rfl, hlength.symm, trivial⟩
  · exact ⟨.reset, _, hid.symm, trivial, rfl, hlength.symm, trivial⟩
  · have hbyte : ∀ i < p.length, bytesOf 1 (p.getD i 0).toNat = (p.drop i).take 1 := by
      intro i hi
      rw [Command.bytesOf_byte, List.take_one_drop_eq_of_lt_length hi, List.getD_eq_getElem _ _ hi]
      rfl
    exact ⟨.rgbLedSet (p.getD 8 0) (p.getD 9 0) (p.getD 10 0) (p.getD 11 0), _, hid.symm, trivial,
      rfl, hlength.symm, hbyte 8 (by omega), hbyte 9 (by omega), hbyte 10 (by omega),
      hbyte 11 (by omega), trivial⟩

theorem exists_message?_of_isCommand {message : Message} (h : IsCommand message) :
    ∃ s : Stamped, s.WellFormed ∧ s.message? = some message := by
  obtain ⟨command, fields, hmsgId, hrange, hfields, hlength, hholds⟩ := exists_packedFields h
  refine ⟨⟨unsignedAt message.payload 0 4, unsignedAt message.payload 4 4, command⟩,
    ⟨?_, ?_, hrange⟩, ?_⟩
  · exact unsignedAt_lt message.payload 0 4 (by omega)
  · exact unsignedAt_lt message.payload 4 4 (by omega)
  · rw [message?_eq, packed]
    dsimp only
    rw [hfields, Option.map_some, Option.map_some, pack_of_stamped hlength hholds, hmsgId]

/-- The message of a stamped command whose values fit belongs to no other one, and a message belongs
to one exactly if it is as long as its struct and, of a HANDSHAKE, names the version. -/
theorem message?_injective_and_image (message : Message) :
    (∀ s t : Stamped, s.WellFormed → t.WellFormed → s.message? = some message →
      t.message? = some message → s = t) ∧
    ((∃ s : Stamped, s.WellFormed ∧ s.message? = some message) ↔ IsCommand message) :=
  ⟨fun _ _ hs ht h h' ↦ message?_injective hs ht h h',
    fun ⟨_, _, h⟩ ↦ isCommand_of_message? h, exists_message?_of_isCommand⟩

theorem length_payload_le {s : Stamped} {message : Message} (h : s.message? = some message) :
    message.payload.length ≤ 255 := by
  obtain ⟨bytes, hbytes, rfl⟩ := Option.map_eq_some_iff.mp h
  exact (Command.length_payload_le hbytes).trans (by decide)

end Stamped

/-! ## Streams of commands -/

/-- The bytes of some commands, written one after the other; a wheel speed whose conversion is
undefined has none. -/
def framesOf (sent : List Stamped) : Option (List Byte) :=
  (sent.mapM Stamped.message?).map fun messages ↦ (messages.map Message.encode).flatten

theorem drain_encodings {sent : List Message}
    (hsent : ∀ message ∈ sent, message.payload.length ≤ 255) :
    reference.drain (sent.map Message.encode).flatten = (sent.map .frame, []) := by
  have hencodings := emits_encodings hsent []
  rw [List.append_nil] at hencodings
  exact hencodings.eq_drain (reference_waits_iff.mpr (.inl rfl))

theorem map_message?_of_mapM {sent : List Stamped} {messages : List Message}
    (h : sent.mapM Stamped.message? = some messages) :
    (∀ message ∈ messages, message.payload.length ≤ 255) ∧
      sent.map Stamped.message? = messages.map some := by
  induction sent generalizing messages with
  | nil =>
    obtain rfl := Option.some.inj h
    exact ⟨fun _ hmem ↦ absurd hmem List.not_mem_nil, rfl⟩
  | cons s sent ih =>
    rw [List.mapM_cons] at h
    obtain ⟨message, hmessage, h⟩ := Option.bind_eq_some_iff.mp h
    obtain ⟨rest, hrest, h⟩ := Option.bind_eq_some_iff.mp h
    obtain rfl := Option.some.inj h
    obtain ⟨hlengths, hmap⟩ := ih hrest
    refine ⟨List.forall_mem_cons.mpr ⟨Stamped.length_payload_le hmessage, hlengths⟩, ?_⟩
    rw [List.map_cons, List.map_cons, hmessage, hmap]

/-- Lists of stamped commands whose values fit have the same messages only if they are the same. -/
theorem eq_of_map_message? {sent other : List Stamped} {messages : List Message}
    (hsent : ∀ s ∈ sent, s.WellFormed) (hother : ∀ s ∈ other, s.WellFormed)
    (h : sent.map Stamped.message? = messages.map some)
    (h' : other.map Stamped.message? = messages.map some) : sent = other := by
  induction messages generalizing sent other with
  | nil => rw [List.map_eq_nil_iff.mp h, List.map_eq_nil_iff.mp h']
  | cons message messages ih =>
    obtain ⟨s, sent, rfl, hs, h⟩ := List.map_eq_cons_iff.mp h
    obtain ⟨t, other, rfl, ht, h'⟩ := List.map_eq_cons_iff.mp h'
    obtain ⟨hformed, hsent⟩ := List.forall_mem_cons.mp hsent
    obtain ⟨hformed', hother⟩ := List.forall_mem_cons.mp hother
    rw [Stamped.message?_injective hformed hformed' hs ht, ih hsent hother h h']

/-- Whoever parses the bytes of some commands, in any batches, receives their messages and nothing
else. -/
theorem received_of_frames {sent : List Stamped} {batches : List (List Byte)} {s : SerialTransport}
    (hopen : s.isOpen = true) (hempty : s.rxBuffer = [])
    (hframes : framesOf sent = some batches.flatten) :
    sent.map Stamped.message? =
        (SerialTransport.dispatched (SerialTransport.readBatches batches s).2).map some ∧
      (SerialTransport.readBatches batches s).1.crcErrorCount = s.crcErrorCount ∧
      (SerialTransport.readBatches batches s).1.rxBuffer = [] := by
  obtain ⟨messages, hmessages, hflatten⟩ := Option.map_eq_some_iff.mp hframes
  obtain ⟨hlengths, hmap⟩ := map_message?_of_mapM hmessages
  have hdrain := drain_encodings hlengths
  rw [hflatten] at hdrain
  have hfollows := SerialTransport.readBatches_follows batches hopen hempty
  obtain ⟨hcrc, _⟩ := SerialTransport.readBatches_counts batches hopen hempty
  rw [SerialTransport.dispatched_eq_messages hfollows, hcrc,
    SerialTransport.readBatches_rxBuffer batches hopen hempty, hdrain, messages_map_frame,
    rejections_map_frame]
  exact ⟨hmap, rfl, rfl⟩

end MyDiffbot.Transport
