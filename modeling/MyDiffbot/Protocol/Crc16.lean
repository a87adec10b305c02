import Mathlib.Logic.Function.Iterate

/-!
# CRC16-CCITT

The bitwise checksum of the binary protocol: polynomial 0x1021, initial value 0xFFFF, most
significant bit first. The checksum travels low byte first; splitting it into those two bytes and
joining them again is the identity in both directions.
-/

namespace MyDiffbot.Protocol

/-- `uint8_t`. -/
abbrev Byte := BitVec 8

/-- One turn of the inner loop: shift, and reduce by the polynomial when a one leaves the top. -/
def crcBit (crc : BitVec 16) : BitVec 16 :=
  if crc &&& 0x8000#16 ≠ 0#16 then (crc <<< 1) ^^^ 0x1021#16 else crc <<< 1

/-- One turn of the outer loop. -/
def crcByte (crc : BitVec 16) (byte : Byte) : BitVec 16 :=
  crcBit^[8] (crc ^^^ (byte.setWidth 16 <<< 8))

/-- `crc16_ccitt`, on the bytes between `data` and `data + length`. -/
def crc16Ccitt (data : List Byte) : BitVec 16 := data.foldl crcByte 0xFFFF#16

def lowByte (crc : BitVec 16) : Byte := (crc &&& 0xFF#16).setWidth 8

def highByte (crc : BitVec 16) : Byte := ((crc >>> 8) &&& 0xFF#16).setWidth 8

/-- The receiver's reading of the two checksum bytes, low byte first. -/
def joinBytes (low high : Byte) : BitVec 16 := low.setWidth 16 ||| (high.setWidth 16 <<< 8)

theorem toNat_lowByte (crc : BitVec 16) : (lowByte crc).toNat = crc.toNat % 256 := by
  simp only [lowByte, BitVec.toNat_setWidth, BitVec.toNat_and, BitVec.toNat_ofNat]
  have hmask : crc.toNat &&& 255 = crc.toNat % 256 := Nat.and_two_pow_sub_one_eq_mod crc.toNat 8
  simp only [Nat.reducePow, Nat.reduceMod, hmask, Nat.mod_mod]

theorem toNat_highByte (crc : BitVec 16) : (highByte crc).toNat = crc.toNat / 256 := by
  have hlt := crc.isLt
  simp only [highByte, BitVec.toNat_setWidth, BitVec.toNat_and, BitVec.toNat_ushiftRight,
    BitVec.toNat_ofNat, Nat.shiftRight_eq_div_pow]
  have hmask : crc.toNat / 2 ^ 8 &&& 255 = crc.toNat / 2 ^ 8 % 256 :=
    Nat.and_two_pow_sub_one_eq_mod _ 8
  simp only [Nat.reducePow, Nat.reduceMod] at hmask hlt ⊢
  omega

theorem toNat_joinBytes (low high : Byte) :
    (joinBytes low high).toNat = low.toNat + 256 * high.toNat := by
  have hlow := low.isLt
  have hhigh := high.isLt
  have hdisjoint : low.toNat ||| high.toNat <<< 8 = high.toNat <<< 8 + low.toNat := by
    rw [Nat.or_comm]
    exact (Nat.shiftLeft_add_eq_or_of_lt hlow high.toNat).symm
  simp only [joinBytes, BitVec.toNat_or, BitVec.toNat_setWidth, BitVec.toNat_shiftLeft]
  rw [Nat.mod_eq_of_lt (by omega : low.toNat < 2 ^ 16),
    Nat.mod_eq_of_lt (by omega : high.toNat < 2 ^ 16),
    Nat.mod_eq_of_lt (by rw [Nat.shiftLeft_eq]; omega), hdisjoint, Nat.shiftLeft_eq]
  omega

@[simp]
theorem joinBytes_lowByte_highByte (crc : BitVec 16) :
    joinBytes (lowByte crc) (highByte crc) = crc := by
  apply BitVec.eq_of_toNat_eq
  rw [toNat_joinBytes, toNat_lowByte, toNat_highByte]
  omega

@[simp]
theorem lowByte_joinBytes (low high : Byte) : lowByte (joinBytes low high) = low := by
  apply BitVec.eq_of_toNat_eq
  have hlow := low.isLt
  rw [toNat_lowByte, toNat_joinBytes]
  omega

@[simp]
theorem highByte_joinBytes (low high : Byte) : highByte (joinBytes low high) = high := by
  apply BitVec.eq_of_toNat_eq
  have hlow := low.isLt
  rw [toNat_highByte, toNat_joinBytes]
  omega

example : crc16Ccitt [0x31#8, 0x32#8, 0x33#8] = 0x5BCE#16 := by decide +kernel

end MyDiffbot.Protocol
