import MyDiffbot.Gf2.ShiftRegister
import MyDiffbot.Protocol.Crc16

/-!
# The checksum as a remainder

The bitwise loop of `crc16_ccitt` is the shift register over GF(2) with taps 0x1021. Feeding a byte
multiplies by `X ^ 8` and adds the byte times `X ^ 16`, so the loop over some bytes divides their
polynomial by that of the register. In the errors of a frame the initial value cancels.
-/

namespace MyDiffbot.Protocol

open Polynomial Gf2

def crcTaps : BitVec 16 := 0x1021#16

theorem crcBit_eq_shift (crc : BitVec 16) : crcBit crc = shift crcTaps crc := by
  have htop : crc &&& 0x8000#16 = if crc.msb then 0x8000#16 else 0#16 := by
    have hpow : (0x8000#16 : BitVec 16) = BitVec.twoPow 16 15 := by decide
    rw [hpow, BitVec.and_twoPow, BitVec.msb_eq_getLsbD_last]
  unfold crcBit shift
  rw [htop]
  cases crc.msb with
  | false => simp
  | true => simp [crcTaps]

theorem crcByte_eq_shift (crc : BitVec 16) (byte : Byte) :
    crcByte crc byte = (shift crcTaps)^[8] (crc ^^^ (byte.setWidth 16 <<< 8)) := by
  rw [crcByte, funext crcBit_eq_shift]

/-- The bits of some bytes in wire order. -/
def wireBits (bytes : List Byte) : List Bool := bytes.flatMap bitsOf

theorem wireBits_append (first second : List Byte) :
    wireBits (first ++ second) = wireBits first ++ wireBits second :=
  List.flatMap_append

@[simp]
theorem length_wireBits (bytes : List Byte) : (wireBits bytes).length = 8 * bytes.length := by
  induction bytes with
  | nil => rfl
  | cons byte bytes ih =>
    rw [wireBits, List.flatMap_cons, List.length_append, length_bitsOf]
    change 8 + (wireBits bytes).length = _
    rw [ih, List.length_cons]
    ring

theorem true_mem_wireBits_iff {bytes : List Byte} :
    true ∈ wireBits bytes ↔ ∃ byte ∈ bytes, byte ≠ 0#8 := by
  rw [wireBits, List.mem_flatMap]
  simp only [true_mem_bitsOf_iff]

theorem ofBits_wireBits_cons (byte : Byte) (bytes : List Byte) :
    ofBits (wireBits (byte :: bytes)) =
      poly byte * X ^ (8 * bytes.length) + ofBits (wireBits bytes) := by
  change ofBits (bitsOf byte ++ wireBits bytes) = _
  rw [ofBits_append, length_wireBits]
  rfl

theorem poly_setWidth (byte : Byte) : poly (byte.setWidth 16) = poly byte := by
  ext i
  rw [coeff_poly, coeff_poly, BitVec.getLsbD_setWidth]
  by_cases hi : i < 16
  · simp [hi]
  · rw [BitVec.getLsbD_of_ge byte i (by omega)]
    simp

theorem poly_highByte (byte : Byte) : poly (byte.setWidth 16 <<< 8) = poly byte * X ^ 8 := by
  ext i
  rw [coeff_poly, coeff_mul_X_pow', coeff_poly, BitVec.getLsbD_shiftLeft, BitVec.getLsbD_setWidth]
  by_cases hlow : i < 8
  · simp [hlow, not_le.mpr hlow, coefficient]
  · by_cases hhigh : i < 16
    · have hsub : i - 8 < 16 := by omega
      simp [hlow, not_lt.mp hlow, hhigh, hsub]
    · rw [BitVec.getLsbD_of_ge byte (i - 8) (by omega)]
      simp [coefficient]

noncomputable abbrev crcModulus : (ZMod 2)[X] := modulus crcTaps

theorem crcModulus_eq : crcModulus = X ^ 16 + X ^ 12 + X ^ 5 + 1 := by
  have htaps : bitsOf crcTaps = List.replicate 3 false ++ true :: (List.replicate 6 false ++
      true :: (List.replicate 4 false ++ [true])) := by decide
  rw [crcModulus, modulus, poly, htaps, ofBits_append, ofBits_cons, ofBits_append, ofBits_cons,
    ofBits_append, ofBits_cons, ofBits_replicate_false, ofBits_replicate_false,
    ofBits_replicate_false]
  simp [coefficient, add_assoc]

theorem crcModulus_eval_one : crcModulus.eval 1 = 0 := by
  rw [crcModulus_eq]
  simp only [eval_add, eval_pow, eval_X, eval_one, one_pow]
  decide

theorem crcModulus_coeff_zero : crcModulus.coeff 0 ≠ 0 :=
  coeff_zero_modulus (by decide) (by decide)

theorem crcModulus_degree : crcModulus.degree = 16 := degree_modulus crcTaps

/-- No two bits within 260 bytes, the longest frame, make an error with two terms. -/
theorem crcModulus_not_dvd {d : ℕ} (hpos : 0 < d) (hd : d < 2080) :
    ¬crcModulus ∣ X ^ d + 1 := by
  have havoids : avoids crcTaps 1#16 2079 1#16 = true := by decide +kernel
  exact not_dvd_X_pow_add_one (by decide)
    (iterate_shift_ne_of_avoids havoids hpos (Nat.le_of_lt_succ hd))

/-- A byte shifts the remainder by eight places and is itself shifted by sixteen. -/
theorem residue_crcByte (crc : BitVec 16) (byte : Byte) :
    residue crcTaps (crcByte crc byte) =
      residue crcTaps crc * AdjoinRoot.root crcModulus ^ 8 +
        AdjoinRoot.mk crcModulus (poly byte) * AdjoinRoot.root crcModulus ^ 16 := by
  have hhigh : residue crcTaps (byte.setWidth 16 <<< 8) =
      AdjoinRoot.mk crcModulus (poly byte) * AdjoinRoot.root crcModulus ^ 8 := by
    rw [residue, poly_highByte, map_mul, map_pow, AdjoinRoot.mk_X]
  rw [crcByte_eq_shift, residue_iterate_shift, residue_xor, hhigh, add_mul, mul_assoc, ← pow_add]

/-- The loop over some bytes, from any register. -/
theorem residue_foldl_crcByte (crc : BitVec 16) (bytes : List Byte) :
    residue crcTaps (bytes.foldl crcByte crc) =
      residue crcTaps crc * AdjoinRoot.root crcModulus ^ (8 * bytes.length) +
        AdjoinRoot.mk crcModulus (ofBits (wireBits bytes)) *
          AdjoinRoot.root crcModulus ^ 16 := by
  induction bytes generalizing crc with
  | nil => simp [wireBits]
  | cons byte bytes ih =>
    rw [List.foldl_cons, ih, residue_crcByte, ofBits_wireBits_cons, map_add, map_mul, map_pow,
      AdjoinRoot.mk_X, List.length_cons]
    ring

/-! ## The checksum of some bytes -/

/-- The two bytes do not overlap. -/
theorem joinBytes_eq_xor (low high : Byte) :
    joinBytes low high = low.setWidth 16 ^^^ (high.setWidth 16 <<< 8) := by
  apply BitVec.eq_of_getLsbD_eq
  intro i hi
  rw [joinBytes, BitVec.getLsbD_or, BitVec.getLsbD_xor, BitVec.getLsbD_shiftLeft]
  by_cases hlow : i < 8
  · simp [hlow]
  · rw [BitVec.getLsbD_setWidth, BitVec.getLsbD_of_ge low i (by omega)]
    simp

/-- The polynomial of a checksum is that of its two bytes, the high one first. -/
theorem poly_joinBytes (low high : Byte) :
    poly (joinBytes low high) = ofBits (wireBits [high, low]) := by
  rw [joinBytes_eq_xor, poly_xor, poly_setWidth, poly_highByte, ofBits_wireBits_cons,
    ofBits_wireBits_cons]
  simp [wireBits, add_comm]

/-- The initial value, whose bits are all ones, stands in front of the bytes. -/
theorem residue_crc16Ccitt (bytes : List Byte) :
    residue crcTaps (crc16Ccitt bytes) =
      AdjoinRoot.mk crcModulus (ofBits (wireBits bytes) * X ^ 16 +
        (∑ i ∈ Finset.range 16, X ^ i) * X ^ (8 * bytes.length)) := by
  have hinitial : residue crcTaps 0xFFFF#16 =
      AdjoinRoot.mk crcModulus (∑ i ∈ Finset.range 16, X ^ i) := by
    rw [← poly_allOnes]
    rfl
  rw [crc16Ccitt, residue_foldl_crcByte, hinitial]
  simp only [map_add, map_mul, map_pow, AdjoinRoot.mk_X]
  exact add_comm _ _

/-- Two bytes that equal the register, the high one first, clear it. -/
theorem foldl_crcByte_self (crc : BitVec 16) :
    [highByte crc, lowByte crc].foldl crcByte crc = 0#16 := by
  apply @residue_injective 16 crcTaps
  have hbytes : AdjoinRoot.mk crcModulus (ofBits (wireBits [highByte crc, lowByte crc])) =
      residue crcTaps crc := by
    rw [← poly_joinBytes, joinBytes_lowByte_highByte, residue]
  calc residue crcTaps ([highByte crc, lowByte crc].foldl crcByte crc)
      = (residue crcTaps crc + residue crcTaps crc) * AdjoinRoot.root crcModulus ^ 16 := by
        rw [residue_foldl_crcByte, hbytes, add_mul]
        rfl
    _ = residue crcTaps 0#16 := by rw [residue_add_self, zero_mul, residue_zero]

/-! ## Remainders of errors -/

/-- The register after some bytes, from zero. -/
def crcRemainder (bytes : List Byte) : BitVec 16 := bytes.foldl crcByte 0#16

theorem joinBytes_xor (low high other more : Byte) :
    joinBytes (low ^^^ other) (high ^^^ more) = joinBytes low high ^^^ joinBytes other more := by
  rw [joinBytes_eq_xor, joinBytes_eq_xor, joinBytes_eq_xor, BitVec.setWidth_xor,
    BitVec.setWidth_xor, BitVec.shiftLeft_xor_distrib]
  ac_rfl

theorem residue_crcRemainder (bytes : List Byte) :
    residue crcTaps (crcRemainder bytes) =
      AdjoinRoot.mk crcModulus (ofBits (wireBits bytes)) * AdjoinRoot.root crcModulus ^ 16 := by
  rw [crcRemainder, residue_foldl_crcByte, residue_zero, zero_mul, zero_add]

/-- A checksum is the remainder of some bytes if, behind them and high byte first, it makes them a
multiple of the polynomial. -/
theorem crcRemainder_eq_joinBytes_iff (bytes : List Byte) (low high : Byte) :
    crcRemainder bytes = joinBytes low high ↔
      crcModulus ∣ ofBits (wireBits (bytes ++ [high, low])) := by
  have hremainder : residue crcTaps (crcRemainder bytes) =
      AdjoinRoot.mk crcModulus (ofBits (wireBits bytes) * X ^ 16) := by
    rw [residue_crcRemainder, map_mul, map_pow, AdjoinRoot.mk_X]
  rw [← residue_injective.eq_iff (f := residue crcTaps), hremainder, residue, poly_joinBytes,
    AdjoinRoot.mk_eq_mk, CharTwo.sub_eq_add, wireBits_append, ofBits_append, length_wireBits]
  rfl

/-- The remainder of two bytes is sixteen shifts of them. -/
theorem crcRemainder_two (low high : Byte) :
    crcRemainder [high, low] = (shift crcTaps)^[16] (joinBytes low high) := by
  apply @residue_injective 16 crcTaps
  rw [residue_crcRemainder, residue_iterate_shift, residue, poly_joinBytes]

theorem crcRemainder_replicate_append (n : ℕ) (bytes : List Byte) :
    crcRemainder (List.replicate n 0#8 ++ bytes) = crcRemainder bytes := by
  induction n with
  | zero => rfl
  | succ n ih =>
    have hzero : crcByte 0#16 0#8 = 0#16 := by decide
    rw [List.replicate_succ, List.cons_append, crcRemainder, List.foldl_cons, hzero]
    exact ih

theorem crcByte_xor (first second : BitVec 16) (byte other : Byte) :
    crcByte (first ^^^ second) (byte ^^^ other) = crcByte first byte ^^^ crcByte second other := by
  rw [crcByte_eq_shift, crcByte_eq_shift, crcByte_eq_shift, ← iterate_shift_xor,
    BitVec.setWidth_xor, BitVec.shiftLeft_xor_distrib]
  congr 1
  ac_rfl

/-- The checksum of corrupted bytes differs by the remainder of the error. -/
theorem crc16Ccitt_zipWith_xor {bytes error : List Byte} (hlength : error.length = bytes.length) :
    crc16Ccitt (List.zipWith (· ^^^ ·) bytes error) = crc16Ccitt bytes ^^^ crcRemainder error := by
  have hfold : ∀ first second : BitVec 16,
      (List.zipWith (· ^^^ ·) bytes error).foldl crcByte (first ^^^ second) =
        bytes.foldl crcByte first ^^^ error.foldl crcByte second := by
    induction bytes generalizing error with
    | nil =>
      obtain rfl := List.length_eq_zero_iff.mp hlength
      exact fun _ _ ↦ rfl
    | cons byte bytes ih =>
      cases error with
      | nil => cases hlength
      | cons other error =>
        intro first second
        rw [List.zipWith_cons_cons, List.foldl_cons, crcByte_xor,
          ih (Nat.succ.inj hlength)]
        rfl
  have hstart := hfold 0xFFFF#16 0#16
  rwa [BitVec.xor_zero] at hstart

/-! ## The checksum as an affine map -/

theorem crc16Ccitt_eq_remainder (bytes : List Byte) :
    poly (crc16Ccitt bytes) =
      (ofBits (wireBits bytes) * X ^ 16 +
        (∑ i ∈ Finset.range 16, X ^ i) * X ^ (8 * bytes.length)) %ₘ
          (X ^ 16 + X ^ 12 + X ^ 5 + 1) := by
  rw [poly_eq_modByMonic (residue_crc16Ccitt bytes), ← crcModulus_eq]

theorem crc16Ccitt_append_self (bytes : List Byte) :
    crc16Ccitt (bytes ++ [highByte (crc16Ccitt bytes), lowByte (crc16Ccitt bytes)]) = 0#16 := by
  rw [crc16Ccitt, List.foldl_append]
  exact foldl_crcByte_self _

theorem zipWith_xor_self (first second : List Byte) (hlength : first.length = second.length) :
    List.zipWith (· ^^^ ·) first (List.zipWith (· ^^^ ·) first second) = second := by
  induction first generalizing second with
  | nil => exact (List.length_eq_zero_iff.mp hlength.symm).symm
  | cons byte first ih =>
    cases second with
    | nil => cases hlength
    | cons other second =>
      rw [List.zipWith_cons_cons, List.zipWith_cons_cons, ih second (Nat.succ.inj hlength),
        ← BitVec.xor_assoc, BitVec.xor_self, BitVec.zero_xor]

/-- The initial value cancels between two messages of one length. -/
theorem crc16Ccitt_xor (first second : List Byte) (hlength : first.length = second.length) :
    crc16Ccitt first ^^^ crc16Ccitt second =
      crcRemainder (List.zipWith (· ^^^ ·) first second) := by
  have herror : (List.zipWith (· ^^^ ·) first second).length = first.length := by
    rw [List.length_zipWith, hlength, min_self]
  have hsecond := crc16Ccitt_zipWith_xor herror
  rw [zipWith_xor_self first second hlength] at hsecond
  rw [hsecond, ← BitVec.xor_assoc, BitVec.xor_self, BitVec.zero_xor]

/-- `crc16_ccitt` divides: its bits are the coefficients of the remainder of the message, behind
the ones of the initial value and in front of sixteen zeros. A message followed by its checksum
leaves no remainder, and what two messages of one length differ by decides what their checksums
differ by. -/
theorem crc16Ccitt_divides :
    (∀ (bytes : List Byte) (i : ℕ),
      coefficient ((crc16Ccitt bytes).getLsbD i) =
        ((ofBits (wireBits bytes) * X ^ 16 +
          (∑ i ∈ Finset.range 16, X ^ i) * X ^ (8 * bytes.length)) %ₘ
            (X ^ 16 + X ^ 12 + X ^ 5 + 1)).coeff i) ∧
    (∀ bytes : List Byte,
      crc16Ccitt (bytes ++ [highByte (crc16Ccitt bytes), lowByte (crc16Ccitt bytes)]) = 0#16) ∧
    ∃ difference : List Byte → BitVec 16, ∀ first second : List Byte,
      first.length = second.length →
        crc16Ccitt first ^^^ crc16Ccitt second =
          difference (List.zipWith (· ^^^ ·) first second) := by
  refine ⟨fun bytes i ↦ ?_, crc16Ccitt_append_self, crcRemainder, crc16Ccitt_xor⟩
  rw [← coeff_poly, crc16Ccitt_eq_remainder]

/-- The known vector and an error in its second byte. -/
theorem crc16Ccitt_divides_known :
    crc16Ccitt [0x31#8, 0x32#8, 0x33#8, 0x5B#8, 0xCE#8] = 0#16 ∧
      ∃ difference : List Byte → BitVec 16,
        crc16Ccitt [0x31#8, 0x32#8, 0x33#8] ^^^ crc16Ccitt [0x31#8, 0x33#8, 0x33#8] =
          difference [0#8, 1#8, 0#8] := by
  obtain ⟨-, hself, difference, hdifference⟩ := crc16Ccitt_divides
  refine ⟨?_, difference, ?_⟩
  · have hknown : crc16Ccitt [0x31#8, 0x32#8, 0x33#8] = 0x5BCE#16 := by decide +kernel
    have hzero := hself [0x31#8, 0x32#8, 0x33#8]
    rw [hknown] at hzero
    exact hzero
  · exact hdifference [0x31#8, 0x32#8, 0x33#8] [0x31#8, 0x33#8, 0x33#8] rfl

end MyDiffbot.Protocol
