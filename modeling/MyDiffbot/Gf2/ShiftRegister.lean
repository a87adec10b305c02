import MyDiffbot.Gf2.Polynomial
import Mathlib.RingTheory.AdjoinRoot

/-!
# Shift registers over GF(2)

A register of `w` bits that is shifted up, and to which a word of taps is added when a one leaves at
the top, is multiplication by `X` modulo the polynomial `X ^ w` plus the taps. Words stand for the
remainders, each for one, so that equations between words may be proved in the quotient ring.
-/

namespace MyDiffbot.Gf2

open Polynomial

variable {w : ℕ}

/-! ## Words -/

/-- The bits of a word, the most significant one first. -/
def bitsOf (word : BitVec w) : List Bool := (List.range w).reverse.map word.getLsbD

@[simp]
theorem length_bitsOf (word : BitVec w) : (bitsOf word).length = w := by
  simp [bitsOf]

theorem true_mem_bitsOf_iff {word : BitVec w} : true ∈ bitsOf word ↔ word ≠ 0#w := by
  have hmem : true ∈ bitsOf word ↔ ∃ i < w, word.getLsbD i = true := by simp [bitsOf]
  rw [hmem, Ne, ← not_iff_not, not_not]
  constructor
  · intro hnone
    apply BitVec.eq_of_getLsbD_eq
    intro i hi
    rw [BitVec.getLsbD_zero]
    exact Bool.eq_false_iff.mpr fun hone ↦ hnone ⟨i, hi, hone⟩
  · rintro rfl ⟨i, _, hone⟩
    simp at hone

theorem coeff_ofBits_reverse_range (n : ℕ) (bit : ℕ → Bool) (i : ℕ) :
    (ofBits ((List.range n).reverse.map bit)).coeff i =
      if i < n then coefficient (bit i) else 0 := by
  induction n with
  | zero => simp
  | succ n ih =>
    rw [List.range_succ, List.reverse_append, List.map_append, List.reverse_singleton,
      List.map_singleton, List.singleton_append, ofBits_cons, coeff_add, ih, coeff_C_mul_X_pow]
    simp only [List.length_map, List.length_reverse, List.length_range]
    by_cases hi : i = n
    · subst hi
      simp
    · by_cases hlt : i < n
      · simp [hi, hlt, Nat.lt_succ_of_lt hlt]
      · have hge : ¬i < n + 1 := by omega
        simp [hi, hlt, hge]

/-- The polynomial of a word. -/
noncomputable def poly (word : BitVec w) : (ZMod 2)[X] := ofBits (bitsOf word)

theorem coeff_poly (word : BitVec w) (i : ℕ) :
    (poly word).coeff i = coefficient (word.getLsbD i) := by
  rw [poly, bitsOf, coeff_ofBits_reverse_range]
  split
  · rfl
  · rename_i hi
    rw [BitVec.getLsbD_of_ge word i (not_lt.mp hi)]
    rfl

theorem poly_xor (first second : BitVec w) :
    poly (first ^^^ second) = poly first + poly second := by
  ext i
  rw [coeff_add, coeff_poly, coeff_poly, coeff_poly, BitVec.getLsbD_xor, coefficient_xor]

theorem poly_injective : Function.Injective (poly : BitVec w → (ZMod 2)[X]) := by
  intro first second h
  apply BitVec.eq_of_getLsbD_eq
  intro i _
  apply coefficient_injective
  rw [← coeff_poly, ← coeff_poly, h]

theorem degree_poly_lt (word : BitVec w) : (poly word).degree < w := by
  have hdegree := degree_ofBits_lt (bitsOf word)
  rwa [length_bitsOf] at hdegree

/-- A shift drops the top bit. -/
theorem poly_shiftLeft_one (word : BitVec w) :
    poly (word <<< 1) + C (coefficient word.msb) * X ^ w = poly word * X := by
  ext i
  rw [coeff_add, coeff_poly, coeff_C_mul_X_pow, BitVec.getLsbD_shiftLeft]
  cases i with
  | zero =>
    rw [coeff_mul_X_zero]
    cases w with
    | zero => simp [coefficient, BitVec.msb, BitVec.getMsbD]
    | succ w => simp [coefficient]
  | succ i =>
    rw [coeff_mul_X, coeff_poly]
    by_cases hlt : i + 1 < w
    · simp [hlt, hlt.ne]
    · by_cases heq : i + 1 = w
      · subst heq
        simp [BitVec.msb_eq_getLsbD_last, coefficient]
      · rw [BitVec.getLsbD_of_ge word i (by omega)]
        simp [heq, hlt, coefficient]

/-! ## The register -/

/-- One shift towards the most significant bit. -/
def shift (taps word : BitVec w) : BitVec w :=
  if word.msb then (word <<< 1) ^^^ taps else word <<< 1

/-- The polynomial that a shift register divides by. -/
noncomputable def modulus (taps : BitVec w) : (ZMod 2)[X] := X ^ w + poly taps

variable {taps : BitVec w}

theorem monic_modulus (taps : BitVec w) : (modulus taps).Monic :=
  monic_X_pow_add (degree_poly_lt taps)

theorem degree_modulus (taps : BitVec w) : (modulus taps).degree = w := by
  have hlt : (poly taps).degree < (X ^ w : (ZMod 2)[X]).degree := by
    rw [degree_X_pow]
    exact degree_poly_lt taps
  rw [modulus, degree_add_eq_left_of_degree_lt hlt, degree_X_pow]

theorem coeff_zero_modulus (hw : w ≠ 0) (htaps : taps.getLsbD 0 = true) :
    (modulus taps).coeff 0 ≠ 0 := by
  rw [modulus, coeff_add, coeff_X_pow, if_neg hw.symm, coeff_poly, htaps]
  decide

/-- The remainder that a word stands for. -/
noncomputable def residue (taps word : BitVec w) : AdjoinRoot (modulus taps) :=
  AdjoinRoot.mk (modulus taps) (poly word)

theorem residue_injective : Function.Injective (residue taps) := by
  intro first second h
  apply poly_injective
  by_contra hne
  have hdegree : (poly first - poly second).degree < (modulus taps).degree := by
    rw [degree_modulus]
    exact (degree_sub_le _ _).trans_lt (max_lt (degree_poly_lt first) (degree_poly_lt second))
  exact (monic_modulus taps).not_dvd_of_degree_lt (sub_ne_zero.mpr hne) hdegree
    (AdjoinRoot.mk_eq_mk.mp h)

theorem residue_xor (first second : BitVec w) :
    residue taps (first ^^^ second) = residue taps first + residue taps second := by
  rw [residue, poly_xor, map_add]
  rfl

theorem residue_zero : residue taps 0#w = 0 := by
  have hsame : residue taps (0#w ^^^ 0#w) = _ := residue_xor 0#w 0#w
  rw [BitVec.xor_self] at hsame
  exact left_eq_add.mp hsame

theorem residue_add_self (word : BitVec w) : residue taps word + residue taps word = 0 := by
  rw [← residue_xor, BitVec.xor_self, residue_zero]

/-- A word is the remainder of the polynomials it stands for. -/
theorem poly_eq_modByMonic {word : BitVec w} {p : (ZMod 2)[X]}
    (h : residue taps word = AdjoinRoot.mk (modulus taps) p) : poly word = p %ₘ modulus taps := by
  have hself : poly word %ₘ modulus taps = poly word := by
    apply (modByMonic_eq_self_iff (monic_modulus taps)).mpr
    rw [degree_modulus]
    exact degree_poly_lt word
  have hremainder := congrArg (AdjoinRoot.modByMonicHom (monic_modulus taps)) h
  rwa [residue, AdjoinRoot.modByMonicHom_mk, AdjoinRoot.modByMonicHom_mk, hself] at hremainder

theorem poly_allOnes (w : ℕ) : poly (BitVec.allOnes w) = ∑ i ∈ Finset.range w, X ^ i := by
  ext i
  rw [coeff_poly, BitVec.getLsbD_allOnes, finsetSum_coeff]
  simp [coeff_X_pow, coefficient]

/-- The taps are what is left of a one that leaves the register. -/
theorem root_pow_width (taps : BitVec w) :
    AdjoinRoot.root (modulus taps) ^ w = residue taps taps := by
  have hzero : AdjoinRoot.mk (modulus taps) (X ^ w + poly taps) = 0 := AdjoinRoot.mk_self
  rw [map_add, map_pow, AdjoinRoot.mk_X] at hzero
  rw [eq_neg_of_add_eq_zero_left hzero]
  exact ZModModule.neg_eq_self _

/-- A shift is a multiplication by the root. -/
theorem residue_shift (word : BitVec w) :
    residue taps (shift taps word) = residue taps word * AdjoinRoot.root (modulus taps) := by
  have hshift := congrArg (AdjoinRoot.mk (modulus taps)) (poly_shiftLeft_one word)
  simp only [map_add, map_mul, map_pow, AdjoinRoot.mk_X] at hshift
  rw [root_pow_width] at hshift
  rw [residue, residue, ← hshift]
  unfold shift
  cases word.msb with
  | false => simp [coefficient, residue]
  | true => simp [coefficient, residue, poly_xor]

theorem residue_iterate_shift (n : ℕ) (word : BitVec w) :
    residue taps ((shift taps)^[n] word) =
      residue taps word * AdjoinRoot.root (modulus taps) ^ n := by
  induction n with
  | zero => simp
  | succ n ih => rw [Function.iterate_succ_apply', residue_shift, ih, pow_succ, mul_assoc]

theorem shift_xor (first second : BitVec w) :
    shift taps (first ^^^ second) = shift taps first ^^^ shift taps second := by
  apply @residue_injective w taps
  rw [residue_xor, residue_shift, residue_shift, residue_shift, residue_xor, add_mul]

theorem iterate_shift_xor (n : ℕ) (first second : BitVec w) :
    (shift taps)^[n] (first ^^^ second) = (shift taps)^[n] first ^^^ (shift taps)^[n] second := by
  induction n generalizing first second with
  | zero => rfl
  | succ n ih =>
    rw [Function.iterate_succ_apply, Function.iterate_succ_apply, Function.iterate_succ_apply,
      shift_xor, ih]

/-! ## Shifting back -/

/-- The word that was shifted, for taps with the lowest bit set. -/
def unshift (taps word : BitVec w) : BitVec w :=
  if word.getLsbD 0 then ((word ^^^ taps) >>> 1) ||| BitVec.twoPow w (w - 1) else word >>> 1

theorem getLsbD_shiftLeft_shiftRight (word : BitVec w) {i : ℕ} (hi : i < w) :
    (word <<< 1 >>> 1).getLsbD i = (word.getLsbD i && decide (i + 1 < w)) := by
  by_cases hlast : i + 1 < w
  · simp [hlast, Nat.add_comm 1, BitVec.getLsbD_eq_getElem hi]
  · simp [hlast, Nat.add_comm 1]

theorem unshift_shift (htaps : taps.getLsbD 0 = true) (word : BitVec w) :
    unshift taps (shift taps word) = word := by
  have hmsb := BitVec.msb_eq_getLsbD_last word
  unfold unshift shift
  cases htop : word.msb with
  | false =>
    rw [htop] at hmsb
    have hlow : (word <<< 1).getLsbD 0 = false := by simp
    simp only [hlow, Bool.false_eq_true, if_false]
    apply BitVec.eq_of_getLsbD_eq
    intro i hi
    rw [getLsbD_shiftLeft_shiftRight word hi]
    by_cases hlast : i + 1 < w
    · simp [hlast]
    · have hi' : i = w - 1 := by omega
      simp [hi', ← hmsb]
  | true =>
    rw [htop] at hmsb
    have hlow : (word <<< 1 ^^^ taps).getLsbD 0 = true := by simp [htaps]
    simp only [hlow, if_true, BitVec.xor_assoc, BitVec.xor_self, BitVec.xor_zero]
    apply BitVec.eq_of_getLsbD_eq
    intro i hi
    rw [BitVec.getLsbD_or, getLsbD_shiftLeft_shiftRight word hi, BitVec.getLsbD_twoPow]
    by_cases hlast : i + 1 < w
    · have hi' : w - 1 ≠ i := by omega
      simp [hlast, hi']
    · have hi' : i = w - 1 := by omega
      have hw : w - 1 < w := by omega
      simp [hi', hw, ← hmsb]

theorem iterate_unshift_shift (htaps : taps.getLsbD 0 = true) (n : ℕ) (word : BitVec w) :
    (unshift taps)^[n] ((shift taps)^[n] word) = word :=
  Function.LeftInverse.iterate (unshift_shift htaps) n word

/-! ## The order of the register -/

/-- None of the next shifts of a word leads to the target. -/
def avoids (taps target : BitVec w) : ℕ → BitVec w → Bool
  | 0, _ => true
  | n + 1, word =>
    !decide (shift taps word = target) && avoids taps target n (shift taps word)

theorem iterate_shift_ne_of_avoids {target word : BitVec w} {n d : ℕ}
    (h : avoids taps target n word = true) (hpos : 0 < d) (hd : d ≤ n) :
    (shift taps)^[d] word ≠ target := by
  induction n generalizing word d with
  | zero => omega
  | succ n ih =>
    simp only [avoids, Bool.and_eq_true, Bool.not_eq_true', decide_eq_false_iff_not] at h
    obtain ⟨d, rfl⟩ : ∃ k, d = k + 1 := ⟨d - 1, by omega⟩
    rw [Function.iterate_succ_apply]
    cases d with
    | zero => exact h.1
    | succ d => exact ih h.2 (Nat.succ_pos d) (by omega)

theorem poly_one (hw : w ≠ 0) : poly (1#w) = 1 := by
  ext i
  rw [coeff_poly, coeff_one, BitVec.getLsbD_one]
  by_cases hi : i = 0
  · simp [hi, coefficient, Nat.pos_of_ne_zero hw]
  · simp [hi, coefficient]

/-- The modulus divides `X ^ d + 1` only if `d` shifts of 1 lead back to 1. -/
theorem not_dvd_X_pow_add_one (hw : w ≠ 0) {d : ℕ} (h : (shift taps)^[d] (1#w) ≠ 1#w) :
    ¬modulus taps ∣ X ^ d + 1 := by
  intro hdvd
  refine h (@residue_injective w taps _ _ ?_)
  rw [← CharTwo.sub_eq_add] at hdvd
  have hroot := AdjoinRoot.mk_eq_mk.mpr hdvd
  rw [map_pow, AdjoinRoot.mk_X, map_one] at hroot
  rw [residue_iterate_shift, residue, poly_one hw, map_one, hroot, mul_one]

end MyDiffbot.Gf2
