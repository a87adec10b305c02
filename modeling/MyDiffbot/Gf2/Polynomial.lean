import Mathlib.Algebra.CharP.Two
import Mathlib.Algebra.Field.ZMod
import Mathlib.Algebra.Polynomial.FieldDivision
import Mathlib.RingTheory.Polynomial.UniqueFactorization

/-!
# Bit strings as polynomials over GF(2)

A string of bits, the first one highest, is a polynomial over GF(2): appending multiplies by a power
of `X`, and the number of ones is the number of terms. A code that consists of the multiples of a
polynomial detects an error exactly if the error is no multiple. The last section finds errors that
never are: few terms, or terms that lie close together.
-/

namespace MyDiffbot.Gf2

open Polynomial

/-- A bit as a coefficient. -/
def coefficient (bit : Bool) : ZMod 2 := if bit then 1 else 0

theorem coefficient_xor (first second : Bool) :
    coefficient (first ^^ second) = coefficient first + coefficient second := by
  revert first second
  decide

theorem coefficient_injective : Function.Injective coefficient := by
  decide

/-- The polynomial of a bit string, the first bit highest. -/
noncomputable def ofBits (bits : List Bool) : (ZMod 2)[X] :=
  bits.foldl (fun p bit ↦ p * X + C (coefficient bit)) 0

@[simp]
theorem ofBits_nil : ofBits [] = 0 := rfl

theorem ofBits_concat (bits : List Bool) (bit : Bool) :
    ofBits (bits ++ [bit]) = ofBits bits * X + C (coefficient bit) := by
  rw [ofBits, List.foldl_append]
  rfl

theorem ofBits_append (first second : List Bool) :
    ofBits (first ++ second) = ofBits first * X ^ second.length + ofBits second := by
  induction second using List.reverseRecOn with
  | nil => simp
  | append_singleton second bit ih =>
    rw [← List.append_assoc, ofBits_concat, ofBits_concat, ih, List.length_append,
      List.length_singleton]
    ring

theorem ofBits_cons (bit : Bool) (bits : List Bool) :
    ofBits (bit :: bits) = C (coefficient bit) * X ^ bits.length + ofBits bits := by
  rw [← List.singleton_append, ofBits_append, ← List.nil_append [bit], ofBits_concat]
  simp

@[simp]
theorem ofBits_replicate_false (n : ℕ) : ofBits (List.replicate n false) = 0 := by
  induction n with
  | zero => rfl
  | succ n ih =>
    rw [List.replicate_succ, ofBits_cons, ih]
    simp [coefficient]

theorem degree_ofBits_lt (bits : List Bool) : (ofBits bits).degree < bits.length := by
  induction bits with
  | nil => simp
  | cons bit bits ih =>
    have hhigh : (C (coefficient bit) * X ^ bits.length : (ZMod 2)[X]).degree <
        (bits.length + 1 : ℕ) :=
      (degree_C_mul_X_pow_le _ _).trans_lt (by exact_mod_cast Nat.lt_succ_self _)
    have hlow : (ofBits bits).degree < (bits.length + 1 : ℕ) :=
      ih.trans (by exact_mod_cast Nat.lt_succ_self _)
    rw [ofBits_cons, List.length_cons]
    exact (degree_add_le _ _).trans_lt (max_lt hhigh hlow)

/-- The terms of the polynomial are the ones of the string. -/
theorem card_support_ofBits (bits : List Bool) :
    (ofBits bits).support.card = bits.count true := by
  induction bits with
  | nil => simp
  | cons bit bits ih =>
    cases bit with
    | false => simp [ofBits_cons, coefficient, ih]
    | true =>
      have hhigh : bits.length ∉ (ofBits bits).support :=
        notMem_support_iff.mpr (coeff_eq_zero_of_degree_lt (degree_ofBits_lt bits))
      have hsupport : (ofBits (true :: bits)).support =
          insert bits.length (ofBits bits).support := by
        ext i
        rw [ofBits_cons, mem_support_iff, Finset.mem_insert, mem_support_iff, coeff_add,
          coeff_C_mul_X_pow]
        by_cases hi : i = bits.length
        · simp [hi, coefficient, notMem_support_iff.mp hhigh]
        · simp [hi]
      rw [hsupport, Finset.card_insert_of_notMem hhigh, ih, List.count_cons_self]

theorem ofBits_ne_zero {bits : List Bool} (h : true ∈ bits) : ofBits bits ≠ 0 := by
  intro hzero
  have hcount := card_support_ofBits bits
  rw [hzero, support_zero, Finset.card_empty] at hcount
  exact (List.count_pos_iff.mpr h).ne hcount

/-! ## Bursts -/

/-- Bits that are zero but for a stretch of the given width. -/
def Burst (width : ℕ) (bits : List Bool) : Prop :=
  ∃ front middle back, middle.length ≤ width ∧
    bits = List.replicate front false ++ middle ++ List.replicate back false

namespace Burst

variable {width : ℕ} {bits : List Bool}

theorem drop (h : Burst width bits) (n : ℕ) : Burst width (bits.drop n) := by
  obtain ⟨front, middle, back, hmiddle, rfl⟩ := h
  refine ⟨front - n, middle.drop (n - front), back - (n - (front + middle.length)), ?_, ?_⟩
  · rw [List.length_drop]
    omega
  · rw [List.drop_append, List.drop_append]
    simp

theorem le_findIdx_replicate_append (n : ℕ) (bits : List Bool) :
    n ≤ (List.replicate n false ++ bits).findIdx id := by
  induction n with
  | zero => exact Nat.zero_le _
  | succ n ih =>
    rw [List.replicate_succ, List.cons_append, List.findIdx_cons]
    exact Nat.succ_le_succ ih

theorem findIdx_append_lt {first : List Bool} (hone : true ∈ first) (rest : List Bool) :
    (first ++ rest).findIdx id < first.length := by
  have hlt : first.findIdx id < first.length := List.findIdx_lt_length.mpr ⟨true, hone, rfl⟩
  rwa [List.findIdx_append, if_pos hlt]

/-- All but `width` bits lie before the first one or after the last one. -/
theorem length_le (h : Burst width bits) :
    bits.length ≤ bits.findIdx id + bits.reverse.findIdx id + width := by
  obtain ⟨front, middle, back, hmiddle, rfl⟩ := h
  have hfront := le_findIdx_replicate_append front (middle ++ List.replicate back false)
  have hback := le_findIdx_replicate_append back (middle.reverse ++ List.replicate front false)
  simp only [List.reverse_append, List.reverse_replicate, List.length_append, List.length_replicate,
    List.append_assoc] at hfront hback ⊢
  omega

/-- A one among the last bits keeps the bits before the stretch zero. -/
theorem take_eq_replicate {n last : ℕ} (h : Burst width bits)
    (hone : true ∈ bits.drop (bits.length - last)) (hn : n + width + last ≤ bits.length + 1) :
    bits.take n = List.replicate n false := by
  obtain ⟨front, middle, back, hmiddle, rfl⟩ := h
  simp only [List.length_append, List.length_replicate] at hone hn
  have hback : back < last := by
    by_contra hle
    rw [List.drop_append, List.drop_eq_nil_of_le (by
      simp only [List.length_append, List.length_replicate]
      omega)] at hone
    simp at hone
  rw [List.append_assoc, List.take_append_of_le_length (by rw [List.length_replicate]; omega),
    List.take_replicate, Nat.min_eq_left (by omega)]

end Burst

/-! ## Errors that are no multiples -/

section error

variable {p e : (ZMod 2)[X]}

theorem isCoprime_X_pow (hp : p.coeff 0 ≠ 0) (n : ℕ) : IsCoprime p (X ^ n) := by
  refine IsCoprime.pow_right (IsCoprime.symm ?_)
  rw [irreducible_X.coprime_iff_not_dvd, X_dvd_iff]
  exact hp

/-- Terms that lie closer together than the degree. -/
theorem not_dvd_mul_X_pow (hp : p.coeff 0 ≠ 0) (he : e ≠ 0) (hdegree : e.degree < p.degree)
    (n : ℕ) : ¬p ∣ e * X ^ n := by
  intro hdvd
  exact not_dvd_of_degree_lt he hdegree ((isCoprime_X_pow hp n).dvd_of_dvd_mul_right hdvd)

/-- Ones that lie closer together than the degree. -/
theorem Burst.not_dvd {width : ℕ} {bits : List Bool} (h : Burst width bits) (hone : true ∈ bits)
    (hp : p.coeff 0 ≠ 0) (hdegree : width ≤ p.degree) : ¬p ∣ ofBits bits := by
  obtain ⟨front, middle, back, hmiddle, rfl⟩ := h
  have hmem : true ∈ middle := by simpa [List.mem_replicate] using hone
  have hwidth : (middle.length : WithBot ℕ) ≤ width := by exact_mod_cast hmiddle
  rw [ofBits_append, ofBits_append, ofBits_replicate_false, ofBits_replicate_false, zero_mul,
    zero_add, add_zero]
  exact not_dvd_mul_X_pow hp (ofBits_ne_zero hmem)
    ((degree_ofBits_lt middle).trans_le (hwidth.trans hdegree)) _

/-- Over GF(2), the value at 1 is the parity of the number of terms. -/
theorem eval_one_eq_card (e : (ZMod 2)[X]) : e.eval 1 = (e.support.card : ZMod 2) := by
  have hone : ∀ i ∈ e.support, e.coeff i = 1 := by
    intro i hi
    have hne := mem_support_iff.mp hi
    revert hne
    generalize e.coeff i = a
    revert a
    decide
  calc
    e.eval 1 = ∑ i ∈ e.support, e.coeff i * 1 ^ i := eval_eq_sum
    _ = ∑ _i ∈ e.support, (1 : ZMod 2) := by
      refine Finset.sum_congr rfl fun i hi ↦ ?_
      rw [hone i hi, one_pow, mul_one]
    _ = _ := by rw [Finset.sum_const, nsmul_eq_mul, mul_one]

/-- A polynomial with two terms, over GF(2). -/
theorem eq_add_of_support {i j : ℕ} (hij : i ≠ j) (hsupport : e.support = {i, j}) :
    e = X ^ i + X ^ j := by
  have hone : ∀ a : ZMod 2, a ≠ 0 → a = 1 := by decide
  ext k
  have hk : e.coeff k ≠ 0 ↔ k = i ∨ k = j := by
    rw [← mem_support_iff, hsupport, Finset.mem_insert, Finset.mem_singleton]
  rw [coeff_add, coeff_X_pow, coeff_X_pow]
  by_cases hki : k = i
  · rw [if_pos hki, if_neg (by rw [hki]; exact hij), add_zero]
    exact hone _ (hk.mpr (.inl hki))
  · by_cases hkj : k = j
    · rw [if_neg hki, if_pos hkj, zero_add]
      exact hone _ (hk.mpr (.inr hkj))
    · rw [if_neg hki, if_neg hkj, add_zero]
      by_contra hne
      exact (hk.mp hne).elim hki hkj

/-- A multiple of a polynomial with an even number of terms that divides no `X ^ d + 1` below some
length has at least four terms below that length. -/
theorem four_le_card_support {length : ℕ} (hp : p.coeff 0 ≠ 0) (heven : p.eval 1 = 0)
    (horder : ∀ d, 0 < d → d < length → ¬p ∣ X ^ d + 1) (he : e ≠ 0)
    (hdegree : e.degree < length) (hdvd : p ∣ e) : 4 ≤ e.support.card := by
  have hparity : (e.support.card : ZMod 2) = 0 := by
    obtain ⟨q, rfl⟩ := hdvd
    rw [← eval_one_eq_card, eval_mul, heven, zero_mul]
  have hpos : e.support.card ≠ 0 := by
    rwa [Ne, Finset.card_eq_zero, support_eq_empty]
  have htwo : e.support.card ≠ 2 := by
    intro hcard
    obtain ⟨i, j, hij, hsupport⟩ := Finset.card_eq_two.mp hcard
    wlog hlt : i < j generalizing i j
    · exact this j i hij.symm (by rw [hsupport, Finset.pair_comm]) (by omega)
    have hj : j < length := by
      have hmem : j ∈ e.support := by simp [hsupport]
      exact_mod_cast (le_degree_of_mem_supp j hmem).trans_lt hdegree
    have hfactor : e = (X ^ (j - i) + 1) * X ^ i := by
      rw [eq_add_of_support hij hsupport, add_mul, one_mul, ← pow_add,
        Nat.sub_add_cancel hlt.le, add_comm]
    rw [hfactor] at hdvd
    exact horder (j - i) (by omega) (by omega)
      ((isCoprime_X_pow hp i).dvd_of_dvd_mul_right hdvd)
  rw [ZMod.natCast_eq_zero_iff] at hparity
  omega

end error

end MyDiffbot.Gf2
