import Mathlib.Algebra.Order.Floor.Ring
import Mathlib.Data.Finset.Card
import Mathlib.Tactic.FieldSimp
import Mathlib.Tactic.Linarith
import Mathlib.Tactic.Ring

/-!
# Sampling a square wave

A signal that alternates between two values every period, observed at equidistant times. At most one
edge falls between two neighbouring samples if the step is at most the period. The samples then
change as often as whole periods pass, which bounds both their number and their distance.
-/

namespace MyDiffbot.Numeric

variable {K α : Type} [Field K] [LinearOrder K]

/-- Sample `k + 1` differs from the one before it. -/
def Changes (samples : ℕ → α) (k : ℕ) : Prop := samples (k + 1) ≠ samples k

instance [DecidableEq α] (samples : ℕ → α) : DecidablePred (Changes samples) :=
  fun k ↦ inferInstanceAs (Decidable (samples (k + 1) ≠ samples k))

/-- The number of changes over `n` steps. -/
def changeCount [DecidableEq α] (samples : ℕ → α) (n : ℕ) : ℕ :=
  ((Finset.range n).filter (Changes samples)).card

/-- Samples taken every `step` that change once in each `period`, as closely as the step allows, as
far as `n` steps go. -/
structure KeepsPeriod [DecidableEq α] (period step : K) (samples : ℕ → α) (n : ℕ) : Prop where
  count : ∀ m ≤ n, |(changeCount samples m : K) - m * step / period| < 1
  /-- Two successive changes are seen this far apart. -/
  spacing : ∀ j k : ℕ, j < k → k < n → Changes samples j → Changes samples k →
    (∀ i, j < i → i < k → ¬Changes samples i) →
      period - step < ((k : K) - j) * step ∧ ((k : K) - j) * step < period + step

theorem changes_congr {samples other : ℕ → α} {n k : ℕ} (h : ∀ k ≤ n, samples k = other k)
    (hk : k < n) : Changes samples k ↔ Changes other k := by
  rw [Changes, Changes, h k hk.le, h (k + 1) hk]

/-- Only the samples up to the last step matter. -/
theorem KeepsPeriod.congr [DecidableEq α] {period step : K} {samples other : ℕ → α} {n : ℕ}
    (h : KeepsPeriod period step samples n) (hsame : ∀ k ≤ n, samples k = other k) :
    KeepsPeriod period step other n where
  count m hm := by
    have hcount : changeCount samples m = changeCount other m := by
      refine congrArg Finset.card (Finset.filter_congr fun k hk ↦ ?_)
      exact changes_congr hsame ((Finset.mem_range.mp hk).trans_le hm)
    rw [← hcount]
    exact h.count m hm
  spacing j k hjk hk hj hchange hbetween := by
    refine h.spacing j k hjk hk ((changes_congr hsame (hjk.trans hk)).mpr hj)
      ((changes_congr hsame hk).mpr hchange) fun i hji hik ↦ ?_
    rw [changes_congr hsame (hik.trans hk)]
    exact hbetween i hji hik

/-! ## Counters -/

section Counter

variable {counter : ℕ → ℤ}

/-- A counter that advances by at most one changes parity as often as it advances. -/
theorem changeCount_parity (hstep : ∀ k, counter (k + 1) = counter k ∨
    counter (k + 1) = counter k + 1) (n : ℕ) :
    (changeCount (fun k ↦ counter k % 2) n : ℤ) = counter n - counter 0 := by
  induction n with
  | zero => simp [changeCount]
  | succ n ih =>
    rw [changeCount, Finset.range_add_one, Finset.filter_insert]
    rcases hstep n with h | h
    · have hsame : ¬Changes (fun k ↦ counter k % 2) n := by simp [Changes, h]
      rw [if_neg hsame, h]
      exact ih
    · have hchange : Changes (fun k ↦ counter k % 2) n := by
        simp only [Changes, ne_eq]
        omega
      rw [if_pos hchange, Finset.card_insert_of_notMem (by simp), h, Nat.cast_succ]
      calc (changeCount (fun k ↦ counter k % 2) n : ℤ) + 1
          = counter n - counter 0 + 1 := by rw [ih]
        _ = counter n + 1 - counter 0 := by ring

theorem counter_eq_of_forall {j k : ℕ} (hjk : j ≤ k)
    (hsame : ∀ i, j ≤ i → i < k → counter (i + 1) = counter i) : counter k = counter j := by
  induction k, hjk using Nat.le_induction with
  | base => rfl
  | succ k hjk ih =>
    rw [hsame k hjk (Nat.lt_succ_self k)]
    exact ih fun i hi hik ↦ hsame i hi (Nat.lt_succ_of_lt hik)

end Counter

/-! ## Edges -/

section Wave

variable [FloorRing K]

/-- The whole periods before a time. -/
def periodsBefore (period time : K) : ℤ := ⌊time / period⌋

def squareWave (period : K) (first second : α) (time : K) : α :=
  if periodsBefore period time % 2 = 1 then second else first

/-- The number of whole periods before each sample. -/
def sampledPeriods (period start step : K) (k : ℕ) : ℤ := periodsBefore period (start + k * step)

variable {period start step : K}

theorem changes_squareWave_iff {first second : α} (hne : first ≠ second) (k : ℕ) :
    Changes (fun k : ℕ ↦ squareWave period first second (start + k * step)) k ↔
      Changes (fun k ↦ sampledPeriods period start step k % 2) k := by
  have hwave : ∀ n : ℕ, squareWave period first second (start + n * step) =
      if sampledPeriods period start step n % 2 = 1 then second else first := fun _ ↦ rfl
  simp only [Changes, hwave]
  have hparity := Int.emod_two_eq (sampledPeriods period start step k)
  have hparity' := Int.emod_two_eq (sampledPeriods period start step (k + 1))
  rcases hparity with h | h <;> rcases hparity' with h' | h' <;> simp [h, h', hne, hne.symm]

variable [IsStrictOrderedRing K]

theorem periodsBefore_mul_le (hperiod : 0 < period) (time : K) :
    periodsBefore period time * period ≤ time :=
  (le_div_iff₀ hperiod).mp (Int.floor_le _)

theorem lt_periodsBefore_mul (hperiod : 0 < period) (time : K) :
    time < (periodsBefore period time + 1) * period :=
  (div_lt_iff₀ hperiod).mp (Int.lt_floor_add_one _)

/-- Within one period the count of them advances by at most one. -/
theorem periodsBefore_add (hperiod : 0 < period) (hpos : 0 ≤ step) (hstep : step ≤ period)
    (time : K) :
    periodsBefore period (time + step) = periodsBefore period time ∨
      periodsBefore period (time + step) = periodsBefore period time + 1 := by
  have hle : periodsBefore period time ≤ periodsBefore period (time + step) :=
    Int.floor_le_floor (by gcongr; exact le_add_of_nonneg_right hpos)
  have hlt : periodsBefore period (time + step) ≤ periodsBefore period time + 1 := by
    calc periodsBefore period (time + step)
        ≤ ⌊time / period + 1⌋ := by
          apply Int.floor_le_floor
          rw [add_div]
          gcongr
          exact (div_le_one hperiod).mpr hstep
      _ = periodsBefore period time + 1 := Int.floor_add_one _
  omega

theorem abs_floor_sub_floor_sub_lt (x y : K) : |((⌊y⌋ - ⌊x⌋ : ℤ) : K) - (y - x)| < 1 := by
  have hx := Int.floor_le x
  have hx' := Int.lt_floor_add_one x
  have hy := Int.floor_le y
  have hy' := Int.lt_floor_add_one y
  rw [abs_lt, Int.cast_sub]
  constructor <;> linarith

theorem sampledPeriods_succ (hperiod : 0 < period) (hpos : 0 < step) (hstep : step ≤ period)
    (start : K) (k : ℕ) :
    sampledPeriods period start step (k + 1) = sampledPeriods period start step k ∨
      sampledPeriods period start step (k + 1) = sampledPeriods period start step k + 1 := by
  have htime : start + (k + 1 : ℕ) * step = start + k * step + step := by
    push_cast
    ring
  rw [sampledPeriods, sampledPeriods, htime]
  exact periodsBefore_add hperiod hpos.le hstep _

/-- A change is seen at the first sample of a new period. -/
theorem changes_sampledPeriods_iff (hperiod : 0 < period) (hpos : 0 < step)
    (hstep : step ≤ period) (k : ℕ) :
    Changes (fun k ↦ sampledPeriods period start step k % 2) k ↔
      sampledPeriods period start step (k + 1) = sampledPeriods period start step k + 1 := by
  simp only [Changes, ne_eq]
  rcases sampledPeriods_succ hperiod hpos hstep start k with h | h <;> omega

theorem changeCount_squareWave [DecidableEq α] (hperiod : 0 < period) (hpos : 0 < step)
    (hstep : step ≤ period) {first second : α} (hne : first ≠ second) (start : K) (n : ℕ) :
    (changeCount (fun k : ℕ ↦ squareWave period first second (start + k * step)) n : ℤ) =
      sampledPeriods period start step n - sampledPeriods period start step 0 := by
  rw [← changeCount_parity (sampledPeriods_succ hperiod hpos hstep start) n]
  unfold changeCount
  congr 2
  exact Finset.filter_congr fun k _ ↦ changes_squareWave_iff hne k

theorem keepsPeriod_squareWave [DecidableEq α] (hperiod : 0 < period) (hpos : 0 < step)
    (hstep : step ≤ period) {first second : α} (hne : first ≠ second) (start : K) (last : ℕ) :
    KeepsPeriod period step (fun k ↦ squareWave period first second (start + k * step)) last where
  count n _ := by
    have hcount : (changeCount (fun k : ℕ ↦ squareWave period first second (start + k * step)) n :
        K) = ((⌊(start + n * step) / period⌋ - ⌊start / period⌋ : ℤ) : K) := by
      have hint := changeCount_squareWave hperiod hpos hstep hne start n
      simp only [sampledPeriods, periodsBefore, Nat.cast_zero, zero_mul, add_zero] at hint
      rw [← hint]
      exact (Int.cast_natCast _).symm
    have hlength : n * step / period = (start + n * step) / period - start / period := by
      rw [add_div, add_sub_cancel_left]
    rw [hcount, hlength]
    exact abs_floor_sub_floor_sub_lt _ _
  spacing j k hjk _ hj hk hbetween := by
    rw [changes_squareWave_iff hne, changes_sampledPeriods_iff hperiod hpos hstep] at hj hk
    -- The count of periods stands still between the two changes.
    have hstill : sampledPeriods period start step k =
        sampledPeriods period start step (j + 1) := by
      apply counter_eq_of_forall hjk
      intro i hji hik
      have hsame := hbetween i hji hik
      rw [changes_squareWave_iff hne, changes_sampledPeriods_iff hperiod hpos hstep] at hsame
      exact (sampledPeriods_succ hperiod hpos hstep start i).resolve_right hsame
    have hbefore := lt_periodsBefore_mul hperiod (start + j * step)
    have hfrom := periodsBefore_mul_le hperiod (start + (j + 1 : ℕ) * step)
    have huntil := lt_periodsBefore_mul hperiod (start + k * step)
    have hafter := periodsBefore_mul_le hperiod (start + (k + 1 : ℕ) * step)
    change _ < ((sampledPeriods period start step j : K) + 1) * period at hbefore
    change (sampledPeriods period start step (j + 1) : K) * period ≤ _ at hfrom
    change _ < ((sampledPeriods period start step k : K) + 1) * period at huntil
    change (sampledPeriods period start step (k + 1) : K) * period ≤ _ at hafter
    rw [hstill] at huntil
    rw [hk, hstill] at hafter
    rw [hj] at hfrom huntil hafter
    push_cast at hbefore hfrom huntil hafter
    constructor <;> linarith

end Wave

end MyDiffbot.Numeric
