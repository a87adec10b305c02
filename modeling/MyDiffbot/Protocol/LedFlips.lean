import MyDiffbot.Protocol.Led
import MyDiffbot.Numeric.SquareWave

/-!
# Sampling the LED

The flips of `ResolveLed` at a fixed rate. At a time that is not negative, alternate is a square wave
between the frames of its two colours, and blink is alternate with black, as long as the count of
half periods fits an `int64_t`. From then on `ResolveLed` is undefined, and for a tiny period that is
so at once (`not_samplesKeepPeriod`).
-/

namespace MyDiffbot.Protocol

open Numeric

/-- A frame carries the low 24 bits of its color. -/
theorem solidFrame_eq_iff {color other : ℕ} :
    solidFrame color = solidFrame other ↔ color % 2 ^ 24 = other % 2 ^ 24 := by
  simp only [solidFrame, LedOutput.mk.injEq, and_true, ← BitVec.toNat_inj, BitVec.toNat_ofNat]
  omega

/-- Blink and alternate differ in their second color only. -/
theorem resolveLed_of_flips {mode : ℤ} (hmode : mode = kLedBlink ∨ mode = kLedAlternate)
    (color colorAlt : ℕ) (periodMs tSec : ℚ) :
    resolveLed mode color colorAlt periodMs tSec =
      (if 0 < periodMs then oddHalf periodMs tSec else some false).map fun flipped ↦
        some (solidFrame
          (if flipped then if mode = kLedBlink then 0 else colorAlt else color)) := by
  have hsolid : mode ≠ kLedSolid := by rcases hmode with rfl | rfl <;> decide
  have hoff : mode ≠ kLedOff := by rcases hmode with rfl | rfl <;> decide
  have hknown : ¬(mode < kLedOff ∨ kLedAlternate < mode) := by
    rcases hmode with rfl | rfl <;> decide
  rw [resolveLed, if_neg hoff, if_neg hknown]
  simp only [ne_eq, hsolid, not_false_eq_true, true_and]

theorem resolveLed_blink (color colorAlt : ℕ) (periodMs tSec : ℚ) :
    resolveLed kLedBlink color colorAlt periodMs tSec =
      resolveLed kLedAlternate color 0 periodMs tSec := by
  rw [resolveLed_of_flips (.inl rfl), resolveLed_of_flips (.inr rfl), if_pos rfl, ite_self]

theorem oddHalf_of_nonneg {periodMs tSec : ℚ} (hperiod : 0 < periodMs) (htime : 0 ≤ tSec) :
    oddHalf periodMs tSec =
      if ledPhase periodMs tSec < 2 ^ 63 then
        some (decide (periodsBefore (periodMs / 1000) tSec % 2 = 1))
      else none := by
  have hphase : 0 ≤ ledPhase periodMs tSec := by
    unfold ledPhase
    positivity
  have hmax : (int64.max : ℚ) + 1 = 2 ^ 63 := by norm_num [int64]
  have hcount : ⌊ledPhase periodMs tSec⌋ = periodsBefore (periodMs / 1000) tSec := by
    rw [ledPhase, periodsBefore]
    congr 1
    field_simp
  have hodd : (periodsBefore (periodMs / 1000) tSec).tmod 2 =
      periodsBefore (periodMs / 1000) tSec % 2 :=
    Int.tmod_eq_emod_of_nonneg (Int.floor_nonneg.mpr (by positivity))
  rw [oddHalf, Double.castTo_of_nonneg hphase, hmax, hcount, apply_ite (Option.map _),
    Option.map_some, Option.map_none, hodd]

/-- Alternate is a square wave, as long as it is defined. -/
theorem resolveLed_alternate (color colorAlt : ℕ) {periodMs tSec : ℚ} (hperiod : 0 < periodMs)
    (htime : 0 ≤ tSec) :
    resolveLed kLedAlternate color colorAlt periodMs tSec =
      if ledPhase periodMs tSec < 2 ^ 63 then
        squareWave (periodMs / 1000) (some (some (solidFrame color)))
          (some (some (solidFrame colorAlt))) tSec
      else none := by
  have hmode : kLedAlternate ≠ kLedBlink := by decide
  rw [resolveLed_of_flips (.inr rfl), if_neg hmode, if_pos hperiod,
    oddHalf_of_nonneg hperiod htime, squareWave]
  split_ifs with hfits hodd
  · rw [decide_eq_true hodd]
    rfl
  · rw [decide_eq_false hodd]
    rfl
  · rfl

/-! ## Samples -/

/-- The LED at a start time and at equidistant times behind it. -/
def ledSamples (mode : ℤ) (color colorAlt : ℕ) (periodMs tSec step : ℚ) (k : ℕ) :
    Option (Option LedOutput) :=
  resolveLed mode color colorAlt periodMs (tSec + k * step)

/-- Over some steps every sample is defined, and the samples flip once in each period. -/
structure SamplesKeepPeriod (periodMs step : ℚ) (samples : ℕ → Option (Option LedOutput)) (n : ℕ) :
    Prop where
  defined : ∀ k ≤ n, samples k ≠ none
  keeps : KeepsPeriod (periodMs / 1000) step samples n

section samples

variable {periodMs tSec step : ℚ} (hperiod : 0 < periodMs) (htime : 0 ≤ tSec) (hpos : 0 < step)
  (hstep : step ≤ periodMs / 1000)

include hperiod htime hpos in
theorem ledSamples_alternate (color colorAlt k : ℕ) :
    ledSamples kLedAlternate color colorAlt periodMs tSec step k =
      if ledPhase periodMs (tSec + k * step) < 2 ^ 63 then
        squareWave (periodMs / 1000) (some (some (solidFrame color)))
          (some (some (solidFrame colorAlt))) (tSec + k * step)
      else none :=
  resolveLed_alternate color colorAlt hperiod (by positivity)

include hperiod hpos in
theorem ledPhase_mono {k n : ℕ} (hk : k ≤ n) :
    ledPhase periodMs (tSec + k * step) ≤ ledPhase periodMs (tSec + n * step) := by
  unfold ledPhase
  gcongr

include hperiod htime hpos hstep

theorem alternate_keepsPeriod_iff {color colorAlt : ℕ} (hcolors : color % 2 ^ 24 ≠ colorAlt % 2 ^ 24)
    (n : ℕ) :
    SamplesKeepPeriod periodMs step (ledSamples kLedAlternate color colorAlt periodMs tSec step) n ↔
      (tSec + n * step) * 1000 / periodMs < 2 ^ 63 := by
  change _ ↔ ledPhase periodMs (tSec + n * step) < 2 ^ 63
  constructor
  · intro hkeeps
    by_contra hlarge
    refine hkeeps.defined n le_rfl ?_
    rw [ledSamples_alternate hperiod htime hpos, if_neg hlarge]
  · intro hfits
    have hwave : ∀ k ≤ n, squareWave (periodMs / 1000) (some (some (solidFrame color)))
        (some (some (solidFrame colorAlt))) (tSec + k * step) =
          ledSamples kLedAlternate color colorAlt periodMs tSec step k := by
      intro k hk
      rw [ledSamples_alternate hperiod htime hpos,
        if_pos ((ledPhase_mono hperiod hpos hk).trans_lt hfits)]
    have hframes : some (some (solidFrame color)) ≠ some (some (solidFrame colorAlt)) := by
      rw [ne_eq, Option.some_inj, Option.some_inj, solidFrame_eq_iff]
      exact hcolors
    refine ⟨fun k hk ↦ ?_, ?_⟩
    · rw [← hwave k hk, squareWave]
      split_ifs <;> nofun
    · exact (keepsPeriod_squareWave (by positivity) hpos hstep hframes tSec n).congr hwave

/-- Sampled no slower than once a period, the LED keeps the period over some steps exactly if the
count of half periods fits an `int64_t` at the last of them. -/
theorem samplesKeepPeriod_iff (n : ℕ) :
    (∀ color colorAlt : ℕ, color % 2 ^ 24 ≠ colorAlt % 2 ^ 24 →
      (SamplesKeepPeriod periodMs step
          (ledSamples kLedAlternate color colorAlt periodMs tSec step) n ↔
        (tSec + n * step) * 1000 / periodMs < 2 ^ 63)) ∧
    (∀ color colorAlt : ℕ, color % 2 ^ 24 ≠ 0 →
      (SamplesKeepPeriod periodMs step
          (ledSamples kLedBlink color colorAlt periodMs tSec step) n ↔
        (tSec + n * step) * 1000 / periodMs < 2 ^ 63)) ∧
    ∀ (color colorAlt : ℕ) (anyPeriodMs anyTime : ℚ),
      resolveLed kLedBlink color colorAlt anyPeriodMs anyTime =
        resolveLed kLedAlternate color 0 anyPeriodMs anyTime := by
  refine ⟨fun color colorAlt hcolors ↦ ?_, fun color colorAlt hcolor ↦ ?_,
    fun color colorAlt _ _ ↦ resolveLed_blink color colorAlt _ _⟩
  · exact alternate_keepsPeriod_iff hperiod htime hpos hstep hcolors n
  · have hblink : ledSamples kLedBlink color colorAlt periodMs tSec step =
        ledSamples kLedAlternate color 0 periodMs tSec step :=
      funext fun k ↦ resolveLed_blink color colorAlt _ _
    rw [hblink]
    exact alternate_keepsPeriod_iff hperiod htime hpos hstep hcolor n

end samples

/-- A minute of half-second flips at the controller's rate of 30 Hz, from the third second on. -/
theorem samplesKeepPeriod_blink :
    SamplesKeepPeriod 500 (1 / 30) (ledSamples kLedBlink 0xFF0000 0 500 3 (1 / 30)) 1800 :=
  ((samplesKeepPeriod_iff (by norm_num) (by norm_num) (by norm_num) (by norm_num) 1800).2.1
    0xFF0000 0 (by decide)).mpr (by norm_num)

/-- A second after the epoch, a period of `2 ^ -60` ms has no defined sample. -/
theorem not_samplesKeepPeriod :
    ¬∀ (periodMs tSec step : ℚ) (color colorAlt n : ℕ), 0 < periodMs → 0 ≤ tSec → 0 < step →
      step ≤ periodMs / 1000 → color % 2 ^ 24 ≠ colorAlt % 2 ^ 24 →
      SamplesKeepPeriod periodMs step
        (ledSamples kLedAlternate color colorAlt periodMs tSec step) n := by
  intro h
  have hkeeps := h (1 / 2 ^ 60) 1 (1 / 2 ^ 60 / 1000) 0xFF0000 0 0 (by norm_num) (by norm_num)
    (by norm_num) le_rfl (by decide)
  exact hkeeps.defined 0 le_rfl (by decide +kernel)

end MyDiffbot.Protocol
