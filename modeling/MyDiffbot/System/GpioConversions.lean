import MyDiffbot.System.Diffbot

/-!
# The conversions of gpio commands

Every conversion from a double to an integer type that a `write` executes for the gpio commands, with
its argument. `ClampCast` converts only what it has brought into the range. The count of half periods
of the LED is converted as it is, and is the one conversion that can be undefined: a tiny positive
period makes it larger than any `int64_t` (`not_gpioConversions_defined`).
-/

namespace MyDiffbot.System

open Protocol Numeric Transport

/-! ## Conversions -/

/-- A `static_cast` of a double to an integer type. -/
structure Conversion where
  argument : Double
  target : IntRange

/-- The argument is finite and its truncation fits the type. -/
def Conversion.Defined (conversion : Conversion) : Prop :=
  ∃ value, conversion.argument = .finite value ∧
    conversion.target.lowest ≤ truncate value ∧ truncate value ≤ conversion.target.max

theorem Conversion.defined_iff {conversion : Conversion} :
    conversion.Defined ↔ ∃ n, conversion.argument.castTo conversion.target = some n := by
  obtain ⟨argument, target⟩ := conversion
  cases argument with
  | finite value =>
    constructor
    · rintro ⟨_, hvalue, hfits⟩
      obtain rfl := Double.finite.inj hvalue
      exact ⟨_, if_pos hfits⟩
    · rintro ⟨n, hcast⟩
      refine ⟨value, rfl, ?_⟩
      by_contra hfits
      rw [Double.castTo, if_neg hfits] at hcast
      cases hcast
  | nan | posInf | negInf =>
    constructor
    · rintro ⟨_, hvalue, _⟩
      cases hvalue
    · rintro ⟨_, hcast⟩
      cases hcast

/-- `ClampCast` converts a finite value after it has clamped it. -/
def clampCastConversions (range : IntRange) : Double → List Conversion
  | .finite value => [⟨.finite (Double.clamp value range.lowest range.max), range⟩]
  | _ => []

/-- `ResolveLed` converts the phase on the branch that compares it. -/
def resolveLedConversions (mode : ℤ) (periodMs tSec : ℚ) : List Conversion :=
  if mode = kLedOff then []
  else if mode < kLedOff ∨ kLedAlternate < mode then []
  else if mode ≠ kLedSolid ∧ 0 < periodMs then [⟨.finite (ledPhase periodMs tSec), int64⟩]
  else []

namespace MyDiffbotSystemHardware

variable (h : MyDiffbotSystemHardware)

/-- `WriteTuning` converts what it is about to send. -/
def tuningConversions : List Conversion :=
  (if h.overlayGains ≠ h.sentPidGains then
    (List.ofFn h.overlayGains).flatMap fun gain ↦ clampCastConversions int32 (.finite gain)
  else []) ++
  if h.overlayTimeout ≠ h.sentCmdTimeoutMs then
    clampCastConversions uint16 (.finite h.overlayTimeout)
  else []

/-- `WriteLed` converts the mode and both colors, and then resolves them. -/
def ledConversions (time : Time) : List Conversion :=
  if ⟨"led", "led_mode"⟩ ∉ h.interfaces.gpioCommands then []
  else
    clampCastConversions int32 (h.gpioCommand ⟨"led", "led_mode"⟩) ++
    clampCastConversions uint32 (h.gpioCommand ⟨"led", "led_color"⟩) ++
    clampCastConversions uint32 (h.gpioCommand ⟨"led", "led_color_alt"⟩) ++
    resolveLedConversions ((h.gpioCommand ⟨"led", "led_mode"⟩).clampCast int32)
      (ledPeriodMs (h.gpioCommand ⟨"led", "led_period_ms"⟩)) (seconds time)

/-- The conversions of a `write` that gpio commands reach. -/
def gpioConversions (input : WriteInput) : List Conversion :=
  if !h.kestrel.isOpen then [] else h.tuningConversions ++ h.ledConversions input.time

end MyDiffbotSystemHardware

/-! ## Clamped conversions -/

theorem truncate_clamp_mem (range : IntRange) (value : ℚ) :
    range.lowest ≤ truncate (Double.clamp value range.lowest range.max) ∧
      truncate (Double.clamp value range.lowest range.max) ≤ range.max := by
  have hrange := range.lowest_le.trans range.le_max
  unfold Double.clamp
  split_ifs with hlow hhigh
  · rw [truncate_intCast]
    exact ⟨le_rfl, hrange⟩
  · rw [truncate_intCast]
    exact ⟨hrange, le_rfl⟩
  · exact ⟨intCast_le_truncate (not_lt.mp hlow), truncate_le_intCast (not_lt.mp hhigh)⟩

/-- The conversion of `ClampCast`, if there is one, has its result. -/
theorem castTo_of_mem_clampCastConversions {range : IntRange} {value : Double}
    {conversion : Conversion} (hmem : conversion ∈ clampCastConversions range value) :
    conversion.argument.castTo conversion.target = some (value.clampCast range) := by
  cases value with
  | finite value =>
    obtain rfl := List.mem_singleton.mp hmem
    exact if_pos (truncate_clamp_mem range value)
  | nan | posInf | negInf => cases hmem

theorem defined_of_mem_clampCastConversions {range : IntRange} {value : Double} :
    ∀ conversion ∈ clampCastConversions range value, conversion.Defined :=
  fun _ hmem ↦ Conversion.defined_iff.mpr ⟨_, castTo_of_mem_clampCastConversions hmem⟩

theorem defined_of_mem_tuningConversions (h : MyDiffbotSystemHardware) :
    ∀ conversion ∈ h.tuningConversions, conversion.Defined := by
  intro conversion hmem
  rcases List.mem_append.mp hmem with hmem | hmem
  · split_ifs at hmem
    · obtain ⟨gain, _, hgain⟩ := List.mem_flatMap.mp hmem
      exact defined_of_mem_clampCastConversions conversion hgain
    · exact absurd hmem List.not_mem_nil
  · split_ifs at hmem
    · exact defined_of_mem_clampCastConversions conversion hmem
    · exact absurd hmem List.not_mem_nil

/-! ## The phase -/

theorem defined_phase_iff {value : ℚ} (hvalue : 0 ≤ value) :
    (Conversion.mk (.finite value) int64).Defined ↔ value < 2 ^ 63 := by
  have hmax : (int64.max : ℚ) + 1 = 2 ^ 63 := by norm_num [int64]
  rw [Conversion.defined_iff, Double.castTo_of_nonneg hvalue, hmax]
  split_ifs with hfits
  · exact iff_of_true ⟨_, rfl⟩ hfits
  · exact iff_of_false nofun hfits

/-- The modes that flip are those of the commands from 2 to just below 4. -/
theorem flips_iff {command : Double} :
    (command.clampCast int32 = kLedBlink ∨ command.clampCast int32 = kLedAlternate) ↔
      ∃ mode, command = .finite mode ∧ 2 ≤ mode ∧ mode < 4 := by
  cases command with
  | finite mode =>
    simp only [Double.finite.injEq, exists_eq_left', Double.clampCast, Double.clamp]
    have hlowest : ((int32.lowest : ℤ) : ℚ) = -2 ^ 31 := by norm_num [int32]
    have hmax : ((int32.max : ℤ) : ℚ) = 2 ^ 31 - 1 := by norm_num [int32]
    split_ifs with hlow hhigh
    · rw [truncate_intCast]
      constructor
      · rintro (hmode | hmode) <;> cases hmode
      · rintro ⟨htwo, _⟩
        rw [hlowest] at hlow
        linarith
    · rw [truncate_intCast]
      constructor
      · rintro (hmode | hmode) <;> cases hmode
      · rintro ⟨_, hfour⟩
        rw [hmax] at hhigh
        linarith
    · constructor
      · intro hmode
        have hmode' : 2 ≤ truncate mode ∧ truncate mode < 4 := by
          rcases hmode with hmode | hmode <;> rw [hmode] <;> decide
        have hnonneg : 0 ≤ mode := by
          by_contra hneg
          have hle := truncate_le_intCast (n := 0) (by exact_mod_cast (not_le.mp hneg).le)
          omega
        rw [truncate_of_nonneg hnonneg] at hmode'
        exact ⟨by exact_mod_cast Int.le_floor.mp hmode'.1,
          by exact_mod_cast Int.floor_lt.mp hmode'.2⟩
      · rintro ⟨htwo, hfour⟩
        rw [truncate_of_nonneg (by linarith)]
        have hle : 2 ≤ ⌊mode⌋ := Int.le_floor.mpr (by exact_mod_cast htwo)
        have hlt : ⌊mode⌋ < 4 := Int.floor_lt.mpr (by exact_mod_cast hfour)
        unfold kLedBlink kLedAlternate
        omega
  | nan | posInf | negInf =>
    constructor
    · rintro (hmode | hmode) <;> cases hmode
    · rintro ⟨_, hmode, _⟩
      cases hmode

theorem mem_resolveLedConversions_iff {mode : ℤ} {periodMs tSec : ℚ} {conversion : Conversion} :
    conversion ∈ resolveLedConversions mode periodMs tSec ↔
      (mode = kLedBlink ∨ mode = kLedAlternate) ∧ 0 < periodMs ∧
        conversion = ⟨.finite (ledPhase periodMs tSec), int64⟩ := by
  unfold resolveLedConversions kLedOff kLedAlternate kLedSolid kLedBlink
  split_ifs with hoff hunknown hflips
  · simp only [List.not_mem_nil, false_iff]
    omega
  · simp only [List.not_mem_nil, false_iff]
    omega
  · have hmode : mode = 2 ∨ mode = 3 := by omega
    simp only [List.mem_singleton, hmode, hflips.2, true_and]
  · simp only [List.not_mem_nil, false_iff]
    rintro ⟨hmode, hperiod, _⟩
    exact hflips ⟨by omega, hperiod⟩

namespace MyDiffbotSystemHardware

variable (h : MyDiffbotSystemHardware)

/-- If the led commands flip with a positive period, the phase fits an `int64_t`. -/
def PhaseFits (time : Time) : Prop :=
  ∀ mode periodMs : ℚ, h.gpioCommand ⟨"led", "led_mode"⟩ = .finite mode → 2 ≤ mode → mode < 4 →
    h.gpioCommand ⟨"led", "led_period_ms"⟩ = .finite periodMs → 0 < periodMs →
      seconds time * 1000 / periodMs < 2 ^ 63

/-- Whatever else a `write` converts for the gpio commands is clamped. -/
theorem mem_gpioConversions {input : WriteInput} {conversion : Conversion}
    (hmem : conversion ∈ h.gpioConversions input) :
    conversion.Defined ∨
      h.kestrel.isOpen = true ∧ ⟨"led", "led_mode"⟩ ∈ h.interfaces.gpioCommands ∧
        conversion ∈ resolveLedConversions ((h.gpioCommand ⟨"led", "led_mode"⟩).clampCast int32)
          (ledPeriodMs (h.gpioCommand ⟨"led", "led_period_ms"⟩)) (seconds input.time) := by
  unfold gpioConversions at hmem
  cases hopen : h.kestrel.isOpen with
  | false =>
    rw [hopen] at hmem
    cases hmem
  | true =>
    rw [hopen] at hmem
    rcases List.mem_append.mp hmem with hmem | hmem
    · exact .inl (defined_of_mem_tuningConversions h conversion hmem)
    · unfold ledConversions at hmem
      split_ifs at hmem with hled
      · simp only [List.mem_append] at hmem
        rcases hmem with ((hmem | hmem) | hmem) | hmem
        · exact .inl (defined_of_mem_clampCastConversions conversion hmem)
        · exact .inl (defined_of_mem_clampCastConversions conversion hmem)
        · exact .inl (defined_of_mem_clampCastConversions conversion hmem)
        · exact .inr ⟨rfl, hled, hmem⟩
      · cases hmem

theorem phase_mem_gpioConversions {input : WriteInput} {mode periodMs : ℚ}
    (hopen : h.kestrel.isOpen = true) (hled : ⟨"led", "led_mode"⟩ ∈ h.interfaces.gpioCommands)
    (hmode : h.gpioCommand ⟨"led", "led_mode"⟩ = .finite mode) (htwo : 2 ≤ mode) (hfour : mode < 4)
    (hperiod : h.gpioCommand ⟨"led", "led_period_ms"⟩ = .finite periodMs) (hpos : 0 < periodMs) :
    ⟨.finite (ledPhase periodMs (seconds input.time)), int64⟩ ∈ h.gpioConversions input := by
  have hphase : (⟨.finite (ledPhase periodMs (seconds input.time)), int64⟩ : Conversion) ∈
      resolveLedConversions ((h.gpioCommand ⟨"led", "led_mode"⟩).clampCast int32)
        (ledPeriodMs (h.gpioCommand ⟨"led", "led_period_ms"⟩)) (seconds input.time) := by
    rw [hperiod]
    exact mem_resolveLedConversions_iff.mpr
      ⟨flips_iff.mpr ⟨mode, hmode, htwo, hfour⟩, hpos, rfl⟩
  unfold gpioConversions ledConversions
  rw [hopen, if_neg (not_not.mpr hled)]
  exact List.mem_append_right _ (List.mem_append_right _ hphase)

/-- At a time that is not negative, every conversion that gpio commands reach is defined exactly if
the phase fits, on a port that is open and a robot that has an LED. -/
theorem gpioConversions_defined_iff (input : WriteInput) (htime : 0 ≤ input.time) :
    (∀ conversion ∈ h.gpioConversions input, conversion.Defined) ↔
      (h.kestrel.isOpen = true → ⟨"led", "led_mode"⟩ ∈ h.interfaces.gpioCommands →
        h.PhaseFits input.time) := by
  have hseconds : 0 ≤ seconds input.time := by
    unfold seconds
    positivity
  have hnonneg : ∀ periodMs : ℚ, 0 < periodMs → 0 ≤ ledPhase periodMs (seconds input.time) := by
    intro periodMs hpos
    unfold ledPhase
    positivity
  constructor
  · intro hdefined hopen hled mode periodMs hmode htwo hfour hperiod hpos
    exact (defined_phase_iff (hnonneg periodMs hpos)).mp
      (hdefined _ (h.phase_mem_gpioConversions hopen hled hmode htwo hfour hperiod hpos))
  · intro hfits conversion hmem
    rcases h.mem_gpioConversions hmem with hdefined | ⟨hopen, hled, hphase⟩
    · exact hdefined
    · obtain ⟨hflips, hpos, rfl⟩ := mem_resolveLedConversions_iff.mp hphase
      obtain ⟨mode, hmode, htwo, hfour⟩ := flips_iff.mp hflips
      cases hperiod : h.gpioCommand ⟨"led", "led_period_ms"⟩ with
      | finite periodMs =>
        rw [hperiod] at hpos
        exact (defined_phase_iff (hnonneg periodMs hpos)).mpr
          (hfits hopen hled mode periodMs hmode htwo hfour hperiod hpos)
      | nan | posInf | negInf =>
        rw [hperiod] at hpos
        exact absurd hpos (lt_irrefl 0)

end MyDiffbotSystemHardware

/-! ## The robot's LED -/

/-- What decides about the phase after some events of the robot: whether the port is open and the
mode has an interface, the mode and the period. -/
def ledAfter (events : List Event) : Option (Bool × Bool × Double × Double) := do
  let (c, _) ← component.run diffbot events
  return (c.hardware.kestrel.isOpen,
    decide (⟨"led", "led_mode"⟩ ∈ c.hardware.interfaces.gpioCommands),
    c.hardware.gpioCommand ⟨"led", "led_mode"⟩, c.hardware.gpioCommand ⟨"led", "led_period_ms"⟩)

theorem exists_of_ledAfter {events : List Event} {mode period : Double}
    (h : ledAfter events = some (true, true, mode, period)) :
    ∃ c effects, component.run diffbot events = some (c, effects) ∧
      c.hardware.kestrel.isOpen = true ∧
      ⟨"led", "led_mode"⟩ ∈ c.hardware.interfaces.gpioCommands ∧
      c.hardware.gpioCommand ⟨"led", "led_mode"⟩ = mode ∧
      c.hardware.gpioCommand ⟨"led", "led_period_ms"⟩ = period := by
  obtain ⟨⟨c, effects⟩, hrun, h⟩ := Option.bind_eq_some_iff.mp h
  obtain ⟨hopen, h⟩ := Prod.mk.inj (Option.some.inj h)
  obtain ⟨hled, h⟩ := Prod.mk.inj h
  obtain ⟨hmode, hperiod⟩ := Prod.mk.inj h
  exact ⟨c, effects, hrun, hopen, of_decide_eq_true hled, hmode, hperiod⟩

/-- The robot blinks with a period. -/
def blinkEvents (periodMs : ℚ) : List Event :=
  [.configure, .activate (activateAt 0), .setGpioCommand ⟨"led", "led_mode"⟩ (.finite 2),
    .setGpioCommand ⟨"led", "led_period_ms"⟩ (.finite periodMs)]

/-- A second of blinking at 1 Hz. -/
theorem gpioConversions_defined_robot :
    ∃ c effects, component.run diffbot (blinkEvents 500) = some (c, effects) ∧
      ∀ conversion ∈ c.hardware.gpioConversions (writeAt (10 ^ 9)), conversion.Defined := by
  have hled : ledAfter (blinkEvents 500) = some (true, true, .finite 2, .finite 500) := by
    decide +kernel
  obtain ⟨c, effects, hrun, _, _, _, hperiod⟩ := exists_of_ledAfter hled
  refine ⟨c, effects, hrun,
    (c.hardware.gpioConversions_defined_iff (writeAt (10 ^ 9)) (by decide)).mpr ?_⟩
  intro _ _ mode periodMs _ _ _ hcommand _
  obtain rfl := Double.finite.inj (hperiod.symm.trans hcommand)
  norm_num [seconds, writeAt]

/-- A second after the epoch, a period of `2 ^ -60` ms makes the phase larger than any `int64_t`. -/
theorem not_gpioConversions_defined :
    ¬∀ events c effects input, component.run diffbot events = some (c, effects) →
      0 ≤ input.time → ∀ conversion ∈ c.hardware.gpioConversions input, conversion.Defined := by
  intro hdefined
  have hled : ledAfter (blinkEvents (1 / 2 ^ 60)) =
      some (true, true, .finite 2, .finite (1 / 2 ^ 60)) := by decide +kernel
  obtain ⟨c, effects, hrun, hopen, hled, hmode, hperiod⟩ := exists_of_ledAfter hled
  have hphase := hdefined _ c effects (writeAt (10 ^ 9)) hrun (by decide) _
    (c.hardware.phase_mem_gpioConversions hopen hled hmode le_rfl (by norm_num) hperiod
      (by norm_num))
  have hfits := (defined_phase_iff (by norm_num [ledPhase, seconds, writeAt])).mp hphase
  norm_num [ledPhase, seconds, writeAt] at hfits

end MyDiffbot.System
