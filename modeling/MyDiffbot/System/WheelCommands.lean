import MyDiffbot.System.StopGrace

/-!
# The conversion of wheel commands

`write` hands the wheel commands to `SetWheelVelocity` as they are, whatever the controllers have
written, and `SetWheelVelocity` converts the scaled values to `int32_t`. The gpio commands are
clamped before their conversions, the wheel commands are not: the conversion is undefined on a
command that is not finite or does not fit (`not_convertsSafely`).
-/

namespace MyDiffbot.System

open Numeric Transport

/-- The speed of a wheel command, clamped as the gpio commands are. -/
def clampedMrps (command : Double) : ℤ :=
  (command.scale (1000 / (2 * mPi))).clampCast int32

/-- A finite command whose milli-revolutions per second fit an `int32_t`. -/
def Convertible (command : Double) : Prop :=
  ∃ value : ℚ, command = .finite value ∧
    int32.lowest ≤ truncate (value * (1000 / (2 * mPi))) ∧
    truncate (value * (1000 / (2 * mPi))) ≤ int32.max

/-- Every velocity frame of a `write` carries the clamped commands, and none has a speed whose
conversion was undefined. -/
def ConvertsSafely (h : MyDiffbotSystemHardware) (input : MyDiffbotSystemHardware.WriteInput) :
    Prop :=
  ∀ frame ∈ velocityFrames (h.write input).2.2,
    frame = (some (clampedMrps h.wheelCommands.1), some (clampedMrps h.wheelCommands.2))

theorem mrpsOf_eq_some_iff (command : Double) :
    Kestrel.mrpsOf command = some (clampedMrps command) ↔ Convertible command := by
  unfold Kestrel.mrpsOf Convertible
  cases command with
  | finite value =>
    simp only [Double.scale, Double.castTo, Double.finite.injEq, exists_eq_left']
    constructor
    · intro hsome
      split_ifs at hsome with hrange
      exact hrange
    · intro hrange
      have hcast : Double.castTo int32 (.finite (value * (1000 / (2 * mPi)))) =
          some (truncate (value * (1000 / (2 * mPi)))) := if_pos hrange
      rw [if_pos hrange, ← Double.clampCast_of_castTo hcast]
      rfl
  | nan | posInf | negInf => simp [Double.scale, Double.castTo]

/-- The velocity frames of a `write` after some events of the robot. -/
def framesAfter (events : List Event) (input : MyDiffbotSystemHardware.WriteInput) :
    Option (List (Option ℤ × Option ℤ)) := do
  let (c, _) ← component.run diffbot events
  return velocityFrames (c.hardware.write input).2.2

theorem exists_of_framesAfter {events : List Event} {input : MyDiffbotSystemHardware.WriteInput}
    {frames : List (Option ℤ × Option ℤ)} (h : framesAfter events input = some frames) :
    ∃ c effects, component.run diffbot events = some (c, effects) ∧
      velocityFrames (c.hardware.write input).2.2 = frames := by
  obtain ⟨⟨c, effects⟩, hrun, h⟩ := Option.bind_eq_some_iff.mp h
  exact ⟨c, effects, hrun, Option.some.inj h⟩

end MyDiffbot.System
