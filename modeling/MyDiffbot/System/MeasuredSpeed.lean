import MyDiffbot.Incremental.Arrival
import MyDiffbot.System.WheelSpeed
import MyDiffbot.Transport.Direction

/-!
# The measured speed and the host

The measurement of `ReadWheels` is made of the stamps and the ticks of the frames only. Whatever the
periods of the host are, and however the frames fall into its cycles, each smoothed slope belongs to
a window of bounded length between two frames that were seen, and these windows do not overlap
(`speedOk_of_seed`). On wheels that turn evenly the number of the windows decides the speed.
-/

namespace MyDiffbot.System

open Protocol Numeric Transport Incremental

/-- The ticks of a wheel. -/
def sideOf : Wheel → ℤ × ℤ → ℤ
  | .left => Prod.fst
  | .right => Prod.snd

/-- The smoothed speed of a wheel after a cycle that may have closed a window. -/
def smoothOnce (cpr : ℚ) (wheel : Wheel) (before : ℚ)
    (window? : Option (WheelFrame × WheelFrame)) : ℚ :=
  window?.elim before fun window ↦
    before + kMeasEmaAlpha * (slope cpr (sideOf wheel) window - before)

theorem speed_append_toList (cpr : ℚ) (wheel : Wheel) (windows : List (WheelFrame × WheelFrame))
    (window? : Option (WheelFrame × WheelFrame)) :
    speed cpr (sideOf wheel) (windows ++ window?.toList) =
      smoothOnce cpr wheel (speed cpr (sideOf wheel) windows) window? := by
  cases window? with
  | none => exact congrArg _ (List.append_nil windows)
  | some window => exact speed_append_singleton _ _ _ window

/-! ## One measurement -/

namespace Speedometer

/-- The component of `meas_rad_` for a wheel. -/
def measRad (s : Speedometer) : Wheel → ℚ
  | .left => s.left
  | .right => s.right

/-- The staleness test reports standstill. -/
def Zeroes (now : Time) (counted : Bool) (s : Speedometer) : Prop :=
  counted = false ∧ kWheelFeedbackTimeoutSec < seconds (now - s.change)

instance (now : Time) (counted : Bool) (s : Speedometer) : Decidable (s.Zeroes now counted) :=
  inferInstanceAs (Decidable (_ ∧ _))

/-- The window whose slope is smoothed into the speed, if there is one. -/
def window? (frame : WheelFrame) (s : Speedometer) : Option (WheelFrame × WheelFrame) :=
  if frame.stamp - s.prev.stamp < 0 ∨ 1 < frame.stamp - s.prev.stamp then none
  else if kMeasWindowSec ≤ frame.stamp - s.prev.stamp then some (s.prev, frame)
  else none

variable {cpr : ℚ} {now : Time} {counted : Bool} {frame latest : WheelFrame} {s : Speedometer}

theorem measRad_check (wheel : Wheel) :
    (s.check now counted frame).measRad wheel =
      if s.Zeroes now counted then 0 else s.measRad wheel := by
  unfold check Zeroes
  cases counted with
  | true => cases hstale : s.stale <;> cases wheel <;> simp [measRad]
  | false =>
    by_cases htimeout : kWheelFeedbackTimeoutSec < seconds (now - s.change)
    · cases wheel <;> simp [htimeout, measRad]
    · cases wheel <;> simp [htimeout]

theorem prev_check :
    (s.check now counted frame).prev = if counted = true ∧ s.stale = true then frame else s.prev := by
  unfold check
  cases counted <;> cases s.stale <;> simp only [Bool.false_eq_true, if_true, if_false, and_self,
    false_and, and_false]
  all_goals split <;> rfl

/-- The filter takes the slope of the window. -/
theorem measRad_measure (wheel : Wheel) :
    (s.measure cpr frame).measRad wheel =
      smoothOnce cpr wheel (s.measRad wheel) (s.window? frame) := by
  unfold measure window?
  split_ifs
  · cases wheel <;> rfl
  · cases wheel <;> rfl
  · rfl

/-- A frame closes the window, and is the next anchor then, or it smooths nothing. -/
theorem measure_cases (cpr : ℚ) (frame : WheelFrame) (s : Speedometer) :
    (s.window? frame = some (s.prev, frame) ∧ wheelLimits.Closes s.prev frame ∧
      (s.measure cpr frame).prev = frame) ∨
    (s.window? frame = none ∧
      ((s.measure cpr frame).prev = frame ∨ (s.measure cpr frame).prev = s.prev)) := by
  unfold window? measure
  split_ifs with hrestarts hcloses
  · exact .inr ⟨rfl, .inl rfl⟩
  · exact .inl ⟨rfl, ⟨hcloses, not_lt.mp (not_or.mp hrestarts).2⟩, rfl⟩
  · exact .inr ⟨rfl, .inr rfl⟩

theorem window?_of_open (h : s.Open frame) : s.window? frame = none := by
  unfold window?
  rw [if_neg (not_le.mpr h.2)]
  split <;> rfl

/-- A cycle: the latest frame closes the window behind the anchor, becomes the anchor, or is passed
over; without a new one the anchor stays. -/
theorem Measured.anchors {state : Option ℚ × Progress WheelFrame}
    (h : Measured cpr latest state s) (now : Time) (frame? : Option WheelFrame) :
    let frame := frame?.getD latest
    let checked := s.check now (frame?.isSome || state.1.isNone) frame
    (frame? = some frame ∧ checked.window? frame = some (s.prev, frame) ∧
      wheelLimits.Closes s.prev frame ∧ (checked.measure cpr frame).prev = frame) ∨
    (checked.window? frame = none ∧ ((frame? = some frame ∧ (checked.measure cpr frame).prev = frame) ∨
      (checked.measure cpr frame).prev = s.prev)) := by
  cases frame? with
  | none =>
    have hprev : (s.check now state.1.isNone latest).prev = s.prev := by
      rw [prev_check, if_neg]
      rintro ⟨hnone, hstale⟩
      rw [h.started (Option.isNone_iff_eq_none.mp hnone)] at hstale
      cases hstale
    have hopen : (s.check now state.1.isNone latest).Open latest := by
      rw [Open, hprev]
      exact h.window
    refine .inr ⟨window?_of_open hopen, .inr ?_⟩
    exact (congrArg Speedometer.prev (measure_of_open hopen)).trans hprev
  | some frame =>
    cases hstale : s.stale with
    | true =>
      have hprev : (s.check now true frame).prev = frame := by
        rw [prev_check, if_pos ⟨rfl, hstale⟩]
      have hopen := open_self hprev
      have hnext : ((s.check now true frame).measure cpr frame).prev = frame := by
        rw [measure_of_open hopen, hprev]
      exact .inr ⟨window?_of_open hopen, .inl ⟨rfl, hnext⟩⟩
    | false =>
      have hprev : (s.check now true frame).prev = s.prev := by
        rw [prev_check, if_neg fun hboth ↦ absurd (hstale ▸ hboth.2) Bool.false_ne_true]
      rcases measure_cases cpr frame (s.check now true frame) with
        ⟨hwindow, hcloses, hnext⟩ | ⟨hwindow, hnext⟩
      · rw [hprev] at hwindow hcloses
        exact .inl ⟨rfl, hwindow, hcloses, hnext⟩
      · rw [hprev] at hnext
        exact .inr ⟨hwindow, hnext.imp_left fun hnew ↦ ⟨rfl, hnew⟩⟩

end Speedometer

/-! ## What is measured -/

/-- A `read` after the seed, as the measurement sees it. -/
structure MeasureCycle where
  /-- The latest frame parsed since the previous `read`, if there is any. -/
  frame? : Option WheelFrame
  zeroed : Bool
  window? : Option (WheelFrame × WheelFrame)
  /-- The latest frame of all. -/
  latest : WheelFrame
  after : Speedometer

def Odometer.measureCycle (o : Odometer) (input : MyDiffbotSystemHardware.ReadInput) :
    MeasureCycle :=
  let h := o.component.hardware
  let next := (h.read input).2.1
  let counted := decide (next.kestrel.feedback.wheelFeedbackCount ≠ h.lastWheelCount)
  let latest := latestFrame next.kestrel.feedback
  { frame? := (o.cycle input).look.frame?
    zeroed := decide (h.speedometer.Zeroes input.wheel counted)
    window? := (h.speedometer.check input.wheel counted latest).window? latest
    latest
    after := next.speedometer }

/-- The component, of which only the measurements are seen. -/
def measureWatch : Machine Odometer Event MeasureCycle :=
  wheelWatch.observe fun o event _ ↦
    match event with
    | .read input => [o.measureCycle input]
    | _ => []

/-- The frame of the seed and those that some cycles saw, in the order of their arrival. -/
def framesArrived (seeded : Component) (trace : List MeasureCycle) : List WheelFrame :=
  latestFrame seeded.hardware.kestrel.feedback :: trace.filterMap MeasureCycle.frame?

/-- The windows that some cycles smoothed. -/
def windowsUsed (trace : List MeasureCycle) : List (WheelFrame × WheelFrame) :=
  trace.filterMap MeasureCycle.window?

/-- The windows that were smoothed since the speeds have been zeroed. -/
def sinceZeroed (trace : List MeasureCycle) : List (WheelFrame × WheelFrame) :=
  trace.foldl (fun windows cycle ↦
    (if cycle.zeroed then [] else windows) ++ cycle.window?.toList) []

/-- What is promised of the speed after a cycle. -/
structure SpeedOk (seeded : Component) (front : List MeasureCycle) (cycle : MeasureCycle) : Prop where
  /-- The latest frame is less than a window behind the anchor. -/
  anchor : 0 ≤ cycle.latest.stamp - cycle.after.prev.stamp ∧
    cycle.latest.stamp - cycle.after.prev.stamp < 0.04
  /-- The windows are between frames that were seen, one behind the other. -/
  inOrder : InOrder (framesArrived seeded (front ++ [cycle])) (windowsUsed (front ++ [cycle]))
  divisor : ∀ window ∈ windowsUsed (front ++ [cycle]),
    0.04 ≤ window.2.stamp - window.1.stamp ∧ window.2.stamp - window.1.stamp ≤ 1 ∧
      0 < seeded.hardware.cpr * (window.2.stamp - window.1.stamp)
  smoothed : ∀ wheel, cycle.after.measRad wheel =
    speed seeded.hardware.cpr (sideOf wheel) (sinceZeroed (front ++ [cycle]))
  between : ∀ wheel,
    let slopes := (sinceZeroed (front ++ [cycle])).map (slope seeded.hardware.cpr (sideOf wheel))
    (∃ lower ∈ 0 :: slopes, lower ≤ cycle.after.measRad wheel) ∧
      ∃ upper ∈ 0 :: slopes, cycle.after.measRad wheel ≤ upper
  /-- On a line the speed depends on the number of the windows only. -/
  line : ∀ wheel (a r : ℚ), (∀ frame ∈ framesArrived seeded (front ++ [cycle]),
      (sideOf wheel frame.ticks : ℚ) = a + r * frame.stamp) →
    cycle.after.measRad wheel = (1 - 0.6 ^ (sinceZeroed (front ++ [cycle])).length) *
      (2 * mPi * r / seeded.hardware.cpr)

theorem mem_windowsUsed {trace : List MeasureCycle} {window : WheelFrame × WheelFrame}
    (h : window ∈ sinceZeroed trace) : window ∈ windowsUsed trace := by
  induction trace using List.reverseRecOn with
  | nil => exact h
  | append_singleton front cycle ih =>
    rw [sinceZeroed, List.foldl_append] at h
    rw [windowsUsed, List.filterMap_append]
    rcases List.mem_append.mp h with hold | hnew
    · refine List.mem_append_left _ (ih ?_)
      by_cases hzeroed : cycle.zeroed
      · rw [if_pos hzeroed] at hold
        exact absurd hold List.not_mem_nil
      · rwa [if_neg hzeroed] at hold
    · have hwindow : cycle.window? = some window := Option.mem_toList.mp hnew
      rw [List.filterMap_cons_some hwindow]
      exact List.mem_append_right _ List.mem_cons_self

/-- The slope of a window on a line is the slope of the line. -/
theorem slope_of_line {cpr a r : ℚ} {side : ℤ × ℤ → ℤ} {window : WheelFrame × WheelFrame}
    (hcpr : cpr ≠ 0) (hlength : window.2.stamp - window.1.stamp ≠ 0)
    (hfirst : (side window.1.ticks : ℚ) = a + r * window.1.stamp)
    (hsecond : (side window.2.ticks : ℚ) = a + r * window.2.stamp) :
    slope cpr side window = 2 * mPi * r / cpr := by
  have hticks : (side window.2.ticks : ℚ) - side window.1.ticks =
      r * (window.2.stamp - window.1.stamp) := by
    rw [hfirst, hsecond]
    ring
  rw [slope, hticks]
  field_simp

/-! ## The invariant -/

section run

variable {seeded : Component} {trace : List MeasureCycle} {o : Odometer}

/-- The invariant after the seed: what is measured, beside what is seen of the wheels. -/
structure Tracked (seeded : Component) (trace : List MeasureCycle) (o : Odometer) : Prop where
  metered : ∃ cycles, Metered seeded cycles o
  anchored : Anchored (framesArrived seeded trace) (windowsUsed trace)
    o.component.hardware.speedometer.prev
  closes : ∀ window ∈ windowsUsed trace, wheelLimits.Closes window.1 window.2
  smoothed : ∀ wheel, o.component.hardware.speedometer.measRad wheel =
    speed seeded.hardware.cpr (sideOf wheel) (sinceZeroed trace)
  speedOk : ∀ front cycle back, trace = front ++ cycle :: back → SpeedOk seeded front cycle

theorem framesArrived_append_singleton (cycle : MeasureCycle) :
    framesArrived seeded (trace ++ [cycle]) = framesArrived seeded trace ++ cycle.frame?.toList := by
  rw [framesArrived, List.filterMap_append]
  cases hframe : cycle.frame? <;> simp [framesArrived, hframe]

theorem windowsUsed_append_singleton (cycle : MeasureCycle) :
    windowsUsed (trace ++ [cycle]) = windowsUsed trace ++ cycle.window?.toList := by
  rw [windowsUsed, List.filterMap_append]
  cases hwindow : cycle.window? <;> simp [windowsUsed, hwindow]

theorem sinceZeroed_append_singleton (cycle : MeasureCycle) :
    sinceZeroed (trace ++ [cycle]) =
      (if cycle.zeroed then [] else sinceZeroed trace) ++ cycle.window?.toList := by
  rw [sinceZeroed, List.foldl_append]
  rfl

/-- What is promised follows from the recursion of the filter and the order of the windows. -/
theorem speedOk_of_smoothed (hcpr : 0 < seeded.hardware.cpr) {cycle : MeasureCycle}
    (hopen : cycle.after.Open cycle.latest)
    (horder : InOrder (framesArrived seeded (trace ++ [cycle])) (windowsUsed (trace ++ [cycle])))
    (hcloses : ∀ window ∈ windowsUsed (trace ++ [cycle]), wheelLimits.Closes window.1 window.2)
    (hsmoothed : ∀ wheel, cycle.after.measRad wheel =
      speed seeded.hardware.cpr (sideOf wheel) (sinceZeroed (trace ++ [cycle]))) :
    SpeedOk seeded trace cycle := by
  have hpositive : ∀ window ∈ windowsUsed (trace ++ [cycle]),
      0 < window.2.stamp - window.1.stamp := by
    intro window hmem
    have hshortest : (0.04 : ℚ) ≤ window.2.stamp - window.1.stamp := (hcloses window hmem).1
    linarith
  refine ⟨hopen, horder, fun window hmem ↦ ?_, hsmoothed, fun wheel ↦ ?_, fun wheel a r hline ↦ ?_⟩
  · exact ⟨(hcloses window hmem).1, (hcloses window hmem).2, mul_pos hcpr (hpositive window hmem)⟩
  · rw [hsmoothed wheel]
    exact smooth_between (by norm_num [kMeasEmaAlpha]) (by norm_num [kMeasEmaAlpha]) _
  · have hslopes : ∀ value ∈ (sinceZeroed (trace ++ [cycle])).map
        (slope seeded.hardware.cpr (sideOf wheel)), value = 2 * mPi * r / seeded.hardware.cpr := by
      intro value hvalue
      obtain ⟨window, hmem, rfl⟩ := List.mem_map.mp hvalue
      have hused := mem_windowsUsed hmem
      obtain ⟨hfirst, hsecond⟩ := horder.mem hused
      exact slope_of_line hcpr.ne' (hpositive window hused).ne' (hline _ hfirst) (hline _ hsecond)
    have halpha : 1 - kMeasEmaAlpha = 0.6 := by norm_num [kMeasEmaAlpha]
    rw [hsmoothed wheel, speed, smooth_of_constant _ hslopes, List.length_map, halpha]

/-- A step that leaves the measurement alone. -/
theorem Tracked.congr (h : Tracked seeded trace o) {next : Odometer}
    (hmetered : ∃ cycles, Metered seeded cycles next)
    (hspeed : next.component.hardware.speedometer = o.component.hardware.speedometer) :
    Tracked seeded trace next where
  metered := hmetered
  anchored := by rw [hspeed]; exact h.anchored
  closes := h.closes
  smoothed := by rw [hspeed]; exact h.smoothed
  speedOk := h.speedOk

section read

variable {input : MyDiffbotSystemHardware.ReadInput} {cycles : List WheelCycle}

/-- The filter after a `read`. -/
theorem Metered.measRad_read (h : Metered seeded cycles o)
    (hcontinues : Continues o.component (o.component.hardware.read input).2.2
      { o.component with hardware := (o.component.hardware.read input).2.1 }) (wheel : Wheel) :
    (o.component.hardware.read input).2.1.speedometer.measRad wheel =
      smoothOnce seeded.hardware.cpr wheel
        (if (o.measureCycle input).zeroed then 0
          else o.component.hardware.speedometer.measRad wheel)
        (o.measureCycle input).window? := by
  obtain ⟨_, hcounted, _⟩ := h.continues hcontinues
  obtain ⟨hspeed, _⟩ :=
    o.component.hardware.read_speedometer input h.isOpen h.ticksInit hcounted
  rw [hspeed, Speedometer.measRad_measure, Speedometer.measRad_check, h.cpr]
  simp only [Odometer.measureCycle, decide_eq_true_eq]

theorem speed_sinceZeroed (cpr : ℚ) (wheel : Wheel) (cycle : MeasureCycle) :
    speed cpr (sideOf wheel) (sinceZeroed (trace ++ [cycle])) =
      smoothOnce cpr wheel
        (if cycle.zeroed then 0 else speed cpr (sideOf wheel) (sinceZeroed trace))
        cycle.window? := by
  have hstart : speed cpr (sideOf wheel) (if cycle.zeroed then [] else sinceZeroed trace) =
      if cycle.zeroed then 0 else speed cpr (sideOf wheel) (sinceZeroed trace) := by
    split <;> rfl
  rw [sinceZeroed_append_singleton, speed_append_toList, hstart]

/-- The anchor after a `read`, and the window it has closed. -/
theorem Metered.anchors_read (h : Metered seeded cycles o)
    (hcontinues : Continues o.component (o.component.hardware.read input).2.2
      { o.component with hardware := (o.component.hardware.read input).2.1 }) :
    let cycle := o.measureCycle input
    let prev := o.component.hardware.speedometer.prev
    (cycle.frame? = some cycle.latest ∧ cycle.window? = some (prev, cycle.latest) ∧
      wheelLimits.Closes prev cycle.latest ∧ cycle.after.prev = cycle.latest) ∨
    (cycle.window? = none ∧
      ((cycle.frame? = some cycle.latest ∧ cycle.after.prev = cycle.latest) ∨
        cycle.after.prev = prev)) := by
  obtain ⟨hlatest, hcounted, _⟩ := h.continues hcontinues
  obtain ⟨hspeed, _⟩ :=
    o.component.hardware.read_speedometer input h.isOpen h.ticksInit hcounted
  have hanchors := h.measured.anchors input.wheel (o.cycle input).look.frame?
  have hframe : (o.cycle input).look.frame?.getD (lastSeen seeded cycles) =
      latestFrame (o.component.hardware.read input).2.1.kestrel.feedback := by
    rw [hlatest, List.getLastD_eq_getLast?]
    rfl
  have hnew := h.isNew hcontinues
  dsimp only at hnew hanchors
  rw [hframe] at hanchors
  change decide _ = ((o.cycle input).look.frame?.isSome || _) at hnew
  rw [← hnew, ← h.cpr] at hanchors
  dsimp only [Odometer.measureCycle]
  rw [hspeed]
  exact hanchors

theorem Tracked.read (h : Tracked seeded trace o) (hcpr : 0 < seeded.hardware.cpr)
    (hcontinues : Continues o.component (o.component.hardware.read input).2.2
      { o.component with hardware := (o.component.hardware.read input).2.1 }) :
    Tracked seeded (trace ++ [o.measureCycle input])
      ⟨{ o.component with hardware := (o.component.hardware.read input).2.1 }, []⟩ := by
  obtain ⟨cycles, hmetered⟩ := h.metered
  set cycle := o.measureCycle input with hcycle
  have hsmoothed : ∀ wheel, cycle.after.measRad wheel =
      speed seeded.hardware.cpr (sideOf wheel) (sinceZeroed (trace ++ [cycle])) := by
    intro wheel
    rw [speed_sinceZeroed, ← h.smoothed wheel]
    exact hmetered.measRad_read hcontinues wheel
  have hanchored : Anchored (framesArrived seeded (trace ++ [cycle]))
        (windowsUsed (trace ++ [cycle])) cycle.after.prev ∧
      ∀ window ∈ windowsUsed (trace ++ [cycle]), wheelLimits.Closes window.1 window.2 := by
    rw [framesArrived_append_singleton, windowsUsed_append_singleton]
    rcases hmetered.anchors_read hcontinues with
      ⟨hframe, hwindow, hcloses, hnext⟩ | ⟨hwindow, ⟨hframe, hnext⟩ | hnext⟩
    · rw [hframe, hwindow, hnext]
      refine ⟨h.anchored.close _, fun window hmem ↦ ?_⟩
      rcases List.mem_append.mp hmem with hold | hnew
      · exact h.closes window hold
      · rw [List.mem_singleton.mp hnew]
        exact hcloses
    · rw [hframe, hwindow, hnext, Option.toList_none, List.append_nil]
      exact ⟨h.anchored.restart _, h.closes⟩
    · rw [hwindow, hnext, Option.toList_none, List.append_nil]
      refine ⟨?_, h.closes⟩
      cases cycle.frame? with
      | none => exact (List.append_nil (framesArrived seeded trace)).symm ▸ h.anchored
      | some frame => exact h.anchored.keep frame
  have hopen : cycle.after.Open cycle.latest := (hmetered.measured_read hcontinues).window
  exact {
    metered := ⟨_, hmetered.read hcontinues⟩
    anchored := hanchored.1
    closes := hanchored.2
    smoothed := hsmoothed
    speedOk := forall_split_append_singleton h.speedOk
      (speedOk_of_smoothed hcpr hopen hanchored.1.inOrder hanchored.2 hsmoothed) }

end read

theorem Tracked.step {next : Odometer} {event : Event} {outputs : List MeasureCycle}
    (h : Tracked seeded trace o) (hcpr : 0 < seeded.hardware.cpr) (hcycle : event.isCycle = true)
    (hstep : measureWatch.step o event = some (next, outputs)) :
    Tracked seeded (trace ++ outputs) next := by
  obtain ⟨cycles, hwheel, rfl⟩ := Machine.observe_step_eq_some.mp hstep
  obtain ⟨before, hmetered⟩ := h.metered
  have hnext : ∃ cycles, Metered seeded cycles next := ⟨_, hmetered.step hcycle hwheel⟩
  obtain ⟨⟨after, effects⟩, hcomponent, hresult⟩ := Option.map_eq_some_iff.mp hwheel
  have hcontinues := step_continues hcomponent
  cases event with
  | read input =>
    obtain ⟨rfl, rfl⟩ := Prod.mk.inj hresult
    cases steps_of_step hcomponent
    exact h.read hcpr hcontinues
  | setJointCommand name value | setGpioCommand name value =>
    obtain ⟨rfl, rfl⟩ := Prod.mk.inj hresult
    rw [List.append_nil]
    cases steps_of_step hcomponent
    exact h.congr hnext rfl
  | write input =>
    obtain ⟨rfl, rfl⟩ := Prod.mk.inj hresult
    rw [List.append_nil]
    cases steps_of_step hcomponent
    obtain ⟨_, _, _, _, _, _, hstate, _⟩ := write_keeps o.component.hardware input
    refine h.congr hnext ?_
    dsimp only
    rw [hstate]
    rfl
  | configure | cleanup | activate input | deactivate input => cases hcycle

theorem tracked_seeded {c : Component} {input : MyDiffbotSystemHardware.ReadInput}
    {effects : List Effect} (hunmeasured : c.hardware.Unmeasured)
    (hstep : component.step c (.read input) = some (seeded, effects))
    (hbefore : c.hardware.ticksInit = false) (hseeded : seeded.hardware.ticksInit = true) :
    Tracked seeded [] ⟨seeded, []⟩ := by
  have hmetered := metered_seeded hunmeasured hstep hbefore hseeded
  have hprev : seeded.hardware.speedometer.prev =
      latestFrame seeded.hardware.kestrel.feedback := by
    cases steps_of_step hstep with
    | read input =>
      obtain ⟨hspeed, _⟩ := c.hardware.read_seeds input hbefore hseeded
      dsimp only
      rw [hspeed]
  refine ⟨⟨_, hmetered⟩, ?_, fun _ hmem ↦ absurd hmem List.not_mem_nil, fun wheel ↦ ?_, ?_⟩
  · dsimp only
    rw [hprev]
    exact Anchored.singleton _
  · cases wheel with
    | left => exact hmetered.measured.left
    | right => exact hmetered.measured.right
  · intro front cycle back hsplit
    cases front <;> cases hsplit

/-- Whatever the periods of the host are and however the frames behind the seed of an activation
fall into its cycles, every cycle keeps what is promised of the measured speed. -/
theorem speedOk_of_seed {before begun c : Component} {after : Odometer}
    {input : MyDiffbotSystemHardware.ActivateInput}
    {seedInput : MyDiffbotSystemHardware.ReadInput} {front events : List Event}
    {beginEffects frontEffects seedEffects : List Effect}
    (hactivate : component.step before (.activate input) = some (begun, beginEffects))
    (hactive : begun.lifecycle = .active)
    (hfront : ∀ event ∈ front, event.isCycle = true)
    (hfrontRun : component.run begun front = some (c, frontEffects))
    (hbefore : c.hardware.ticksInit = false)
    (hseed : component.step c (.read seedInput) = some (seeded, seedEffects))
    (hseeded : seeded.hardware.ticksInit = true) (hcpr : 0 < seeded.hardware.cpr)
    (hcycles : ∀ event ∈ events, event.isCycle = true)
    (hrun : measureWatch.run ⟨seeded, []⟩ events = some (after, trace)) :
    ∀ earlier cycle later, trace = earlier ++ cycle :: later → SpeedOk seeded earlier cycle := by
  have hunmeasured := unmeasured_of_activate hactivate hactive hfront hfrontRun
  have hstart := tracked_seeded hunmeasured hseed hbefore hseeded
  have htracked : Tracked seeded trace after :=
    Machine.run_invariant_nil (fun o trace ↦ Tracked seeded trace o)
      (fun hbefore hcycle hstep ↦ hbefore.step hcpr hcycle hstep) hrun
      (Machine.along_of_forall hcycles) hstart
  exact htracked.speedOk

end run

/-! ## A run of the robot -/

/-- What is asked of a run behind an activation and its seed: whether the activation succeeded,
whether there was a seed before and after the first cycle, whether there are counts in a revolution,
and for every later cycle its window and whether the speeds were zeroed. -/
structure MeasureLog where
  lifecycle : LifecycleState
  before : Bool
  seeded : Bool
  counts : Bool
  cycles : List (Option (WheelFrame × WheelFrame) × Bool)
  deriving DecidableEq

def measureLog (events : List Event) (input : MyDiffbotSystemHardware.ActivateInput)
    (seedInput : MyDiffbotSystemHardware.ReadInput) (cycles : List Event) : Option MeasureLog := do
  let (before, _) ← component.run diffbot events
  let (begun, _) ← component.step before (.activate input)
  let (seeded, _) ← component.step begun (.read seedInput)
  let (_, trace) ← measureWatch.run ⟨seeded, []⟩ cycles
  return ⟨begun.lifecycle, begun.hardware.ticksInit, seeded.hardware.ticksInit,
    decide (0 < seeded.hardware.cpr), trace.map fun cycle ↦ (cycle.window?, cycle.zeroed)⟩

theorem exists_of_measureLog {events cycles : List Event}
    {input : MyDiffbotSystemHardware.ActivateInput}
    {seedInput : MyDiffbotSystemHardware.ReadInput} {result : MeasureLog}
    (h : measureLog events input seedInput cycles = some result) :
    ∃ before begun seeded after beginEffects seedEffects trace,
      component.step before (.activate input) = some (begun, beginEffects) ∧
      component.step begun (.read seedInput) = some (seeded, seedEffects) ∧
      measureWatch.run ⟨seeded, []⟩ cycles = some (after, trace) ∧
      result = ⟨begun.lifecycle, begun.hardware.ticksInit, seeded.hardware.ticksInit,
        decide (0 < seeded.hardware.cpr),
        trace.map fun cycle ↦ (cycle.window?, cycle.zeroed)⟩ := by
  obtain ⟨⟨before, _⟩, _, h⟩ := Option.bind_eq_some_iff.mp h
  obtain ⟨⟨begun, beginEffects⟩, hactivate, h⟩ := Option.bind_eq_some_iff.mp h
  obtain ⟨⟨seeded, seedEffects⟩, hseed, h⟩ := Option.bind_eq_some_iff.mp h
  obtain ⟨⟨after, trace⟩, hrun, h⟩ := Option.bind_eq_some_iff.mp h
  exact ⟨before, begun, seeded, after, beginEffects, seedEffects, trace, hactivate, hseed, hrun,
    (Option.some.inj h).symm⟩

/-- A window before the silence of the base, and one behind it. -/
theorem speedOk_of_seed_silence :
    ∃ seeded after trace, measureWatch.run ⟨seeded, []⟩ gapEvents = some (after, trace) ∧
      trace.map (fun cycle ↦ (cycle.window?, cycle.zeroed)) =
        [(some (⟨0.1, 1000, 1000⟩, ⟨0.15, 1100, 1100⟩), false), (none, true), (none, false),
          (some (⟨0.8, 5000, 5000⟩, ⟨0.85, 5100, 5100⟩), false)] ∧
      ∀ earlier cycle later, trace = earlier ++ cycle :: later → SpeedOk seeded earlier cycle := by
  have hlog : measureLog [.configure] (activateAt 0) (readAt 10000000 (stampedBytes 100 1000))
      gapEvents = some ⟨.active, false, true, true,
        [(some (⟨0.1, 1000, 1000⟩, ⟨0.15, 1100, 1100⟩), false), (none, true), (none, false),
          (some (⟨0.8, 5000, 5000⟩, ⟨0.85, 5100, 5100⟩), false)]⟩ := by
    decide +kernel
  obtain ⟨before, begun, seeded, after, beginEffects, seedEffects, trace, hactivate, hseed, hrun,
    hresult⟩ := exists_of_measureLog hlog
  obtain ⟨hactive, hbefore, hseeded, hcounts, htrace⟩ := MeasureLog.mk.inj hresult
  have hcycles : ∀ event ∈ gapEvents, event.isCycle = true := by simp [gapEvents, Event.isCycle]
  exact ⟨seeded, after, trace, hrun, htrace.symm,
    speedOk_of_seed hactivate hactive.symm (fun _ hmem ↦ absurd hmem List.not_mem_nil) rfl
      hbefore.symm hseed hseeded.symm (of_decide_eq_true hcounts.symm) hcycles hrun⟩

end MyDiffbot.System
