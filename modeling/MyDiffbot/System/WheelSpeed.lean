import MyDiffbot.Incremental.Window
import MyDiffbot.System.Conservation

/-!
# The measured wheel speed

`ReadWheels` differentiates the ticks over windows of frame time and smooths the slopes. Without a
new frame for more than half a second it reports standstill and drops the open window, and the first
frame behind the gap opens the next one. The speed after a gap is therefore made of frames that were
seen after it, and of no tick that was counted during it (`gapsOk_of_seed`).
-/

namespace MyDiffbot.System

open Protocol Numeric Transport Incremental

/-! ## Frames -/

/-- What the speed is measured from: a stamp in seconds, and the left and the right ticks. -/
structure WheelFrame where
  stamp : ℚ
  ticks : ℤ × ℤ
  deriving DecidableEq

/-- A full-length WHEEL_FEEDBACK frame. -/
def wheelFrame? (message : Message) : Option WheelFrame :=
  if message.msgId = MsgId.wheelFeedback ∧ WheelFeedbackPayload.size ≤ message.payload.length then
    let p := WheelFeedbackPayload.ofBytes message.payload
    some ⟨p.timestampSec + p.timestampNsec * 1e-9, p.leftEncoderTicks, p.rightEncoderTicks⟩
  else none

/-- The full-length WHEEL_FEEDBACK frames that were parsed. -/
def wheelFrames (effects : List Effect) : List WheelFrame :=
  (parsedMessages effects).filterMap wheelFrame?

/-- The frame that the driver has decoded last. -/
def latestFrame (f : Feedback) : WheelFrame := ⟨f.wheelFeedbackStampSec, f.ticks⟩

theorem onMessageReceived_latestFrame (f : Feedback) (message : Message) :
    latestFrame (f.onMessageReceived message) =
      (wheelFrame? message).getD (latestFrame f) := by
  unfold Feedback.onMessageReceived wheelFrame?
  by_cases hwheel : message.msgId = MsgId.wheelFeedback
  · by_cases hshort : message.payload.length < WheelFeedbackPayload.size
    · simp [hwheel, hshort, not_le.mpr hshort]
    · simp only [hwheel, hshort, not_lt.mp hshort, if_true, if_false, and_self]
      rfl
  · simp only [hwheel, if_false, false_and, Option.getD_none]
    split_ifs <;> rfl

theorem map_ticks_wheelFrames (effects : List Effect) :
    (wheelFrames effects).map WheelFrame.ticks = wheelTicks effects := by
  unfold wheelFrames wheelTicks
  rw [List.map_filterMap]
  congr 1
  funext message
  unfold wheelFrame? wheelTicks?
  split <;> rfl

theorem Continues.latestFrame {c next : Component} {effects : List Effect}
    (h : Continues c effects next) :
    latestFrame next.hardware.kestrel.feedback =
        (wheelFrames effects).getLastD (latestFrame c.hardware.kestrel.feedback) ∧
      next.hardware.kestrel.feedback.wheelFeedbackCount =
        c.hardware.kestrel.feedback.wheelFeedbackCount + (wheelFrames effects).length := by
  refine ⟨?_, ?_⟩
  · rw [h.feedback]
    exact foldl_eq_getLastD System.latestFrame onMessageReceived_latestFrame _ _
  · rw [h.ticks.2, ← map_ticks_wheelFrames, List.length_map]

/-! ## The measurement -/

/-- The windows of `ReadWheels`. -/
def wheelLimits : Limits WheelFrame where
  stamp := WheelFrame.stamp
  shortest := kMeasWindowSec
  longest := 1
  timeout := kWheelFeedbackTimeoutSec

/-- The angular speed over a window, for the left or the right ticks. -/
def slope (cpr : ℚ) (side : ℤ × ℤ → ℤ) (window : WheelFrame × WheelFrame) : ℚ :=
  (side window.2.ticks - side window.1.ticks) *
    (2 * mPi / (cpr * (window.2.stamp - window.1.stamp)))

/-- The speed that is measured over some windows. -/
def speed (cpr : ℚ) (side : ℤ × ℤ → ℤ) (windows : List (WheelFrame × WheelFrame)) : ℚ :=
  smooth kMeasEmaAlpha (windows.map (slope cpr side))

theorem speed_append_singleton (cpr : ℚ) (side : ℤ × ℤ → ℤ)
    (windows : List (WheelFrame × WheelFrame)) (window : WheelFrame × WheelFrame) :
    speed cpr side (windows ++ [window]) = speed cpr side windows +
      kMeasEmaAlpha * (slope cpr side window - speed cpr side windows) := by
  unfold speed
  rw [List.map_append]
  exact smooth_append_singleton _ _ _

/-- The members of the component that the measurement reads and writes. -/
structure Speedometer where
  change : Time
  stale : Bool
  prev : WheelFrame
  left : ℚ
  right : ℚ

namespace Speedometer

/-- The staleness test, given whether the frame counter has changed. -/
def check (now : Time) (counted : Bool) (frame : WheelFrame) (s : Speedometer) : Speedometer :=
  if counted then
    if s.stale then { s with change := now, stale := false, prev := frame }
    else { s with change := now }
  else if kWheelFeedbackTimeoutSec < seconds (now - s.change) then
    { s with stale := true, left := 0, right := 0 }
  else s

def measure (cpr : ℚ) (frame : WheelFrame) (s : Speedometer) : Speedometer :=
  if frame.stamp - s.prev.stamp < 0 ∨ 1 < frame.stamp - s.prev.stamp then { s with prev := frame }
  else if kMeasWindowSec ≤ frame.stamp - s.prev.stamp then
    { s with
      prev := frame
      left := s.left + kMeasEmaAlpha * (slope cpr Prod.fst (s.prev, frame) - s.left)
      right := s.right + kMeasEmaAlpha * (slope cpr Prod.snd (s.prev, frame) - s.right) }
  else s

/-- The frame is not far enough behind the beginning of the open window to close it. -/
def Open (frame : WheelFrame) (s : Speedometer) : Prop :=
  0 ≤ frame.stamp - s.prev.stamp ∧ frame.stamp - s.prev.stamp < kMeasWindowSec

theorem open_self {frame : WheelFrame} {s : Speedometer} (h : s.prev = frame) : s.Open frame := by
  rw [Open, h, sub_self]
  exact ⟨le_rfl, by norm_num [kMeasWindowSec]⟩

/-- Where the latest frame has been measured already, it is not measured again. -/
theorem measure_of_open {cpr : ℚ} {frame : WheelFrame} {s : Speedometer} (h : s.Open frame) :
    s.measure cpr frame = s := by
  have hwindow : kMeasWindowSec = 0.04 := rfl
  obtain ⟨hafter, hbefore⟩ := h
  unfold measure
  rw [if_neg (not_or.mpr ⟨not_lt.mpr hafter, ?_⟩), if_neg (not_le.mpr hbefore)]
  rw [hwindow] at hbefore
  linarith

theorem measure_of_closes {cpr : ℚ} {frame : WheelFrame} {s : Speedometer}
    (h : wheelLimits.Closes s.prev frame) :
    s.measure cpr frame =
      { s with
        prev := frame
        left := s.left + kMeasEmaAlpha * (slope cpr Prod.fst (s.prev, frame) - s.left)
        right := s.right + kMeasEmaAlpha * (slope cpr Prod.snd (s.prev, frame) - s.right) } :=
  (if_neg (h.not_restarts (by norm_num [wheelLimits, kMeasWindowSec]))).trans (if_pos h.1)

theorem measure_of_restarts {cpr : ℚ} {frame : WheelFrame} {s : Speedometer}
    (h : wheelLimits.Restarts s.prev frame) : s.measure cpr frame = { s with prev := frame } :=
  if_pos h

/-- What the members are after some looks: the smoothed slopes of the windows behind the latest gap,
and the anchor of the open one, in which the latest frame lies. -/
structure Measured (cpr : ℚ) (latest : WheelFrame) (state : Option ℚ × Progress WheelFrame)
    (s : Speedometer) : Prop where
  sighting : ∀ last ∈ state.1, seconds s.change = last
  stale : s.stale = state.2.anchor.isNone
  started : state.1 = none → s.stale = false
  anchor : ∀ anchor ∈ state.2.anchor, anchor = s.prev
  window : s.Open latest
  left : s.left = speed cpr Prod.fst state.2.windows
  right : s.right = speed cpr Prod.snd state.2.windows

variable {cpr : ℚ} {latest : WheelFrame} {state : Option ℚ × Progress WheelFrame} {s : Speedometer}

/-- The first frame seen behind a gap opens a window. -/
theorem Measured.opens (h : Measured cpr latest state s) (hanchor : state.2.anchor = none)
    (now : Time) (frame : WheelFrame) :
    Measured cpr frame (wheelLimits.look state ⟨seconds now, some frame⟩)
      ((s.check now true frame).measure cpr frame) := by
  obtain ⟨sighting, anchor, windows⟩ := state
  obtain rfl : anchor = none := hanchor
  have hstale : s.stale = true := h.stale
  have hcheck : s.check now true frame =
      { s with change := now, stale := false, prev := frame } := by
    simp only [check, hstale, if_true]
  have hopen : (s.check now true frame).Open frame := open_self (by rw [hcheck])
  rw [measure_of_open hopen]
  rw [hcheck] at hopen ⊢
  exact ⟨fun _ hmem ↦ Option.some.inj hmem, rfl, fun hnone ↦ (by cases hnone),
    fun _ hmem ↦ (Option.some.inj hmem).symm, hopen, h.left, h.right⟩

/-- A frame seen while a window is open may close or restart it. -/
theorem Measured.advances (h : Measured cpr latest state s) {anchor : WheelFrame}
    (hanchor : state.2.anchor = some anchor) (now : Time) (frame : WheelFrame) :
    Measured cpr frame (wheelLimits.look state ⟨seconds now, some frame⟩)
      ((s.check now true frame).measure cpr frame) := by
  obtain ⟨sighting, current, windows⟩ := state
  obtain rfl : current = some anchor := hanchor
  obtain rfl : anchor = s.prev := h.anchor anchor rfl
  have hstale : s.stale = false := h.stale
  have hcheck : s.check now true frame = { s with change := now } := by
    simp only [check, hstale, if_true, if_false, Bool.false_eq_true]
  rw [hcheck]
  change Measured cpr frame
    (some (seconds now), wheelLimits.advance ⟨some s.prev, windows⟩ frame) _
  by_cases hcloses : wheelLimits.Closes s.prev frame
  · rw [Limits.advance_of_closes hcloses,
      measure_of_closes (s := { s with change := now }) hcloses]
    refine ⟨fun _ hmem ↦ Option.some.inj hmem, hstale, fun hnone ↦ (by cases hnone),
      fun _ hmem ↦ (Option.some.inj hmem).symm, open_self rfl, ?_, ?_⟩
    · rw [speed_append_singleton, ← h.left]
    · rw [speed_append_singleton, ← h.right]
  by_cases hrestarts : wheelLimits.Restarts s.prev frame
  · rw [Limits.advance_of_restarts hcloses hrestarts,
      measure_of_restarts (s := { s with change := now }) hrestarts]
    exact ⟨fun _ hmem ↦ Option.some.inj hmem, hstale, fun hnone ↦ (by cases hnone),
      fun _ hmem ↦ (Option.some.inj hmem).symm, open_self rfl, h.left, h.right⟩
  · obtain ⟨hafter, hbefore⟩ := not_or.mp hrestarts
    have hopen : Open frame { s with change := now } :=
      ⟨not_lt.mp hafter, not_le.mp fun hlong ↦ hcloses ⟨hlong, not_lt.mp hbefore⟩⟩
    rw [Limits.advance_of_between hcloses hrestarts, measure_of_open hopen]
    exact ⟨fun _ hmem ↦ Option.some.inj hmem, hstale, fun hnone ↦ (by cases hnone),
      fun _ hmem ↦ (Option.some.inj hmem).symm, hopen, h.left, h.right⟩

/-- A look without a new frame: it measures nothing, and drops what is measured if it comes late. -/
theorem Measured.idles (h : Measured cpr latest state s) (now : Time) :
    Measured cpr latest (wheelLimits.look state ⟨seconds now, none⟩)
      ((s.check now state.1.isNone latest).measure cpr latest) := by
  obtain ⟨sighting, progress⟩ := state
  cases sighting with
  | none =>
    have hstale := h.started rfl
    have hcheck : s.check now true latest = { s with change := now } := by
      simp only [check, hstale, if_true, if_false, Bool.false_eq_true]
    have hopen : Open latest { s with change := now } := h.window
    change Measured _ _ _ (measure _ _ (check now true latest s))
    rw [hcheck, measure_of_open hopen]
    exact ⟨fun _ hmem ↦ Option.some.inj hmem, h.stale, fun _ ↦ hstale, h.anchor, hopen, h.left,
      h.right⟩
  | some last =>
    have hage : seconds (now - s.change) = seconds now - last := by
      rw [seconds_sub, h.sighting last rfl]
    by_cases htimeout : kWheelFeedbackTimeoutSec < seconds now - last
    · have hlook : wheelLimits.look (some last, progress) ⟨seconds now, none⟩ =
          (some last, ⟨none, []⟩) := congrArg (some last, ·) (if_pos htimeout)
      have hcheck : s.check now false latest = { s with stale := true, left := 0, right := 0 } := by
        rw [← hage] at htimeout
        simp only [check, htimeout, if_true, if_false, Bool.false_eq_true]
      have hopen : Open latest { s with stale := true, left := 0, right := 0 } := h.window
      rw [hlook]
      change Measured _ _ _ (measure _ _ (check now false latest s))
      rw [hcheck, measure_of_open hopen]
      exact ⟨h.sighting, rfl, fun hnone ↦ (by cases hnone), fun _ hmem ↦ (by cases hmem), hopen,
        rfl, rfl⟩
    · have hlook : wheelLimits.look (some last, progress) ⟨seconds now, none⟩ =
          (some last, progress) := congrArg (some last, ·) (if_neg htimeout)
      have hcheck : s.check now false latest = s := by
        rw [← hage] at htimeout
        simp only [check, htimeout, if_false, Bool.false_eq_true]
      rw [hlook]
      change Measured _ _ _ (measure _ _ (check now false latest s))
      rw [hcheck, measure_of_open h.window]
      exact h

theorem Measured.step (h : Measured cpr latest state s) (now : Time) (frame? : Option WheelFrame) :
    Measured cpr (frame?.getD latest) (wheelLimits.look state ⟨seconds now, frame?⟩)
      ((s.check now (frame?.isSome || state.1.isNone) (frame?.getD latest)).measure cpr
        (frame?.getD latest)) := by
  cases frame? with
  | none => exact h.idles now
  | some frame =>
    cases hanchor : state.2.anchor with
    | none => exact h.opens hanchor now frame
    | some anchor => exact h.advances hanchor now frame

end Speedometer

namespace MyDiffbotSystemHardware

variable (h : MyDiffbotSystemHardware)

def speedometer : Speedometer where
  change := h.lastWheelCountChange
  stale := h.wheelFeedbackStale
  prev := ⟨h.measStampPrev, h.measLeftPrev, h.measRightPrev⟩
  left := h.leftMeasRad
  right := h.rightMeasRad

theorem checkWheelFeedback_speedometer (now : Time) (f : Feedback) :
    (h.checkWheelFeedback now f).speedometer =
        h.speedometer.check now (decide (f.wheelFeedbackCount ≠ h.lastWheelCount)) (latestFrame f) ∧
      (h.checkWheelFeedback now f).cpr = h.cpr ∧
      (h.checkWheelFeedback now f).lastWheelCount = f.wheelFeedbackCount := by
  unfold checkWheelFeedback Speedometer.check
  by_cases hcount : f.wheelFeedbackCount = h.lastWheelCount
  · simp only [hcount, ne_eq, not_true, decide_false, if_false, Bool.false_eq_true]
    change _ = (if kWheelFeedbackTimeoutSec < seconds (now - h.lastWheelCountChange) then _ else _) ∧
      _
    split_ifs <;> exact ⟨rfl, rfl, rfl⟩
  · simp only [hcount, ne_eq, not_false_iff, decide_true, if_true]
    change _ = (if h.wheelFeedbackStale = true then _ else _) ∧ _
    split_ifs <;> exact ⟨rfl, rfl, rfl⟩

theorem measureSpeed_speedometer (f : Feedback) :
    (h.measureSpeed f).speedometer = h.speedometer.measure h.cpr (latestFrame f) ∧
      (h.measureSpeed f).lastWheelCount = h.lastWheelCount := by
  unfold measureSpeed Speedometer.measure
  change _ = (if f.wheelFeedbackStampSec - h.measStampPrev < 0 ∨
    1 < f.wheelFeedbackStampSec - h.measStampPrev then _
    else if kMeasWindowSec ≤ f.wheelFeedbackStampSec - h.measStampPrev then _ else _) ∧ _
  dsimp only
  split_ifs <;> exact ⟨rfl, rfl⟩

/-! ## The velocity states -/

/-- The velocity state of the joint that has a position state. -/
def velocityOf (name : InterfaceDescription) : InterfaceDescription :=
  ⟨name.prefixName, hwIfVelocity⟩

/-- The measured speed that a joint shows; a joint that is not a left one is a right one. -/
def measured (name : InterfaceDescription) : ℚ :=
  if contains name.prefixName "left" then h.leftMeasRad else h.rightMeasRad

/-- The turn of the loop for a joint is the one that writes its velocity. -/
theorem moveJoint_velocity {leftDelta rightDelta : ℤ} {leftVelocity rightVelocity cpr : ℚ}
    {name : InterfaceDescription} (hposition : name.interfaceName = hwIfPosition)
    (jointState : Store ℚ) (joint : InterfaceDescription) :
    moveJoint leftDelta rightDelta leftVelocity rightVelocity cpr jointState joint
        (velocityOf name) =
      if joint = name then
        (some (if contains name.prefixName "left" then leftVelocity else rightVelocity)).getD
          (jointState (velocityOf name))
      else jointState (velocityOf name) := by
  have hvelocity : velocityOf name ≠ joint ∨ joint.interfaceName ≠ hwIfPosition := by
    by_contra hboth
    obtain ⟨hname, hjoint⟩ := not_or.mp hboth
    rw [← not_not.mp hname] at hjoint
    exact hjoint (by decide : hwIfVelocity ≠ hwIfPosition)
  unfold moveJoint
  by_cases hjoint : joint.interfaceName = hwIfPosition
  · have hother := hvelocity.resolve_right (not_not.mpr hjoint)
    rw [if_neg (not_not.mpr hjoint)]
    by_cases hname : joint = name
    · rw [if_pos hname, hname]
      exact Function.update_self _ _ _
    · have hprefix : velocityOf name ≠ ⟨joint.prefixName, hwIfVelocity⟩ := by
        intro hsame
        obtain ⟨hprefixName, _⟩ := InterfaceDescription.mk.inj hsame
        refine hname ?_
        obtain ⟨prefixName, interfaceName⟩ := joint
        obtain rfl : interfaceName = hwIfPosition := hjoint
        obtain rfl : name.prefixName = prefixName := hprefixName
        rw [← hposition]
      rw [if_neg hname, Function.update_of_ne hprefix, Function.update_of_ne hother]
  · rw [if_pos hjoint, if_neg]
    rintro rfl
    exact hjoint hposition

/-- `ReadWheels` after the seed: the staleness test, the measurement, and what the joints show. -/
theorem readWheels_speedometer (input : ReadInput)
    (hcount : h.kestrel.feedback.wheelFeedbackCount ≠ 0) (hinit : h.ticksInit = true) :
    (h.readWheels input).speedometer =
        (h.speedometer.check input.wheel
          (decide (h.kestrel.feedback.wheelFeedbackCount ≠ h.lastWheelCount))
          (latestFrame h.kestrel.feedback)).measure h.cpr (latestFrame h.kestrel.feedback) ∧
      (h.readWheels input).lastWheelCount = h.kestrel.feedback.wheelFeedbackCount ∧
      ∀ name ∈ h.interfaces.jointStates, name.interfaceName = hwIfPosition →
        (h.readWheels input).jointState (velocityOf name) = (h.readWheels input).measured name := by
  refine ⟨?_, ?_, fun name hname hposition ↦ ?_⟩
  · obtain ⟨hcheck, hcpr, _⟩ := h.checkWheelFeedback_speedometer input.wheel h.kestrel.feedback
    rw [h.readWheels_of_seeded input hcount hinit, ← hcheck, ← hcpr]
    exact (measureSpeed_speedometer _ _).1
  · obtain ⟨_, _, hlast⟩ := h.checkWheelFeedback_speedometer input.wheel h.kestrel.feedback
    rw [h.readWheels_of_seeded input hcount hinit]
    exact (measureSpeed_speedometer _ _).2.trans hlast
  · obtain ⟨_, _, _, _, _, _, leftRad, rightRad, hmove⟩ := h.readWheels_eq input hcount hinit
    rw [hmove]
    refine (foldl_overlay (fun jointState : Store ℚ ↦ jointState (velocityOf name))
      (moveJoint_velocity hposition) _ _).trans ?_
    exact if_pos hname

/-- A `read` on an open port after the seed checks, measures and shows the speed. -/
theorem read_speedometer (input : ReadInput) (hopen : h.kestrel.isOpen = true)
    (hinit : h.ticksInit = true)
    (hcount : (h.read input).2.1.kestrel.feedback.wheelFeedbackCount ≠ 0) :
    (h.read input).2.1.speedometer =
        (h.speedometer.check input.wheel
          (decide ((h.read input).2.1.kestrel.feedback.wheelFeedbackCount ≠ h.lastWheelCount))
          (latestFrame (h.read input).2.1.kestrel.feedback)).measure h.cpr
            (latestFrame (h.read input).2.1.kestrel.feedback) ∧
      (h.read input).2.1.lastWheelCount =
        (h.read input).2.1.kestrel.feedback.wheelFeedbackCount ∧
      ∀ name ∈ h.interfaces.jointStates, name.interfaceName = hwIfPosition →
        (h.read input).2.1.jointState (velocityOf name) = (h.read input).2.1.measured name := by
  obtain ⟨gpioState, lastDiagPub, count, change, _, hstate, _⟩ := h.read_eq input hopen
  have hkestrel := h.read_kestrel input hopen
  rw [hkestrel] at hcount ⊢
  rw [hstate]
  refine readWheels_speedometer _ input ?_ ?_
  · exact hcount
  · exact hinit

/-- Before the seed of a session nothing is measured. -/
def Unmeasured : Prop :=
  h.ticksInit = false → h.lastWheelCount = 0 ∧ h.wheelFeedbackStale = false ∧
    h.leftMeasRad = 0 ∧ h.rightMeasRad = 0

theorem onActivate_unmeasured (input : ActivateInput)
    (hsuccess : (h.onActivate input).1 = .success) : (h.onActivate input).2.1.Unmeasured := by
  obtain ⟨_, _, _, _, _, _, hresult⟩ := h.onActivate_of_success input hsuccess
  rw [hresult]
  exact fun _ ↦ ⟨rfl, rfl, rfl, rfl⟩

/-- The cycle that takes the seed opens the first window. -/
theorem read_seeds (input : ReadInput) (hbefore : h.ticksInit = false)
    (hseeded : (h.read input).2.1.ticksInit = true) :
    (h.read input).2.1.speedometer =
        { h.speedometer with prev := latestFrame (h.read input).2.1.kestrel.feedback } ∧
      (h.read input).2.1.lastWheelCount = h.lastWheelCount ∧
      (h.read input).2.1.encoderPrev = (h.read input).2.1.kestrel.feedback.ticks := by
  cases hopen : h.kestrel.isOpen with
  | false =>
    rw [h.read_of_closed input hopen] at hseeded
    rw [hbefore] at hseeded
    cases hseeded
  | true =>
    have hkestrel := h.read_kestrel input hopen
    obtain ⟨gpioState, lastDiagPub, count, change, _, hstate, _⟩ := h.read_eq input hopen
    have hcount : (h.kestrel.read input.poll).1.feedback.wheelFeedbackCount ≠ 0 := by
      intro hzero
      rw [hstate] at hseeded
      simp only [readWheels, hzero, if_true, hbefore] at hseeded
      cases hseeded
    rw [hkestrel, hstate]
    simp only [readWheels, hcount, hbefore, if_false, Bool.not_false, if_true]
    exact ⟨rfl, rfl, rfl⟩

theorem readWheels_unmeasured (input : ReadInput) (hunmeasured : h.Unmeasured) :
    (h.readWheels input).Unmeasured := by
  intro hinit
  by_cases hcount : h.kestrel.feedback.wheelFeedbackCount = 0
  · rw [h.readWheels_of_uncounted input hcount] at hinit ⊢
    exact hunmeasured hinit
  cases hbefore : h.ticksInit with
  | false =>
    rw [h.readWheels_of_unseeded input hcount hbefore] at hinit
    cases hinit
  | true =>
    rw [(h.readWheels_moves input hcount hbefore).1] at hinit
    cases hinit

theorem read_unmeasured (input : ReadInput) (hunmeasured : h.Unmeasured) :
    (h.read input).2.1.Unmeasured := by
  cases hopen : h.kestrel.isOpen with
  | false =>
    rw [h.read_of_closed input hopen]
    exact hunmeasured
  | true =>
    obtain ⟨_, _, _, _, _, hstate, _⟩ := h.read_eq input hopen
    rw [hstate]
    exact readWheels_unmeasured _ input hunmeasured

end MyDiffbotSystemHardware

/-! ## What is observed -/

/-- A `read` after the seed: the latest frame parsed since the previous one, if there is any, and
the joint states. -/
structure WheelCycle where
  look : Look WheelFrame
  joints : Store ℚ

/-- A component, with the frames parsed since its latest `read`. -/
structure Odometer where
  component : Component
  unseen : List WheelFrame

/-- What a `read` lets see of the component. -/
def Odometer.cycle (o : Odometer) (input : MyDiffbotSystemHardware.ReadInput) : WheelCycle where
  look := ⟨seconds input.wheel,
    (o.unseen ++ wheelFrames (o.component.hardware.read input).2.2).getLast?⟩
  joints := (o.component.hardware.read input).2.1.jointState

/-- The component, of which only the wheel cycles are seen. -/
def wheelWatch : Machine Odometer Event WheelCycle where
  step o event := (component.step o.component event).map fun result ↦
    let frames := o.unseen ++ wheelFrames result.2
    match event with
    | .read input => (⟨result.1, []⟩,
        [⟨⟨seconds input.wheel, frames.getLast?⟩, result.1.hardware.jointState⟩])
    | _ => (⟨result.1, frames⟩, [])

/-- The frames that some cycles saw. -/
def framesSeen (trace : List WheelCycle) : List WheelFrame :=
  (trace.map WheelCycle.look).filterMap Look.frame?

/-- The latest frame that was seen behind the seed, or its own. -/
def lastSeen (seeded : Component) (trace : List WheelCycle) : WheelFrame :=
  (framesSeen trace).getLastD (latestFrame seeded.hardware.kestrel.feedback)

/-- The joint states after some cycles. -/
def shown (seeded : Component) (trace : List WheelCycle) : Store ℚ :=
  (trace.map WheelCycle.joints).getLastD seeded.hardware.jointState

/-- The progress of the speed measurement after some cycles; the seed opens the first window. -/
def progress (seeded : Component) (trace : List WheelCycle) : Option ℚ × Progress WheelFrame :=
  wheelLimits.watch ⟨some (latestFrame seeded.hardware.kestrel.feedback), []⟩
    (trace.map WheelCycle.look)

/-- A cycle is stale. -/
def Stale (front : List WheelCycle) (cycle : WheelCycle) : Prop :=
  wheelLimits.Stale (front.map WheelCycle.look) cycle.look

section run

variable {seeded : Component} {trace : List WheelCycle} {cycle : WheelCycle}

theorem lastSeen_append_singleton :
    lastSeen seeded (trace ++ [cycle]) = cycle.look.frame?.getD (lastSeen seeded trace) := by
  unfold lastSeen framesSeen
  rw [List.map_append, List.filterMap_append, List.map_singleton]
  cases hframe : cycle.look.frame? <;> simp [hframe, List.getLastD_eq_getLast?]

theorem shown_append_singleton : shown seeded (trace ++ [cycle]) = cycle.joints := by
  unfold shown
  rw [List.map_append]
  exact List.getLastD_concat

theorem progress_append_singleton :
    progress seeded (trace ++ [cycle]) = wheelLimits.look (progress seeded trace) cycle.look := by
  unfold progress
  rw [List.map_append]
  exact Limits.watch_append_singleton _ _

/-- What a cycle shows: the measured speed, and the same positions if no frame is new. -/
structure Shows (seeded : Component) (front : List WheelCycle) (cycle : WheelCycle) : Prop where
  velocity : ∀ name ∈ seeded.hardware.interfaces.jointStates, name.interfaceName = hwIfPosition →
    cycle.joints (MyDiffbotSystemHardware.velocityOf name) =
      speed seeded.hardware.cpr (ticksOf name) (progress seeded (front ++ [cycle])).2.windows
  position : cycle.look.frame? = none → ∀ name ∈ seeded.hardware.interfaces.jointStates,
    name.interfaceName = hwIfPosition → cycle.joints name = shown seeded front name

/-- The invariant after the seed. -/
structure Metered (seeded : Component) (trace : List WheelCycle) (o : Odometer) : Prop where
  interfaces : o.component.hardware.interfaces = seeded.hardware.interfaces
  cpr : o.component.hardware.cpr = seeded.hardware.cpr
  isOpen : o.component.hardware.kestrel.isOpen = true
  ticksInit : o.component.hardware.ticksInit = true
  counted : o.component.hardware.kestrel.feedback.wheelFeedbackCount ≠ 0
  latest : latestFrame o.component.hardware.kestrel.feedback =
    o.unseen.getLastD (lastSeen seeded trace)
  unlooked : (progress seeded trace).1 = none → o.component.hardware.lastWheelCount = 0
  looked : (progress seeded trace).1 ≠ none →
    o.component.hardware.kestrel.feedback.wheelFeedbackCount =
      o.component.hardware.lastWheelCount + o.unseen.length
  encoderPrev : o.component.hardware.encoderPrev = (lastSeen seeded trace).ticks
  measured : Speedometer.Measured seeded.hardware.cpr (lastSeen seeded trace)
    (progress seeded trace) o.component.hardware.speedometer
  jointState : o.component.hardware.jointState = shown seeded trace
  shows : ∀ front cycle back, trace = front ++ cycle :: back → Shows seeded front cycle

variable {o : Odometer} {next : Component} {effects : List Effect}

theorem measured_eq {c : Component} {state : Option ℚ × Progress WheelFrame} {latest : WheelFrame}
    (h : Speedometer.Measured seeded.hardware.cpr latest state c.hardware.speedometer)
    (name : InterfaceDescription) :
    c.hardware.measured name = speed seeded.hardware.cpr (ticksOf name) state.2.windows := by
  have hleft : c.hardware.leftMeasRad = _ := h.left
  have hright : c.hardware.rightMeasRad = _ := h.right
  unfold MyDiffbotSystemHardware.measured ticksOf
  rw [hleft, hright]
  cases contains name.prefixName "left" <;> rfl

/-- The frames that were parsed behind the latest `read` decide the latest frame and the count. -/
theorem Metered.continues (h : Metered seeded trace o)
    (hcontinues : Continues o.component effects next) :
    latestFrame next.hardware.kestrel.feedback =
        (o.unseen ++ wheelFrames effects).getLastD (lastSeen seeded trace) ∧
      next.hardware.kestrel.feedback.wheelFeedbackCount ≠ 0 ∧
      ((progress seeded trace).1 ≠ none → next.hardware.kestrel.feedback.wheelFeedbackCount =
        o.component.hardware.lastWheelCount + (o.unseen ++ wheelFrames effects).length) := by
  obtain ⟨hlatest, hcount⟩ := hcontinues.latestFrame
  refine ⟨?_, ?_, fun hlooked ↦ ?_⟩
  · rw [hlatest, h.latest]
    simp only [List.getLastD_eq_getLast?, List.getLast?_append]
    cases (wheelFrames effects).getLast? <;> rfl
  · have hcounted := h.counted
    omega
  · rw [hcount, h.looked hlooked, List.length_append, Nat.add_assoc]

/-- A step that leaves the measurement alone. -/
theorem Metered.congr (h : Metered seeded trace o)
    (hcontinues : Continues o.component effects next)
    (hopen : next.hardware.kestrel.isOpen = o.component.hardware.kestrel.isOpen)
    (hinit : next.hardware.ticksInit = o.component.hardware.ticksInit)
    (hcount : next.hardware.lastWheelCount = o.component.hardware.lastWheelCount)
    (hprev : next.hardware.encoderPrev = o.component.hardware.encoderPrev)
    (hspeed : next.hardware.speedometer = o.component.hardware.speedometer)
    (hjoints : next.hardware.jointState = o.component.hardware.jointState) :
    Metered seeded trace ⟨next, o.unseen ++ wheelFrames effects⟩ := by
  obtain ⟨hlatest, hcounted, hlooked⟩ := h.continues hcontinues
  exact {
    interfaces := hcontinues.interfaces.trans h.interfaces
    cpr := hcontinues.cpr.trans h.cpr
    isOpen := hopen.trans h.isOpen
    ticksInit := hinit.trans h.ticksInit
    counted := hcounted
    latest := hlatest
    unlooked := fun hnone ↦ hcount.trans (h.unlooked hnone)
    looked := fun hsome ↦ (hlooked hsome).trans (congrArg (· + _) hcount.symm)
    encoderPrev := hprev.trans h.encoderPrev
    measured := hspeed ▸ h.measured
    jointState := hjoints.trans h.jointState
    shows := h.shows }

/-- The counter has changed exactly if a frame was parsed, or at the first look. -/
theorem Metered.isNew (h : Metered seeded trace o)
    (hcontinues : Continues o.component effects next) :
    decide (next.hardware.kestrel.feedback.wheelFeedbackCount ≠
        o.component.hardware.lastWheelCount) =
      ((o.unseen ++ wheelFrames effects).getLast?.isSome || (progress seeded trace).1.isNone) := by
  obtain ⟨_, hcounted, hlooked⟩ := h.continues hcontinues
  cases hsighting : (progress seeded trace).1 with
  | none =>
    rw [h.unlooked hsighting]
    simpa using hcounted
  | some last =>
    rw [hlooked (by simp [hsighting])]
    cases o.unseen ++ wheelFrames effects <;> simp

section read

variable {input : MyDiffbotSystemHardware.ReadInput}

theorem Metered.lastSeen_read (h : Metered seeded trace o)
    (hcontinues : Continues o.component (o.component.hardware.read input).2.2
      { o.component with hardware := (o.component.hardware.read input).2.1 }) :
    lastSeen seeded (trace ++ [o.cycle input]) =
      latestFrame (o.component.hardware.read input).2.1.kestrel.feedback := by
  rw [lastSeen_append_singleton, (h.continues hcontinues).1, List.getLastD_eq_getLast?]
  rfl

theorem Metered.measured_read (h : Metered seeded trace o)
    (hcontinues : Continues o.component (o.component.hardware.read input).2.2
      { o.component with hardware := (o.component.hardware.read input).2.1 }) :
    Speedometer.Measured seeded.hardware.cpr
      (latestFrame (o.component.hardware.read input).2.1.kestrel.feedback)
      (progress seeded (trace ++ [o.cycle input]))
      (o.component.hardware.read input).2.1.speedometer := by
  obtain ⟨hlatest, hcounted, _⟩ := h.continues hcontinues
  obtain ⟨hspeed, _⟩ :=
    o.component.hardware.read_speedometer input h.isOpen h.ticksInit hcounted
  dsimp only at hlatest
  rw [progress_append_singleton, hspeed, h.isNew hcontinues, h.cpr, hlatest,
    List.getLastD_eq_getLast?]
  exact h.measured.step input.wheel _

theorem Metered.shows_read (h : Metered seeded trace o)
    (hcontinues : Continues o.component (o.component.hardware.read input).2.2
      { o.component with hardware := (o.component.hardware.read input).2.1 }) :
    Shows seeded trace (o.cycle input) := by
  obtain ⟨hlatest, hcounted, _⟩ := h.continues hcontinues
  obtain ⟨_, _, hshows⟩ :=
    o.component.hardware.read_speedometer input h.isOpen h.ticksInit hcounted
  obtain ⟨_, _, hmoves⟩ := o.component.hardware.read_moves input h.isOpen h.ticksInit h.counted
  refine ⟨fun name hname hposition ↦ ?_, fun hidle name hname hposition ↦ ?_⟩
  · rw [← h.interfaces] at hname
    exact (hshows name hname hposition).trans
      (measured_eq (c := { o.component with hardware := (o.component.hardware.read input).2.1 })
        (h.measured_read hcontinues) name)
  · rw [← h.interfaces] at hname
    rw [List.getLast?_eq_none_iff.mp hidle] at hlatest
    have hticks : (o.component.hardware.read input).2.1.kestrel.feedback.ticks =
        o.component.hardware.encoderPrev :=
      (congrArg WheelFrame.ticks hlatest).trans h.encoderPrev.symm
    calc
      _ = o.component.hardware.jointState name + radians o.component.hardware.cpr
            (ticksOf name (o.component.hardware.read input).2.1.kestrel.feedback.ticks -
              ticksOf name o.component.hardware.encoderPrev) := hmoves name hname hposition
      _ = o.component.hardware.jointState name := by
        rw [hticks, sub_self, radians_zero, add_zero]
      _ = shown seeded trace name := by rw [h.jointState]

/-- A `read` looks at the frames behind the previous one. -/
theorem Metered.read (h : Metered seeded trace o)
    (hcontinues : Continues o.component (o.component.hardware.read input).2.2
      { o.component with hardware := (o.component.hardware.read input).2.1 }) :
    Metered seeded (trace ++ [o.cycle input])
      ⟨{ o.component with hardware := (o.component.hardware.read input).2.1 }, []⟩ := by
  obtain ⟨_, hcounted, _⟩ := h.continues hcontinues
  obtain ⟨hinit, hprev, _⟩ :=
    o.component.hardware.read_moves input h.isOpen h.ticksInit h.counted
  obtain ⟨_, hlast, _⟩ :=
    o.component.hardware.read_speedometer input h.isOpen h.ticksInit hcounted
  have hseen := h.lastSeen_read hcontinues
  exact {
    interfaces := hcontinues.interfaces.trans h.interfaces
    cpr := hcontinues.cpr.trans h.cpr
    isOpen := (o.component.hardware.read_evolves input).1.isOpen.trans h.isOpen
    ticksInit := hinit
    counted := hcounted
    latest := hseen.symm
    unlooked := fun hnone ↦ by
      have hlooks := @Limits.isSome_look_fst _ wheelLimits (progress seeded trace)
        (o.cycle input).look
      rw [progress_append_singleton] at hnone
      rw [hnone] at hlooks
      cases hlooks
    looked := fun _ ↦ hlast.symm
    encoderPrev := hprev.trans (congrArg WheelFrame.ticks hseen.symm)
    measured := by
      rw [hseen]
      exact h.measured_read hcontinues
    jointState := by
      rw [shown_append_singleton]
      rfl
    shows := forall_split_append_singleton h.shows (h.shows_read hcontinues) }

end read

theorem Metered.step {next : Odometer} {event : Event} {cycles : List WheelCycle}
    (h : Metered seeded trace o) (hcycle : event.isCycle = true)
    (hstep : wheelWatch.step o event = some (next, cycles)) :
    Metered seeded (trace ++ cycles) next := by
  obtain ⟨⟨after, effects⟩, hcomponent, hresult⟩ := Option.map_eq_some_iff.mp hstep
  have hcontinues := step_continues hcomponent
  cases event with
  | read input =>
    obtain ⟨rfl, rfl⟩ := Prod.mk.inj hresult
    cases steps_of_step hcomponent
    exact h.read hcontinues
  | setJointCommand name value | setGpioCommand name value =>
    obtain ⟨rfl, rfl⟩ := Prod.mk.inj hresult
    rw [List.append_nil]
    cases steps_of_step hcomponent
    exact h.congr hcontinues rfl rfl rfl rfl rfl rfl
  | write input =>
    obtain ⟨rfl, rfl⟩ := Prod.mk.inj hresult
    rw [List.append_nil]
    cases steps_of_step hcomponent
    obtain ⟨_, _, _, _, _, _, hstate, hevolves⟩ := write_keeps o.component.hardware input
    refine h.congr hcontinues ?_ ?_ ?_ ?_ ?_ ?_ <;> dsimp only <;> rw [hstate]
    · exact hevolves.isOpen
    · rfl
    · rfl
  | configure | cleanup | activate input | deactivate input => cases hcycle

/-- Cycles measure nothing up to the seed. -/
theorem run_unmeasured {begun c : Component} {events : List Event}
    (hbegun : begun.hardware.Unmeasured) (hcycles : ∀ event ∈ events, event.isCycle = true)
    (hrun : component.run begun events = some (c, effects)) : c.hardware.Unmeasured := by
  refine Machine.run_invariant_nil (fun c _ ↦ c.hardware.Unmeasured) ?_ hrun
    (Machine.along_of_forall hcycles) hbegun
  intro c _ event next effects hunmeasured hcycle hstep
  cases steps_of_step hstep with
  | setJointCommand name value => exact hunmeasured
  | setGpioCommand name value => exact hunmeasured
  | read input => exact c.hardware.read_unmeasured input hunmeasured
  | write input =>
    obtain ⟨_, _, _, _, _, _, hstate, _⟩ := write_keeps c.hardware input
    dsimp only
    rw [hstate]
    exact hunmeasured
  | configure | cleanup | activate input | deactivate input => cases hcycle

/-- Nothing is measured from an activation up to the seed. -/
theorem unmeasured_of_activate {before begun c : Component} {front : List Event}
    {input : MyDiffbotSystemHardware.ActivateInput} {beginEffects : List Effect}
    (hactivate : component.step before (.activate input) = some (begun, beginEffects))
    (hactive : begun.lifecycle = .active) (hfront : ∀ event ∈ front, event.isCycle = true)
    (hrun : component.run begun front = some (c, effects)) : c.hardware.Unmeasured := by
  have hsuccess := success_of_active hactivate hactive
  refine run_unmeasured ?_ hfront hrun
  cases steps_of_step hactivate with
  | activate input => exact before.hardware.onActivate_unmeasured input hsuccess

theorem metered_seeded {c : Component} {input : MyDiffbotSystemHardware.ReadInput}
    (hunmeasured : c.hardware.Unmeasured)
    (hstep : component.step c (.read input) = some (seeded, effects))
    (hbefore : c.hardware.ticksInit = false) (hseeded : seeded.hardware.ticksInit = true) :
    Metered seeded [] ⟨seeded, []⟩ := by
  have hconserves := conserves_seeded hstep hbefore hseeded
  cases steps_of_step hstep with
  | read input =>
    obtain ⟨hspeed, hlast, hprev⟩ := c.hardware.read_seeds input hbefore hseeded
    obtain ⟨hcount, hstale, hleft, hright⟩ := hunmeasured hbefore
    refine ⟨rfl, rfl, hconserves.isOpen, hseeded, hconserves.counted, rfl, fun _ ↦ ?_,
      fun hsome ↦ absurd rfl hsome, hprev, ?_, rfl, fun front cycle back hsplit ↦ ?_⟩
    · exact hlast.trans hcount
    · dsimp only
      rw [hspeed]
      refine ⟨fun _ hmem ↦ (by cases hmem), hstale, fun _ ↦ hstale,
        fun _ hmem ↦ (Option.some.inj hmem).symm, Speedometer.open_self rfl, hleft, hright⟩
    · cases front <;> cases hsplit

/-! ## Gaps -/

/-- A stale cycle with no other one behind it. -/
def LatestGap (front : List WheelCycle) (gap : WheelCycle) (later : List WheelCycle) : Prop :=
  Stale front gap ∧ ∀ earlier next rest, later = earlier ++ next :: rest →
    ¬Stale (front ++ gap :: earlier) next

theorem progress_of_stale {front : List WheelCycle} (h : Stale front cycle) :
    (progress seeded (front ++ [cycle])).2 = ⟨none, []⟩ := by
  unfold progress
  rw [List.map_append]
  exact Limits.watch_snd_of_stale h

theorem progress_of_latestGap {front later : List WheelCycle} {gap : WheelCycle}
    (h : LatestGap front gap later) :
    (progress seeded (front ++ gap :: later)).2 = wheelLimits.resumed (framesSeen later) := by
  obtain ⟨hstale, hlater⟩ := h
  unfold progress framesSeen
  rw [List.map_append, List.map_cons]
  refine Limits.watch_of_stale hstale fun mid next rest hsplit ↦ ?_
  obtain ⟨earlier, others, rfl, rfl, hothers⟩ := List.map_eq_append_iff.mp hsplit
  obtain ⟨after, others, rfl, rfl, rfl⟩ := List.map_eq_cons_iff.mp hothers
  have hnext := hlater earlier after others rfl
  rwa [Stale, List.map_append, List.map_cons] at hnext

/-- What is promised of gaps. -/
structure GapsOk (seeded : Component) (trace : List WheelCycle) : Prop where
  /-- A stale cycle reports standstill, and the positions are those of the previous one. -/
  standstill : ∀ front cycle back, trace = front ++ cycle :: back → Stale front cycle →
    ∀ name ∈ seeded.hardware.interfaces.jointStates, name.interfaceName = hwIfPosition →
      cycle.joints (MyDiffbotSystemHardware.velocityOf name) = 0 ∧
        cycle.joints name = shown seeded front name
  /-- Until a frame closes the window behind the first one seen after a gap, or behind a later one
  that restarted it, the velocities stay zero. -/
  until_closed : ∀ front gap later cycle back, trace = front ++ gap :: (later ++ cycle :: back) →
    LatestGap front gap (later ++ [cycle]) →
    (∀ seen frame rest, framesSeen (later ++ [cycle]) = seen ++ frame :: rest →
      ∀ anchor ∈ (wheelLimits.resumed seen).anchor, ¬wheelLimits.Closes anchor frame) →
    ∀ name ∈ seeded.hardware.interfaces.jointStates, name.interfaceName = hwIfPosition →
      cycle.joints (MyDiffbotSystemHardware.velocityOf name) = 0
  /-- No velocity behind a gap is measured from a frame before it. -/
  behind : ∀ front gap later cycle back, trace = front ++ gap :: (later ++ cycle :: back) →
    LatestGap front gap (later ++ [cycle]) →
    ∃ windows : List (WheelFrame × WheelFrame),
      (∀ window ∈ windows, window.1 ∈ framesSeen (later ++ [cycle]) ∧
        window.2 ∈ framesSeen (later ++ [cycle]) ∧ wheelLimits.Closes window.1 window.2) ∧
      ∀ name ∈ seeded.hardware.interfaces.jointStates, name.interfaceName = hwIfPosition →
        cycle.joints (MyDiffbotSystemHardware.velocityOf name) =
          speed seeded.hardware.cpr (ticksOf name) windows

/-- Behind its latest gap a cycle shows the speed of the frames seen since. -/
theorem Metered.velocity_of_latestGap (h : Metered seeded trace o)
    {front later back : List WheelCycle} {gap : WheelCycle}
    (hsplit : trace = front ++ gap :: (later ++ cycle :: back))
    (hgap : LatestGap front gap (later ++ [cycle])) {name : InterfaceDescription}
    (hname : name ∈ seeded.hardware.interfaces.jointStates)
    (hposition : name.interfaceName = hwIfPosition) :
    cycle.joints (MyDiffbotSystemHardware.velocityOf name) = speed seeded.hardware.cpr
      (ticksOf name) (wheelLimits.resumed (framesSeen (later ++ [cycle]))).windows := by
  have hshows := h.shows (front ++ gap :: later) cycle back (by simp [hsplit])
  have hprogress := @progress_of_latestGap seeded _ _ _ hgap
  rw [hshows.velocity name hname hposition, List.append_assoc, List.cons_append, hprogress]

theorem Metered.gapsOk (h : Metered seeded trace o) : GapsOk seeded trace where
  standstill front cycle back hsplit hstale name hname hposition := by
    obtain ⟨hvelocity, hstays⟩ := h.shows front cycle back hsplit
    refine ⟨?_, hstays hstale.1 name hname hposition⟩
    rw [hvelocity name hname hposition, progress_of_stale hstale]
    rfl
  until_closed front gap later cycle back hsplit hgap hopen name hname hposition := by
    rw [h.velocity_of_latestGap hsplit hgap hname hposition, Limits.windows_eq_nil hopen]
    rfl
  behind front gap later cycle back hsplit hgap :=
    ⟨_, Limits.mem_of_mem_windows.2,
      fun _ hname hposition ↦ h.velocity_of_latestGap hsplit hgap hname hposition⟩

/-- Whatever frames arrive behind the seed of an activation, stale cycles report standstill and no
velocity is measured across a gap. -/
theorem gapsOk_of_seed {before begun c : Component} {after : Odometer}
    {input : MyDiffbotSystemHardware.ActivateInput}
    {seedInput : MyDiffbotSystemHardware.ReadInput} {front events : List Event}
    {beginEffects frontEffects seedEffects : List Effect}
    (hactivate : component.step before (.activate input) = some (begun, beginEffects))
    (hactive : begun.lifecycle = .active)
    (hfront : ∀ event ∈ front, event.isCycle = true)
    (hfrontRun : component.run begun front = some (c, frontEffects))
    (hbefore : c.hardware.ticksInit = false)
    (hseed : component.step c (.read seedInput) = some (seeded, seedEffects))
    (hseeded : seeded.hardware.ticksInit = true)
    (hcycles : ∀ event ∈ events, event.isCycle = true)
    (hrun : wheelWatch.run ⟨seeded, []⟩ events = some (after, trace)) : GapsOk seeded trace := by
  have hunmeasured := unmeasured_of_activate hactivate hactive hfront hfrontRun
  have hstart := metered_seeded hunmeasured hseed hbefore hseeded
  have hmetered : Metered seeded trace after :=
    Machine.run_invariant_nil (fun o trace ↦ Metered seeded trace o)
      (fun hbefore hcycle hstep ↦ hbefore.step hcycle hstep) hrun
      (Machine.along_of_forall hcycles) hstart
  exact hmetered.gapsOk

end run

/-! ## A gap of the robot -/

/-- A WHEEL_FEEDBACK frame of two wheels that have turned alike. -/
def stampedBytes (milliseconds ticks : ℤ) : List Byte :=
  buildFrame MsgId.wheelFeedback (bytesOf 4 0 ++ bytesOf 4 (milliseconds * 1000000) ++
    bytesOf 8 ticks ++ bytesOf 8 ticks ++ bytesOf 8 0)

/-- What is asked of a run behind an activation and its seed: whether the activation succeeded,
whether there was a seed before and after the first cycle, and for every later cycle its look and
whether the left wheel stands still. -/
structure GapLog where
  lifecycle : LifecycleState
  before : Bool
  seeded : Bool
  cycles : List (Look WheelFrame × Bool)
  deriving DecidableEq

def gapLog (events : List Event) (input : MyDiffbotSystemHardware.ActivateInput)
    (seedInput : MyDiffbotSystemHardware.ReadInput) (cycles : List Event) : Option GapLog := do
  let (before, _) ← component.run diffbot events
  let (begun, _) ← component.step before (.activate input)
  let (seeded, _) ← component.step begun (.read seedInput)
  let (_, trace) ← wheelWatch.run ⟨seeded, []⟩ cycles
  return ⟨begun.lifecycle, begun.hardware.ticksInit, seeded.hardware.ticksInit,
    trace.map fun cycle ↦ (cycle.look, decide (cycle.joints leftVelocity = 0))⟩

theorem exists_of_gapLog {events cycles : List Event}
    {input : MyDiffbotSystemHardware.ActivateInput}
    {seedInput : MyDiffbotSystemHardware.ReadInput} {result : GapLog}
    (h : gapLog events input seedInput cycles = some result) :
    ∃ before begun seeded after beginEffects seedEffects trace,
      component.step before (.activate input) = some (begun, beginEffects) ∧
      component.step begun (.read seedInput) = some (seeded, seedEffects) ∧
      wheelWatch.run ⟨seeded, []⟩ cycles = some (after, trace) ∧
      result = ⟨begun.lifecycle, begun.hardware.ticksInit, seeded.hardware.ticksInit,
        trace.map fun cycle ↦ (cycle.look, decide (cycle.joints leftVelocity = 0))⟩ := by
  obtain ⟨⟨before, _⟩, _, h⟩ := Option.bind_eq_some_iff.mp h
  obtain ⟨⟨begun, beginEffects⟩, hactivate, h⟩ := Option.bind_eq_some_iff.mp h
  obtain ⟨⟨seeded, seedEffects⟩, hseed, h⟩ := Option.bind_eq_some_iff.mp h
  obtain ⟨⟨after, trace⟩, hrun, h⟩ := Option.bind_eq_some_iff.mp h
  exact ⟨before, begun, seeded, after, beginEffects, seedEffects, trace, hactivate, hseed, hrun,
    (Option.some.inj h).symm⟩

/-- The wheels turn, the base falls silent while they do, and it is back with two frames. -/
def gapEvents : List Event :=
  [.read (readAt 60000000 (stampedBytes 150 1100)), .read (readAt 700000000 []),
    .read (readAt 800000000 (stampedBytes 800 5000)),
    .read (readAt 850000000 (stampedBytes 850 5100))]

theorem gapsOk_of_seed_silence :
    ∃ seeded after trace, wheelWatch.run ⟨seeded, []⟩ gapEvents = some (after, trace) ∧
      trace.map (fun cycle ↦ (cycle.look, decide (cycle.joints leftVelocity = 0))) =
        [(⟨0.06, some ⟨0.15, 1100, 1100⟩⟩, false), (⟨0.7, none⟩, true),
          (⟨0.8, some ⟨0.8, 5000, 5000⟩⟩, true), (⟨0.85, some ⟨0.85, 5100, 5100⟩⟩, false)] ∧
      GapsOk seeded trace := by
  have hlog : gapLog [.configure] (activateAt 0) (readAt 10000000 (stampedBytes 100 1000))
      gapEvents = some ⟨.active, false, true,
        [(⟨0.06, some ⟨0.15, 1100, 1100⟩⟩, false), (⟨0.7, none⟩, true),
          (⟨0.8, some ⟨0.8, 5000, 5000⟩⟩, true), (⟨0.85, some ⟨0.85, 5100, 5100⟩⟩, false)]⟩ := by
    decide +kernel
  obtain ⟨before, begun, seeded, after, beginEffects, seedEffects, trace, hactivate, hseed, hrun,
    hresult⟩ := exists_of_gapLog hlog
  obtain ⟨hactive, hbefore, hseeded, htrace⟩ := GapLog.mk.inj hresult
  have hcycles : ∀ event ∈ gapEvents, event.isCycle = true := by simp [gapEvents, Event.isCycle]
  exact ⟨seeded, after, trace, hrun, htrace.symm,
    gapsOk_of_seed hactivate hactive.symm (fun _ hmem ↦ absurd hmem List.not_mem_nil) rfl
      hbefore.symm hseed hseeded.symm hcycles hrun⟩

end MyDiffbot.System
