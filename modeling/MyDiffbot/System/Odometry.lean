import MyDiffbot.System.Diffbot
import Mathlib.Tactic.Ring

/-!
# Odometry across sessions

A session is a successful activation and the cycles up to the next deactivation. Within a session
the deltas of the encoder ticks telescope: the position of a wheel joint has moved by the difference
between the last ticks read and the ticks that seeded the session. The seed is the latest frame of
the driver at the first `read`, and the driver's frame count is never reset. If no frame has been
parsed since the activation began, the seed stems from an earlier session, and so does the reference
of the odometry (`Session.not_odometryOk`).
-/

namespace MyDiffbot.System

open Protocol Numeric Transport Incremental

/-- The ticks of the full-length WHEEL_FEEDBACK frames that were parsed. -/
def wheelTicks (effects : List Effect) : List (ℤ × ℤ) :=
  (parsedMessages effects).filterMap wheelTicks?

theorem wheelTicks_append (first second : List Effect) :
    wheelTicks (first ++ second) = wheelTicks first ++ wheelTicks second := by
  rw [wheelTicks, parsedMessages_append, List.filterMap_append]
  rfl

/-- The ticks that move a joint; a joint that is not a left one is a right one. -/
def ticksOf (name : InterfaceDescription) (ticks : ℤ × ℤ) : ℤ :=
  if contains name.prefixName "left" then ticks.1 else ticks.2

/-- The angle of a number of ticks. -/
def radians (cpr : ℚ) (ticks : ℤ) : ℚ := ticks * 2 * mPi / cpr

theorem radians_zero (cpr : ℚ) : radians cpr 0 = 0 := by
  simp [radians]

theorem radians_add (cpr : ℚ) (first second : ℤ) :
    radians cpr (first + second) = radians cpr first + radians cpr second := by
  unfold radians
  push_cast
  ring

/-- Consecutive differences of ticks telescope. -/
theorem radians_sub_add_sub (cpr : ℚ) (first second third : ℤ) :
    radians cpr (second - first) + radians cpr (third - second) = radians cpr (third - first) := by
  rw [← radians_add]
  congr 1
  ring

/-- A joint that has moved from `first` to `second` and then to `third` has moved all the way. -/
theorem eq_add_radians_trans {cpr start middle stop : ℚ} {first second third : ℤ}
    (hbefore : middle = start + radians cpr (second - first))
    (hmove : stop = middle + radians cpr (third - second)) :
    stop = start + radians cpr (third - first) := by
  calc
    stop = start + radians cpr (second - first) + radians cpr (third - second) := by
      rw [hmove, hbefore]
    _ = start + (radians cpr (second - first) + radians cpr (third - second)) := add_assoc _ _ _
    _ = start + radians cpr (third - first) := by rw [radians_sub_add_sub]

/-! ## One cycle -/

namespace MyDiffbotSystemHardware

def encoderPrev (h : MyDiffbotSystemHardware) : ℤ × ℤ := (h.leftEncoderPrev, h.rightEncoderPrev)

/-- One turn of the loop moves its own position and no other one. -/
theorem moveJoint_position {leftDelta rightDelta : ℤ} {leftVelocity rightVelocity cpr : ℚ}
    {jointState : Store ℚ} {name joint : InterfaceDescription}
    (hposition : name.interfaceName = hwIfPosition) :
    moveJoint leftDelta rightDelta leftVelocity rightVelocity cpr jointState joint name =
      if name = joint then jointState name + radians cpr (ticksOf name (leftDelta, rightDelta))
      else jointState name := by
  have hvelocity : name ≠ ⟨joint.prefixName, hwIfVelocity⟩ := by
    intro hname
    rw [hname] at hposition
    exact absurd hposition (by decide : hwIfVelocity ≠ hwIfPosition)
  unfold moveJoint
  by_cases hjoint : joint.interfaceName = hwIfPosition
  · rw [if_neg (not_not.mpr hjoint), Function.update_of_ne hvelocity]
    by_cases hname : name = joint
    · rw [hname, Function.update_self, if_pos rfl]
      rfl
    · rw [Function.update_of_ne hname, if_neg hname]
  · rw [if_pos hjoint, if_neg]
    intro hname
    exact hjoint (hname ▸ hposition)

theorem foldl_moveJoint_position {leftDelta rightDelta : ℤ} {leftVelocity rightVelocity cpr : ℚ}
    {jointState : Store ℚ} {name : InterfaceDescription} {joints : List InterfaceDescription}
    (hposition : name.interfaceName = hwIfPosition) (hnodup : joints.Nodup) :
    joints.foldl (moveJoint leftDelta rightDelta leftVelocity rightVelocity cpr) jointState name =
      if name ∈ joints then jointState name + radians cpr (ticksOf name (leftDelta, rightDelta))
      else jointState name := by
  induction joints generalizing jointState with
  | nil => rfl
  | cons joint joints ih =>
    obtain ⟨hfirst, hrest⟩ := List.nodup_cons.mp hnodup
    rw [List.foldl_cons, ih hrest, moveJoint_position hposition]
    by_cases hname : name = joint
    · rw [if_pos hname, if_neg (hname ▸ hfirst), if_pos (hname ▸ List.mem_cons_self)]
    · simp only [List.mem_cons, hname, false_or, if_false]

/-- After the seed, a `ReadWheels` moves every joint by the ticks since the previous one. -/
theorem readWheels_position {h : MyDiffbotSystemHardware} (input : ReadInput)
    (hcount : h.kestrel.feedback.wheelFeedbackCount ≠ 0) (hinit : h.ticksInit = true)
    {name : InterfaceDescription} (hname : name ∈ h.interfaces.jointStates)
    (hposition : name.interfaceName = hwIfPosition) :
    (h.readWheels input).jointState name = h.jointState name +
      radians h.cpr (ticksOf name h.kestrel.feedback.ticks - ticksOf name h.encoderPrev) := by
  obtain ⟨_, _, _, _, _, _, leftRad, rightRad, hmove⟩ := h.readWheels_eq input hcount hinit
  rw [hmove]
  refine (foldl_moveJoint_position hposition h.interfaces.jointStates.nodup).trans ?_
  rw [if_pos (by exact hname)]
  congr 2
  unfold ticksOf
  split <;> rfl

/-- What a cycle can do to the odometry: nothing, take its seed, or follow the ticks. -/
inductive OdometryStep (h next : MyDiffbotSystemHardware) : Prop
  | idle (hinit : next.ticksInit = h.ticksInit) (hprev : next.encoderPrev = h.encoderPrev)
      (hjoints : next.jointState = h.jointState)
  | seed (hcount : next.kestrel.feedback.wheelFeedbackCount ≠ 0) (hbefore : h.ticksInit = false)
      (hinit : next.ticksInit = true) (hprev : next.encoderPrev = next.kestrel.feedback.ticks)
      (hjoints : next.jointState = h.jointState)
  | move (hcount : next.kestrel.feedback.wheelFeedbackCount ≠ 0) (hbefore : h.ticksInit = true)
      (hinit : next.ticksInit = true) (hprev : next.encoderPrev = next.kestrel.feedback.ticks)
      (hjoints : ∀ name ∈ h.interfaces.jointStates, name.interfaceName = hwIfPosition →
        next.jointState name = h.jointState name +
          radians h.cpr (ticksOf name next.kestrel.feedback.ticks - ticksOf name h.encoderPrev))

theorem readWheels_odometry (h : MyDiffbotSystemHardware) (input : ReadInput) :
    OdometryStep h (h.readWheels input) := by
  have hkestrel := (h.readWheels_keeps input).2.1
  by_cases hcount : h.kestrel.feedback.wheelFeedbackCount = 0
  · rw [h.readWheels_of_uncounted input hcount]
    exact .idle rfl rfl rfl
  · have hcount' : (h.readWheels input).kestrel.feedback.wheelFeedbackCount ≠ 0 := by
      rwa [hkestrel]
    cases hinit : h.ticksInit with
    | false =>
      have hseed := h.readWheels_of_unseeded input hcount hinit
      exact .seed hcount' hinit (by rw [hseed]; rfl) (by rw [hseed]; rfl) (by rw [hseed]; rfl)
    | true =>
      obtain ⟨_, _, _, _, _, _, _, _, hmove⟩ := h.readWheels_eq input hcount hinit
      refine .move hcount' hinit (by rw [hmove]; exact hinit) (by rw [hmove]; rfl)
        fun name hname hposition ↦ ?_
      rw [hkestrel]
      exact readWheels_position input hcount hinit hname hposition

theorem read_odometry (h : MyDiffbotSystemHardware) (input : ReadInput) :
    OdometryStep h (h.read input).2.1 := by
  cases hopen : h.kestrel.isOpen with
  | false =>
    rw [h.read_of_closed input hopen]
    exact .idle rfl rfl rfl
  | true =>
    obtain ⟨gpioState, lastDiagPub, count, change, _, hstate, _⟩ := h.read_eq input hopen
    rw [hstate]
    -- The odometry fields are those the cycle began with.
    cases readWheels_odometry _ input with
    | idle hinit hprev hjoints => exact .idle hinit hprev hjoints
    | seed hcount hbefore hinit hprev hjoints => exact .seed hcount hbefore hinit hprev hjoints
    | move hcount hbefore hinit hprev hjoints => exact .move hcount hbefore hinit hprev hjoints

end MyDiffbotSystemHardware

/-! ## Sessions -/

def Event.isRead : Event → Bool
  | .read _ => true
  | _ => false

def Event.isDeactivate : Event → Bool
  | .deactivate _ => true
  | _ => false

/-- A successful activation from any state of the component, and a run of it up to some point before
the next deactivation. -/
structure Session where
  before : Component
  input : MyDiffbotSystemHardware.ActivateInput
  begun : Component
  beginEffects : List Effect
  cycles : List Event
  after : Component
  cycleEffects : List Effect
  activates : component.step before (.activate input) = some (begun, beginEffects)
  active : begun.lifecycle = .active
  runs : component.run begun cycles = some (after, cycleEffects)
  stays : ∀ event ∈ cycles, event.isDeactivate = false

namespace Session

/-- The frames parsed since the activation began. -/
def ticks (session : Session) : List (ℤ × ℤ) :=
  wheelTicks (session.beginEffects ++ session.cycleEffects)

/-- How far a joint's position state has moved. -/
def moved (session : Session) (name : InterfaceDescription) : ℚ :=
  session.after.hardware.jointState name - session.before.hardware.jointState name

/-- A wheel joint has not moved, or by the difference of two frames of the session. -/
def OdometryOk (session : Session) : Prop :=
  ∀ name ∈ session.before.hardware.interfaces.jointStates, name.interfaceName = hwIfPosition →
    session.moved name = 0 ∨
      ∃ first ∈ session.ticks, ∃ second ∈ session.ticks,
        session.moved name =
          radians session.before.hardware.cpr (ticksOf name second - ticksOf name first)

/-- No frame had been parsed when the activation began, or one is parsed between then and the end of
the first `read` of the session. -/
def SeedsFresh (session : Session) : Prop :=
  session.before.hardware.kestrel.feedback.wheelFeedbackCount = 0 ∨
    ∀ front input rest middle effects, session.cycles = front ++ .read input :: rest →
      (∀ event ∈ front, event.isRead = false) →
      component.run session.begun (front ++ [.read input]) = some (middle, effects) →
      wheelTicks (session.beginEffects ++ effects) ≠ []

end Session

/-- The first `read` that finds a frame finds one of this session. -/
def Fresh (before : Component) (trace : List Effect) : Prop :=
  before.hardware.kestrel.feedback.wheelFeedbackCount = 0 ∨ wheelTicks trace ≠ []

/-- The invariant of a session: nothing has moved before the seed, and after it every joint has
moved by the ticks since the seed, a frame of the session. -/
structure OnTrack (before : Component) (trace : List Effect) (c : Component) : Prop where
  continues : Continues before trace c
  active : c.lifecycle = .active
  unseeded : c.hardware.ticksInit = false → c.hardware.jointState = before.hardware.jointState
  seeded : c.hardware.ticksInit = true → c.hardware.encoderPrev ∈ wheelTicks trace ∧
    ∃ seed ∈ wheelTicks trace, ∀ name ∈ before.hardware.interfaces.jointStates,
      name.interfaceName = hwIfPosition →
      c.hardware.jointState name = before.hardware.jointState name +
        radians before.hardware.cpr (ticksOf name c.hardware.encoderPrev - ticksOf name seed)

section step

variable {before c next : Component} {trace effects : List Effect} {event : Event}

theorem Continues.ticks (h : Continues before trace c) :
    c.hardware.kestrel.feedback.ticks =
        (wheelTicks trace).getLastD before.hardware.kestrel.feedback.ticks ∧
      c.hardware.kestrel.feedback.wheelFeedbackCount =
        before.hardware.kestrel.feedback.wheelFeedbackCount + (wheelTicks trace).length := by
  rw [h.feedback]
  exact Feedback.foldl_wheel _ _

/-- Where the driver has counted a frame, its ticks are those of a frame of the session. -/
theorem Continues.ticks_mem (h : Continues before trace c) (hfresh : Fresh before trace)
    (hcount : c.hardware.kestrel.feedback.wheelFeedbackCount ≠ 0) :
    c.hardware.kestrel.feedback.ticks ∈ wheelTicks trace := by
  obtain ⟨hticks, hcounted⟩ := h.ticks
  have hne : wheelTicks trace ≠ [] := by
    rcases hfresh with hzero | hne
    · intro hnil
      rw [hzero, hnil] at hcounted
      exact hcount hcounted
    · exact hne
  rw [hticks]
  exact getLastD_mem hne _

/-- A step that leaves the odometry alone keeps the session on track. -/
theorem OnTrack.congr (h : OnTrack before trace c)
    (hcontinues : Continues before (trace ++ effects) next) (hactive : next.lifecycle = .active)
    (hinit : next.hardware.ticksInit = c.hardware.ticksInit)
    (hprev : next.hardware.encoderPrev = c.hardware.encoderPrev)
    (hjoints : next.hardware.jointState = c.hardware.jointState) :
    OnTrack before (trace ++ effects) next where
  continues := hcontinues
  active := hactive
  unseeded hfalse := by
    rw [hjoints]
    exact h.unseeded (hinit ▸ hfalse)
  seeded htrue := by
    obtain ⟨hmem, seed, hseed, hpositions⟩ := h.seeded (hinit ▸ htrue)
    rw [wheelTicks_append, hprev, hjoints]
    exact ⟨List.mem_append_left _ hmem, seed, List.mem_append_left _ hseed, hpositions⟩

/-- A cycle that meets a fresh driver keeps the session on track. -/
theorem OnTrack.read (h : OnTrack before trace c) (input : MyDiffbotSystemHardware.ReadInput)
    (hcontinues : Continues before (trace ++ (c.hardware.read input).2.2)
      { c with hardware := (c.hardware.read input).2.1 })
    (hfresh : Fresh before (trace ++ (c.hardware.read input).2.2)) :
    OnTrack before (trace ++ (c.hardware.read input).2.2)
      { c with hardware := (c.hardware.read input).2.1 } := by
  cases c.hardware.read_odometry input with
  | idle hinit hprev hjoints => exact h.congr hcontinues h.active hinit hprev hjoints
  | seed hcount hbefore hinit hprev hjoints =>
    have hmem := hcontinues.ticks_mem hfresh hcount
    refine ⟨hcontinues, h.active, fun hfalse ↦ ?_, fun _ ↦ ?_⟩
    · rw [hinit] at hfalse
      cases hfalse
    · rw [hprev]
      refine ⟨hmem, _, hmem, fun name _ _ ↦ ?_⟩
      rw [hjoints, h.unseeded hbefore, sub_self, radians_zero, add_zero]
  | move hcount hbefore hinit hprev hjoints =>
    have hmem := hcontinues.ticks_mem hfresh hcount
    obtain ⟨_, seed, hseed, hpositions⟩ := h.seeded hbefore
    refine ⟨hcontinues, h.active, fun hfalse ↦ ?_, fun _ ↦ ?_⟩
    · rw [hinit] at hfalse
      cases hfalse
    · rw [hprev]
      refine ⟨hmem, seed, ?_, fun name hname hposition ↦ ?_⟩
      · rw [wheelTicks_append]
        exact List.mem_append_left _ hseed
      · have hname' : name ∈ c.hardware.interfaces.jointStates := by
          rw [h.continues.interfaces]
          exact hname
        have hmove := hjoints name hname' hposition
        rw [h.continues.cpr] at hmove
        exact eq_add_radians_trans (hpositions name hname hposition) hmove

/-- What the events of a session preserve. -/
theorem OnTrack.step (h : OnTrack before trace c) (hstays : event.isDeactivate = false)
    (hfresh : event.isRead = true → Fresh before (trace ++ effects))
    (hstep : component.step c event = some (next, effects)) :
    OnTrack before (trace ++ effects) next := by
  have hcontinues := h.continues.trans (step_continues hstep)
  cases steps_of_step hstep with
  | setJointCommand name value => exact h.congr hcontinues h.active rfl rfl rfl
  | setGpioCommand name value => exact h.congr hcontinues h.active rfl rfl rfl
  | configure hlifecycle =>
    rw [h.active] at hlifecycle
    cases hlifecycle
  | cleanup hlifecycle =>
    rw [h.active] at hlifecycle
    cases hlifecycle
  | activate input hlifecycle =>
    rw [h.active] at hlifecycle
    cases hlifecycle
  | deactivate input => cases hstays
  | read input => exact h.read input hcontinues (hfresh rfl)
  | write input =>
    obtain ⟨_, _, _, _, _, _, hstate, _⟩ := write_keeps c.hardware input
    refine h.congr hcontinues h.active ?_ ?_ ?_ <;> dsimp only <;> rw [hstate]
    rfl

theorem Fresh.append (h : Fresh before trace) (effects : List Effect) :
    Fresh before (trace ++ effects) := by
  rcases h with hzero | hne
  · exact .inl hzero
  · refine .inr fun hnil ↦ hne ?_
    rw [wheelTicks_append] at hnil
    exact (List.append_eq_nil_iff.mp hnil).1

end step

namespace Session

/-- A session starts on track. -/
theorem onTrack_begun (session : Session) :
    OnTrack session.before session.beginEffects session.begun := by
  obtain ⟨before, input, begun, beginEffects, _, _, _, hactivates, hactive, _, _⟩ := session
  have hcontinues := step_continues hactivates
  have hsuccess := success_of_active hactivates hactive
  change OnTrack before beginEffects begun
  cases steps_of_step hactivates with
  | activate input hlifecycle state hstate =>
    obtain ⟨hkeeps, hinit⟩ := before.hardware.onActivate_keeps input
    refine ⟨hcontinues, hactive, fun _ ↦ hkeeps.jointState, fun htrue ↦ ?_⟩
    rw [hinit hsuccess] at htrue
    cases htrue

/-- While nothing is read, nothing needs to be fresh. -/
theorem onTrack_unread {before c next : Component} {trace effects : List Effect}
    {events : List Event} (h : OnTrack before trace c)
    (hrun : component.run c events = some (next, effects))
    (hstays : ∀ event ∈ events, event.isDeactivate = false)
    (hunread : ∀ event ∈ events, event.isRead = false) :
    OnTrack before (trace ++ effects) next := by
  have halong : component.Along
      (fun _ event ↦ event.isDeactivate = false ∧ event.isRead = false) c events :=
    Machine.along_of_forall fun event hevent ↦ ⟨hstays event hevent, hunread event hevent⟩
  refine Machine.run_invariant (fun state trace ↦ OnTrack before trace state) ?_ hrun halong h
  intro state trace event next outputs htrack hallowed hstep
  refine htrack.step hallowed.1 (fun hread ↦ ?_) hstep
  rw [hallowed.2] at hread
  cases hread

/-- Once a frame is fresh, every later one is. -/
theorem onTrack_fresh {before c next : Component} {trace effects : List Effect}
    {events : List Event} (h : OnTrack before trace c) (hfresh : Fresh before trace)
    (hrun : component.run c events = some (next, effects))
    (hstays : ∀ event ∈ events, event.isDeactivate = false) :
    OnTrack before (trace ++ effects) next := by
  have halong : component.Along (fun _ event ↦ event.isDeactivate = false) c events :=
    Machine.along_of_forall hstays
  refine (Machine.run_invariant (fun state trace ↦ OnTrack before trace state ∧ Fresh before trace)
    ?_ hrun halong ⟨h, hfresh⟩).1
  intro state trace event next outputs htrack hallowed hstep
  have hlater := htrack.2.append outputs
  exact ⟨htrack.1.step hallowed (fun _ ↦ hlater) hstep, hlater⟩

/-- A session whose seed is fresh is on track at every point. -/
theorem onTrack (session : Session) (hseed : session.SeedsFresh) :
    OnTrack session.before (session.beginEffects ++ session.cycleEffects) session.after := by
  have hbegun := session.onTrack_begun
  rcases hseed with hzero | hfirst
  · exact onTrack_fresh hbegun (.inl hzero) session.runs session.stays
  cases hread : session.cycles.find? Event.isRead with
  | none =>
    have hunread : ∀ event ∈ session.cycles, event.isRead = false := by
      intro event hevent
      simpa using List.find?_eq_none.mp hread event hevent
    exact onTrack_unread hbegun session.runs session.stays hunread
  | some event =>
    obtain ⟨hisRead, front, rest, hcycles, hfront⟩ := List.find?_eq_some_iff_append.mp hread
    cases event with
    | read input =>
      have hstays := session.stays
      have hruns := session.runs
      rw [hcycles] at hstays hruns
      obtain ⟨middle, frontEffects, laterEffects, hrunFront, hrunLater, heffects⟩ :=
        Machine.run_append_eq_some.mp hruns
      obtain ⟨next, readEffects, restEffects, hstep, hrunRest, rfl⟩ :=
        Machine.run_cons_eq_some.mp hrunLater
      have hunread : ∀ event ∈ front, event.isRead = false := by
        intro event hevent
        simpa using hfront event hevent
      have htrackFront := onTrack_unread hbegun hrunFront
        (fun event hevent ↦ hstays event (List.mem_append_left _ hevent)) hunread
      have hfresh : Fresh session.before (session.beginEffects ++ (frontEffects ++ readEffects)) :=
        .inr (hfirst front input rest next _ hcycles hunread
          (Machine.run_append_eq_some.mpr ⟨middle, frontEffects, readEffects, hrunFront,
            Machine.run_cons_eq_some.mpr ⟨next, readEffects, [], hstep, rfl,
              (List.append_nil _).symm⟩, rfl⟩))
      rw [← List.append_assoc] at hfresh
      have htrackRead := htrackFront.step rfl (fun _ ↦ hfresh) hstep
      have htrack := onTrack_fresh htrackRead hfresh hrunRest fun event hevent ↦
        hstays event (List.mem_append_right _ (List.mem_cons_of_mem _ hevent))
      rw [heffects]
      simpa only [List.append_assoc] using htrack
    | _ => cases hisRead

/-- In every session whose first `read` seeds from a frame of the session, each wheel joint moves by
the difference of two of its frames, or not at all. -/
theorem odometryOk_of_seedsFresh (session : Session) (hseed : session.SeedsFresh) :
    session.OdometryOk := by
  intro name hname hposition
  have htrack := session.onTrack hseed
  cases hinit : session.after.hardware.ticksInit with
  | false =>
    refine .inl ?_
    rw [moved, htrack.unseeded hinit, sub_self]
  | true =>
    obtain ⟨hmem, seed, hseedMem, hpositions⟩ := htrack.seeded hinit
    refine .inr ⟨seed, hseedMem, _, hmem, ?_⟩
    rw [moved, hpositions name hname hposition, add_sub_cancel_left]

/-! ## Two sessions of the robot -/

/-- What is asked of a session that is run. -/
structure Report where
  countBefore : ℕ
  begins : LifecycleState
  moved : ℚ
  ticks : List (ℤ × ℤ)
  deriving DecidableEq

def report (events : List Event) (input : MyDiffbotSystemHardware.ActivateInput)
    (cycles : List Event) (name : InterfaceDescription) : Option Report := do
  let (before, _) ← component.run diffbot events
  let (begun, beginEffects) ← component.step before (.activate input)
  let (after, cycleEffects) ← component.run begun cycles
  return {
    countBefore := before.hardware.kestrel.feedback.wheelFeedbackCount
    begins := begun.lifecycle
    moved := after.hardware.jointState name - before.hardware.jointState name
    ticks := wheelTicks (beginEffects ++ cycleEffects) }

/-- The session a report is about. -/
theorem exists_of_report {events cycles : List Event}
    {input : MyDiffbotSystemHardware.ActivateInput} {name : InterfaceDescription} {result : Report}
    (h : report events input cycles name = some result) (hactive : result.begins = .active)
    (hstays : ∀ event ∈ cycles, event.isDeactivate = false) :
    ∃ session : Session, (∃ effects, component.run diffbot events = some (session.before, effects)) ∧
      session.before.hardware.kestrel.feedback.wheelFeedbackCount = result.countBefore ∧
      session.moved name = result.moved ∧ session.ticks = result.ticks := by
  obtain ⟨⟨before, effects⟩, hbefore, h⟩ := Option.bind_eq_some_iff.mp h
  obtain ⟨⟨begun, beginEffects⟩, hbegun, h⟩ := Option.bind_eq_some_iff.mp h
  obtain ⟨⟨after, cycleEffects⟩, hafter, h⟩ := Option.bind_eq_some_iff.mp h
  obtain rfl := Option.some.inj h
  exact ⟨⟨before, input, begun, beginEffects, cycles, after, cycleEffects, hbegun, hactive,
    hafter, hstays⟩, ⟨effects, hbefore⟩, rfl, rfl, rfl⟩

/-- A first session, in which the left wheel turns by ten ticks. -/
theorem odometryOk_first_session :
    ∃ session : Session, session.ticks = [(1000, 1000), (1010, 1005)] ∧
      session.moved leftPosition = radians 515 10 ∧ session.OdometryOk := by
  have hreport : report [.configure] (activateAt 100)
      [.read (readAt 200 (wheelFeedbackBytes 1000 1000)),
        .read (readAt 300 (wheelFeedbackBytes 1010 1005))] leftPosition =
      some ⟨0, .active, radians 515 10, [(1000, 1000), (1010, 1005)]⟩ := by decide +kernel
  obtain ⟨session, _, hcount, hmoved, hticks⟩ :=
    exists_of_report hreport rfl (by simp [Event.isDeactivate])
  exact ⟨session, hticks, hmoved, session.odometryOk_of_seedsFresh (.inl hcount)⟩

/-- In a second session the first `read` finds no frame and seeds from the first session. The base
has restarted its counters, and its first frame moves the robot back by a thousand ticks. -/
theorem not_odometryOk :
    ¬∀ session : Session,
      (∃ events effects, component.run diffbot events = some (session.before, effects)) →
      session.OdometryOk := by
  intro h
  have hreport : report
      [.configure, .activate (activateAt 100), .read (readAt 200 (wheelFeedbackBytes 1000 1000)),
        .deactivate deactivateAcked] (activateAt 300)
      [.read (readAt 400 []), .read (readAt 500 (wheelFeedbackBytes 0 0))] leftPosition =
      some ⟨1, .active, radians 515 (-1000), [(0, 0)]⟩ := by decide +kernel
  obtain ⟨session, ⟨effects, hbefore⟩, _, hmoved, hticks⟩ :=
    exists_of_report hreport rfl (by simp [Event.isDeactivate])
  have hname : leftPosition ∈ session.before.hardware.interfaces.jointStates := by
    rw [(run_continues hbefore).interfaces]
    decide
  rcases h session ⟨_, _, hbefore⟩ leftPosition hname rfl with
    hzero | ⟨first, hfirst, second, hsecond, hmoves⟩
  · rw [hmoved] at hzero
    exact absurd hzero (by decide +kernel)
  · rw [hticks] at hfirst hsecond
    rw [List.mem_singleton.mp hfirst, List.mem_singleton.mp hsecond, sub_self, radians_zero,
      hmoved] at hmoves
    exact absurd hmoves (by decide +kernel)

end Session

end MyDiffbot.System
