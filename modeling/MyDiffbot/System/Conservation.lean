import MyDiffbot.System.Odometry
import MyDiffbot.System.StopGrace

/-!
# Conservation of ticks

Once a session has its seed, every `read` moves the wheel joints by the ticks since the previous
`read`, whatever was parsed between them and whatever the speed measurement does with the same
frames. The deltas telescope: after any number of cycles a position is off its value at the seed by
the ticks of the latest frame, less those of the seed.
-/

namespace MyDiffbot.System

open Protocol Numeric Transport Incremental

namespace MyDiffbotSystemHardware

theorem readWheels_moves (h : MyDiffbotSystemHardware) (input : ReadInput)
    (hcount : h.kestrel.feedback.wheelFeedbackCount ≠ 0) (hinit : h.ticksInit = true) :
    (h.readWheels input).ticksInit = true ∧
      (h.readWheels input).encoderPrev = (h.readWheels input).kestrel.feedback.ticks ∧
      ∀ name ∈ h.interfaces.jointStates, name.interfaceName = hwIfPosition →
        (h.readWheels input).jointState name = h.jointState name + radians h.cpr
          (ticksOf name (h.readWheels input).kestrel.feedback.ticks - ticksOf name h.encoderPrev) := by
  obtain ⟨_, _, _, _, _, _, _, _, hmove⟩ := h.readWheels_eq input hcount hinit
  refine ⟨?_, ?_, fun name hname hposition ↦ ?_⟩
  · rw [hmove]
    exact hinit
  · rw [hmove]
    rfl
  · rw [(h.readWheels_keeps input).2.1]
    exact readWheels_position input hcount hinit hname hposition

/-- A `read` on an open port after the seed follows the latest ticks. -/
theorem read_moves (h : MyDiffbotSystemHardware) (input : ReadInput)
    (hopen : h.kestrel.isOpen = true) (hinit : h.ticksInit = true)
    (hcount : h.kestrel.feedback.wheelFeedbackCount ≠ 0) :
    (h.read input).2.1.ticksInit = true ∧
      (h.read input).2.1.encoderPrev = (h.read input).2.1.kestrel.feedback.ticks ∧
      ∀ name ∈ h.interfaces.jointStates, name.interfaceName = hwIfPosition →
        (h.read input).2.1.jointState name = h.jointState name + radians h.cpr
          (ticksOf name (h.read input).2.1.kestrel.feedback.ticks - ticksOf name h.encoderPrev) := by
  obtain ⟨gpioState, lastDiagPub, count, change, _, hstate, _⟩ := h.read_eq input hopen
  have hcount' : (h.kestrel.read input.poll).1.feedback.wheelFeedbackCount ≠ 0 := by
    rw [(h.kestrel.read_evolves input.poll).1.feedback, (Feedback.foldl_wheel _ _).2]
    omega
  rw [hstate]
  refine readWheels_moves _ input ?_ ?_
  · exact hcount'
  · exact hinit

end MyDiffbotSystemHardware

/-- The invariant after the seed: a position is off its value at the seed by the ticks of the
previous `read`, less those of the seed. -/
structure Conserves (seeded : Component) (trace : List Effect) (c : Component) : Prop where
  continues : Continues seeded trace c
  isOpen : c.hardware.kestrel.isOpen = true
  ticksInit : c.hardware.ticksInit = true
  counted : c.hardware.kestrel.feedback.wheelFeedbackCount ≠ 0
  positions : ∀ name ∈ seeded.hardware.interfaces.jointStates, name.interfaceName = hwIfPosition →
    c.hardware.jointState name = seeded.hardware.jointState name + radians seeded.hardware.cpr
      (ticksOf name c.hardware.encoderPrev - ticksOf name seeded.hardware.kestrel.feedback.ticks)

section run

variable {seeded c next : Component} {trace effects : List Effect} {event : Event}
  {events : List Event}

/-- A step that leaves the odometry alone keeps the sum. -/
theorem Conserves.congr (h : Conserves seeded trace c)
    (hcontinues : Continues seeded (trace ++ effects) next)
    (hopen : next.hardware.kestrel.isOpen = c.hardware.kestrel.isOpen)
    (hinit : next.hardware.ticksInit = c.hardware.ticksInit)
    (hprev : next.hardware.encoderPrev = c.hardware.encoderPrev)
    (hjoints : next.hardware.jointState = c.hardware.jointState) :
    Conserves seeded (trace ++ effects) next where
  continues := hcontinues
  isOpen := hopen.trans h.isOpen
  ticksInit := hinit.trans h.ticksInit
  counted := by
    have hbefore := h.continues.ticks.2
    have hafter := hcontinues.ticks.2
    rw [wheelTicks_append, List.length_append] at hafter
    have hcounted := h.counted
    omega
  positions name hname hposition := by
    rw [hjoints, hprev]
    exact h.positions name hname hposition

/-- A `read` adds the ticks since the previous one. -/
theorem Conserves.read (h : Conserves seeded trace c) (input : MyDiffbotSystemHardware.ReadInput)
    (hcontinues : Continues seeded (trace ++ (c.hardware.read input).2.2)
      { c with hardware := (c.hardware.read input).2.1 }) :
    Conserves seeded (trace ++ (c.hardware.read input).2.2)
        { c with hardware := (c.hardware.read input).2.1 } ∧
      (c.hardware.read input).2.1.encoderPrev = (c.hardware.read input).2.1.kestrel.feedback.ticks := by
  obtain ⟨hinit, hprev, hjoints⟩ := c.hardware.read_moves input h.isOpen h.ticksInit h.counted
  have hevolves := (c.hardware.read_evolves input).1
  refine ⟨⟨hcontinues, hevolves.isOpen.trans h.isOpen, hinit, ?_, fun name hname hposition ↦ ?_⟩,
    hprev⟩
  · rw [hevolves.feedback, (Feedback.foldl_wheel _ _).2]
    have hcounted := h.counted
    omega
  · have hname' : name ∈ c.hardware.interfaces.jointStates := by
      rw [h.continues.interfaces]
      exact hname
    have hmove := hjoints name hname' hposition
    rw [h.continues.cpr, ← hprev] at hmove
    exact eq_add_radians_trans (h.positions name hname hposition) hmove

theorem Conserves.step (h : Conserves seeded trace c) (hcycle : event.isCycle = true)
    (hstep : component.step c event = some (next, effects)) :
    Conserves seeded (trace ++ effects) next := by
  have hcontinues := h.continues.trans (step_continues hstep)
  cases steps_of_step hstep with
  | setJointCommand name value => exact h.congr hcontinues rfl rfl rfl rfl
  | setGpioCommand name value => exact h.congr hcontinues rfl rfl rfl rfl
  | read input => exact (h.read input hcontinues).1
  | write input =>
    obtain ⟨_, _, _, _, _, _, hstate, hevolves⟩ := write_keeps c.hardware input
    refine h.congr hcontinues ?_ ?_ ?_ ?_ <;> dsimp only <;> rw [hstate]
    · exact hevolves.isOpen
    · rfl
  | configure | cleanup | activate input | deactivate input => cases hcycle

/-- The cycle that takes the seed starts the sum at zero. -/
theorem conserves_seeded {input : MyDiffbotSystemHardware.ReadInput}
    (hstep : component.step c (.read input) = some (seeded, effects))
    (hbefore : c.hardware.ticksInit = false) (hseeded : seeded.hardware.ticksInit = true) :
    Conserves seeded [] seeded := by
  cases steps_of_step hstep with
  | read input hlifecycle =>
    have hopen : c.hardware.kestrel.isOpen = true := by
      by_contra hclosed
      rw [c.hardware.read_of_closed input (Bool.not_eq_true _ ▸ hclosed)] at hseeded
      rw [hbefore] at hseeded
      cases hseeded
    have hstillOpen := (c.hardware.read_evolves input).1.isOpen.trans hopen
    cases c.hardware.read_odometry input with
    | idle hinit _ _ =>
      rw [hinit, hbefore] at hseeded
      cases hseeded
    | seed hcount _ _ hprev _ =>
      refine ⟨continues_refl _, hstillOpen, hseeded, hcount, fun name _ _ ↦ ?_⟩
      dsimp only
      rw [hprev, sub_self, radians_zero, add_zero]
    | move _ hinit _ _ _ =>
      rw [hbefore] at hinit
      cases hinit

/-- After every cycle behind the one that took the seed, the position of each wheel joint is its
value at the seed plus the angle of the latest ticks less those of the seed. -/
theorem positions_conserve_ticks {seedInput input : MyDiffbotSystemHardware.ReadInput}
    {seedEffects : List Effect} {after : Component}
    (hseed : component.step c (.read seedInput) = some (seeded, seedEffects))
    (hbefore : c.hardware.ticksInit = false) (hseeded : seeded.hardware.ticksInit = true)
    (hcycles : ∀ event ∈ events, event.isCycle = true)
    (hrun : component.run seeded (events ++ [.read input]) = some (after, effects)) :
    ∀ name ∈ seeded.hardware.interfaces.jointStates, name.interfaceName = hwIfPosition →
      after.hardware.jointState name = seeded.hardware.jointState name +
        radians seeded.hardware.cpr
          (ticksOf name ((wheelTicks effects).getLastD seeded.hardware.kestrel.feedback.ticks) -
            ticksOf name seeded.hardware.kestrel.feedback.ticks) := by
  obtain ⟨middle, front, last, hfront, hlast, rfl⟩ := Machine.run_append_eq_some.mp hrun
  have hconserves : Conserves seeded front middle :=
    Machine.run_invariant_nil (fun state trace ↦ Conserves seeded trace state)
      (fun hsum hcycle hstep ↦ hsum.step hcycle hstep) hfront (Machine.along_of_forall hcycles)
      (conserves_seeded hseed hbefore hseeded)
  obtain ⟨final, readEffects, rest, hstep, hnil, rfl⟩ := Machine.run_cons_eq_some.mp hlast
  obtain ⟨rfl, rfl⟩ := Prod.mk.inj (Option.some.inj hnil)
  rw [List.append_nil]
  have hcontinues := hconserves.continues.trans (step_continues hstep)
  cases steps_of_step hstep with
  | read input =>
    obtain ⟨hfinal, hprev⟩ := hconserves.read input hcontinues
    intro name hname hposition
    rw [hfinal.positions name hname hposition, ← hcontinues.ticks.1]
    dsimp only
    rw [hprev]

end run

/-! ## A run of the robot -/

/-- What is asked of a run behind a seed: whether there was a seed before and after the first cycle,
its ticks, and those parsed later. -/
structure Tally where
  before : Bool
  seeded : Bool
  seed : ℤ × ℤ
  later : List (ℤ × ℤ)
  deriving DecidableEq

def tally (events cycles : List Event) (seedInput input : MyDiffbotSystemHardware.ReadInput) :
    Option Tally := do
  let (c, _) ← component.run diffbot events
  let (seeded, _) ← component.step c (.read seedInput)
  let (_, effects) ← component.run seeded (cycles ++ [.read input])
  return ⟨c.hardware.ticksInit, seeded.hardware.ticksInit, seeded.hardware.kestrel.feedback.ticks,
    wheelTicks effects⟩

theorem exists_of_tally {events cycles : List Event}
    {seedInput input : MyDiffbotSystemHardware.ReadInput} {result : Tally}
    (h : tally events cycles seedInput input = some result) :
    ∃ c seeded after seedEffects effects,
      component.step c (.read seedInput) = some (seeded, seedEffects) ∧
      component.run seeded (cycles ++ [.read input]) = some (after, effects) ∧
      result = ⟨c.hardware.ticksInit, seeded.hardware.ticksInit,
        seeded.hardware.kestrel.feedback.ticks, wheelTicks effects⟩ := by
  obtain ⟨⟨c, _⟩, _, h⟩ := Option.bind_eq_some_iff.mp h
  obtain ⟨⟨seeded, seedEffects⟩, hseed, h⟩ := Option.bind_eq_some_iff.mp h
  obtain ⟨⟨after, effects⟩, hrun, h⟩ := Option.bind_eq_some_iff.mp h
  exact ⟨c, seeded, after, seedEffects, effects, hseed, hrun, (Option.some.inj h).symm⟩

/-- Two frames in one cycle, an idle one, and a frame after a gap in which the wheels turned back. -/
theorem positions_conserve_ticks_turn :
    ∃ seeded after effects,
      component.run seeded [.read (readAt 300 (wheelFeedbackBytes 1010 1005 ++
        wheelFeedbackBytes 1025 1010)), .read (readAt 400 []),
        .read (readAt 3000000000 (wheelFeedbackBytes 990 1030))] = some (after, effects) ∧
      seeded.hardware.kestrel.feedback.ticks = (1000, 1000) ∧
      wheelTicks effects = [(1010, 1005), (1025, 1010), (990, 1030)] ∧
      ∀ name ∈ seeded.hardware.interfaces.jointStates, name.interfaceName = hwIfPosition →
        after.hardware.jointState name = seeded.hardware.jointState name +
          radians seeded.hardware.cpr
            (ticksOf name ((wheelTicks effects).getLastD seeded.hardware.kestrel.feedback.ticks) -
              ticksOf name seeded.hardware.kestrel.feedback.ticks) := by
  have htally : tally [.configure, .activate (activateAt 100)]
      [.read (readAt 300 (wheelFeedbackBytes 1010 1005 ++ wheelFeedbackBytes 1025 1010)),
        .read (readAt 400 [])] (readAt 200 (wheelFeedbackBytes 1000 1000))
      (readAt 3000000000 (wheelFeedbackBytes 990 1030)) =
      some ⟨false, true, (1000, 1000), [(1010, 1005), (1025, 1010), (990, 1030)]⟩ := by
    decide +kernel
  obtain ⟨c, seeded, after, seedEffects, effects, hseed, hrun, hresult⟩ := exists_of_tally htally
  obtain ⟨hbefore, hseeded, hticks, hlater⟩ := Tally.mk.inj hresult
  exact ⟨seeded, after, effects, hrun, hticks.symm, hlater.symm,
    positions_conserve_ticks hseed hbefore.symm hseeded.symm (by simp [Event.isCycle]) hrun⟩

end MyDiffbot.System
