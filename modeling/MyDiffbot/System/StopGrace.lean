import MyDiffbot.System.Diffbot

/-!
# Stopping the wheels

While a wheel command is not zero, every `write` sends it. Zero commands are sent for a second after
the last cycle that was not zero, whatever happened meanwhile. A cycle that comes later than that
finds the wheels stopped and sends nothing, so that no zero is ever sent (`not_everyStopCommanded`).
A frame counts as sent when its write returned: a cycle whose write throws sends nothing either.
-/

namespace MyDiffbot.System

open Numeric Transport Incremental

/-! ## Cycles -/

/-- Controllers write, and the component is read and written. -/
def Event.isCycle : Event → Bool
  | .setJointCommand _ _ | .setGpioCommand _ _ | .read _ | .write _ => true
  | _ => false

/-- A `write`: the wheel commands it found, its readings of the clock, whether its velocity write
throws if there is one, and the velocity frames it sent, in mrps. -/
structure Cycle where
  left : Double
  right : Double
  active : Time
  grace : Time
  throws : Bool
  frames : List (Option ℤ × Option ℤ)
  deriving DecidableEq

namespace Cycle

/-- Both commands are zero. -/
def stopped (cycle : Cycle) : Bool := cycle.left.isZero && cycle.right.isZero

def mrps (cycle : Cycle) : Option ℤ × Option ℤ :=
  (Kestrel.mrpsOf cycle.left, Kestrel.mrpsOf cycle.right)

/-- A command other than zero, in rad/s. -/
def Moves (cycle : Cycle) : Prop := cycle.stopped = false

/-- A command other than zero, in the units of the frame. -/
def Turns (cycle : Cycle) : Prop := cycle.mrps ≠ (some 0, some 0)

/-- A command of some kind whose write returns. -/
def Sent (loud : Cycle → Prop) (cycle : Cycle) : Prop := loud cycle ∧ cycle.throws = false

def Stopped (cycle : Cycle) : Prop := cycle.stopped = true

def SendsNothing (cycle : Cycle) : Prop := cycle.frames = []

def SendsZero (cycle : Cycle) : Prop := (some 0, some 0) ∈ cycle.frames

end Cycle

def velocityFrame? : Command → Option (Option ℤ × Option ℤ)
  | .wheelVelocity left right => some (left, right)
  | _ => none

/-- The velocity frames that were handed to the port. -/
def velocityFrames (effects : List Effect) : List (Option ℤ × Option ℤ) :=
  (handedCommands effects).filterMap velocityFrame?

/-- The velocity frames that were sent. -/
def sentVelocityFrames (effects : List Effect) : List (Option ℤ × Option ℤ) :=
  (sentCommands effects).filterMap velocityFrame?

/-- What is seen of one step: the cycle, if it is a `write`. -/
def observeCycle (c : Component) (event : Event) (effects : List Effect) : List Cycle :=
  match event with
  | .write input =>
    [⟨c.hardware.wheelCommands.1, c.hardware.wheelCommands.2, input.active, input.grace,
      input.wheelThrows, sentVelocityFrames effects⟩]
  | _ => []

/-- The component, of which only the cycles are seen. -/
def cycling : Machine Component Event Cycle := component.observe observeCycle

/-- If a loud command is sent and a later cycle finds the wheels stopped, then a zero is sent between
the last such command and the first cycle after it that sends no velocity frame. -/
def EveryStopCommanded (loud : Cycle → Prop) (trace : List Cycle) : Prop :=
  AnsweredBetween (Cycle.Sent loud) Cycle.Stopped Cycle.SendsNothing Cycle.SendsZero trace

/-- The cycle directly after a loud command that was sent is in time to stop the wheels: if a cycle
finds them stopped before the next loud command is sent, its write does not throw, and if it finds
them stopped itself, it reads the clock less than a second after the loud command. -/
def InGrace (loud : Cycle → Prop) (trace : List Cycle) : Prop :=
  ∀ before last first after, trace = before ++ last :: first :: after → last.Sent loud →
    StopsBefore Cycle.Stopped (Cycle.Sent loud) (first :: after) →
    first.throws = false ∧ (first.Stopped → seconds (first.grace - last.active) < 1)

/-- It is enough that every cycle directly after a loud command is in time. -/
theorem inGrace_of_isChain {loud : Cycle → Prop} {trace : List Cycle}
    (h : trace.IsChain fun last first ↦ last.Sent loud →
      first.throws = false ∧ (first.Stopped → seconds (first.grace - last.active) < 1)) :
    InGrace loud trace := by
  intro before last first after htrace hlast _
  exact List.isChain_iff_forall_rel_of_append_cons_cons.mp h htrace hlast

/-! ## What a cycle sends -/

theorem Cycle.mrps_of_stopped {cycle : Cycle} (hstopped : cycle.stopped = true) :
    cycle.mrps = (some 0, some 0) := by
  obtain ⟨hleft, hright⟩ := (Bool.and_eq_true _ _).mp hstopped
  exact Prod.ext (MyDiffbotSystemHardware.mrpsOf_of_isZero hleft)
    (MyDiffbotSystemHardware.mrpsOf_of_isZero hright)

theorem Cycle.Turns.moves {cycle : Cycle} (hturns : cycle.Turns) : cycle.Moves := by
  cases hstopped : cycle.stopped with
  | false => exact hstopped
  | true => exact absurd (Cycle.mrps_of_stopped hstopped) hturns

section write

variable (h : MyDiffbotSystemHardware) (input : MyDiffbotSystemHardware.WriteInput)
  (hopen : h.kestrel.isOpen = true)

include hopen

/-- Of the writes of a cycle, only the last one is of the wheels. -/
theorem write_velocityAttempts :
    ∃ others : List Attempt, (∀ attempt ∈ others, velocityFrame? attempt.command = none) ∧
      attempts (h.write input).2.2 =
        others ++ ((h.wheelFrame input).map (Attempt.mk · input.wheelThrows)).toList := by
  obtain ⟨tuning, led, htuning, hled, hattempts⟩ := h.write_attempts input hopen
  refine ⟨tuning ++ led, List.forall_mem_append.mpr ⟨?_, ?_⟩, hattempts⟩
  · intro attempt hattempt
    have hretune := List.mem_map_of_mem (f := Attempt.command) hattempt
    rw [htuning] at hretune
    obtain ⟨_, hcommand⟩ | ⟨_, hcommand⟩ := h.mem_retunes hretune
    · rw [hcommand]
      rfl
    · rw [hcommand]
      rfl
  · intro attempt hattempt
    obtain ⟨_, _, _, _, hcommand⟩ := hled attempt hattempt
    rw [hcommand]
    rfl

theorem write_velocityFrames :
    velocityFrames (h.write input).2.2 =
      if !h.stopped || decide (seconds (input.grace - h.lastActiveTime) < 1) then
        [(Kestrel.mrpsOf h.wheelCommands.1, Kestrel.mrpsOf h.wheelCommands.2)]
      else [] := by
  obtain ⟨others, hothers, hattempts⟩ := write_velocityAttempts h input hopen
  have hnone : (others.map Attempt.command).filterMap velocityFrame? = [] :=
    List.filterMap_eq_nil_iff.mpr (List.forall_mem_map.mpr hothers)
  rw [velocityFrames, handedCommands, hattempts, List.map_append, List.filterMap_append, hnone,
    MyDiffbotSystemHardware.wheelFrame]
  split <;> rfl

theorem write_sentVelocityFrames :
    sentVelocityFrames (h.write input).2.2 =
      if input.wheelThrows then [] else velocityFrames (h.write input).2.2 := by
  obtain ⟨others, hothers, hattempts⟩ := write_velocityAttempts h input hopen
  rw [write_velocityFrames h input hopen, sentVelocityFrames, sentCommands, hattempts,
    List.filterMap_append, List.filterMap_append, filterMap_sent_eq_nil hothers,
    MyDiffbotSystemHardware.wheelFrame]
  cases hthrows : input.wheelThrows <;> split <;> simp_all [Attempt.sent?, velocityFrame?]

end write

/-- The invariant of a run of cycles: each sends what its commands and the activity before it ask
for, unless its write throws. -/
structure Graced (c : Component) (trace : List Cycle) : Prop where
  isOpen : c.hardware.kestrel.isOpen = true
  frames : ∀ cycle ∈ trace, cycle.frames = [cycle.mrps] ∧ cycle.throws = false ∨
    cycle.frames = [] ∧ (cycle.throws = true ∨ cycle.Stopped)
  chain : trace.IsChain fun last first ↦ last.Moves →
    (first.SendsNothing ↔ first.throws = true ∨
      first.Stopped ∧ ¬seconds (first.grace - last.active) < 1)
  active : ∀ last ∈ trace.getLast?, last.Moves → c.hardware.lastActiveTime = last.active

section run

variable {c next : Component} {trace observed : List Cycle} {event : Event} {events : List Event}

/-- Steps that are not a `write` leave the activity alone. -/
theorem Graced.congr (h : Graced c trace)
    (hopen : next.hardware.kestrel.isOpen = c.hardware.kestrel.isOpen)
    (hactive : next.hardware.lastActiveTime = c.hardware.lastActiveTime) :
    Graced next (trace ++ []) := by
  rw [List.append_nil]
  refine ⟨hopen.trans h.isOpen, h.frames, h.chain, fun last hlast hmoves ↦ ?_⟩
  rw [hactive]
  exact h.active last hlast hmoves

theorem Graced.write (h : Graced c trace) (input : MyDiffbotSystemHardware.WriteInput) :
    Graced { c with hardware := (c.hardware.write input).2.1 }
      (trace ++ observeCycle c (.write input) (c.hardware.write input).2.2) := by
  have hframes := write_sentVelocityFrames c.hardware input h.isOpen
  rw [write_velocityFrames c.hardware input h.isOpen] at hframes
  obtain ⟨k, led, send, hstate, hevolves⟩ := c.hardware.write_state input h.isOpen
  unfold observeCycle
  dsimp only
  rw [hstate, hframes]
  refine ⟨hevolves.isOpen.trans h.isOpen, ?_, ?_, ?_⟩
  · refine List.forall_mem_append.mpr ⟨h.frames, ?_⟩
    intro cycle hcycle
    obtain rfl := List.mem_singleton.mp hcycle
    change _ ∨ _ ∧ (_ ∨ c.hardware.stopped = true)
    cases input.wheelThrows with
    | true => exact .inr ⟨rfl, .inl rfl⟩
    | false =>
      cases c.hardware.stopped with
      | false => exact .inl ⟨rfl, rfl⟩
      | true =>
        simp only [Bool.false_eq_true, if_false]
        split
        · exact .inl ⟨rfl, trivial⟩
        · exact .inr ⟨rfl, .inr trivial⟩
  · refine h.chain.append (.singleton _) ?_
    intro last hlast first hfirst hmoves
    obtain rfl := Option.some.inj hfirst
    rw [← h.active last hlast hmoves]
    change _ = [] ↔ _ = true ∨ c.hardware.stopped = true ∧ _
    cases input.wheelThrows <;> cases c.hardware.stopped <;> simp
  · intro last hlast hmoves
    obtain rfl : _ = last := by simpa using hlast
    exact if_neg (by rw [show c.hardware.stopped = false from hmoves]; decide)

theorem Graced.step (h : Graced c trace) (hcycle : event.isCycle = true)
    (hstep : cycling.step c event = some (next, observed)) : Graced next (trace ++ observed) := by
  obtain ⟨effects, hcomponent, rfl⟩ := Machine.observe_step_eq_some.mp hstep
  cases steps_of_step hcomponent with
  | setJointCommand name value => exact h.congr rfl rfl
  | setGpioCommand name value => exact h.congr rfl rfl
  | read input =>
    exact h.congr (c.hardware.read_evolves input).1.isOpen
      (c.hardware.read_keeps input).lastActiveTime
  | write input => exact h.write input
  | configure | cleanup | activate input | deactivate input => cases hcycle

theorem run_graced (hopen : c.hardware.kestrel.isOpen = true)
    (hcycles : ∀ event ∈ events, event.isCycle = true)
    (hrun : cycling.run c events = some (next, trace)) : Graced next trace :=
  Machine.run_invariant_nil Graced (fun hbefore hcycle hstep ↦ hbefore.step hcycle hstep) hrun
    (Machine.along_of_forall hcycles)
    ⟨hopen, fun _ hmem ↦ absurd hmem List.not_mem_nil, .nil, fun _ hmem ↦ by cases hmem⟩

/-! ## Every stop -/

theorem Graced.stops_iff_inGrace {loud : Cycle → Prop} (h : Graced c trace)
    (hloud : ∀ cycle, loud cycle → cycle.Moves)
    (hquiet : ∀ cycle, ¬loud cycle → cycle.mrps = (some 0, some 0)) :
    EveryStopCommanded loud trace ↔ InGrace loud trace := by
  have hpairs := List.isChain_iff_forall_rel_of_append_cons_cons.mp h.chain
  rw [EveryStopCommanded, answeredBetween_iff, InGrace]
  · constructor
    · intro hsends before last first after htrace hlast hstops
      have hnothing := hsends before last first after htrace hlast hstops
      rw [hpairs htrace (hloud last hlast.1), not_or] at hnothing
      refine ⟨Bool.not_eq_true _ ▸ hnothing.1, fun hstopped ↦ ?_⟩
      by_contra hlate
      exact hnothing.2 ⟨hstopped, hlate⟩
    · intro hgrace before last first after htrace hlast hstops hnothing
      obtain ⟨hreturns, hearly⟩ := hgrace before last first after htrace hlast hstops
      rcases (hpairs htrace (hloud last hlast.1)).mp hnothing with hthrows | ⟨hstopped, hlate⟩
      · exact Bool.false_ne_true (hreturns.symm.trans hthrows)
      · exact hlate (hearly hstopped)
  · intro cycle hcycle hnotLoud hsends
    rcases h.frames cycle hcycle with ⟨hframes, hreturns⟩ | ⟨hnothing, _⟩
    · rw [Cycle.SendsZero, hframes, hquiet cycle fun hcommand ↦ hnotLoud ⟨hcommand, hreturns⟩]
      exact List.mem_singleton_self _
    · exact absurd hnothing hsends

/-- In a run of cycles every stop is commanded exactly when the cycle after each command that is not
zero, if the wheels are stopped before the next such command, comes within a second of it and does
not throw. This holds whether a command that rounds to no speed counts as zero or not. -/
theorem everyStopCommanded_iff (hopen : c.hardware.kestrel.isOpen = true)
    (hcycles : ∀ event ∈ events, event.isCycle = true)
    (hrun : cycling.run c events = some (next, trace)) :
    (EveryStopCommanded Cycle.Moves trace ↔ InGrace Cycle.Moves trace) ∧
      (EveryStopCommanded Cycle.Turns trace ↔ InGrace Cycle.Turns trace) := by
  have hgraced := run_graced hopen hcycles hrun
  constructor
  · refine hgraced.stops_iff_inGrace (fun _ hmoves ↦ hmoves) fun cycle hstill ↦ ?_
    exact Cycle.mrps_of_stopped (by simpa [Cycle.Moves] using hstill)
  · exact hgraced.stops_iff_inGrace (fun _ hturns ↦ hturns.moves) fun _ ↦ not_not.mp

end run

/-! ## Two stops of the robot -/

/-- Whether the port is open after some events of the robot, and the cycles of a run from there. -/
def drive (events cycles : List Event) : Option (Bool × List Cycle) := do
  let (c, _) ← component.run diffbot events
  let (_, trace) ← cycling.run c cycles
  return (c.hardware.kestrel.isOpen, trace)

theorem exists_of_drive {events cycles : List Event} {opened : Bool} {trace : List Cycle}
    (h : drive events cycles = some (opened, trace)) :
    ∃ before c next, component.run diffbot events = some (c, before) ∧
      c.hardware.kestrel.isOpen = opened ∧ cycling.run c cycles = some (next, trace) := by
  obtain ⟨⟨c, before⟩, hbefore, h⟩ := Option.bind_eq_some_iff.mp h
  obtain ⟨⟨next, _⟩, hrun, h⟩ := Option.bind_eq_some_iff.mp h
  obtain ⟨rfl, rfl⟩ := Prod.mk.inj (Option.some.inj h)
  exact ⟨before, c, next, hbefore, rfl, hrun⟩

/-- The left wheel is driven, then stopped for good at some time. -/
def driveAndStop (driven stopped later : Time) : List Event :=
  [.setJointCommand leftVelocity (.finite 1), .write (writeAt driven),
    .setJointCommand leftVelocity (.finite 0), .write (writeAt stopped), .write (writeAt later)]

theorem driveAndStop_isCycle (driven stopped later : Time) :
    ∀ event ∈ driveAndStop driven stopped later, event.isCycle = true := by
  simp [driveAndStop, Event.isCycle]

/-- A stop half a second after the last command is sent once before the host goes quiet. -/
theorem everyStopCommanded_half_second :
    ∃ c next trace, cycling.run c (driveAndStop 0 500000000 1500000000) = some (next, trace) ∧
      trace.map Cycle.frames = [[(some 159, some 0)], [(some 0, some 0)], []] ∧
      EveryStopCommanded Cycle.Moves trace ∧ EveryStopCommanded Cycle.Turns trace := by
  have hdrive : drive [.configure, .activate (activateAt 0)]
      (driveAndStop 0 500000000 1500000000) = some (true,
      [⟨.finite 1, .finite 0, 0, 0, false, [(some 159, some 0)]⟩,
        ⟨.finite 0, .finite 0, 500000000, 500000000, false, [(some 0, some 0)]⟩,
        ⟨.finite 0, .finite 0, 1500000000, 1500000000, false, []⟩]) := by decide +kernel
  obtain ⟨_, c, next, _, hopen, hrun⟩ := exists_of_drive hdrive
  obtain ⟨hmoves, hturns⟩ := everyStopCommanded_iff hopen (driveAndStop_isCycle _ _ _) hrun
  refine ⟨c, next, _, hrun, rfl, hmoves.mpr (inGrace_of_isChain ?_),
    hturns.mpr (inGrace_of_isChain ?_)⟩
  · unfold Cycle.Sent Cycle.Moves Cycle.Stopped
    decide +kernel
  · unfold Cycle.Sent Cycle.Turns Cycle.Stopped
    decide +kernel

theorem not_everyStopCommanded_of_head {loud : Cycle → Prop} {last first : Cycle}
    {after : List Cycle} (hlast : last.Sent loud) (hstopped : first.Stopped)
    (hnothing : first.SendsNothing) : ¬EveryStopCommanded loud (last :: first :: after) := by
  intro hstops
  obtain ⟨cycle, hcycle, _⟩ := hstops [] last [] first after rfl hlast (.head hstopped after)
    hnothing fun _ hmem ↦ absurd hmem List.not_mem_nil
  exact List.not_mem_nil hcycle

/-- If the host stalls for a second while it drives, the stop is never sent. -/
theorem not_everyStopCommanded :
    ¬∀ events before c cycles next trace, component.run diffbot events = some (c, before) →
      c.hardware.kestrel.isOpen = true → (∀ event ∈ cycles, event.isCycle = true) →
      cycling.run c cycles = some (next, trace) →
      (trace.flatMap fun cycle ↦ [cycle.active, cycle.grace]).Pairwise (· ≤ ·) →
      EveryStopCommanded Cycle.Moves trace ∨ EveryStopCommanded Cycle.Turns trace := by
  intro h
  have hdrive : drive [.configure, .activate (activateAt 0)]
      (driveAndStop 0 1000000000 2000000000) = some (true,
      [⟨.finite 1, .finite 0, 0, 0, false, [(some 159, some 0)]⟩,
        ⟨.finite 0, .finite 0, 1000000000, 1000000000, false, []⟩,
        ⟨.finite 0, .finite 0, 2000000000, 2000000000, false, []⟩]) := by decide +kernel
  obtain ⟨before, c, next, hbefore, hopen, hrun⟩ := exists_of_drive hdrive
  have hstops := h _ before c _ next _ hbefore hopen (driveAndStop_isCycle _ _ _) hrun
    (by decide +kernel)
  -- The first cycle is the last one that moves, and the second one already sends nothing.
  rcases hstops with hstops | hstops
  · exact absurd hstops (not_everyStopCommanded_of_head ⟨rfl, rfl⟩ rfl rfl)
  · have hturns : Cycle.Turns ⟨.finite 1, .finite 0, 0, 0, false, [(some 159, some 0)]⟩ := by
      unfold Cycle.Turns
      decide +kernel
    exact absurd hstops (not_everyStopCommanded_of_head ⟨hturns, rfl⟩ rfl rfl)

end MyDiffbot.System
