import MyDiffbot.Incremental.Machine
import MyDiffbot.System.Effects

/-!
# Runs of the component

The component in the lifecycle that `ros2_control` imposes: it is configured before it is activated,
deactivated before it is cleaned up, and read and written in every state but the unconfigured one.
Controllers write command interfaces at any time. A run is any sequence of these events, with any
bytes, clock readings and failures. Errors and shutdown end a run and are not modelled.
-/

namespace MyDiffbot.System

open Protocol Numeric Transport Incremental

inductive LifecycleState
  | unconfigured
  | inactive
  | active
  deriving DecidableEq, Repr

structure Component where
  hardware : MyDiffbotSystemHardware
  lifecycle : LifecycleState

inductive Event
  | setJointCommand (name : InterfaceDescription) (value : Double)
  | setGpioCommand (name : InterfaceDescription) (value : Double)
  | configure
  | cleanup
  | activate (input : MyDiffbotSystemHardware.ActivateInput)
  | deactivate (input : MyDiffbotSystemHardware.DeactivateInput)
  | read (input : MyDiffbotSystemHardware.ReadInput)
  | write (input : MyDiffbotSystemHardware.WriteInput)

namespace Component

/-- The component before it is configured. -/
def unconfigured (h : MyDiffbotSystemHardware) : Component := ⟨h, .unconfigured⟩

def step (c : Component) : Event → Option (Component × List Effect)
  | .setJointCommand name value =>
    if name ∈ c.hardware.interfaces.jointCommands then
      some ({ c with hardware :=
        { c.hardware with jointCommand := Function.update c.hardware.jointCommand name value } },
        [])
    else none
  | .setGpioCommand name value =>
    if name ∈ c.hardware.interfaces.gpioCommands then
      some ({ c with hardware :=
        { c.hardware with gpioCommand := Function.update c.hardware.gpioCommand name value } }, [])
    else none
  | .configure =>
    if c.lifecycle = .unconfigured then some (⟨c.hardware.onConfigure.2, .inactive⟩, []) else none
  | .cleanup =>
    if c.lifecycle = .inactive then some (⟨c.hardware.onCleanup.2, .unconfigured⟩, []) else none
  | .activate input =>
    if c.lifecycle = .inactive then
      let result := c.hardware.onActivate input
      some (⟨result.2.1, if result.1 = .success then .active else .inactive⟩, result.2.2)
    else none
  | .deactivate input =>
    if c.lifecycle = .active then
      let result := c.hardware.onDeactivate input
      some (⟨result.2.1, .inactive⟩, result.2.2)
    else none
  | .read input =>
    if c.lifecycle = .unconfigured then none
    else
      let result := c.hardware.read input
      some ({ c with hardware := result.2.1 }, result.2.2)
  | .write input =>
    if c.lifecycle = .unconfigured then none
    else
      let result := c.hardware.write input
      some ({ c with hardware := result.2.1 }, result.2.2)

/-- Everything a step can do, with the states of the lifecycle in which it can do it. -/
inductive Steps (c : Component) : Event → Component → List Effect → Prop
  | setJointCommand (name : InterfaceDescription) (value : Double)
      (hname : name ∈ c.hardware.interfaces.jointCommands) :
      Steps c (.setJointCommand name value) { c with hardware :=
        { c.hardware with jointCommand := Function.update c.hardware.jointCommand name value } } []
  | setGpioCommand (name : InterfaceDescription) (value : Double)
      (hname : name ∈ c.hardware.interfaces.gpioCommands) :
      Steps c (.setGpioCommand name value) { c with hardware :=
        { c.hardware with gpioCommand := Function.update c.hardware.gpioCommand name value } } []
  | configure (hlifecycle : c.lifecycle = .unconfigured) :
      Steps c .configure ⟨c.hardware.onConfigure.2, .inactive⟩ []
  | cleanup (hlifecycle : c.lifecycle = .inactive) :
      Steps c .cleanup ⟨c.hardware.onCleanup.2, .unconfigured⟩ []
  | activate (input : MyDiffbotSystemHardware.ActivateInput) (hlifecycle : c.lifecycle = .inactive)
      (state : LifecycleState)
      (hstate : state =
        if (c.hardware.onActivate input).1 = .success then .active else .inactive) :
      Steps c (.activate input) ⟨(c.hardware.onActivate input).2.1, state⟩
        (c.hardware.onActivate input).2.2
  | deactivate (input : MyDiffbotSystemHardware.DeactivateInput)
      (hlifecycle : c.lifecycle = .active) :
      Steps c (.deactivate input) ⟨(c.hardware.onDeactivate input).2.1, .inactive⟩
        (c.hardware.onDeactivate input).2.2
  | read (input : MyDiffbotSystemHardware.ReadInput) (hlifecycle : c.lifecycle ≠ .unconfigured) :
      Steps c (.read input) { c with hardware := (c.hardware.read input).2.1 }
        (c.hardware.read input).2.2
  | write (input : MyDiffbotSystemHardware.WriteInput) (hlifecycle : c.lifecycle ≠ .unconfigured) :
      Steps c (.write input) { c with hardware := (c.hardware.write input).2.1 }
        (c.hardware.write input).2.2

end Component

def component : Machine Component Event Effect where
  step := Component.step

theorem steps_of_step {c next : Component} {event : Event} {effects : List Effect}
    (hstep : component.step c event = some (next, effects)) : c.Steps event next effects := by
  cases event with
  | setJointCommand name value | setGpioCommand name value | configure | cleanup | activate input
  | deactivate input =>
    simp only [component, Component.step] at hstep
    split at hstep
    · obtain ⟨rfl, rfl⟩ := Prod.mk.inj (Option.some.inj hstep)
      constructor <;> first | assumption | rfl
    · cases hstep
  | read input | write input =>
    simp only [component, Component.step] at hstep
    split at hstep
    · cases hstep
    · obtain ⟨rfl, rfl⟩ := Prod.mk.inj (Option.some.inj hstep)
      constructor
      assumption

theorem success_of_active {c next : Component} {input : MyDiffbotSystemHardware.ActivateInput}
    {effects : List Effect} (hstep : component.step c (.activate input) = some (next, effects))
    (hactive : next.lifecycle = .active) : (c.hardware.onActivate input).1 = .success := by
  cases steps_of_step hstep with
  | activate input hlifecycle state hstate =>
    by_contra hfailed
    rw [if_neg hfailed] at hstate
    rw [hstate] at hactive
    cases hactive

/-! ## What every step keeps -/

/-- The description of the hardware and its encoder resolution never change, and the feedback
follows the messages that are parsed. -/
structure Continues (c : Component) (effects : List Effect) (next : Component) : Prop where
  interfaces : next.hardware.interfaces = c.hardware.interfaces
  cpr : next.hardware.cpr = c.hardware.cpr
  feedback : next.hardware.kestrel.feedback =
    (parsedMessages effects).foldl Feedback.onMessageReceived c.hardware.kestrel.feedback

theorem continues_refl (c : Component) : Continues c [] c := ⟨rfl, rfl, rfl⟩

theorem Continues.trans {c middle next : Component} {effects later : List Effect}
    (first : Continues c effects middle) (second : Continues middle later next) :
    Continues c (effects ++ later) next where
  interfaces := second.interfaces.trans first.interfaces
  cpr := second.cpr.trans first.cpr
  feedback := by
    rw [second.feedback, first.feedback, parsedMessages_append, List.foldl_append]

variable {c next : Component} {event : Event} {effects : List Effect}

theorem write_keeps (h : MyDiffbotSystemHardware) (input : MyDiffbotSystemHardware.WriteInput) :
    ∃ k gains timeout led send active, (h.write input).2.1 =
        { h with
          kestrel := k
          sentPidGains := gains
          sentCmdTimeoutMs := timeout
          sentLed := led
          lastLedSend := send
          lastActiveTime := active } ∧
      h.kestrel.Evolves (h.write input).2.2 k := by
  cases hopen : h.kestrel.isOpen with
  | false =>
    rw [h.write_of_closed input hopen]
    exact ⟨_, _, _, _, _, _, rfl, .refl _⟩
  | true =>
    obtain ⟨k, led, send, hstate, hevolves⟩ := h.write_state input hopen
    exact ⟨k, _, _, led, send, _, hstate, hevolves⟩

theorem step_continues (hstep : component.step c event = some (next, effects)) :
    Continues c effects next := by
  cases steps_of_step hstep with
  | setJointCommand name value => exact ⟨rfl, rfl, rfl⟩
  | setGpioCommand name value => exact ⟨rfl, rfl, rfl⟩
  | configure => exact ⟨rfl, rfl, rfl⟩
  | cleanup => exact ⟨rfl, rfl, rfl⟩
  | activate input =>
    have hkeeps := (c.hardware.onActivate_keeps input).1
    exact ⟨hkeeps.interfaces, hkeeps.cpr, hkeeps.feedback⟩
  | deactivate input =>
    obtain ⟨k, hstate, hevolves⟩ := c.hardware.onDeactivate_eq input
    refine ⟨?_, ?_, ?_⟩ <;> dsimp only <;> rw [hstate]
    exact hevolves.feedback
  | read input =>
    have hkeeps := c.hardware.read_keeps input
    exact ⟨hkeeps.interfaces, hkeeps.cpr, (c.hardware.read_evolves input).1.feedback⟩
  | write input =>
    obtain ⟨k, _, _, _, _, _, hstate, hevolves⟩ := write_keeps c.hardware input
    refine ⟨?_, ?_, ?_⟩ <;> dsimp only <;> rw [hstate]
    exact hevolves.feedback

theorem run_continues {events : List Event}
    (hrun : component.run c events = some (next, effects)) : Continues c effects next :=
  Machine.run_invariant_nil (fun state trace ↦ Continues c trace state)
    (fun hbefore _ hstep ↦ hbefore.trans (step_continues hstep)) hrun
    (Machine.along_true c events) (continues_refl c)

end MyDiffbot.System
