import MyDiffbot.System.Diffbot

/-!
# The component after a deactivation

`on_deactivate` stops the wheels once and zeroes the gpio commands, but it keeps the joint commands,
the tuning last sent, and the port. What the cycles send afterwards is decided by these: a `write`
compares the zeroed commands with the tuning last sent, and it hands the joint commands on.
-/

namespace MyDiffbot.System

open Protocol Numeric Transport Incremental

/-- Neither a wheel speed other than zero nor a retune. A speed whose conversion is undefined is not
a zero. -/
def Quiet : Command → Prop
  | .wheelVelocity left right => left = some 0 ∧ right = some 0
  | .setPidGains _ | .setCmdTimeout _ => False
  | _ => True

instance : DecidablePred Quiet
  | .wheelVelocity left right => inferInstanceAs (Decidable (left = some 0 ∧ right = some 0))
  | .setPidGains _ | .setCmdTimeout _ => inferInstanceAs (Decidable False)
  | .handshake | .deactivate | .reset | .rgbLedSet _ _ _ _ => inferInstanceAs (Decidable True)

/-- Activations, and commands from controllers. -/
def Event.disturbs : Event → Bool
  | .activate _ | .setJointCommand _ _ | .setGpioCommand _ _ => true
  | _ => false

namespace MyDiffbotSystemHardware

variable {h next : MyDiffbotSystemHardware}

/-! ## Zeroed commands -/

/-- Every gpio command is zero. -/
def Zeroed (h : MyDiffbotSystemHardware) : Prop :=
  ∀ name ∈ h.interfaces.gpioCommands, h.gpioCommand name = .finite 0

theorem Zeroed.overlayGains_eq_iff (hzeroed : h.Zeroed) :
    h.overlayGains = h.sentPidGains ↔
      ∀ i, gainInterface i ∈ h.interfaces.gpioCommands → h.sentPidGains i = 0 := by
  rw [funext_iff]
  refine forall_congr' fun i ↦ ?_
  rw [overlayGains_apply]
  by_cases hmem : gainInterface i ∈ h.interfaces.gpioCommands
  · simp [hmem, hzeroed _ hmem, Double.finite?, eq_comm]
  · simp [hmem]

theorem Zeroed.overlayTimeout_eq_iff (hzeroed : h.Zeroed) :
    h.overlayTimeout = h.sentCmdTimeoutMs ↔
      (timeoutInterface ∈ h.interfaces.gpioCommands → h.sentCmdTimeoutMs = 0) := by
  rw [overlayTimeout_eq]
  by_cases hmem : timeoutInterface ∈ h.interfaces.gpioCommands
  · simp [hmem, hzeroed _ hmem, Double.finite?, eq_comm]
  · simp [hmem]

/-! ## One write -/

/-- A `write` on an open port has nothing to say: the wheels stand and the tuning commands are the
ones last sent. -/
structure Resting (h : MyDiffbotSystemHardware) : Prop where
  left : Kestrel.mrpsOf h.wheelCommands.1 = some 0
  right : Kestrel.mrpsOf h.wheelCommands.2 = some 0
  gains : h.overlayGains = h.sentPidGains
  timeout : h.overlayTimeout = h.sentCmdTimeoutMs

theorem retunes_quiet_iff (h : MyDiffbotSystemHardware) :
    (∀ command ∈ h.retunes, Quiet command) ↔
      h.overlayGains = h.sentPidGains ∧ h.overlayTimeout = h.sentCmdTimeoutMs := by
  unfold retunes
  by_cases hgains : h.overlayGains = h.sentPidGains <;>
    by_cases htimeout : h.overlayTimeout = h.sentCmdTimeoutMs <;>
      simp [hgains, htimeout, Quiet]

theorem wheelFrame_quiet_iff (h : MyDiffbotSystemHardware) (input : WriteInput) :
    (∀ command ∈ (h.wheelFrame input).toList, Quiet command) ↔
      Kestrel.mrpsOf h.wheelCommands.1 = some 0 ∧ Kestrel.mrpsOf h.wheelCommands.2 = some 0 := by
  unfold wheelFrame
  cases hstopped : h.stopped with
  | false => simp [Quiet]
  | true =>
    obtain ⟨hleft, hright⟩ := (Bool.and_eq_true _ _).mp hstopped
    rw [mrpsOf_of_isZero hleft, mrpsOf_of_isZero hright]
    split <;> simp [Quiet]

/-- Whatever the clock says, a `write` is quiet exactly when the component rests. -/
theorem write_quiet_iff (h : MyDiffbotSystemHardware) (input : WriteInput)
    (hopen : h.kestrel.isOpen = true) :
    (∀ command ∈ handedCommands (h.write input).2.2, Quiet command) ↔ h.Resting := by
  obtain ⟨ledCommands, hled, hsent⟩ := h.write_handed input hopen
  have hledQuiet : ∀ command ∈ ledCommands, Quiet command := by
    intro command hcommand
    obtain ⟨_, _, _, _, rfl⟩ := hled command hcommand
    trivial
  rw [hsent, List.forall_mem_append, List.forall_mem_append, retunes_quiet_iff,
    wheelFrame_quiet_iff]
  constructor
  · rintro ⟨⟨⟨hgains, htimeout⟩, _⟩, hleft, hright⟩
    exact ⟨hleft, hright, hgains, htimeout⟩
  · rintro ⟨hleft, hright, hgains, htimeout⟩
    exact ⟨⟨⟨hgains, htimeout⟩, hledQuiet⟩, hleft, hright⟩

/-- Resting depends on the interfaces, the commands and the tuning last sent. -/
theorem Resting.congr (hrests : h.Resting) (hinterfaces : next.interfaces = h.interfaces)
    (hjoint : next.jointCommand = h.jointCommand) (hgpio : next.gpioCommand = h.gpioCommand)
    (hgains : next.sentPidGains = h.sentPidGains)
    (htimeout : next.sentCmdTimeoutMs = h.sentCmdTimeoutMs) : next.Resting := by
  have hwheels : next.wheelCommands = h.wheelCommands := by
    unfold wheelCommands
    rw [hinterfaces, hjoint]
  have hoverlay : next.overlayGains = h.overlayGains := by
    unfold overlayGains
    rw [hinterfaces, hgpio, hgains]
  have hwatchdog : next.overlayTimeout = h.overlayTimeout := by
    unfold overlayTimeout
    rw [hinterfaces, hgpio, htimeout]
  exact ⟨hwheels ▸ hrests.left, hwheels ▸ hrests.right, by rw [hoverlay, hgains, hrests.gains],
    by rw [hwatchdog, htimeout, hrests.timeout]⟩

theorem Resting.write (hrests : h.Resting) (input : WriteInput) : (h.write input).2.1.Resting := by
  cases hopen : h.kestrel.isOpen with
  | false =>
    rw [h.write_of_closed input hopen]
    exact hrests
  | true =>
    obtain ⟨k, led, send, hstate, _⟩ := h.write_state input hopen
    rw [hstate]
    exact hrests.congr rfl rfl rfl hrests.gains hrests.timeout

/-! ## The deactivation -/

/-- What makes a deactivation quiet: the wheel commands are zero once converted, and whatever gpio
`on_deactivate` zeroes was last sent as zero. -/
def AtRest (h : MyDiffbotSystemHardware) : Prop :=
  h.kestrel.isOpen = false ∨
    Kestrel.mrpsOf h.wheelCommands.1 = some 0 ∧ Kestrel.mrpsOf h.wheelCommands.2 = some 0 ∧
      (∀ i, gainInterface i ∈ h.interfaces.gpioCommands → h.sentPidGains i = 0) ∧
      (timeoutInterface ∈ h.interfaces.gpioCommands → h.sentCmdTimeoutMs = 0)

instance : DecidablePred AtRest := fun h ↦
  inferInstanceAs (Decidable (h.kestrel.isOpen = false ∨
    Kestrel.mrpsOf h.wheelCommands.1 = some 0 ∧ Kestrel.mrpsOf h.wheelCommands.2 = some 0 ∧
      (∀ i, gainInterface i ∈ h.interfaces.gpioCommands → h.sentPidGains i = 0) ∧
      (timeoutInterface ∈ h.interfaces.gpioCommands → h.sentCmdTimeoutMs = 0)))

theorem onDeactivate_resting_iff (h : MyDiffbotSystemHardware) (input : DeactivateInput) :
    (h.onDeactivate input).2.1.kestrel.isOpen = false ∨ (h.onDeactivate input).2.1.Resting ↔
      h.AtRest := by
  obtain ⟨k, hstate, hevolves⟩ := h.onDeactivate_eq input
  have hopen : (h.onDeactivate input).2.1.kestrel.isOpen = h.kestrel.isOpen := by
    rw [hstate]
    exact hevolves.isOpen
  have hwheels : (h.onDeactivate input).2.1.wheelCommands = h.wheelCommands := by
    rw [hstate]
    rfl
  have hzeroed : (h.onDeactivate input).2.1.Zeroed := by
    intro name hname
    rw [hstate] at hname ⊢
    dsimp only at hname ⊢
    rw [setEach_apply, if_pos hname]
    rfl
  have hgains := hzeroed.overlayGains_eq_iff
  have htimeout := hzeroed.overlayTimeout_eq_iff
  have hinterfaces : (h.onDeactivate input).2.1.interfaces = h.interfaces := by rw [hstate]
  have hsentGains : (h.onDeactivate input).2.1.sentPidGains = h.sentPidGains := by rw [hstate]
  have hsentTimeout : (h.onDeactivate input).2.1.sentCmdTimeoutMs = h.sentCmdTimeoutMs := by
    rw [hstate]
  unfold AtRest
  rw [← hopen, ← hwheels, ← hinterfaces, ← hsentGains, ← hsentTimeout, ← hgains, ← htimeout]
  refine or_congr Iff.rfl ⟨fun hrests ↦ ?_, fun ⟨hleft, hright, hgain, hwatchdog⟩ ↦ ?_⟩
  · exact ⟨hrests.left, hrests.right, hrests.gains, hrests.timeout⟩
  · exact ⟨hleft, hright, hgain, hwatchdog⟩

end MyDiffbotSystemHardware

/-! ## The run after it -/

/-- The invariant of the time between two sessions: the port is closed, or the component is inactive
and rests. -/
structure Silent (c : Component) : Prop where
  notActive : c.lifecycle ≠ .active
  quiet : c.hardware.kestrel.isOpen = false ∨ c.lifecycle = .inactive ∧ c.hardware.Resting

section step

variable {c next : Component} {event : Event} {events : List Event} {effects : List Effect}

theorem Silent.step (hsilent : Silent c) (hundisturbed : event.disturbs = false)
    (hstep : component.step c event = some (next, effects)) :
    Silent next ∧ ∀ command ∈ handedCommands effects, Quiet command := by
  have hnothing : ∀ command ∈ handedCommands [], Quiet command :=
    fun _ hmem ↦ absurd hmem List.not_mem_nil
  cases steps_of_step hstep with
  | setJointCommand name value => cases hundisturbed
  | setGpioCommand name value => cases hundisturbed
  | configure hlifecycle =>
    refine ⟨⟨by simp, ?_⟩, hnothing⟩
    rcases hsilent.quiet with hclosed | ⟨hinactive, _⟩
    · exact .inl hclosed
    · rw [hlifecycle] at hinactive
      cases hinactive
  | cleanup => exact ⟨⟨by simp, .inl c.hardware.onCleanup_isOpen⟩, hnothing⟩
  | activate input => cases hundisturbed
  | deactivate input hlifecycle => exact absurd hlifecycle hsilent.notActive
  | read input =>
    obtain ⟨hevolves, hsent⟩ := c.hardware.read_evolves input
    have hkeeps := c.hardware.read_keeps input
    refine ⟨⟨hsilent.notActive, hsilent.quiet.imp ?_ (And.imp_right fun hrests ↦ ?_)⟩, ?_⟩
    · exact hevolves.isOpen.trans
    · exact hrests.congr hkeeps.interfaces hkeeps.jointCommand hkeeps.gpioCommand
        hkeeps.sentPidGains hkeeps.sentCmdTimeoutMs
    · rw [handedCommands, hsent]
      exact hnothing
  | write input =>
    cases hopen : c.hardware.kestrel.isOpen with
    | false =>
      rw [c.hardware.write_of_closed input hopen]
      exact ⟨⟨hsilent.notActive, .inl hopen⟩, hnothing⟩
    | true =>
      obtain ⟨hinactive, hrests⟩ := hsilent.quiet.resolve_left (by rw [hopen]; decide)
      exact ⟨⟨hsilent.notActive, .inr ⟨hinactive, hrests.write input⟩⟩,
        (c.hardware.write_quiet_iff input hopen).mpr hrests⟩

theorem Silent.run (hsilent : Silent c) (hundisturbed : ∀ event ∈ events, event.disturbs = false)
    (hrun : component.run c events = some (next, effects)) :
    ∀ command ∈ handedCommands effects, Quiet command := by
  refine (Machine.run_invariant_nil
    (fun state trace ↦ Silent state ∧ ∀ command ∈ handedCommands trace, Quiet command)
    (fun ⟨hbefore, hquiet⟩ hallowed hstep ↦ ?_) hrun
    (Machine.along_of_forall hundisturbed) ⟨hsilent, fun _ hmem ↦ absurd hmem List.not_mem_nil⟩).2
  obtain ⟨hafter, hsent⟩ := hbefore.step hallowed hstep
  rw [handedCommands_append]
  exact ⟨hafter, List.forall_mem_append.mpr ⟨hquiet, hsent⟩⟩

/-- After a deactivation no cycle sends a wheel speed or a retune, in whatever run follows without
an activation or a new command, exactly when the component was at rest before it. -/
theorem deactivated_quiet_iff {input : MyDiffbotSystemHardware.DeactivateInput}
    (hstep : component.step c (.deactivate input) = some (next, effects)) :
    (∀ events final later, (∀ event ∈ events, event.disturbs = false) →
        component.run next events = some (final, later) →
        ∀ command ∈ handedCommands later, Quiet command) ↔
      c.hardware.AtRest := by
  cases steps_of_step hstep with
  | deactivate _ hlifecycle =>
    rw [← c.hardware.onDeactivate_resting_iff input]
    constructor
    · intro hquiet
      cases hopen : (c.hardware.onDeactivate input).2.1.kestrel.isOpen with
      | false => exact .inl rfl
      | true =>
        -- A single `write` decides.
        refine .inr ((MyDiffbotSystemHardware.write_quiet_iff _ (writeAt 0) hopen).mp ?_)
        refine hquiet [.write (writeAt 0)] _ _ (by simp [Event.disturbs])
          (Machine.run_cons_eq_some.mpr ⟨_, _, [], rfl, rfl, (List.append_nil _).symm⟩)
    · intro hrest events final later hundisturbed hrun
      exact Silent.run ⟨by simp, hrest.imp_right fun hrests ↦ ⟨rfl, hrests⟩⟩ hundisturbed hrun

end step

/-! ## Two deactivations -/

/-- The robot without tuning interfaces. -/
def untunedDiffbot : Component :=
  .unconfigured (MyDiffbotSystemHardware.onInit
    { diffbotInfo with gpios := diffbotInfo.gpios.take 1 } diffbotParameters).2

/-- Its joint commands are those of the activation, zero, and there is nothing to retune. -/
theorem deactivated_quiet_untuned :
    ∃ c next effects, component.step c (.deactivate deactivateAcked) = some (next, effects) ∧
      next.hardware.kestrel.isOpen = true ∧
      ∀ events final later, (∀ event ∈ events, event.disturbs = false) →
        component.run next events = some (final, later) →
        ∀ command ∈ handedCommands later, Quiet command := by
  have hrun : ((component.run untunedDiffbot [.configure, .activate (activateAt 100)]).bind
      fun c ↦ (component.step c.1 (.deactivate deactivateAcked)).map fun next ↦
        (decide c.1.hardware.AtRest, next.1.hardware.kestrel.isOpen)) = some (true, true) := by
    decide +kernel
  obtain ⟨⟨c, _⟩, _, hnext⟩ := Option.bind_eq_some_iff.mp hrun
  obtain ⟨⟨next, effects⟩, hstep, hflags⟩ := Option.map_eq_some_iff.mp hnext
  obtain ⟨hrest, hopen⟩ := Prod.mk.inj hflags
  exact ⟨c, next, effects, hstep, hopen,
    (deactivated_quiet_iff hstep).mpr (of_decide_eq_true hrest)⟩

/-- The commands sent after a deactivation. -/
def sentAfterDeactivate (events later : List Event) : Option (List Command) := do
  let (c, _) ← component.run diffbot events
  let (next, _) ← component.step c (.deactivate deactivateAcked)
  let (_, effects) ← component.run next later
  return handedCommands effects

theorem exists_of_sentAfterDeactivate {events later : List Event} {commands : List Command}
    (h : sentAfterDeactivate events later = some commands) :
    ∃ c before next effects final sent, component.run diffbot events = some (c, before) ∧
      component.step c (.deactivate deactivateAcked) = some (next, effects) ∧
      component.run next later = some (final, sent) ∧ handedCommands sent = commands := by
  obtain ⟨⟨c, before⟩, hbefore, h⟩ := Option.bind_eq_some_iff.mp h
  obtain ⟨⟨next, effects⟩, hstep, h⟩ := Option.bind_eq_some_iff.mp h
  obtain ⟨⟨final, sent⟩, hlater, h⟩ := Option.bind_eq_some_iff.mp h
  exact ⟨c, before, next, effects, final, sent, hbefore, hstep, hlater, Option.some.inj h⟩

/-- With the tuning of the description and a wheel command left over, the first `write` retunes to
zero gains and to a zero watchdog, and the wheel turns again. -/
theorem not_deactivated_quiet :
    ¬∀ events c before next effects, component.run diffbot events = some (c, before) →
      component.step c (.deactivate deactivateAcked) = some (next, effects) →
      ∀ later final sent, (∀ event ∈ later, event.disturbs = false) →
        component.run next later = some (final, sent) →
        ∀ command ∈ handedCommands sent, Quiet command := by
  intro h
  have hsent : (sentAfterDeactivate
      [.configure, .activate (activateAt 100), .setJointCommand leftVelocity (.finite 1)]
      [.write (writeAt 200)]).map (List.map fun command ↦ decide (Quiet command)) =
      some [false, false, true, false] := by decide +kernel
  obtain ⟨commands, hcommands, hflags⟩ := Option.map_eq_some_iff.mp hsent
  obtain ⟨c, before, next, effects, final, sent, hbefore, hstep, hlater, rfl⟩ :=
    exists_of_sentAfterDeactivate hcommands
  have hloud : false ∈ (handedCommands sent).map fun command ↦ decide (Quiet command) := by
    rw [hflags]
    exact List.mem_cons_self
  obtain ⟨command, hmem, hcommand⟩ := List.mem_map.mp hloud
  have hundisturbed : ∀ event ∈ [Event.write (writeAt 200)], event.disturbs = false := by
    simp [Event.disturbs]
  have hquiet := h _ c before next effects hbefore hstep _ final sent hundisturbed hlater
  exact of_decide_eq_false hcommand (hquiet command hmem)

end MyDiffbot.System
