import MyDiffbot.System.Tuning

/-!
# Two paths for one setting

A gain or the watchdog timeout reaches the base by two paths: as a hardware parameter, which
`on_init` converts and the activation sends, or as a gpio command, which `WriteTuning` clamps. For
the gains both say the same. The conversion of the timeout wraps where the clamp saturates, and a
parameter that is no `int` is sent nowhere, so the paths of the timeout meet only where wrapping and
saturating agree. Compared is what either path hands to the port; a write that throws loses it on
both.
-/

namespace MyDiffbot.System

open Protocol Numeric Transport Incremental

/-! ## Paths -/

/-- The parameter of a gain, if it is given. -/
def HardwareParameters.gain (i : Fin 6) (params : HardwareParameters) : Option Int32 :=
  ![params.kpL, params.kiL, params.kdL, params.kpR, params.kiR, params.kdR] i

/-- The component with these parameters may come to be in state `c`. -/
def Reached (params : HardwareParameters) (c : Component) : Prop :=
  ∃ info events effects, component.run
    (.unconfigured (MyDiffbotSystemHardware.onInit info params).2) events = some (c, effects)

/-- A controller sets an interface. -/
def Event.sets (name : InterfaceDescription) : Event → Bool
  | .setGpioCommand other _ => decide (other = name)
  | _ => false

/-- What comes of an integer that is given as a parameter: the effects of an activation of the
component, or none at all if `std::stoi` throws. -/
inductive ByParameter (parameter : HardwareParameters → Option Int32) (v : ℤ) : List Effect → Prop
  | refused (hthrows : stoi v = none) : ByParameter parameter v []
  | activation {params : HardwareParameters} {value : Int32} {before begun : Component}
      {input : MyDiffbotSystemHardware.ActivateInput} {effects : List Effect}
      (hvalue : stoi v = some value) (hparameter : parameter params = some value)
      (hbefore : Reached params before)
      (hactivate : component.step before (.activate input) = some (begun, effects))
      (hactive : begun.lifecycle = .active) : ByParameter parameter v effects

/-- The effects of a session, from its activation to a `write` at which an interface has the value
that a controller has set. -/
inductive ByCommand (params : HardwareParameters) (name : InterfaceDescription) (value : Double) :
    List Effect → Prop
  | session {before begun after : Component} {input : MyDiffbotSystemHardware.ActivateInput}
      {effects later : List Effect} {front middle : List Event}
      {write : MyDiffbotSystemHardware.WriteInput} (hbefore : Reached params before)
      (hactivate : component.step before (.activate input) = some (begun, effects))
      (hactive : begun.lifecycle = .active)
      (hfront : ∀ event ∈ front, event.isCycle = true)
      (hmiddle : ∀ event ∈ middle, event.isCycle = true ∧ event.sets name = false)
      (hrun : component.run begun (front ++ .setGpioCommand name value :: (middle ++ [.write write])) =
        some (after, later)) : ByCommand params name value (effects ++ later)

/-! ## What the base was told -/

/-- The invariant of a session: the frames sent last hold the tuning remembered as sent. -/
structure Told (c : Component) (effects : List Effect) : Prop where
  isOpen : c.hardware.kestrel.isOpen = true
  gains : (gainFrames effects).getLast? = some fun i ↦ clamped int32 (c.hardware.sentPidGains i)
  timeout : (timeoutFrames effects).getLast? =
    some fun _ ↦ clamped uint16 c.hardware.sentCmdTimeoutMs

section told

variable {c next : Component} {effects later : List Effect} {event : Event} {events : List Event}

/-- Steps that send no tuning and remember the same. -/
theorem Told.congr (h : Told c effects)
    (hopen : next.hardware.kestrel.isOpen = c.hardware.kestrel.isOpen)
    (hgains : next.hardware.sentPidGains = c.hardware.sentPidGains)
    (htimeout : next.hardware.sentCmdTimeoutMs = c.hardware.sentCmdTimeoutMs)
    (hsent : handedCommands later = []) : Told next (effects ++ later) where
  isOpen := hopen.trans h.isOpen
  gains := by
    rw [gainFrames_append, gainFrames, gainFrames, hsent, List.filterMap_nil, List.append_nil,
      hgains]
    exact h.gains
  timeout := by
    rw [timeoutFrames_append, timeoutFrames, timeoutFrames, hsent, List.filterMap_nil,
      List.append_nil, htimeout]
    exact h.timeout

theorem Told.write (h : Told c effects) (input : MyDiffbotSystemHardware.WriteInput) :
    Told { c with hardware := (c.hardware.write input).2.1 }
      (effects ++ (c.hardware.write input).2.2) := by
  obtain ⟨hgains, htimeout⟩ := c.hardware.write_tuningFrames input h.isOpen
  obtain ⟨k, _, _, hstate, hevolves⟩ := c.hardware.write_state input h.isOpen
  refine ⟨?_, ?_, ?_⟩ <;> dsimp only <;> rw [hstate]
  · exact hevolves.isOpen.trans h.isOpen
  · rw [gainFrames_append, hgains, List.getLast?_append, h.gains,
      MyDiffbotSystemHardware.retunes]
    by_cases hsame : c.hardware.overlayGains = c.hardware.sentPidGains
    · rw [if_neg (not_not.mpr hsame), hsame]
      split <;> rfl
    · rw [if_pos hsame]
      split <;> rfl
  · rw [timeoutFrames_append, htimeout, List.getLast?_append, h.timeout,
      MyDiffbotSystemHardware.retunes]
    by_cases hsame : c.hardware.overlayTimeout = c.hardware.sentCmdTimeoutMs
    · rw [if_neg (not_not.mpr hsame), hsame]
      split <;> rfl
    · rw [if_pos hsame]
      split <;> rfl

theorem Told.step (h : Told c effects) (hcycle : event.isCycle = true)
    (hstep : component.step c event = some (next, later)) : Told next (effects ++ later) := by
  cases steps_of_step hstep with
  | setJointCommand name value => exact h.congr rfl rfl rfl rfl
  | setGpioCommand name value => exact h.congr rfl rfl rfl rfl
  | read input =>
    have hkeeps := c.hardware.read_keeps input
    obtain ⟨hevolves, hnothing⟩ := c.hardware.read_evolves input
    exact h.congr hevolves.isOpen hkeeps.sentPidGains hkeeps.sentCmdTimeoutMs
      (List.map_eq_nil_iff.mpr hnothing)
  | write input => exact h.write input
  | configure | cleanup | activate input | deactivate input => cases hcycle

theorem Told.run (h : Told c effects) (hcycles : ∀ event ∈ events, event.isCycle = true)
    (hrun : component.run c events = some (next, later)) : Told next (effects ++ later) :=
  Machine.run_invariant Told (fun hbefore hcycle hstep ↦ hbefore.step hcycle hstep) hrun
    (Machine.along_of_forall hcycles) h

/-- A successful activation has told the base the configured tuning. -/
theorem told_of_activate {before begun : Component} {input : MyDiffbotSystemHardware.ActivateInput}
    (htyped : before.hardware.Typed)
    (hactivate : component.step before (.activate input) = some (begun, effects))
    (hactive : begun.lifecycle = .active) : Told begun effects := by
  obtain ⟨htuned, hgains, htimeout, hgainFrames, htimeoutFrames⟩ :=
    tuned_of_active hactivate hactive
  refine ⟨htuned.isOpen, ?_, ?_⟩
  · rw [hgainFrames, htuned.sentPidGains, hgains, List.getLast?_singleton]
    exact congrArg some (funext fun i ↦ (clamped_intCast (htyped.gains i)).symm)
  · rw [htimeoutFrames, htuned.sentCmdTimeoutMs, htimeout, List.getLast?_singleton]
    exact congrArg some (funext fun _ ↦ (clamped_intCast htyped.timeout).symm)

/-! ## Commands between two writes -/

/-- An interface that exists has a value. -/
def Commanded (name : InterfaceDescription) (value : Double) (c : Component) : Prop :=
  name ∈ c.hardware.interfaces.gpioCommands ∧ c.hardware.gpioCommand name = value

variable {name : InterfaceDescription} {value : Double}

/-- Only a controller that sets an interface changes its value. -/
theorem Commanded.step (h : Commanded name value c)
    (hcycle : event.isCycle = true ∧ event.sets name = false)
    (hstep : component.step c event = some (next, later)) : Commanded name value next := by
  cases steps_of_step hstep with
  | setJointCommand other value => exact h
  | setGpioCommand other command =>
    have hother : name ≠ other := fun hname ↦ of_decide_eq_false hcycle.2 hname.symm
    exact ⟨h.1, (Function.update_of_ne hother command c.hardware.gpioCommand).trans h.2⟩
  | read input =>
    have hkeeps := c.hardware.read_keeps input
    exact ⟨hkeeps.interfaces ▸ h.1, (congrFun hkeeps.gpioCommand name).trans h.2⟩
  | write input =>
    obtain ⟨_, _, _, _, _, _, hstate, _⟩ := write_keeps c.hardware input
    unfold Commanded
    dsimp only
    rw [hstate]
    exact h
  | configure | cleanup | activate input | deactivate input => cases hcycle.1

theorem Commanded.run (h : Commanded name value c)
    (hcycles : ∀ event ∈ events, event.isCycle = true ∧ event.sets name = false)
    (hrun : component.run c events = some (next, later)) : Commanded name value next :=
  Machine.run_invariant_nil (fun c _ ↦ Commanded name value c)
    (fun hbefore hcycle hstep ↦ hbefore.step hcycle hstep) hrun (Machine.along_of_forall hcycles) h

/-- After a `write` the value of a tuning command is remembered as sent. -/
theorem Commanded.write {v : ℚ} (input : MyDiffbotSystemHardware.WriteInput)
    (hopen : c.hardware.kestrel.isOpen = true) :
    (Commanded timeoutInterface (.finite v) c →
      (c.hardware.write input).2.1.sentCmdTimeoutMs = v) ∧
    ∀ i, Commanded (gainInterface i) (.finite v) c →
      (c.hardware.write input).2.1.sentPidGains i = v := by
  obtain ⟨k, _, _, hstate, hevolves⟩ := c.hardware.write_state input hopen
  rw [hstate]
  refine ⟨fun ⟨hmem, hvalue⟩ ↦ ?_, fun i ⟨hmem, hvalue⟩ ↦ ?_⟩
  · exact c.hardware.overlayTimeout_eq.trans (by rw [if_pos hmem, hvalue]; rfl)
  · exact (c.hardware.overlayGains_apply i).trans (by rw [if_pos hmem, hvalue]; rfl)

end told

/-! ## What each path says -/

theorem run_gains {c next : Component} {events : List Event} {effects : List Effect}
    (hrun : component.run c events = some (next, effects)) :
    next.hardware.gains = c.hardware.gains ∧
      next.hardware.cmdTimeoutMs = c.hardware.cmdTimeoutMs := by
  refine Machine.run_invariant_nil (fun next _ ↦ next.hardware.gains = c.hardware.gains ∧
    next.hardware.cmdTimeoutMs = c.hardware.cmdTimeoutMs) ?_ hrun (Machine.along_true c events)
    ⟨rfl, rfl⟩
  intro middle _ event next effects hbefore _ hstep
  obtain ⟨hgains, htimeout⟩ := step_gains hstep
  exact ⟨hgains.trans hbefore.1, htimeout.trans hbefore.2⟩

theorem toInt_of_stoi {v : ℤ} {value : Int32} (h : stoi v = some value) : value.toInt = v := by
  unfold stoi at h
  split_ifs at h with hfits
  rw [← Option.some.inj h]
  exact Int32.toInt_ofInt_of_le hfits.1 hfits.2

section paths

variable {params : HardwareParameters} {c : Component} {effects : List Effect} {v : ℤ}

theorem Reached.typed (h : Reached params c) : c.hardware.Typed := by
  obtain ⟨info, events, effects, hrun⟩ := h
  exact run_typed (onInit_typed info params) hrun

theorem Reached.gains {i : Fin 6} {value : Int32} (h : Reached params c)
    (hvalue : params.gain i = some value) : c.hardware.gains i = value.toInt := by
  obtain ⟨info, events, effects, hrun⟩ := h
  rw [(run_gains hrun).1]
  change (MyDiffbotSystemHardware.onInit info params).2.gains i = value.toInt
  rw [(onInit_tuning info params).1]
  fin_cases i <;> exact congrArg Int32.toInt ((congrArg (Option.getD · _) hvalue).trans rfl)

theorem Reached.cmdTimeoutMs {value : Int32} (h : Reached params c)
    (hvalue : params.cmdTimeoutMs = some value) :
    c.hardware.cmdTimeoutMs = value.toInt % 2 ^ 16 := by
  obtain ⟨info, events, effects, hrun⟩ := h
  rw [(run_gains hrun).2]
  change (MyDiffbotSystemHardware.onInit info params).2.cmdTimeoutMs = _
  rw [(onInit_tuning info params).2, hvalue]
  rfl

/-- By the parameter the timeout is wrapped, if it is an `int`. -/
theorem ByParameter.timeout (h : ByParameter HardwareParameters.cmdTimeoutMs v effects) :
    (timeoutFrames effects).getLast? = (stoi v).map fun _ _ ↦ v % 2 ^ 16 := by
  cases h with
  | refused hthrows =>
    rw [hthrows]
    rfl
  | activation hvalue hparameter hbefore hactivate hactive =>
    obtain ⟨_, _, _, _, htimeoutFrames⟩ := tuned_of_active hactivate hactive
    rw [htimeoutFrames, hbefore.cmdTimeoutMs hparameter, toInt_of_stoi hvalue, hvalue]
    rfl

/-- A gain that is an `int` is sent as it is. -/
theorem ByParameter.gain {i : Fin 6} (hfits : -2 ^ 31 ≤ v ∧ v < 2 ^ 31)
    (h : ByParameter (HardwareParameters.gain i) v effects) :
    ∃ gains, (gainFrames effects).getLast? = some gains ∧ gains i = v := by
  cases h with
  | refused hthrows =>
    rw [stoi, if_pos hfits] at hthrows
    cases hthrows
  | activation hvalue hparameter hbefore hactivate hactive =>
    obtain ⟨_, _, _, hgainFrames, _⟩ := tuned_of_active hactivate hactive
    rw [hgainFrames]
    exact ⟨_, rfl, (hbefore.gains hparameter).trans (toInt_of_stoi hvalue)⟩

/-- By the command both are clamped. -/
theorem ByCommand.frames {name : InterfaceDescription} {value : ℚ}
    (h : ByCommand params name (.finite value) effects) :
    (name = timeoutInterface →
      (timeoutFrames effects).getLast? = some fun _ ↦ clamped uint16 value) ∧
    ∃ gains, (gainFrames effects).getLast? = some gains ∧
      ∀ i, name = gainInterface i → gains i = clamped int32 value := by
  obtain ⟨hbefore, hactivate, hactive, hfront, hmiddle, hrun⟩ := h
  rename_i write
  obtain ⟨ready, first, rest, hready, hrest, rfl⟩ := Machine.run_append_eq_some.mp hrun
  obtain ⟨set, second, others, hset, hothers, rfl⟩ := Machine.run_cons_eq_some.mp hrest
  obtain ⟨last, third, final, hlast, hfinal, rfl⟩ := Machine.run_append_eq_some.mp hothers
  obtain ⟨after, fourth, none, hwrite, hnone, rfl⟩ := Machine.run_cons_eq_some.mp hfinal
  obtain ⟨rfl, rfl⟩ := Prod.mk.inj (Option.some.inj hnone)
  have htold := (((told_of_activate hbefore.typed hactivate hactive).run hfront
    hready).step rfl hset).run (fun event hevent ↦ (hmiddle event hevent).1) hlast
  have hcommanded : Commanded name (.finite value) last := by
    refine Commanded.run ?_ hmiddle hlast
    cases steps_of_step hset with
    | setGpioCommand name value hname => exact ⟨hname, Function.update_self ..⟩
  have htold' := htold.step rfl hwrite
  simp only [List.append_assoc, List.append_nil] at htold' ⊢
  cases steps_of_step hwrite with
  | write input hlifecycle =>
    obtain ⟨htimeout, hgains⟩ := @Commanded.write last value write htold.isOpen
    refine ⟨?_, _, htold'.gains, ?_⟩
    · rintro rfl
      rw [htold'.timeout]
      dsimp only
      rw [htimeout hcommanded]
    · rintro i rfl
      dsimp only
      rw [hgains i hcommanded]

end paths

/-! ## Agreement -/

theorem clamped_uint16 (v : ℤ) :
    clamped uint16 v = if v < 0 then 0 else if 65535 < v then 65535 else v := by
  have hlowest : ((uint16.lowest : ℤ) : ℚ) = ((0 : ℤ) : ℚ) := rfl
  have hmax : ((uint16.max : ℤ) : ℚ) = ((65535 : ℤ) : ℚ) := rfl
  unfold clamped Double.clampCast Double.clamp
  dsimp only
  simp only [hlowest, hmax, Int.cast_lt]
  split_ifs <;> exact truncate_intCast _

/-- Wrapping and saturating agree in the range, below it on the multiples of `2 ^ 16`, and above it
on the values that wrap to the largest one. -/
theorem wrap_eq_clamped_iff (v : ℤ) :
    v % 2 ^ 16 = clamped uint16 v ↔
      (0 ≤ v ∧ v ≤ 65535) ∨ (v < 0 ∧ 65536 ∣ v) ∨ (65535 < v ∧ v % 65536 = 65535) := by
  rw [clamped_uint16]
  split_ifs <;> omega

/-- The integers that are the same timeout by both paths. -/
def PathsMeet (v : ℤ) : Prop :=
  (0 ≤ v ∧ v ≤ 65535) ∨ (-2 ^ 31 ≤ v ∧ v < 0 ∧ 65536 ∣ v) ∨
    (65535 < v ∧ v < 2 ^ 31 ∧ v % 65536 = 65535)

theorem stoi_eq_clamped_iff (v : ℤ) :
    ((stoi v).map fun _ (_ : Unit) ↦ v % 2 ^ 16) = some (fun _ ↦ clamped uint16 v) ↔
      PathsMeet v := by
  unfold stoi PathsMeet
  split_ifs with hfits
  · have hsame : ((fun _ : Unit ↦ v % 2 ^ 16) = fun _ ↦ clamped uint16 v) ↔
        v % 2 ^ 16 = clamped uint16 v :=
      ⟨fun h ↦ congrFun h (), fun h ↦ funext fun _ ↦ h⟩
    rw [Option.map_some, Option.some_inj, hsame, wrap_eq_clamped_iff]
    omega
  · rw [Option.map_none]
    refine ⟨nofun, fun hmeet ↦ ?_⟩
    omega

/-- Every `int` is the same gain by both paths. An integer is the same timeout by both exactly if it
is an `int` on which wrapping and saturating agree. -/
theorem tuning_paths_agree_iff (v : ℤ) :
    (∀ (params : HardwareParameters) (effects effects' : List Effect),
      ByParameter HardwareParameters.cmdTimeoutMs v effects →
      ByCommand params timeoutInterface (.finite v) effects' →
      ∃ timeout, (timeoutFrames effects').getLast? = some timeout ∧
        ((timeoutFrames effects).getLast? = some timeout ↔ PathsMeet v)) ∧
    ∀ (i : Fin 6) (params : HardwareParameters) (effects effects' : List Effect),
      -2 ^ 31 ≤ v ∧ v < 2 ^ 31 → ByParameter (HardwareParameters.gain i) v effects →
      ByCommand params (gainInterface i) (.finite v) effects' →
      ∃ gains gains', (gainFrames effects).getLast? = some gains ∧
        (gainFrames effects').getLast? = some gains' ∧ gains i = gains' i := by
  refine ⟨fun params effects effects' hset hcommand ↦ ?_,
    fun i params effects effects' hfits hset hcommand ↦ ?_⟩
  · refine ⟨_, hcommand.frames.1 rfl, ?_⟩
    rw [hset.timeout]
    exact stoi_eq_clamped_iff v
  · obtain ⟨gains, hgains, hconfigured⟩ := hset.gain hfits
    obtain ⟨_, gains', hgains', hclamped⟩ := hcommand.frames
    refine ⟨gains, gains', hgains, hgains', ?_⟩
    rw [hconfigured, hclamped i rfl, clamped_intCast ⟨hfits.1, Int.le_sub_one_of_lt hfits.2⟩]

/-! ## The robot's watchdog -/

/-- The robot of the description package, but for the timeout. -/
def watchdogParameters (timeoutMs : Int32) : HardwareParameters :=
  { diffbotParameters with cmdTimeoutMs := some timeoutMs }

/-- The lifecycle of the robot with these parameters after an activation, and the timeouts its base is
sent from then on. -/
def toldTimeouts (params : HardwareParameters) (events : List Event)
    (input : MyDiffbotSystemHardware.ActivateInput) (cycles : List Event) :
    Option (LifecycleState × List ℤ × List ℤ) := do
  let (before, _) ← component.run
    (.unconfigured (MyDiffbotSystemHardware.onInit diffbotInfo params).2) events
  let (begun, effects) ← component.step before (.activate input)
  let (_, later) ← component.run begun cycles
  return (begun.lifecycle, (timeoutFrames effects).map (· ()),
    (timeoutFrames (effects ++ later)).map (· ()))

theorem exists_of_toldTimeouts {params : HardwareParameters} {events cycles : List Event}
    {input : MyDiffbotSystemHardware.ActivateInput} {lifecycle : LifecycleState}
    {configured commanded : List ℤ}
    (h : toldTimeouts params events input cycles = some (lifecycle, configured, commanded)) :
    ∃ before begun after effects later, Reached params before ∧
      component.step before (.activate input) = some (begun, effects) ∧
      begun.lifecycle = lifecycle ∧ component.run begun cycles = some (after, later) ∧
      (timeoutFrames effects).map (· ()) = configured ∧
      (timeoutFrames (effects ++ later)).map (· ()) = commanded := by
  obtain ⟨⟨before, _⟩, hbefore, h⟩ := Option.bind_eq_some_iff.mp h
  obtain ⟨⟨begun, effects⟩, hactivate, h⟩ := Option.bind_eq_some_iff.mp h
  obtain ⟨⟨after, later⟩, hrun, h⟩ := Option.bind_eq_some_iff.mp h
  obtain ⟨hactive, htimeouts⟩ := Prod.mk.inj (Option.some.inj h)
  obtain ⟨hconfigured, hcommanded⟩ := Prod.mk.inj htimeouts
  exact ⟨before, begun, after, effects, later, ⟨_, _, _, hbefore⟩, hactivate, hactive, hrun,
    hconfigured, hcommanded⟩

/-- What the robot is told in a minimal session by either path. -/
theorem exists_paths {v : ℤ} {timeoutMs : Int32} {configured told default commanded : List ℤ}
    {events : List Event} {input : MyDiffbotSystemHardware.ActivateInput}
    {write : MyDiffbotSystemHardware.WriteInput} (hvalue : stoi v = some timeoutMs)
    (hset : toldTimeouts (watchdogParameters timeoutMs) events input [] =
      some (.active, configured, told))
    (hcommand : toldTimeouts diffbotParameters events input
      [.setGpioCommand timeoutInterface (.finite v), .write write] =
        some (.active, default, commanded)) :
    ∃ effects effects', ByParameter HardwareParameters.cmdTimeoutMs v effects ∧
      ByCommand diffbotParameters timeoutInterface (.finite v) effects' ∧
      (timeoutFrames effects).map (· ()) = configured ∧
      (timeoutFrames effects').map (· ()) = commanded := by
  obtain ⟨_, _, _, effects, _, hbefore, hactivate, hactive, _, hconfigured, _⟩ :=
    exists_of_toldTimeouts hset
  obtain ⟨_, _, _, first, later, hbefore', hactivate', hactive', hrun, _, hcommanded⟩ :=
    exists_of_toldTimeouts hcommand
  have hnone : ∀ event ∈ ([] : List Event), event.isCycle = true ∧
      event.sets timeoutInterface = false := fun _ hmem ↦ absurd hmem List.not_mem_nil
  exact ⟨effects, first ++ later, .activation hvalue rfl hbefore hactivate hactive,
    @ByCommand.session _ _ _ _ _ _ _ _ _ [] [] _ hbefore' hactivate' hactive'
      (fun event hevent ↦ (hnone event hevent).1) hnone hrun, hconfigured, hcommanded⟩

/-- 300 ms by either path. -/
theorem tuning_paths_agree_300 :
    ∃ effects effects' timeout, ByParameter HardwareParameters.cmdTimeoutMs 300 effects ∧
      ByCommand diffbotParameters timeoutInterface (.finite (300 : ℤ)) effects' ∧
      (timeoutFrames effects').getLast? = some timeout ∧
      (timeoutFrames effects).getLast? = some timeout := by
  obtain ⟨effects, effects', hset, hcommand, _⟩ :=
    @exists_paths 300 300 [300] [300] [250] [250, 300] [.configure] (activateAt 100) (writeAt 200)
      (by decide) (by decide +kernel) (by decide +kernel)
  obtain ⟨timeout, htimeout, hagree⟩ := (tuning_paths_agree_iff 300).1 _ _ _ hset hcommand
  exact ⟨effects, effects', timeout, hset, hcommand, htimeout,
    hagree.mpr (.inl (by decide))⟩

/-- A request of 70 s becomes 4.5 s as a parameter and 65.5 s as a command. -/
theorem not_tuning_paths_agree :
    ¬∀ (v : ℤ) (params : HardwareParameters) (effects effects' : List Effect),
      ByParameter HardwareParameters.cmdTimeoutMs v effects →
        ByCommand params timeoutInterface (.finite v) effects' →
          (timeoutFrames effects).getLast? = (timeoutFrames effects').getLast? := by
  intro hagree
  obtain ⟨effects, effects', hset, hcommand, hconfigured, hcommanded⟩ :=
    @exists_paths 70000 70000 [4464] [4464] [250] [250, 65535] [.configure] (activateAt 100)
      (writeAt 200) (by decide) (by decide +kernel) (by decide +kernel)
  have hlast := congrArg (Option.map (· ())) (hagree 70000 _ effects effects' hset hcommand)
  rw [← List.getLast?_map, ← List.getLast?_map, hconfigured, hcommanded] at hlast
  cases hlast

end MyDiffbot.System
