import MyDiffbot.Incremental.Tracker
import MyDiffbot.System.StopGrace
import Mathlib.Tactic.FinCases

/-!
# Tuning at runtime

An activation sends the configured gains and the watchdog timeout, and writes them to the gpio
commands. From then on a `write` sends either of them exactly if the finite commands change what was
sent last. Whatever controllers write in between, what the base was told last is the clamped latest
finite command, component by component (`tuning_follows_commands`). A frame counts as sent when it
is handed to the port and the write succeeds, as is assumed here, whether or not it is acknowledged.
-/

namespace MyDiffbot.System

open Protocol Numeric Transport Incremental

/-! ## What is observed -/

def gainFrame? : Command → Option (Fin 6 → ℤ)
  | .setPidGains gains => some gains
  | _ => none

/-- The frame of the watchdog timeout, which has one component. -/
def timeoutFrame? : Command → Option (Unit → ℤ)
  | .setCmdTimeout timeoutMs => some fun _ ↦ timeoutMs
  | _ => none

/-- The gains that were handed to the port; they are sent unless the write throws. -/
def gainFrames (effects : List Effect) : List (Fin 6 → ℤ) :=
  (handedCommands effects).filterMap gainFrame?

/-- The timeouts that were handed to the port. -/
def timeoutFrames (effects : List Effect) : List (Unit → ℤ) :=
  (handedCommands effects).filterMap timeoutFrame?

theorem gainFrames_append (first second : List Effect) :
    gainFrames (first ++ second) = gainFrames first ++ gainFrames second := by
  rw [gainFrames, handedCommands_append, List.filterMap_append]
  rfl

theorem timeoutFrames_append (first second : List Effect) :
    timeoutFrames (first ++ second) = timeoutFrames first ++ timeoutFrames second := by
  rw [timeoutFrames, handedCommands_append, List.filterMap_append]
  rfl

/-- The finite command of an interface, if the interface exists. -/
def MyDiffbotSystemHardware.finiteCommand (h : MyDiffbotSystemHardware)
    (name : InterfaceDescription) : Option ℚ :=
  if name ∈ h.interfaces.gpioCommands then (h.gpioCommand name).finite? else none

/-- A `write`: the tuning it finds wanted and the frames it sends. -/
structure Tuning where
  gains : Update (Fin 6) ℚ ℤ
  timeout : Update Unit ℚ ℤ

def observeTuning (c : Component) (event : Event) (effects : List Effect) : List Tuning :=
  match event with
  | .write _ =>
    [⟨⟨fun i ↦ c.hardware.finiteCommand (gainInterface i), gainFrames effects⟩,
      ⟨fun _ ↦ c.hardware.finiteCommand timeoutInterface, timeoutFrames effects⟩⟩]
  | _ => []

/-- The component, of which only the tuning is seen. -/
def tuning : Machine Component Event Tuning := component.observe observeTuning

/-- A controller writes a tuning command. -/
def Event.tunes : Event → Bool
  | .setGpioCommand name _ => decide (name = timeoutInterface ∨ ∃ i, name = gainInterface i)
  | _ => false

/-- `ClampCast` of a finite value. -/
def clamped (range : IntRange) (value : ℚ) : ℤ := (Double.finite value).clampCast range

/-- What the types of the configured gains and of the timeout promise. -/
structure MyDiffbotSystemHardware.Typed (h : MyDiffbotSystemHardware) : Prop where
  gains : ∀ i, int32.lowest ≤ h.gains i ∧ h.gains i ≤ int32.max
  timeout : uint16.lowest ≤ h.cmdTimeoutMs ∧ h.cmdTimeoutMs ≤ uint16.max

theorem clamped_intCast {range : IntRange} {n : ℤ} (h : range.lowest ≤ n ∧ n ≤ range.max) :
    clamped range n = n := by
  refine Double.clampCast_of_castTo ?_
  rw [Double.castTo, truncate_intCast, if_pos h]

/-! ## The activation -/

namespace MyDiffbotSystemHardware

variable (h : MyDiffbotSystemHardware)

theorem tuningSeed_gain (i : Fin 6) :
    h.tuningSeed (gainInterface i) = some (.finite (h.sentPidGains i)) := by
  have hother : gainInterface i ≠ timeoutInterface := by
    revert i
    decide
  have hfind : ((List.finRange 6).find? fun j ↦ gainInterface j = gainInterface i) = some i := by
    revert i
    decide
  rw [tuningSeed, if_neg hother, hfind]
  rfl

theorem tuningSeed_timeout :
    h.tuningSeed timeoutInterface = some (.finite h.sentCmdTimeoutMs) := if_pos rfl

/-- The finite tuning commands are those sent last. -/
structure Settled : Prop where
  gains : ∀ i, ∀ value ∈ h.finiteCommand (gainInterface i), h.sentPidGains i = value
  timeout : ∀ value ∈ h.finiteCommand timeoutInterface, h.sentCmdTimeoutMs = value

/-- The configured tuning was sent, is remembered as sent, and stands in the commands. -/
structure Tuned : Prop extends Settled h where
  isOpen : h.kestrel.isOpen = true
  sentPidGains : h.sentPidGains = fun i ↦ (h.gains i : ℚ)
  sentCmdTimeoutMs : h.sentCmdTimeoutMs = h.cmdTimeoutMs

theorem sendTuning_sent (input : ActivateInput) (hopen : h.kestrel.isOpen = true) :
    handedCommands (h.sendTuning input).2 =
      [.setPidGains h.gains, .setCmdTimeout h.cmdTimeoutMs] := by
  obtain ⟨hgains, hgainsSent⟩ := Kestrel.request_evolves (.setPidGains h.gains) input.gains h.kestrel
  obtain ⟨_, htimeoutSent⟩ := Kestrel.request_evolves (.setCmdTimeout h.cmdTimeoutMs) input.timeout
    (h.kestrel.setPidGains h.gains input.gains).2.1
  have hstillOpen : (h.kestrel.setPidGains h.gains input.gains).2.1.isOpen = true :=
    hgains.isOpen.trans hopen
  rw [hopen, if_pos rfl] at hgainsSent
  rw [hstillOpen, if_pos rfl] at htimeoutSent
  change handedCommands ((h.kestrel.setPidGains h.gains input.gains).2.2 ++ _) = _
  rw [handedCommands_append]
  exact congrArg₂ _ hgainsSent htimeoutSent

theorem sendTuning_tuned (input : ActivateInput) (hopen : h.kestrel.isOpen = true) :
    (h.sendTuning input).1.Tuned where
  isOpen := by
    obtain ⟨_, _, _, _, hstate, hevolves⟩ := h.sendTuning_eq input
    rw [hstate]
    exact hevolves.isOpen.trans hopen
  sentPidGains := rfl
  sentCmdTimeoutMs := rfl
  gains i value hvalue := by
    unfold finiteCommand at hvalue
    split at hvalue
    next hmem =>
      change value ∈
        Double.finite? (setEach h.interfaces.gpioCommands _ _ (gainInterface i)) at hvalue
      rw [setEach_apply, if_pos (by exact hmem), tuningSeed_gain] at hvalue
      exact Option.some.inj hvalue
    next => cases hvalue
  timeout value hvalue := by
    unfold finiteCommand at hvalue
    split at hvalue
    next hmem =>
      change value ∈
        Double.finite? (setEach h.interfaces.gpioCommands _ _ timeoutInterface) at hvalue
      rw [setEach_apply, if_pos (by exact hmem), tuningSeed_timeout] at hvalue
      exact Option.some.inj hvalue
    next => cases hvalue

/-- A successful activation leaves the component tuned, and has sent the tuning once. -/
theorem onActivate_tuned (input : ActivateInput) (hsuccess : (h.onActivate input).1 = .success) :
    (h.onActivate input).2.1.Tuned ∧
      (h.onActivate input).2.1.gains = h.gains ∧
      (h.onActivate input).2.1.cmdTimeoutMs = h.cmdTimeoutMs ∧
      gainFrames (h.onActivate input).2.2 = [h.gains] ∧
      timeoutFrames (h.onActivate input).2.2 = [fun _ ↦ h.cmdTimeoutMs] := by
  obtain ⟨jointCommand, k, effects, hopen, hgreet, _, hactivate⟩ :=
    h.onActivate_of_success input hsuccess
  have hsent := sendTuning_sent
    (resetSession input.now { h with jointCommand, kestrel := k }) input hopen
  have hgains : gainFrames effects = [] := by
    refine List.filterMap_eq_nil_iff.mpr fun command hcommand ↦ ?_
    rw [hgreet command hcommand]
    rfl
  have htimeout : timeoutFrames effects = [] := by
    refine List.filterMap_eq_nil_iff.mpr fun command hcommand ↦ ?_
    rw [hgreet command hcommand]
    rfl
  rw [hactivate]
  refine ⟨sendTuning_tuned _ input hopen, rfl, rfl, ?_, ?_⟩
  · rw [gainFrames_append, hgains, gainFrames, hsent]
    rfl
  · rw [timeoutFrames_append, htimeout, timeoutFrames, hsent]
    rfl

/-! ## One write -/

theorem overlayGains_eq_overlay :
    h.overlayGains = overlay (fun i ↦ h.finiteCommand (gainInterface i)) h.sentPidGains := by
  funext i
  rw [overlayGains_apply, overlay, finiteCommand]
  split <;> rfl

theorem overlayTimeout_eq_overlay :
    (fun _ : Unit ↦ h.overlayTimeout) =
      overlay (fun _ ↦ h.finiteCommand timeoutInterface) fun _ ↦ h.sentCmdTimeoutMs := by
  funext _
  rw [overlayTimeout_eq, overlay, finiteCommand]
  split <;> rfl

/-- Neither the LED nor the wheels are sent tuning. -/
theorem filterMap_untuned {β : Type*} (input : WriteInput) (frame? : Command → Option β)
    (hrgb : ∀ red green blue mode, frame? (.rgbLedSet red green blue mode) = none)
    (hwheels : ∀ left right, frame? (.wheelVelocity left right) = none) {ledCommands : List Command}
    (hled : ∀ command ∈ ledCommands,
      ∃ red green blue mode, command = .rgbLedSet red green blue mode) :
    ledCommands.filterMap frame? = [] ∧ (h.wheelFrame input).toList.filterMap frame? = [] := by
  constructor
  · apply List.filterMap_eq_nil_iff.mpr
    intro command hcommand
    obtain ⟨red, green, blue, mode, rfl⟩ := hled command hcommand
    exact hrgb red green blue mode
  · unfold wheelFrame
    split
    · exact List.filterMap_cons_none (hwheels _ _)
    · rfl

/-- The tuning frames of a `write` are its retunes. -/
theorem write_tuningFrames (input : WriteInput) (hopen : h.kestrel.isOpen = true) :
    gainFrames (h.write input).2.2 = h.retunes.filterMap gainFrame? ∧
      timeoutFrames (h.write input).2.2 = h.retunes.filterMap timeoutFrame? := by
  obtain ⟨ledCommands, hled, hsent⟩ := h.write_handed input hopen
  have hgains := h.filterMap_untuned input gainFrame? (fun _ _ _ _ ↦ rfl) (fun _ _ ↦ rfl) hled
  have htimeout :=
    h.filterMap_untuned input timeoutFrame? (fun _ _ _ _ ↦ rfl) (fun _ _ ↦ rfl) hled
  rw [gainFrames, timeoutFrames, hsent]
  simp only [List.filterMap_append, hgains, htimeout, List.append_nil, and_self]

theorem write_follows (input : WriteInput) (hopen : h.kestrel.isOpen = true) :
    (Update.mk (fun i ↦ h.finiteCommand (gainInterface i)) (gainFrames (h.write input).2.2)).Follows
        (clamped int32) h.sentPidGains ∧
      (Update.mk (fun _ ↦ h.finiteCommand timeoutInterface)
        (timeoutFrames (h.write input).2.2)).Follows
        (clamped uint16) fun _ ↦ h.sentCmdTimeoutMs := by
  obtain ⟨hgains, htimeout⟩ := h.write_tuningFrames input hopen
  rw [hgains, htimeout]
  unfold retunes
  refine ⟨⟨fun hsame ↦ ?_, fun hchange ↦ ?_⟩, ⟨fun hsame ↦ ?_, fun hchange ↦ ?_⟩⟩
  · rw [← overlayGains_eq_overlay] at hsame
    rw [if_neg (not_not.mpr hsame)]
    split <;> rfl
  · rw [← overlayGains_eq_overlay] at hchange ⊢
    rw [if_pos hchange]
    split <;> rfl
  · rw [← overlayTimeout_eq_overlay] at hsame
    have hsame' : h.overlayTimeout = h.sentCmdTimeoutMs := congrFun hsame ()
    rw [if_neg (not_not.mpr hsame')]
    split <;> rfl
  · rw [← overlayTimeout_eq_overlay] at hchange ⊢
    have hchange' : h.overlayTimeout ≠ h.sentCmdTimeoutMs := fun hsame ↦ hchange (by rw [hsame])
    rw [if_pos hchange']
    split <;> rfl

/-! ## Settled tuning -/

variable {h} {next : MyDiffbotSystemHardware}

theorem finiteCommand_congr {name : InterfaceDescription}
    (hinterfaces : next.interfaces = h.interfaces)
    (hcommand : next.gpioCommand name = h.gpioCommand name) :
    next.finiteCommand name = h.finiteCommand name := by
  unfold finiteCommand
  rw [hinterfaces, hcommand]

theorem Settled.congr (hsettled : h.Settled)
    (hgains : ∀ i, next.finiteCommand (gainInterface i) = h.finiteCommand (gainInterface i))
    (htimeout : next.finiteCommand timeoutInterface = h.finiteCommand timeoutInterface)
    (hsentGains : next.sentPidGains = h.sentPidGains)
    (hsentTimeout : next.sentCmdTimeoutMs = h.sentCmdTimeoutMs) : next.Settled where
  gains i := by
    rw [hgains, hsentGains]
    exact hsettled.gains i
  timeout := by
    rw [htimeout, hsentTimeout]
    exact hsettled.timeout

theorem Settled.write (hsettled : h.Settled) (input : WriteInput) (hopen : h.kestrel.isOpen = true) :
    (h.write input).2.1.Settled ∧ (h.write input).2.1.kestrel.isOpen = true := by
  obtain ⟨k, _, _, hstate, hevolves⟩ := h.write_state input hopen
  have hgains := h.overlayGains_eq_overlay.trans (overlay_eq_iff.mpr hsettled.gains)
  have htimeout := congrFun
    (h.overlayTimeout_eq_overlay.trans (overlay_eq_iff.mpr fun _ ↦ hsettled.timeout)) ()
  rw [hstate]
  exact ⟨hsettled.congr (fun _ ↦ rfl) rfl hgains htimeout, hevolves.isOpen.trans hopen⟩

end MyDiffbotSystemHardware

/-! ## Runs -/

/-- The invariant of a session: the tracked values are those sent last. -/
structure TuningTracks (gains : Fin 6 → ℤ) (timeoutMs : ℤ) (c : Component) (trace : List Tuning) :
    Prop where
  isOpen : c.hardware.kestrel.isOpen = true
  sentPidGains : c.hardware.sentPidGains =
    lastSent (fun i ↦ (gains i : ℚ)) (trace.map Tuning.gains)
  sentCmdTimeoutMs : (fun _ ↦ c.hardware.sentCmdTimeoutMs) =
    lastSent (fun _ ↦ (timeoutMs : ℚ)) (trace.map Tuning.timeout)
  gains : Tracks (clamped int32) (fun i ↦ (gains i : ℚ)) (trace.map Tuning.gains)
  timeout : Tracks (clamped uint16) (fun _ ↦ (timeoutMs : ℚ)) (trace.map Tuning.timeout)

section run

variable {gains : Fin 6 → ℤ} {timeoutMs : ℤ} {c next : Component} {trace observed : List Tuning}
  {event : Event} {events : List Event}

/-- Steps that are not a `write` leave the tracked values alone. -/
theorem TuningTracks.congr (h : TuningTracks gains timeoutMs c trace)
    (hopen : next.hardware.kestrel.isOpen = c.hardware.kestrel.isOpen)
    (hgains : next.hardware.sentPidGains = c.hardware.sentPidGains)
    (htimeout : next.hardware.sentCmdTimeoutMs = c.hardware.sentCmdTimeoutMs) :
    TuningTracks gains timeoutMs next (trace ++ []) := by
  rw [List.append_nil]
  exact ⟨hopen.trans h.isOpen, hgains.trans h.sentPidGains, by rw [htimeout, h.sentCmdTimeoutMs],
    h.gains, h.timeout⟩

theorem TuningTracks.write (h : TuningTracks gains timeoutMs c trace)
    (input : MyDiffbotSystemHardware.WriteInput) :
    TuningTracks gains timeoutMs { c with hardware := (c.hardware.write input).2.1 }
      (trace ++ observeTuning c (.write input) (c.hardware.write input).2.2) := by
  obtain ⟨hgains, htimeout⟩ := c.hardware.write_follows input h.isOpen
  obtain ⟨k, _, _, hstate, hevolves⟩ := c.hardware.write_state input h.isOpen
  rw [h.sentPidGains] at hgains
  rw [h.sentCmdTimeoutMs] at htimeout
  refine ⟨?_, ?_, ?_, ?_, ?_⟩
  · dsimp only
    rw [hstate]
    exact hevolves.isOpen.trans h.isOpen
  · dsimp only
    rw [hstate, List.map_append]
    refine Eq.trans ?_ hgains.lastSent_eq.symm
    rw [← h.sentPidGains]
    exact c.hardware.overlayGains_eq_overlay
  · dsimp only
    rw [hstate, List.map_append]
    refine Eq.trans ?_ htimeout.lastSent_eq.symm
    rw [← h.sentCmdTimeoutMs]
    exact c.hardware.overlayTimeout_eq_overlay
  · rw [List.map_append]
    exact h.gains.append_singleton hgains
  · rw [List.map_append]
    exact h.timeout.append_singleton htimeout

theorem TuningTracks.step (h : TuningTracks gains timeoutMs c trace) (hcycle : event.isCycle = true)
    (hstep : tuning.step c event = some (next, observed)) :
    TuningTracks gains timeoutMs next (trace ++ observed) := by
  obtain ⟨effects, hcomponent, rfl⟩ := Machine.observe_step_eq_some.mp hstep
  cases steps_of_step hcomponent with
  | setJointCommand name value => exact h.congr rfl rfl rfl
  | setGpioCommand name value => exact h.congr rfl rfl rfl
  | read input =>
    have hkeeps := c.hardware.read_keeps input
    exact h.congr (c.hardware.read_evolves input).1.isOpen hkeeps.sentPidGains
      hkeeps.sentCmdTimeoutMs
  | write input => exact h.write input
  | configure | cleanup | activate input | deactivate input => cases hcycle

/-- Without a new command a settled component sends no tuning. -/
theorem settled_step (hsettled : c.hardware.Settled) (hopen : c.hardware.kestrel.isOpen = true)
    (hcycle : event.isCycle = true) (htunes : event.tunes = false)
    (hstep : tuning.step c event = some (next, observed)) :
    next.hardware.Settled ∧ next.hardware.kestrel.isOpen = true ∧
      ∀ cycle ∈ observed, cycle.gains.frames = [] ∧ cycle.timeout.frames = [] := by
  have hnothing : ∀ cycle ∈ ([] : List Tuning),
      cycle.gains.frames = [] ∧ cycle.timeout.frames = [] := fun _ hmem ↦ absurd hmem List.not_mem_nil
  obtain ⟨effects, hcomponent, rfl⟩ := Machine.observe_step_eq_some.mp hstep
  cases steps_of_step hcomponent with
  | setJointCommand name value => exact ⟨⟨hsettled.gains, hsettled.timeout⟩, hopen, hnothing⟩
  | setGpioCommand name value =>
    have hname := of_decide_eq_false htunes
    push Not at hname
    have hother : ∀ other, other ≠ name →
        ({ c.hardware with gpioCommand := Function.update c.hardware.gpioCommand name value } :
          MyDiffbotSystemHardware).finiteCommand other = c.hardware.finiteCommand other :=
      fun _ hne ↦ MyDiffbotSystemHardware.finiteCommand_congr rfl (Function.update_of_ne hne _ _)
    exact ⟨hsettled.congr (fun i ↦ hother _ (hname.2 i).symm) (hother _ hname.1.symm) rfl rfl, hopen,
      hnothing⟩
  | read input =>
    have hkeeps := c.hardware.read_keeps input
    have hsame : ∀ name, (c.hardware.read input).2.1.finiteCommand name =
        c.hardware.finiteCommand name := fun name ↦
      MyDiffbotSystemHardware.finiteCommand_congr hkeeps.interfaces
        (congrFun hkeeps.gpioCommand name)
    exact ⟨hsettled.congr (fun i ↦ hsame _) (hsame _) hkeeps.sentPidGains hkeeps.sentCmdTimeoutMs,
      (c.hardware.read_evolves input).1.isOpen.trans hopen, hnothing⟩
  | write input =>
    obtain ⟨hgains, htimeout⟩ := c.hardware.write_follows input hopen
    obtain ⟨hsettled', hopen'⟩ := hsettled.write input hopen
    refine ⟨hsettled', hopen', fun cycle hcycle ↦ ?_⟩
    obtain rfl := List.mem_singleton.mp hcycle
    exact ⟨hgains.silent (overlay_eq_iff.mpr hsettled.gains),
      htimeout.silent (overlay_eq_iff.mpr fun _ ↦ hsettled.timeout)⟩
  | configure | cleanup | activate input | deactivate input => cases hcycle

theorem settled_run (hsettled : c.hardware.Settled) (hopen : c.hardware.kestrel.isOpen = true)
    (hcycles : ∀ event ∈ events, event.isCycle = true)
    (htunes : ∀ event ∈ events, event.tunes = false)
    (hrun : tuning.run c events = some (next, trace)) :
    ∀ cycle ∈ trace, cycle.gains.frames = [] ∧ cycle.timeout.frames = [] := by
  have halong : tuning.Along (fun _ event ↦ event.isCycle = true ∧ event.tunes = false) c events :=
    Machine.along_of_forall fun event hevent ↦ ⟨hcycles event hevent, htunes event hevent⟩
  refine (Machine.run_invariant_nil (fun c trace ↦ c.hardware.Settled ∧
    c.hardware.kestrel.isOpen = true ∧
    ∀ cycle ∈ trace, cycle.gains.frames = [] ∧ cycle.timeout.frames = []) ?_ hrun halong
    ⟨hsettled, hopen, fun _ hmem ↦ absurd hmem List.not_mem_nil⟩).2.2
  rintro c trace event next observed ⟨hsettled, hopen, hquiet⟩ ⟨hcycle, htunes⟩ hstep
  obtain ⟨hnext, hstillOpen, hobserved⟩ := settled_step hsettled hopen hcycle htunes hstep
  exact ⟨hnext, hstillOpen, List.forall_mem_append.mpr ⟨hquiet, hobserved⟩⟩

end run

/-- What is promised of a tuned vector, given its values at the activation and the frames sent
then. -/
structure Faithful {ι : Type} (range : IntRange) (start : ι → ℤ) (activation : List (ι → ℤ))
    (trace : List (Update ι ℚ ℤ)) : Prop where
  /-- A cycle sends a frame exactly if the finite commands change the vector sent last. -/
  sends_iff : ∀ front update back, trace = front ++ update :: back →
    (update.frames ≠ [] ↔
      overlay update.wanted (lastSent (fun i ↦ (start i : ℚ)) front) ≠
        lastSent (fun i ↦ (start i : ℚ)) front)
  /-- Commands that repeat the latest finite ones, or are not finite, send nothing. -/
  repeats : ∀ front update back, trace = front ++ update :: back →
    (∀ i, ∀ value ∈ update.wanted i, (latest? front i).getD (start i : ℚ) = value) →
    update.frames = []
  /-- After every cycle the last frame holds the clamped latest finite commands. -/
  contents : ∀ front back, trace = front ++ back →
    (activation ++ front.flatMap Update.frames).getLast? =
      some fun i ↦ ((latest? front i).map (clamped range)).getD (start i)

theorem faithful_of_tracks {ι : Type} {range : IntRange} {start : ι → ℤ}
    {trace : List (Update ι ℚ ℤ)}
    (hrange : ∀ i, range.lowest ≤ start i ∧ start i ≤ range.max)
    (h : Tracks (clamped range) (fun i ↦ (start i : ℚ)) trace) :
    Faithful range start [start] trace where
  sends_iff front update back hsplit := (hsplit ▸ h).frames_ne_nil_iff
  repeats front update back hsplit := (hsplit ▸ h).frames_eq_nil
  contents front back hsplit := by
    have hfront : Tracks (clamped range) (fun i ↦ (start i : ℚ)) front := (hsplit ▸ h).of_append
    have hstart : clamped range ∘ (fun i ↦ (start i : ℚ)) = start :=
      funext fun i ↦ clamped_intCast (hrange i)
    have hlast := hfront.getLastD_frames
    rw [hstart] at hlast
    rw [List.singleton_append, List.getLast?_cons, ← List.getLastD_eq_getLast?, hlast]
    refine congrArg some (funext fun i ↦ ?_)
    rw [Function.comp_apply, hfront.lastSent_eq]
    cases latest? front i with
    | none => exact clamped_intCast (hrange i)
    | some value => rfl

/-- What an activation leaves behind that has succeeded. -/
theorem tuned_of_active {before begun : Component} {input : MyDiffbotSystemHardware.ActivateInput}
    {effects : List Effect}
    (hactivate : component.step before (.activate input) = some (begun, effects))
    (hactive : begun.lifecycle = .active) :
    begun.hardware.Tuned ∧ begun.hardware.gains = before.hardware.gains ∧
      begun.hardware.cmdTimeoutMs = before.hardware.cmdTimeoutMs ∧
      gainFrames effects = [before.hardware.gains] ∧
      timeoutFrames effects = [fun _ ↦ before.hardware.cmdTimeoutMs] := by
  have hsuccess := success_of_active hactivate hactive
  cases steps_of_step hactivate with
  | activate input hlifecycle state hstate =>
    exact before.hardware.onActivate_tuned input hsuccess

/-- From a successful activation on, both kinds of tuning are sent exactly on change and never drift
from the commands, and before a new command nothing is sent at all. -/
theorem tuning_follows_commands {before begun after : Component}
    {input : MyDiffbotSystemHardware.ActivateInput} {beginEffects : List Effect}
    {events : List Event} {trace : List Tuning} (htyped : before.hardware.Typed)
    (hactivate : component.step before (.activate input) = some (begun, beginEffects))
    (hactive : begun.lifecycle = .active) (hcycles : ∀ event ∈ events, event.isCycle = true)
    (hrun : tuning.run begun events = some (after, trace)) :
    Faithful int32 before.hardware.gains (gainFrames beginEffects) (trace.map Tuning.gains) ∧
      Faithful uint16 (fun _ ↦ before.hardware.cmdTimeoutMs) (timeoutFrames beginEffects)
        (trace.map Tuning.timeout) ∧
      ((∀ event ∈ events, event.tunes = false) →
        ∀ cycle ∈ trace, cycle.gains.frames = [] ∧ cycle.timeout.frames = []) := by
  obtain ⟨htuned, hgains, htimeout, hgainFrames, htimeoutFrames⟩ :=
    tuned_of_active hactivate hactive
  have hstart : TuningTracks before.hardware.gains before.hardware.cmdTimeoutMs begun [] :=
    ⟨htuned.isOpen, by rw [htuned.sentPidGains, hgains]; rfl,
      by rw [htuned.sentCmdTimeoutMs, htimeout]; rfl, .nil, .nil⟩
  have htracks := Machine.run_invariant_nil
    (TuningTracks before.hardware.gains before.hardware.cmdTimeoutMs)
    (fun hbefore hcycle hstep ↦ hbefore.step hcycle hstep) hrun
    (Machine.along_of_forall hcycles) hstart
  rw [hgainFrames, htimeoutFrames]
  exact ⟨faithful_of_tracks htyped.gains htracks.gains,
    faithful_of_tracks (fun _ ↦ htyped.timeout) htracks.timeout,
    fun htunes ↦ settled_run htuned.toSettled htuned.isOpen hcycles htunes hrun⟩

/-! ## What the types promise -/

/-- The tuning that `on_init` takes from the parameters. -/
theorem onInit_tuning (info : HardwareInfo) (params : HardwareParameters) :
    (MyDiffbotSystemHardware.onInit info params).2.gains =
        ![(params.kpL.getD 1500).toInt, (params.kiL.getD 3000).toInt,
          (params.kdL.getD 0).toInt, (params.kpR.getD 1500).toInt, (params.kiR.getD 3000).toInt,
          (params.kdR.getD 0).toInt] ∧
      (MyDiffbotSystemHardware.onInit info params).2.cmdTimeoutMs =
        (params.cmdTimeoutMs.getD 250).toInt % 2 ^ 16 := by
  unfold MyDiffbotSystemHardware.onInit
  dsimp only
  split <;> exact ⟨rfl, rfl⟩

theorem int32_toInt (value : Int32) : int32.lowest ≤ value.toInt ∧ value.toInt ≤ int32.max :=
  ⟨value.le_toInt, Int.le_sub_one_of_lt value.toInt_lt⟩

/-- `on_init` narrows the timeout itself; the gains are as wide as what `std::stoi` returns. -/
theorem onInit_typed (info : HardwareInfo) (params : HardwareParameters) :
    (MyDiffbotSystemHardware.onInit info params).2.Typed := by
  refine ⟨fun i ↦ ?_, ?_⟩
  · rw [(onInit_tuning info params).1]
    fin_cases i <;> exact int32_toInt _
  · rw [(onInit_tuning info params).2]
    exact ⟨Int.emod_nonneg _ (by decide), Int.le_sub_one_of_lt (Int.emod_lt_of_pos _ (by decide))⟩

/-- The configured tuning never changes after `on_init`. -/
theorem step_gains {c next : Component} {event : Event} {effects : List Effect}
    (hstep : component.step c event = some (next, effects)) :
    next.hardware.gains = c.hardware.gains ∧
      next.hardware.cmdTimeoutMs = c.hardware.cmdTimeoutMs := by
  cases steps_of_step hstep with
  | setJointCommand name value => exact ⟨rfl, rfl⟩
  | setGpioCommand name value => exact ⟨rfl, rfl⟩
  | configure => exact ⟨rfl, rfl⟩
  | cleanup => exact ⟨rfl, rfl⟩
  | activate input =>
    unfold MyDiffbotSystemHardware.onActivate
    dsimp only
    split_ifs <;> exact ⟨rfl, rfl⟩
  | deactivate input => exact ⟨rfl, rfl⟩
  | read input =>
    dsimp only
    cases hopen : c.hardware.kestrel.isOpen with
    | false =>
      rw [c.hardware.read_of_closed input hopen]
      exact ⟨rfl, rfl⟩
    | true =>
      obtain ⟨_, _, _, _, _, hstate, _⟩ := c.hardware.read_eq input hopen
      obtain ⟨_, _, _, _, _, _, _, _, _, _, _, _, hwrites⟩ :=
        MyDiffbotSystemHardware.readWheels_writes _ input
      rw [hstate, hwrites]
      exact ⟨rfl, rfl⟩
  | write input =>
    obtain ⟨_, _, _, _, _, _, hstate, _⟩ := write_keeps c.hardware input
    dsimp only
    rw [hstate]
    exact ⟨rfl, rfl⟩

theorem run_typed {c next : Component} {events : List Event} {effects : List Effect}
    (htyped : c.hardware.Typed) (hrun : component.run c events = some (next, effects)) :
    next.hardware.Typed := by
  refine Machine.run_invariant_nil (fun c _ ↦ c.hardware.Typed) ?_ hrun
    (Machine.along_true c events) htyped
  intro c _ event next effects htyped _ hstep
  obtain ⟨hgains, htimeout⟩ := step_gains hstep
  exact ⟨by rw [hgains]; exact htyped.gains, by rw [htimeout]; exact htyped.timeout⟩

/-! ## Retuning the robot -/

/-- The lifecycle of the robot after an activation, and the gain frames of the activation and of the
cycles of a run from there. -/
def retune (events : List Event) (input : MyDiffbotSystemHardware.ActivateInput)
    (cycles : List Event) : Option (LifecycleState × List (List (List ℤ))) := do
  let (before, _) ← component.run diffbot events
  let (begun, effects) ← component.step before (.activate input)
  let (_, trace) ← tuning.run begun cycles
  return (begun.lifecycle, (gainFrames effects).map List.ofFn ::
    trace.map fun cycle ↦ cycle.gains.frames.map List.ofFn)

theorem exists_of_retune {events cycles : List Event}
    {input : MyDiffbotSystemHardware.ActivateInput} {lifecycle : LifecycleState}
    {frames : List (List (List ℤ))}
    (h : retune events input cycles = some (lifecycle, frames)) :
    ∃ before begun after effects beginEffects trace,
      component.run diffbot events = some (before, effects) ∧
      component.step before (.activate input) = some (begun, beginEffects) ∧
      begun.lifecycle = lifecycle ∧ tuning.run begun cycles = some (after, trace) ∧
      (gainFrames beginEffects).map List.ofFn ::
        trace.map (fun cycle ↦ cycle.gains.frames.map List.ofFn) = frames := by
  obtain ⟨⟨before, effects⟩, hbefore, h⟩ := Option.bind_eq_some_iff.mp h
  obtain ⟨⟨begun, beginEffects⟩, hactivate, h⟩ := Option.bind_eq_some_iff.mp h
  obtain ⟨⟨after, trace⟩, hrun, h⟩ := Option.bind_eq_some_iff.mp h
  obtain ⟨rfl, rfl⟩ := Prod.mk.inj (Option.some.inj h)
  exact ⟨before, begun, after, effects, beginEffects, trace, hbefore, hactivate, rfl, hrun, rfl⟩

theorem diffbot_typed : diffbot.hardware.Typed := onInit_typed diffbotInfo diffbotParameters

/-- A fractional gain is sent truncated and once, NaN is ignored, and a gain out of range is
clamped. -/
def gainEvents : List Event :=
  [.write (writeAt 200), .setGpioCommand (gainInterface 0) (.finite (3001 / 2)),
    .write (writeAt 300), .write (writeAt 400), .setGpioCommand (gainInterface 0) .nan,
    .setGpioCommand (gainInterface 5) (.finite 3000000000), .write (writeAt 500)]

theorem tuning_follows_commands_robot :
    ∃ before begun after beginEffects trace,
      component.step before (.activate (activateAt 100)) = some (begun, beginEffects) ∧
      tuning.run begun gainEvents = some (after, trace) ∧
      trace.map (fun cycle ↦ cycle.gains.frames.map List.ofFn) =
        [[], [[1500, 3000, 0, 1500, 3000, 0]], [], [[1500, 3000, 0, 1500, 3000, 2147483647]]] ∧
      Faithful int32 before.hardware.gains (gainFrames beginEffects) (trace.map Tuning.gains) := by
  have hretune : retune [.configure] (activateAt 100) gainEvents = some (.active,
      [[[1500, 3000, 0, 1500, 3000, 0]], [], [[1500, 3000, 0, 1500, 3000, 0]], [],
        [[1500, 3000, 0, 1500, 3000, 2147483647]]]) := by decide +kernel
  obtain ⟨before, begun, after, effects, beginEffects, trace, hbefore, hactivate, hactive, hrun,
    hframes⟩ := exists_of_retune hretune
  have hcycles : ∀ event ∈ gainEvents, event.isCycle = true := by
    simp [gainEvents, Event.isCycle]
  obtain ⟨hgains, _⟩ := tuning_follows_commands (run_typed diffbot_typed hbefore) hactivate hactive
    hcycles hrun
  exact ⟨before, begun, after, beginEffects, trace, hactivate, hrun, (List.cons.inj hframes).2,
    hgains⟩

end MyDiffbot.System
