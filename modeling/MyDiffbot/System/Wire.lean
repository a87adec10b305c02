import MyDiffbot.Incremental.Conversation
import MyDiffbot.System.Diffbot
import MyDiffbot.System.Tuning
import MyDiffbot.Transport.Outbound

/-!
# The base's side of the wire

What a run of the component writes to the port is a conversation with the base. A connection is
opened, the base is greeted until it answers or ten attempts have failed, the tuning is told, and in
the end the base is stopped, deactivated and reset. `write` speaks in every phase in which the port
is open, also to a base that has not answered or was released. Any write may throw, and of what is
said only the HANDSHAKE that was answered is known to have been sent. The component refines this
protocol in every run (`wire_of_run`), and what the protocol promises of its words it keeps.
-/

namespace MyDiffbot.System

open Protocol Numeric Transport Incremental

/-! ## The protocol -/

/-- Where the conversation with the base stands. -/
inductive Phase
  /-- The port is closed. -/
  | offline
  /-- The port is open, and the base has not answered on it since the last activation. -/
  | ungreeted
  /-- The base has answered, and the tuning was written. -/
  | tuned
  /-- A stop, a DEACTIVATE and a RESET were written. -/
  | released
  deriving DecidableEq, Repr

namespace Phase

def isOpen : Phase → Bool
  | offline => false
  | _ => true

/-- The words of one control cycle, in their order. -/
def cycleWords (gains : Option (Fin 6 → ℤ)) (timeoutMs : Option ℤ) (led : Option LedOutput)
    (wheels : Option (Option ℤ × Option ℤ)) : List Command :=
  (gains.map .setPidGains).toList ++ (timeoutMs.map .setCmdTimeout).toList ++
    (led.map fun led ↦ .rgbLedSet led.r led.g led.b led.fwMode).toList ++
    (wheels.map fun mrps ↦ .wheelVelocity mrps.1 mrps.2).toList

/-- The tuning that a base is told when it has answered. -/
def tuningWords (gains : Fin 6 → ℤ) (timeoutMs : ℤ) : List Command :=
  [.setPidGains gains, .setCmdTimeout timeoutMs]

def stop : Command := .wheelVelocity (some 0) (some 0)

/-- What is written at once, for a configured tuning. -/
inductive Block (gains : Fin 6 → ℤ) (timeoutMs : ℤ) : Phase → List Attempt → Phase → Prop
  | idle (p : Phase) : Block gains timeoutMs p [] p
  /-- The port was opened but could not be set up. -/
  | opens : Block gains timeoutMs .offline [] .ungreeted
  | unanswered {p : Phase} (hp : p ≠ .tuned) {tries : List Attempt}
      (htries : tries.map Attempt.command =
        List.replicate MyDiffbotSystemHardware.kMaxAttempts .handshake) :
      Block gains timeoutMs p tries .ungreeted
  /-- The HANDSHAKE that was answered was sent. -/
  | greets {p : Phase} (hp : p ≠ .tuned) (failed : ℕ)
      (hfailed : failed < MyDiffbotSystemHardware.kMaxAttempts) {tries tuning : List Attempt}
      (htries : tries.map Attempt.command = List.replicate failed .handshake)
      (htuning : tuning.map Attempt.command = tuningWords gains timeoutMs) :
      Block gains timeoutMs p (tries ++ ⟨.handshake, false⟩ :: tuning) .tuned
  /-- A cycle looks at the port only, and not at the phase. -/
  | cycle {p : Phase} (hp : p ≠ .offline) (newGains : Option (Fin 6 → ℤ)) (newTimeout : Option ℤ)
      (led : Option LedOutput) (wheels : Option (Option ℤ × Option ℤ)) {tries : List Attempt}
      (htries : tries.map Attempt.command = cycleWords newGains newTimeout led wheels)
      (hrange : ∀ command ∈ cycleWords newGains newTimeout led wheels, command.InRange) :
      Block gains timeoutMs p tries p
  | releases {tries : List Attempt}
      (htries : tries.map Attempt.command = [stop, .deactivate, .reset]) :
      Block gains timeoutMs .tuned tries .released
  | closes {p : Phase} (hp : p ≠ .tuned) : Block gains timeoutMs p [] .offline

end Phase

/-- The component is in a phase of the conversation. -/
structure Component.InPhase (c : Component) (p : Phase) : Prop where
  isOpen : c.hardware.kestrel.isOpen = p.isOpen
  active : c.lifecycle = .active ↔ p = .tuned

/-- The component with, as outputs, its writes to the port. -/
def wire : Machine Component Event Attempt := component.observe fun _ _ effects ↦ attempts effects

/-! ## What the callbacks say -/

namespace MyDiffbotSystemHardware

variable (h : MyDiffbotSystemHardware)

theorem handshakeWithRetry_words (exchanges : List Exchange) {k : Kestrel}
    (hopen : k.isOpen = true) :
    ((handshakeWithRetry exchanges k).1 = false ∧
      handedCommands (handshakeWithRetry exchanges k).2.2 =
        List.replicate exchanges.length .handshake) ∨
    ((handshakeWithRetry exchanges k).1 = true ∧ ∃ failed < exchanges.length, ∃ tries,
      tries.map Attempt.command = List.replicate failed .handshake ∧
      attempts (handshakeWithRetry exchanges k).2.2 = tries ++ [⟨.handshake, false⟩]) := by
  induction exchanges generalizing k with
  | nil => exact .inl ⟨rfl, rfl⟩
  | cons exchange exchanges ih =>
    obtain ⟨hevolves, hhanded⟩ := Kestrel.request_evolves .handshake exchange k
    have hattempts := Kestrel.request_attempts .handshake exchange k
    rw [hopen, if_pos rfl] at hhanded hattempts
    have hstillOpen : (k.handshake exchange).2.1.isOpen = true := hevolves.isOpen.trans hopen
    have hfirst : handedCommands (k.handshake exchange).2.2 = [.handshake] := hhanded
    have hfirstTry : attempts (k.handshake exchange).2.2 = [⟨.handshake, exchange.throws⟩] :=
      hattempts
    simp only [handshakeWithRetry]
    split
    · rename_i hok
      refine .inr ⟨rfl, 0, Nat.succ_pos _, [], rfl, ?_⟩
      rw [hfirstTry, Kestrel.throws_of_request_ok hok]
      rfl
    · rw [handedCommands_append, attempts_append, hfirst, hfirstTry, List.length_cons]
      rcases ih hstillOpen with ⟨hfailed, hwords⟩ | ⟨hgreeted, failed, hlt, tries, htries, hwords⟩
      · exact .inl ⟨hfailed, by rw [hwords]; rfl⟩
      · refine .inr ⟨hgreeted, failed + 1, Nat.succ_lt_succ hlt,
          ⟨.handshake, exchange.throws⟩ :: tries, ?_, by rw [hwords]; rfl⟩
        rw [List.map_cons, htries]
        rfl

/-- A connection that fails leaves the port as it was, or newly opened. -/
theorem connect_of_failed (faults : SerialTransport.ConnectFaults) {k : Kestrel}
    (hfailed : (k.connect faults).1 = false) :
    (k.connect faults).2.isOpen = k.isOpen ∨
      k.isOpen = false ∧ (k.connect faults).2.isOpen = true := by
  unfold Kestrel.connect Kestrel.isOpen SerialTransport.connect at *
  dsimp only at *
  split_ifs at hfailed ⊢ with hconfigured hopen hthrows hbaud hflush
  all_goals first | exact .inl rfl | exact .inr ⟨by simpa using hopen, rfl⟩

/-- Everything an activation can say, and how it leaves the port. -/
theorem onActivate_words (input : ActivateInput) :
    ((h.onActivate input).1 ≠ .success ∧ attempts (h.onActivate input).2.2 = [] ∧
      ((h.onActivate input).2.1.kestrel.isOpen = h.kestrel.isOpen ∨
        h.kestrel.isOpen = false ∧ (h.onActivate input).2.1.kestrel.isOpen = true)) ∨
    ((h.onActivate input).1 ≠ .success ∧
      handedCommands (h.onActivate input).2.2 = List.replicate kMaxAttempts .handshake ∧
      (h.onActivate input).2.1.kestrel.isOpen = true) ∨
    ((h.onActivate input).1 = .success ∧ (h.onActivate input).2.1.kestrel.isOpen = true ∧
      ∃ failed < kMaxAttempts, ∃ tries : List Attempt,
        tries.map Attempt.command = List.replicate failed .handshake ∧
        ∃ tuning, attempts (h.onActivate input).2.2 = tries ++ ⟨.handshake, false⟩ :: tuning ∧
          tuning.map Attempt.command = Phase.tuningWords h.gains h.cmdTimeoutMs) := by
  cases hconnected : (h.kestrel.connect input.faults).1 with
  | false =>
    have hport := connect_of_failed input.faults hconnected
    unfold onActivate
    simp only [hconnected, Bool.not_false, if_true]
    exact .inl ⟨nofun, rfl, hport⟩
  | true =>
    have hopen := connect_isOpen input.faults h.kestrel hconnected
    have hevolves := handshakeWithRetry_evolves (List.ofFn input.handshakes)
      (h.kestrel.connect input.faults).2
    have hgreetedOpen := hevolves.isOpen.trans hopen
    rcases handshakeWithRetry_words (List.ofFn input.handshakes) hopen with
      ⟨hgreeted, hwords⟩ | ⟨hgreeted, failed, hlt, tries, htries, hwords⟩
    · rw [List.length_ofFn] at hwords
      unfold onActivate
      simp only [hconnected, hgreeted, Bool.not_true, Bool.false_eq_true, if_false, Bool.not_false,
        if_true]
      exact .inr (.inl ⟨nofun, hwords, hgreetedOpen⟩)
    · rw [List.length_ofFn] at hlt
      unfold onActivate
      simp only [hconnected, hgreeted, Bool.not_true, Bool.false_eq_true, if_false]
      refine .inr (.inr ⟨trivial, ?_, failed, hlt, tries, htries, ?_⟩)
      · exact (sendTuning_tuned _ input hgreetedOpen).isOpen
      · rw [attempts_append, hwords, List.append_assoc]
        exact ⟨_, rfl, sendTuning_sent _ input hgreetedOpen⟩

theorem onDeactivate_words (input : DeactivateInput) (hopen : h.kestrel.isOpen = true) :
    handedCommands (h.onDeactivate input).2.2 = [Phase.stop, .deactivate, .reset] := by
  have hzero : Kestrel.mrpsOf (.finite 0) = some 0 := mrpsOf_of_isZero rfl
  obtain ⟨_, hstop⟩ := Kestrel.post_evolves
    (.wheelVelocity (Kestrel.mrpsOf (.finite 0)) (Kestrel.mrpsOf (.finite 0)))
    input.wheelThrows h.kestrel
  obtain ⟨hevolves, hdeactivate⟩ := Kestrel.request_evolves .deactivate input.deactivate h.kestrel
  obtain ⟨_, hreset⟩ := Kestrel.request_evolves .reset input.reset
    (h.kestrel.deactivate input.deactivate).2.1
  have hstillOpen : (h.kestrel.deactivate input.deactivate).2.1.isOpen = true :=
    hevolves.isOpen.trans hopen
  rw [hopen, if_pos rfl, hzero] at hstop
  rw [hopen, if_pos rfl] at hdeactivate
  rw [hstillOpen, if_pos rfl] at hreset
  have heffects : (h.onDeactivate input).2.2 =
      (h.kestrel.post (.wheelVelocity (Kestrel.mrpsOf (.finite 0)) (Kestrel.mrpsOf (.finite 0)))
        input.wheelThrows).2 ++ (h.kestrel.request .deactivate input.deactivate).2.2 ++
        ((h.kestrel.deactivate input.deactivate).2.1.request .reset input.reset).2.2 := rfl
  rw [heffects, handedCommands_append, handedCommands_append, hzero, hstop, hdeactivate, hreset]
  rfl

/-- The LED words of a cycle. -/
theorem writeLed_words (input : WriteInput) (hopen : h.kestrel.isOpen = true) :
    ∃ led : Option LedOutput, handedCommands (h.writeLed input).2 =
      (led.map fun led ↦ Command.rgbLedSet led.r led.g led.b led.fwMode).toList := by
  unfold writeLed
  split
  · exact ⟨none, rfl⟩
  · split
    · exact ⟨none, rfl⟩
    · rename_i led _
      dsimp only
      split
      · exact ⟨none, rfl⟩
      · have hsent := (Kestrel.post_evolves
          (.rgbLedSet led.r led.g led.b led.fwMode) input.ledThrows h.kestrel).2
        rw [hopen, if_pos rfl] at hsent
        exact ⟨some led, hsent⟩

theorem clampCast_range (range : IntRange) (value : Double) :
    range.lowest ≤ value.clampCast range ∧ value.clampCast range ≤ range.max := by
  cases value with
  | finite value =>
    have hlow : (range.lowest : ℚ) ≤ Double.clamp value range.lowest range.max := by
      have hordered : (range.lowest : ℚ) ≤ range.max := by
        exact_mod_cast range.lowest_le.trans range.le_max
      unfold Double.clamp
      split_ifs with hlow hhigh
      · exact le_rfl
      · exact hordered
      · exact not_lt.mp hlow
    have hhigh : Double.clamp value range.lowest range.max ≤ (range.max : ℚ) := by
      have hordered : (range.lowest : ℚ) ≤ range.max := by
        exact_mod_cast range.lowest_le.trans range.le_max
      unfold Double.clamp
      split_ifs with hlow hhigh
      · exact hordered
      · exact le_rfl
      · exact not_lt.mp hhigh
    exact ⟨intCast_le_truncate hlow, truncate_le_intCast hhigh⟩
  | nan | posInf | negInf => exact ⟨range.lowest_le, range.le_max⟩

theorem castTo_range {range : IntRange} {value : Double} {n : ℤ}
    (h : value.castTo range = some n) : range.lowest ≤ n ∧ n ≤ range.max := by
  rw [← Double.clampCast_of_castTo h]
  exact clampCast_range range value

theorem retunes_words :
    (∃ (gains : Option (Fin 6 → ℤ)) (timeoutMs : Option ℤ), h.retunes =
      (gains.map .setPidGains).toList ++ (timeoutMs.map .setCmdTimeout).toList) ∧
      ∀ command ∈ h.retunes, command.InRange := by
  unfold retunes
  constructor
  · by_cases hgains : h.overlayGains = h.sentPidGains <;>
      by_cases htimeout : h.overlayTimeout = h.sentCmdTimeoutMs
    · exact ⟨none, none, by simp [hgains, htimeout]⟩
    · exact ⟨none, some _, by rw [if_neg (not_not.mpr hgains), if_pos htimeout]; rfl⟩
    · exact ⟨some _, none, by rw [if_pos hgains, if_neg (not_not.mpr htimeout)]; rfl⟩
    · exact ⟨some _, some _, by rw [if_pos hgains, if_pos htimeout]; rfl⟩
  · refine List.forall_mem_append.mpr ⟨?_, ?_⟩
    · split_ifs
      · exact List.forall_mem_singleton.mpr fun i ↦ clampCast_range int32 _
      · exact nofun
    · split_ifs
      · exact List.forall_mem_singleton.mpr (clampCast_range uint16 _)
      · exact nofun

theorem wheelFrame_words (input : WriteInput) :
    (∃ wheels : Option (Option ℤ × Option ℤ), h.wheelFrame input =
      wheels.map fun mrps ↦ .wheelVelocity mrps.1 mrps.2) ∧
      ∀ command ∈ (h.wheelFrame input).toList, command.InRange := by
  unfold wheelFrame
  split_ifs
  · exact ⟨⟨some (_, _), rfl⟩, List.forall_mem_singleton.mpr
      ⟨fun _ hvalue ↦ castTo_range hvalue, fun _ hvalue ↦ castTo_range hvalue⟩⟩
  · exact ⟨⟨none, rfl⟩, nofun⟩

/-- What a cycle says: a retune of what has changed, the LED, and the wheels. -/
theorem write_words (input : WriteInput) (hopen : h.kestrel.isOpen = true) :
    ∃ gains timeoutMs led wheels,
      handedCommands (h.write input).2.2 = Phase.cycleWords gains timeoutMs led wheels ∧
      ∀ command ∈ Phase.cycleWords gains timeoutMs led wheels, command.InRange := by
  obtain ⟨⟨k, htuning, htuned⟩, htuningWords⟩ := h.writeTuning_eq input hopen
  have htunedOpen : (h.writeTuning input).1.kestrel.isOpen = true := by
    rw [htuning]
    exact htuned.isOpen.trans hopen
  obtain ⟨⟨_, _, hled⟩, _⟩ := (h.writeTuning input).1.writeLed_eq input
  obtain ⟨led, hledWords⟩ := (h.writeTuning input).1.writeLed_words input htunedOpen
  have hledOpen : ((h.writeTuning input).1.writeLed input).1.kestrel.isOpen = true := by
    rw [hled]
    exact htunedOpen
  have hwheelsWords : handedCommands
      (((h.writeTuning input).1.writeLed input).1.writeWheels input).2 =
        (((h.writeTuning input).1.writeLed input).1.wheelFrame input).toList := by
    rw [handedCommands, (writeWheels_eq _ input hledOpen).2.2]
    cases (((h.writeTuning input).1.writeLed input).1.wheelFrame input) <;> rfl
  obtain ⟨⟨gains, timeoutMs, hretunes⟩, hretunesRange⟩ := h.retunes_words
  obtain ⟨⟨wheels, hwheels⟩, hwheelsRange⟩ :=
    ((h.writeTuning input).1.writeLed input).1.wheelFrame_words input
  have hwords : handedCommands (h.write input).2.2 =
      Phase.cycleWords gains timeoutMs led wheels := by
    rw [h.write_parts input hopen, handedCommands_append, handedCommands_append, htuningWords,
      hledWords, hwheelsWords, hretunes, hwheels]
    rfl
  refine ⟨gains, timeoutMs, led, wheels, hwords, ?_⟩
  rw [Phase.cycleWords, ← hretunes, ← hwheels]
  refine List.forall_mem_append.mpr ⟨List.forall_mem_append.mpr ⟨hretunesRange, ?_⟩, hwheelsRange⟩
  cases led with
  | none => exact List.forall_mem_nil _
  | some led => exact List.forall_mem_singleton.mpr trivial

end MyDiffbotSystemHardware

/-! ## The refinement -/

section refinement

variable {c next : Component} {event : Event} {p : Phase} {words : List Attempt}

/-- Each step of the component says a block of the protocol. -/
theorem block_of_step (hphase : c.InPhase p) (hwire : wire.step c event = some (next, words)) :
    ∃ q, Phase.Block c.hardware.gains c.hardware.cmdTimeoutMs p words q ∧ next.InPhase q := by
  obtain ⟨effects, hstep, rfl⟩ := Machine.observe_step_eq_some.mp hwire
  obtain ⟨hopen, hactive⟩ := hphase
  cases steps_of_step hstep with
  | setJointCommand name value | setGpioCommand name value => exact ⟨p, .idle p, hopen, hactive⟩
  | configure hlifecycle =>
    have hp : p ≠ .tuned := fun htuned ↦ by simp [hactive.mpr htuned] at hlifecycle
    exact ⟨p, .idle p, hopen, by simp [hp]⟩
  | cleanup hlifecycle =>
    have hp : p ≠ .tuned := fun htuned ↦ by simp [hactive.mpr htuned] at hlifecycle
    exact ⟨.offline, .closes hp, c.hardware.onCleanup_isOpen, by simp⟩
  | activate input hlifecycle state hstate =>
    have hp : p ≠ .tuned := fun htuned ↦ by simp [hactive.mpr htuned] at hlifecycle
    rcases c.hardware.onActivate_words input with ⟨hfailed, hwords, hport⟩ |
      ⟨hfailed, hwords, hport⟩ |
        ⟨hsuccess, hport, failed, hlt, tries, htries, tuning, hwords, htuning⟩
    · rw [if_neg hfailed] at hstate
      subst hstate
      rw [hwords]
      rcases hport with hsame | ⟨hclosed, hopened⟩
      · exact ⟨p, .idle p, hsame.trans hopen, by simp [hp]⟩
      · have hoffline : p = .offline := by
          rw [hopen] at hclosed
          cases p <;> first | rfl | cases hclosed
        subst hoffline
        exact ⟨.ungreeted, .opens, hopened, by simp⟩
    · rw [if_neg hfailed] at hstate
      subst hstate
      exact ⟨.ungreeted, .unanswered hp hwords, hport, by simp⟩
    · rw [if_pos hsuccess] at hstate
      subst hstate
      rw [hwords]
      exact ⟨.tuned, .greets hp failed hlt htries htuning, hport, by simp⟩
  | deactivate input hlifecycle =>
    obtain rfl := hactive.mp hlifecycle
    obtain ⟨k, hstate, hevolves⟩ := c.hardware.onDeactivate_eq input
    refine ⟨.released, .releases (c.hardware.onDeactivate_words input hopen), ?_, by simp⟩
    dsimp only
    rw [hstate]
    exact hevolves.isOpen.trans hopen
  | read input hlifecycle =>
    obtain ⟨hevolves, hquiet⟩ := c.hardware.read_evolves input
    rw [hquiet]
    exact ⟨p, .idle p, hevolves.isOpen.trans hopen, hactive⟩
  | write input hlifecycle =>
    obtain ⟨k, _, _, _, _, _, hstate, hevolves⟩ := write_keeps c.hardware input
    have hport : (c.hardware.write input).2.1.kestrel.isOpen = p.isOpen := by
      rw [hstate]
      exact hevolves.isOpen.trans hopen
    cases hport' : c.hardware.kestrel.isOpen with
    | false =>
      have hwords : attempts (c.hardware.write input).2.2 = [] := by
        rw [c.hardware.write_of_closed input hport']
        rfl
      rw [hwords]
      exact ⟨p, .idle p, hport, hactive⟩
    | true =>
      have hp : p ≠ .offline := by
        rintro rfl
        rw [hport'] at hopen
        cases hopen
      obtain ⟨gains, timeoutMs, led, wheels, hwords, hrange⟩ := c.hardware.write_words input hport'
      exact ⟨p, .cycle hp gains timeoutMs led wheels hwords hrange, hport, hactive⟩

/-- Every run of the component is a conversation of the protocol, for the tuning that it was
configured with. -/
theorem wire_of_run {events : List Event} (hphase : c.InPhase p)
    (hrun : wire.run c events = some (next, words)) :
    ∃ q, Conversation (Phase.Block c.hardware.gains c.hardware.cmdTimeoutMs) p words q ∧
      next.InPhase q := by
  have hstep : ∀ {d : Component} {p : Phase} {event : Event} {later : Component}
      {words : List Attempt}, d.InPhase p ∧ d.hardware.gains = c.hardware.gains ∧
        d.hardware.cmdTimeoutMs = c.hardware.cmdTimeoutMs →
      wire.step d event = some (later, words) →
      ∃ q, Phase.Block c.hardware.gains c.hardware.cmdTimeoutMs p words q ∧ later.InPhase q ∧
        later.hardware.gains = c.hardware.gains ∧
        later.hardware.cmdTimeoutMs = c.hardware.cmdTimeoutMs := by
    rintro d p event later words ⟨hd, hgains, htimeout⟩ hstep
    obtain ⟨q, hblock, hlater⟩ := block_of_step hd hstep
    obtain ⟨effects, hnext, -⟩ := Machine.observe_step_eq_some.mp hstep
    obtain ⟨hsameGains, hsameTimeout⟩ := step_gains hnext
    rw [hgains, htimeout] at hblock
    exact ⟨q, hblock, hlater, hsameGains.trans hgains, hsameTimeout.trans htimeout⟩
  obtain ⟨q, hsaid, hlast, -⟩ := Machine.conversation_of_run (fun d p ↦ d.InPhase p ∧
    d.hardware.gains = c.hardware.gains ∧ d.hardware.cmdTimeoutMs = c.hardware.cmdTimeoutMs)
    hstep ⟨hphase, rfl, rfl⟩ hrun
  exact ⟨q, hsaid, hlast⟩

end refinement

/-- A session of the robot with one control cycle, and what is said in it. The velocity frame of the
cycle is lost. -/
def session : List Event :=
  [.configure, .activate (activateAt 100), .write { writeAt 200 with wheelThrows := true },
    .deactivate deactivateAcked]

def sessionWords : List Attempt :=
  [⟨.handshake, false⟩, ⟨.setPidGains ![1500, 3000, 0, 1500, 3000, 0], false⟩,
    ⟨.setCmdTimeout 250, false⟩, ⟨.rgbLedSet 0 0 0 0, false⟩, ⟨Phase.stop, true⟩,
    ⟨Phase.stop, false⟩, ⟨.deactivate, false⟩, ⟨.reset, false⟩]

theorem exists_of_session : ∃ last, wire.run diffbot session = some (last, sessionWords) := by
  have hwords : (wire.run diffbot session).map Prod.snd = some sessionWords := by decide +kernel
  obtain ⟨⟨last, words⟩, hrun, rfl⟩ := Option.map_eq_some_iff.mp hwords
  exact ⟨last, hrun⟩

theorem wire_of_run_session :
    ∃ last q, wire.run diffbot session = some (last, sessionWords) ∧
      Conversation (Phase.Block diffbot.hardware.gains diffbot.hardware.cmdTimeoutMs) .offline
        sessionWords q ∧ last.InPhase q := by
  obtain ⟨last, hrun⟩ := exists_of_session
  obtain ⟨q, hsaid, hlast⟩ := wire_of_run (p := .offline) ⟨rfl, by decide⟩ hrun
  exact ⟨last, q, hrun, hsaid, hlast⟩

/-! ## What the protocol promises -/

namespace Phase

/-- The commands of a control cycle. -/
def Cyclic : Command → Prop
  | .handshake | .deactivate | .reset => False
  | _ => True

theorem cyclic_of_mem_cycleWords {gains : Option (Fin 6 → ℤ)} {timeoutMs : Option ℤ}
    {led : Option LedOutput} {wheels : Option (Option ℤ × Option ℤ)} :
    ∀ command ∈ cycleWords gains timeoutMs led wheels, Cyclic command := by
  intro command hcommand
  simp only [cycleWords, List.mem_append, Option.mem_toList, Option.map_eq_some_iff] at hcommand
  rcases hcommand with ((⟨_, _, rfl⟩ | ⟨_, _, rfl⟩) | ⟨_, _, rfl⟩) | ⟨_, _, rfl⟩ <;> trivial

variable {gains : Fin 6 → ℤ} {timeoutMs : ℤ} {q : Phase} {words : List Attempt}

/-- The last of some words that is not of a control cycle is the tuning, written after a HANDSHAKE
that was sent. -/
def InSession (gains : Fin 6 → ℤ) (timeoutMs : ℤ) (words : List Attempt) : Prop :=
  ∃ before tuning since, words = before ++ ⟨.handshake, false⟩ :: tuning ++ since ∧
    tuning.map Attempt.command = tuningWords gains timeoutMs ∧
    ∀ attempt ∈ since, Cyclic attempt.command

/-- A DEACTIVATE ends a session, between a zero velocity and a RESET. -/
def Releases (gains : Fin 6 → ℤ) (timeoutMs : ℤ) (front : List Attempt) (attempt : Attempt)
    (back : List Attempt) : Prop :=
  attempt.command = .deactivate →
    (∃ session halt, InSession gains timeoutMs session ∧ front = session ++ [halt] ∧
      halt.command = stop) ∧
    ∃ last later, back = last :: later ∧ last.command = .reset

theorem Releases.append {front back later : List Attempt} {attempt : Attempt}
    (h : Releases gains timeoutMs front attempt back) :
    Releases gains timeoutMs front attempt (back ++ later) := by
  intro hcommand
  obtain ⟨hfront, last, rest, rfl, hlast⟩ := h hcommand
  exact ⟨hfront, last, rest ++ later, rfl, hlast⟩

theorem releases_of_not_mem {said words : List Attempt}
    (hwords : ∀ attempt ∈ words, attempt.command ≠ .deactivate) :
    ∀ front attempt back, words = front ++ attempt :: back →
      Releases gains timeoutMs (said ++ front) attempt back := by
  rintro front attempt back rfl hcommand
  exact absurd hcommand (hwords attempt (List.mem_append_right front List.mem_cons_self))

/-- Tries of commands none of which is a DEACTIVATE. -/
theorem ne_deactivate_of_map {commands : List Command}
    (hwords : words.map Attempt.command = commands) (hcommands : .deactivate ∉ commands) :
    ∀ attempt ∈ words, attempt.command ≠ .deactivate := by
  intro attempt hattempt hcommand
  have hmem := List.mem_map_of_mem (f := Attempt.command) hattempt
  rw [hwords, hcommand] at hmem
  exact hcommands hmem

/-- In a conversation that begins with a closed port, every DEACTIVATE ends a session. -/
theorem releases_of_conversation
    (h : Conversation (Block gains timeoutMs) .offline words q) :
    (q = .tuned → InSession gains timeoutMs words) ∧
      ∀ front attempt back, words = front ++ attempt :: back →
        Releases gains timeoutMs front attempt back := by
  refine @Conversation.invariant _ _ _ _ _ _ (fun q words ↦ (q = .tuned →
    InSession gains timeoutMs words) ∧ ∀ front attempt back, words = front ++ attempt :: back →
      Releases gains timeoutMs front attempt back) ?_ h ⟨nofun, by simp⟩
  rintro q said words r ⟨hsession, hsaid⟩ hblock
  have hplaced : (∀ attempt ∈ words, attempt.command ≠ .deactivate) → ∀ front attempt back,
      said ++ words = front ++ attempt :: back → Releases gains timeoutMs front attempt back :=
    fun hwords ↦ Conversation.placed_append Releases.append hsaid (releases_of_not_mem hwords)
  cases hblock with
  | idle => exact ⟨by rwa [List.append_nil], hplaced nofun⟩
  | opens | closes => exact ⟨nofun, hplaced nofun⟩
  | unanswered hp htries =>
    exact ⟨nofun, hplaced (ne_deactivate_of_map htries fun hmem ↦ by
      cases (List.mem_replicate.mp hmem).2)⟩
  | @greets _ hp failed hfailed tries tuning htries htuning =>
    refine ⟨fun _ ↦ ⟨said ++ tries, tuning, [], ?_, htuning, nofun⟩, hplaced ?_⟩
    · simp only [List.append_assoc, List.append_nil]
    · refine List.forall_mem_append.mpr ⟨ne_deactivate_of_map htries fun hmem ↦ ?_,
        List.forall_mem_cons.mpr ⟨nofun, ne_deactivate_of_map htuning (by simp [tuningWords])⟩⟩
      cases (List.mem_replicate.mp hmem).2
  | cycle hp newGains newTimeout led wheels htries hrange =>
    have hcyclic : ∀ attempt ∈ words, Cyclic attempt.command := by
      intro attempt hattempt
      have hmem := List.mem_map_of_mem (f := Attempt.command) hattempt
      rw [htries] at hmem
      exact cyclic_of_mem_cycleWords _ hmem
    refine ⟨fun htuned ↦ ?_, hplaced (ne_deactivate_of_map htries fun hmem ↦
      cyclic_of_mem_cycleWords _ hmem)⟩
    obtain ⟨before, tuning, since, rfl, htuning, hsince⟩ := hsession htuned
    exact ⟨before, tuning, since ++ words, List.append_assoc _ _ _, htuning,
      List.forall_mem_append.mpr ⟨hsince, hcyclic⟩⟩
  | releases htries =>
    refine ⟨nofun, Conversation.placed_append Releases.append hsaid ?_⟩
    intro front attempt back hsplit hcommand
    obtain ⟨halt, middle, last, rfl, hhalt, hlast⟩ : ∃ halt middle last,
        words = [halt, middle, last] ∧ halt.command = stop ∧ last.command = .reset := by
      obtain ⟨halt, rest, rfl, hhalt, htries⟩ := List.map_eq_cons_iff.mp htries
      obtain ⟨middle, rest, rfl, _, htries⟩ := List.map_eq_cons_iff.mp htries
      obtain ⟨last, rest, rfl, hlast, htries⟩ := List.map_eq_cons_iff.mp htries
      obtain rfl := List.map_eq_nil_iff.mp htries
      exact ⟨halt, middle, last, rfl, hhalt, hlast⟩
    match front, hsplit with
    | [], hsplit =>
      obtain ⟨rfl, -⟩ := List.cons.inj hsplit
      rw [hhalt] at hcommand
      cases hcommand
    | [first], hsplit =>
      obtain ⟨rfl, hrest⟩ := List.cons.inj hsplit
      obtain ⟨-, rfl⟩ := List.cons.inj hrest
      exact ⟨⟨said, halt, hsession rfl, rfl, hhalt⟩, last, [], rfl, hlast⟩
    | [first, second], hsplit =>
      obtain ⟨-, hrest⟩ := List.cons.inj hsplit
      obtain ⟨-, hrest⟩ := List.cons.inj hrest
      obtain ⟨rfl, -⟩ := List.cons.inj hrest
      rw [hlast] at hcommand
      cases hcommand
    | _ :: _ :: _ :: _, hsplit => simp at hsplit

/-- Of a tuning that fits, every word of a conversation fits the struct that carries it. -/
theorem inRange_of_conversation {p : Phase}
    (hgains : ∀ i, int32.lowest ≤ gains i ∧ gains i ≤ int32.max)
    (htimeout : uint16.lowest ≤ timeoutMs ∧ timeoutMs ≤ uint16.max)
    (h : Conversation (Block gains timeoutMs) p words q) :
    ∀ command ∈ words.map Attempt.command, command.InRange := by
  refine @Conversation.invariant _ _ _ _ _ _
    (fun _ words ↦ ∀ command ∈ words.map Attempt.command, command.InRange) ?_ h nofun
  intro q said words r hsaid hblock
  have hgreeting : ∀ n, ∀ command ∈ List.replicate n Command.handshake, command.InRange := by
    intro n command hcommand
    rw [(List.mem_replicate.mp hcommand).2]
    trivial
  rw [List.map_append]
  refine List.forall_mem_append.mpr ⟨hsaid, ?_⟩
  cases hblock with
  | idle | opens | closes => exact nofun
  | unanswered hp htries =>
    rw [htries]
    exact hgreeting _
  | greets hp failed hfailed htries htuning =>
    rw [List.map_append, List.map_cons, htries, htuning]
    refine List.forall_mem_append.mpr ⟨hgreeting failed, ?_⟩
    simp only [tuningWords, List.forall_mem_cons]
    exact ⟨trivial, hgains, htimeout, nofun⟩
  | cycle hp newGains newTimeout led wheels htries hrange =>
    rw [htries]
    exact hrange
  | releases htries =>
    have hzero : int32.lowest ≤ 0 ∧ 0 ≤ int32.max := ⟨int32.lowest_le, int32.le_max⟩
    rw [htries]
    simp only [stop, List.forall_mem_cons]
    refine ⟨⟨?_, ?_⟩, trivial, trivial, nofun⟩ <;> rintro _ ⟨⟩ <;> exact hzero

end Phase

theorem inPhase_offline {c : Component} (hclosed : c.hardware.kestrel.isOpen = false)
    (hinactive : c.lifecycle ≠ .active) : c.InPhase .offline :=
  ⟨hclosed, by simp [hinactive]⟩

/-- In a run that begins with a closed port, every DEACTIVATE ends a session that began with a
HANDSHAKE that was sent, with the tuning behind it, and it stands between a zero velocity and a
RESET. -/
theorem releases_of_run {c last : Component} {events : List Event} {words front back : List Attempt}
    {attempt : Attempt} (hclosed : c.hardware.kestrel.isOpen = false)
    (hinactive : c.lifecycle ≠ .active) (hrun : wire.run c events = some (last, words))
    (hsplit : words = front ++ attempt :: back) (hdeactivate : attempt.command = .deactivate) :
    ∃ before tuning since halt reset later,
      front = before ++ ⟨.handshake, false⟩ :: tuning ++ since ++ [halt] ∧
      back = reset :: later ∧
      tuning.map Attempt.command =
        Phase.tuningWords c.hardware.gains c.hardware.cmdTimeoutMs ∧
      (∀ cyclic ∈ since, Phase.Cyclic cyclic.command) ∧
      halt.command = Phase.stop ∧ reset.command = .reset := by
  obtain ⟨q, hsaid, -⟩ := wire_of_run (inPhase_offline hclosed hinactive) hrun
  obtain ⟨⟨_, halt, ⟨before, tuning, since, rfl, htuning, hsince⟩, rfl, hhalt⟩, reset, later, hback,
    hreset⟩ := (Phase.releases_of_conversation hsaid).2 front attempt back hsplit hdeactivate
  exact ⟨before, tuning, since, halt, reset, later, rfl, hback, htuning, hsince, hhalt, hreset⟩

theorem releases_of_run_session :
    ∃ before tuning since halt reset later,
      sessionWords.take 6 = before ++ ⟨.handshake, false⟩ :: tuning ++ since ++ [halt] ∧
      sessionWords.drop 7 = reset :: later ∧
      tuning.map Attempt.command =
        Phase.tuningWords diffbot.hardware.gains diffbot.hardware.cmdTimeoutMs ∧
      (∀ cyclic ∈ since, Phase.Cyclic cyclic.command) ∧
      halt.command = Phase.stop ∧ reset.command = .reset := by
  obtain ⟨last, hrun⟩ := exists_of_session
  exact releases_of_run rfl (by decide) hrun rfl rfl

/-! ## What the base understands -/

theorem onInit_isOpen (info : HardwareInfo) (params : HardwareParameters) :
    (MyDiffbotSystemHardware.onInit info params).2.kestrel.isOpen = false := by
  unfold MyDiffbotSystemHardware.onInit Kestrel.configure Kestrel.isOpen SerialTransport.configure
  dsimp only
  split_ifs <;> rfl

/-- Whichever commands a run has sent, with whatever stamps and in whatever batches their frames are
parsed: what is received are their messages in their order, and no other commands could have been
meant. -/
theorem understood_of_run {info : HardwareInfo} {params : HardwareParameters} {last : Component}
    {events : List Event} {words : List Attempt} {sent : List Stamped} {batches : List (List Byte)}
    {base : SerialTransport}
    (hrun : wire.run (.unconfigured (MyDiffbotSystemHardware.onInit info params).2) events =
      some (last, words))
    (hsent : (sent.map Stamped.command).Sublist (words.filterMap Attempt.sent?))
    (hstamps : ∀ s ∈ sent, s.timestampSec < 2 ^ 32 ∧ s.timestampNsec < 2 ^ 32)
    (hframes : framesOf sent = some batches.flatten) (hopen : base.isOpen = true)
    (hempty : base.rxBuffer = []) :
    sent.map Stamped.message? =
        (SerialTransport.dispatched (SerialTransport.readBatches batches base).2).map some ∧
      (∀ other : List Stamped, (∀ s ∈ other, s.WellFormed) → other.map Stamped.message? =
        (SerialTransport.dispatched (SerialTransport.readBatches batches base).2).map some →
          other = sent) ∧
      (SerialTransport.readBatches batches base).1.crcErrorCount = base.crcErrorCount ∧
      (SerialTransport.readBatches batches base).1.rxBuffer = [] := by
  have htyped : (MyDiffbotSystemHardware.onInit info params).2.Typed := onInit_typed info params
  have hphase : (Component.unconfigured (MyDiffbotSystemHardware.onInit info params).2).InPhase
      .offline := inPhase_offline (onInit_isOpen info params) nofun
  obtain ⟨q, hsaid, -⟩ := wire_of_run hphase hrun
  have hrange := Phase.inRange_of_conversation htyped.gains htyped.timeout hsaid
  have hformed : ∀ s ∈ sent, s.WellFormed := by
    intro s hs
    obtain ⟨hsec, hnsec⟩ := hstamps s hs
    obtain ⟨attempt, hattempt, hcommand⟩ :=
      List.mem_filterMap.mp (hsent.subset (List.mem_map_of_mem hs))
    refine ⟨hsec, hnsec, hrange _ ?_⟩
    rw [← Attempt.sent?_eq_some hcommand]
    exact List.mem_map_of_mem hattempt
  obtain ⟨hreceived, hcrc, hrest⟩ := received_of_frames hopen hempty hframes
  exact ⟨hreceived, fun other hother hsame ↦ eq_of_map_message? hother hformed hsame hreceived, hcrc,
    hrest⟩

/-- Two frames of the session arrive, in two batches that cut the second one. -/
theorem understood_of_run_session :
    ∃ batches : List (List Byte), batches.length = 2 ∧
      [Stamped.message? ⟨1, 2, .handshake⟩, Stamped.message? ⟨1, 3, .setCmdTimeout 250⟩] =
        (SerialTransport.dispatched
          (SerialTransport.readBatches batches SerialTransport.connected).2).map some := by
  let sent : List Stamped := [⟨1, 2, .handshake⟩, ⟨1, 3, .setCmdTimeout 250⟩]
  let bytes := (framesOf sent).getD []
  have hframes : framesOf sent = some [bytes.take 20, bytes.drop 20].flatten := by decide +kernel
  obtain ⟨last, hrun⟩ := exists_of_session
  have hunderstood := @understood_of_run diffbotInfo diffbotParameters last session sessionWords sent
    _ SerialTransport.connected hrun (by decide) (by decide) hframes rfl rfl
  exact ⟨_, rfl, hunderstood.1⟩

end MyDiffbot.System
