import MyDiffbot.Incremental.Refresh
import MyDiffbot.System.Tuning

/-!
# The LED cache

`WriteLed` sends a frame when the led commands resolve to another one than was sent last, and repeats
it once a second, since the frame has no ACK. It remembers the frame also if its write has thrown.
Over a whole session the cache is the frame sent last, and after every `write` whose mode is known
it is what the commands resolve to, exactly if no LED write of the session throws
(`led_cache_coherent_iff`).
-/

namespace MyDiffbot.System

open Protocol Numeric Transport Incremental

/-! ## What is observed -/

def ledFrame? : Command → Option LedOutput
  | .rgbLedSet red green blue mode => some ⟨red, green, blue, mode⟩
  | _ => none

/-- The LED frames that were sent. -/
def ledFrames (effects : List Effect) : List LedOutput :=
  (sentCommands effects).filterMap ledFrame?

theorem ledFrames_append (first second : List Effect) :
    ledFrames (first ++ second) = ledFrames first ++ ledFrames second := by
  rw [ledFrames, sentCommands_append, List.filterMap_append]
  rfl

/-- What `ResolveLed` gives, on a robot that has an LED. -/
def MyDiffbotSystemHardware.ledWanted (h : MyDiffbotSystemHardware) (input : WriteInput) :
    Option LedOutput :=
  if ⟨"led", "led_mode"⟩ ∈ h.interfaces.gpioCommands then h.ledRequest input else none

/-- A `write`: its reading of the clock with the frame it wants and those it sends, and the cache
before and after it. -/
structure LedCycle where
  refresh : Refresh Time LedOutput
  before : Option LedOutput
  after : Option LedOutput
  deriving DecidableEq

def observeLed (c : Component) (event : Event) (effects : List Effect) : List LedCycle :=
  match event with
  | .write input =>
    [⟨⟨input.ledDue, c.hardware.ledWanted input, ledFrames effects⟩, c.hardware.sentLed,
      (c.hardware.write input).2.1.sentLed⟩]
  | _ => []

/-- The component, of which only the LED is seen. -/
def lighting : Machine Component Event LedCycle := component.observe observeLed

/-- The two readings of the clock in `WriteLed` are one. -/
def Event.readsOnce : Event → Bool
  | .write input => decide (input.ledSend = input.ledDue)
  | _ => true

/-- Less than a second has passed since a frame was sent. -/
def SentRecently (now sentAt : Time) : Prop := seconds (now - sentAt) < 1

instance (now sentAt : Time) : Decidable (SentRecently now sentAt) :=
  inferInstanceAs (Decidable (seconds (now - sentAt) < 1))

theorem sentRecently_refl (now : Time) : SentRecently now now := by
  unfold SentRecently seconds
  norm_num

/-- A `write` has an LED frame to send: one is wanted, and it is not the cached one of less than a
second ago. -/
def MyDiffbotSystemHardware.LedDue (h : MyDiffbotSystemHardware) (input : WriteInput) : Prop :=
  ∃ led ∈ h.ledWanted input, ¬(h.sentLed = some led ∧ SentRecently input.ledDue h.lastLedSend)

/-- The LED frame that a step has to send, if there is one, is not lost: its write does not throw. -/
def LedReturns (c : Component) : Event → Prop
  | .write input => c.hardware.LedDue input → input.ledThrows = false
  | _ => True

/-! ## One write -/

namespace MyDiffbotSystemHardware

variable (h : MyDiffbotSystemHardware)

/-- Everything `WriteLed` can do on an open port. -/
theorem writeLed_cases (input : WriteInput) (hopen : h.kestrel.isOpen = true) :
    (h.ledWanted input = none ∧ (h.writeLed input).1 = h ∧
      ledFrames (h.writeLed input).2 = []) ∨
    (∃ led, h.ledWanted input = some led ∧ h.sentLed = some led ∧
      SentRecently input.ledDue h.lastLedSend ∧ (h.writeLed input).1 = h ∧
      ledFrames (h.writeLed input).2 = []) ∨
    ∃ led, h.ledWanted input = some led ∧
      ¬(h.sentLed = some led ∧ SentRecently input.ledDue h.lastLedSend) ∧
      (h.writeLed input).1 = { h with sentLed := some led, lastLedSend := input.ledSend } ∧
      ledFrames (h.writeLed input).2 = if input.ledThrows then [] else [led] := by
  unfold writeLed ledWanted
  by_cases hled : (⟨"led", "led_mode"⟩ : InterfaceDescription) ∈ h.interfaces.gpioCommands
  · rw [if_neg (not_not.mpr hled), if_pos hled]
    cases hrequest : h.ledRequest input with
    | none => exact .inl ⟨rfl, rfl, rfl⟩
    | some led =>
      have hrecent : (!decide (1 ≤ seconds (input.ledDue - h.lastLedSend))) = true ↔
          SentRecently input.ledDue h.lastLedSend := by
        rw [Bool.not_eq_true', decide_eq_false_iff_not, not_le, SentRecently]
      dsimp only
      by_cases hkeep : h.sentLed = some led ∧
          !decide (1 ≤ seconds (input.ledDue - h.lastLedSend))
      · rw [if_pos hkeep]
        exact .inr (.inl ⟨led, rfl, hkeep.1, hrecent.mp hkeep.2, rfl, rfl⟩)
      · rw [if_neg hkeep]
        rw [hrecent] at hkeep
        refine .inr (.inr ⟨led, rfl, hkeep, rfl, ?_⟩)
        have hattempts := Kestrel.post_attempts (.rgbLedSet led.r led.g led.b led.fwMode)
          input.ledThrows h.kestrel
        rw [hopen, if_pos rfl] at hattempts
        calc
          _ = ([⟨.rgbLedSet led.r led.g led.b led.fwMode, input.ledThrows⟩].filterMap
              Attempt.sent?).filterMap ledFrame? :=
            congrArg (fun tries ↦ (tries.filterMap Attempt.sent?).filterMap ledFrame?) hattempts
          _ = if input.ledThrows then [] else [led] := by cases input.ledThrows <;> rfl
  · rw [if_pos hled, if_neg hled]
    exact .inl ⟨rfl, rfl, rfl⟩

/-- Everything a `write` on an open port can do to the LED. -/
theorem write_led_cases (input : WriteInput) (hopen : h.kestrel.isOpen = true) :
    (h.ledWanted input = none ∧ (h.write input).2.1.sentLed = h.sentLed ∧
      (h.write input).2.1.lastLedSend = h.lastLedSend ∧ ledFrames (h.write input).2.2 = []) ∨
    (∃ led, h.ledWanted input = some led ∧ h.sentLed = some led ∧
      SentRecently input.ledDue h.lastLedSend ∧ (h.write input).2.1.sentLed = h.sentLed ∧
      (h.write input).2.1.lastLedSend = h.lastLedSend ∧ ledFrames (h.write input).2.2 = []) ∨
    ∃ led, h.ledWanted input = some led ∧
      ¬(h.sentLed = some led ∧ SentRecently input.ledDue h.lastLedSend) ∧
      (h.write input).2.1.sentLed = some led ∧ (h.write input).2.1.lastLedSend = input.ledSend ∧
      ledFrames (h.write input).2.2 = if input.ledThrows then [] else [led] := by
  obtain ⟨⟨k, htuning, htuned⟩, htuningSent⟩ := h.writeTuning_eq input hopen
  have htunedOpen : (h.writeTuning input).1.kestrel.isOpen = true := by
    rw [htuning]
    exact htuned.isOpen.trans hopen
  obtain ⟨⟨_, _, hled⟩, _⟩ := (h.writeTuning input).1.writeLed_eq input
  have hledOpen : ((h.writeTuning input).1.writeLed input).1.kestrel.isOpen = true := by
    rw [hled]
    exact htunedOpen
  obtain ⟨hwheels, _, hwheelAttempts⟩ := writeWheels_eq _ input hledOpen
  -- The tuning and the wheels leave the cache alone and send no LED frames.
  have hframes : ledFrames (h.write input).2.2 =
      ledFrames ((h.writeTuning input).1.writeLed input).2 := by
    have hretunes : ledFrames (h.writeTuning input).2 = [] := by
      refine filterMap_sent_eq_nil fun attempt hattempt ↦ ?_
      have hcommand := List.mem_map_of_mem (f := Attempt.command) hattempt
      rw [← handedCommands, htuningSent] at hcommand
      obtain ⟨_, hretune⟩ | ⟨_, hretune⟩ := h.mem_retunes hcommand
      · rw [hretune]
        rfl
      · rw [hretune]
        rfl
    have hwheel : ledFrames (((h.writeTuning input).1.writeLed input).1.writeWheels input).2 = [] := by
      refine filterMap_sent_eq_nil fun attempt hattempt ↦ ?_
      rw [hwheelAttempts, wheelFrame] at hattempt
      split_ifs at hattempt
      · rw [List.mem_singleton.mp hattempt]
        rfl
      · exact absurd hattempt List.not_mem_nil
    rw [h.write_parts input hopen, ledFrames_append, ledFrames_append, hretunes, hwheel,
      List.nil_append, List.append_nil]
  have hcache : (h.write input).2.1.sentLed = ((h.writeTuning input).1.writeLed input).1.sentLed ∧
      (h.write input).2.1.lastLedSend =
        ((h.writeTuning input).1.writeLed input).1.lastLedSend := by
    rw [h.write_parts input hopen, hwheels]
    exact ⟨rfl, rfl⟩
  have htunedCache : (h.writeTuning input).1.sentLed = h.sentLed ∧
      (h.writeTuning input).1.lastLedSend = h.lastLedSend ∧
      (h.writeTuning input).1.ledWanted input = h.ledWanted input := by
    rw [htuning]
    exact ⟨rfl, rfl, rfl⟩
  obtain ⟨hsame, hsameSend, hwanted⟩ := htunedCache
  rw [hframes, hcache.1, hcache.2, ← hwanted, ← hsame, ← hsameSend]
  rcases (h.writeTuning input).1.writeLed_cases input htunedOpen with
    ⟨hnone, hstate, hsent⟩ | ⟨led, hled, hlast, hrecent, hstate, hsent⟩ |
      ⟨led, hled, hdue, hstate, hsent⟩
  · rw [hstate]
    exact .inl ⟨hnone, rfl, rfl, hsent⟩
  · rw [hstate]
    exact .inr (.inl ⟨led, hled, hlast, hrecent, rfl, rfl, hsent⟩)
  · rw [hstate]
    exact .inr (.inr ⟨led, hled, hdue, rfl, rfl, hsent⟩)

/-- Reading leaves the LED alone. -/
theorem read_led (input : ReadInput) :
    (h.read input).2.1.sentLed = h.sentLed ∧
      (h.read input).2.1.lastLedSend = h.lastLedSend := by
  cases hopen : h.kestrel.isOpen with
  | false =>
    rw [h.read_of_closed input hopen]
    exact ⟨rfl, rfl⟩
  | true =>
    obtain ⟨_, _, _, _, _, hstate, _⟩ := h.read_eq input hopen
    obtain ⟨_, _, _, _, _, _, _, _, _, _, _, _, hwrites⟩ := readWheels_writes _ input
    rw [hstate, hwrites]
    exact ⟨rfl, rfl⟩

end MyDiffbotSystemHardware

/-! ## Sessions -/

/-- The cycles of a trace without their caches. -/
def refreshes (trace : List LedCycle) : List (Refresh Time LedOutput) := trace.map LedCycle.refresh

/-- What is promised of the LED in a session. -/
structure LedCoherent (trace : List LedCycle) : Prop where
  /-- After a cycle whose mode is known, the cache and the frame sent last are what the commands
  resolve to, and the frame was sent less than a second before. -/
  current : ∀ front cycle back, trace = front ++ cycle :: back →
    ∀ led, cycle.refresh.wanted = some led →
      cycle.after = some led ∧
      ∃ sentAt, (sentLog (refreshes (front ++ [cycle]))).getLast? = some (sentAt, led) ∧
        sentAt ≤ cycle.refresh.now ∧ seconds (cycle.refresh.now - sentAt) < 1
  once : ∀ cycle ∈ trace, cycle.refresh.frames.length ≤ 1
  /-- A cycle whose mode is not known sends nothing and leaves the cache alone. -/
  unknown : ∀ cycle ∈ trace, cycle.refresh.wanted = none →
    cycle.refresh.frames = [] ∧ cycle.after = cycle.before

/-- The invariant of a session: the cache is the frame sent last. -/
structure LedTracks (c : Component) (trace : List LedCycle) : Prop where
  isOpen : c.hardware.kestrel.isOpen = true
  sentLed : c.hardware.sentLed = (sentLog (refreshes trace)).getLast?.map Prod.snd
  lastLedSend : ∀ last ∈ (sentLog (refreshes trace)).getLast?, c.hardware.lastLedSend = last.1
  follows : Refreshes SentRecently (refreshes trace)
  /-- Each cycle leaves the cache at the frame sent last. -/
  caches : ∀ front cycle back, trace = front ++ cycle :: back →
    cycle.after = (sentLog (refreshes (front ++ [cycle]))).getLast?.map Prod.snd ∧
      cycle.before = (sentLog (refreshes front)).getLast?.map Prod.snd

section run

variable {c next : Component} {trace observed : List LedCycle} {event : Event} {events : List Event}

theorem refreshes_append_singleton (trace : List LedCycle) (cycle : LedCycle) :
    refreshes (trace ++ [cycle]) = refreshes trace ++ [cycle.refresh] := by
  rw [refreshes, List.map_append]
  rfl

theorem LedTracks.congr (h : LedTracks c trace)
    (hopen : next.hardware.kestrel.isOpen = c.hardware.kestrel.isOpen)
    (hled : next.hardware.sentLed = c.hardware.sentLed)
    (hsend : next.hardware.lastLedSend = c.hardware.lastLedSend) :
    LedTracks next (trace ++ []) := by
  rw [List.append_nil]
  exact ⟨hopen.trans h.isOpen, hled.trans h.sentLed, by rw [hsend]; exact h.lastLedSend, h.follows,
    h.caches⟩

theorem LedTracks.write (h : LedTracks c trace) (input : MyDiffbotSystemHardware.WriteInput)
    (honce : input.ledSend = input.ledDue)
    (hreturns : c.hardware.LedDue input → input.ledThrows = false) :
    LedTracks { c with hardware := (c.hardware.write input).2.1 }
      (trace ++ observeLed c (.write input) (c.hardware.write input).2.2) := by
  have hopen : (c.hardware.write input).2.1.kestrel.isOpen = true := by
    obtain ⟨k, _, _, hstate, hevolves⟩ := c.hardware.write_state input h.isOpen
    rw [hstate]
    exact hevolves.isOpen.trans h.isOpen
  -- The cycle follows the earlier ones, and the cache follows the log.
  have hcycle : (Refresh.mk input.ledDue (c.hardware.ledWanted input)
        (ledFrames (c.hardware.write input).2.2)).Follows SentRecently
          (sentLog (refreshes trace)).getLast? ∧
      (c.hardware.write input).2.1.sentLed =
        (((ledFrames (c.hardware.write input).2.2).getLast?.map fun led ↦ (input.ledDue, led)).or
          (sentLog (refreshes trace)).getLast?).map Prod.snd ∧
      ∀ last ∈ ((ledFrames (c.hardware.write input).2.2).getLast?.map
          fun led ↦ (input.ledDue, led)).or (sentLog (refreshes trace)).getLast?,
        (c.hardware.write input).2.1.lastLedSend = last.1 := by
    rcases c.hardware.write_led_cases input h.isOpen with
      ⟨hnone, hled, hsend, hframes⟩ | ⟨led, hwanted, hcached, hrecent, hled, hsend, hframes⟩ |
        ⟨led, hwanted, hdue, hled, hsend, hframes⟩
    · rw [hframes, hled, hsend, hnone]
      exact ⟨⟨fun _ ↦ rfl, fun _ hvalue ↦ (by cases hvalue)⟩, h.sentLed, h.lastLedSend⟩
    · rw [hframes, hled, hsend, hwanted]
      refine ⟨⟨fun _ ↦ rfl, fun value hvalue ↦ .inr ⟨rfl, ?_⟩⟩, h.sentLed, h.lastLedSend⟩
      obtain rfl := Option.some.inj hvalue
      have hlast := h.sentLed
      rw [hcached] at hlast
      obtain ⟨⟨sentAt, _⟩, hentry, rfl⟩ := Option.map_eq_some_iff.mp hlast.symm
      rw [h.lastLedSend _ hentry] at hrecent
      exact ⟨sentAt, hentry, hrecent⟩
    · rw [hreturns ⟨led, hwanted, hdue⟩, if_neg Bool.false_ne_true] at hframes
      rw [hframes, hled, hsend, hwanted]
      refine ⟨⟨fun hnone ↦ (by cases hnone), fun value hvalue ↦ .inl ?_⟩, rfl, fun last hlast ↦ ?_⟩
      · rw [Option.some.inj hvalue]
      · obtain rfl := Option.some.inj hlast
        exact honce
  obtain ⟨hfollows, hled, hsend⟩ := hcycle
  have hlog := getLast?_sentLog_append_singleton (refreshes trace)
    ⟨input.ledDue, c.hardware.ledWanted input, ledFrames (c.hardware.write input).2.2⟩
  rw [← hlog] at hled hsend
  refine ⟨hopen, ?_, ?_, ?_, ?_⟩
  · rw [observeLed, refreshes_append_singleton]
    exact hled
  · rw [observeLed, refreshes_append_singleton]
    exact hsend
  · rw [observeLed, refreshes_append_singleton]
    exact h.follows.append_singleton hfollows
  · refine forall_split_append_singleton h.caches ⟨?_, h.sentLed⟩
    rw [refreshes_append_singleton]
    exact hled

theorem LedTracks.step (h : LedTracks c trace)
    (hcycle : (event.isCycle = true ∧ event.readsOnce = true) ∧ LedReturns c event)
    (hstep : lighting.step c event = some (next, observed)) :
    LedTracks next (trace ++ observed) := by
  obtain ⟨effects, hcomponent, rfl⟩ := Machine.observe_step_eq_some.mp hstep
  cases steps_of_step hcomponent with
  | setJointCommand name value => exact h.congr rfl rfl rfl
  | setGpioCommand name value => exact h.congr rfl rfl rfl
  | read input =>
    obtain ⟨hled, hsend⟩ := c.hardware.read_led input
    exact h.congr (c.hardware.read_evolves input).1.isOpen hled hsend
  | write input => exact h.write input (of_decide_eq_true hcycle.1.2) hcycle.2
  | configure | cleanup | activate input | deactivate input => cases hcycle.1.1

/-- A frame that was due and lost leaves the base without what was wanted of it. -/
theorem LedTracks.returns_of_coherent {later : List LedCycle} (h : LedTracks c trace)
    (hstep : lighting.step c event = some (next, observed))
    (hcoherent : LedCoherent (trace ++ (observed ++ later))) : LedReturns c event := by
  obtain ⟨effects, hcomponent, rfl⟩ := Machine.observe_step_eq_some.mp hstep
  cases steps_of_step hcomponent with
  | write input =>
    rintro ⟨led, hwanted, hdue⟩
    by_contra hthrows
    rw [Bool.not_eq_false] at hthrows
    -- Nothing was sent, so what was sent last is what was sent last before.
    have hframes : ledFrames (c.hardware.write input).2.2 = [] := by
      rcases c.hardware.write_led_cases input h.isOpen with
        ⟨_, _, _, hframes⟩ | ⟨_, _, _, _, _, _, hframes⟩ | ⟨_, _, _, _, _, hframes⟩
      · exact hframes
      · exact hframes
      · rw [hframes, if_pos hthrows]
    obtain ⟨_, sentAt, hlast, _, hrecent⟩ := hcoherent.current trace _ later rfl led hwanted
    rw [refreshes_append_singleton, getLast?_sentLog_append_singleton, hframes] at hlast
    have hcached := h.sentLed
    rw [show (sentLog (refreshes trace)).getLast? = some (sentAt, led) from hlast] at hcached
    refine hdue ⟨hcached, ?_⟩
    rw [h.lastLedSend _ hlast]
    exact hrecent
  | setJointCommand | setGpioCommand | read | configure | cleanup | activate | deactivate =>
    exact trivial

/-- Where the readings of the clock do not decrease, what is tracked is coherent. -/
theorem LedTracks.coherent (h : LedTracks c trace)
    (hclock : (trace.map fun cycle ↦ cycle.refresh.now).Pairwise (· ≤ ·)) : LedCoherent trace := by
  have hfollows : ∀ front cycle back, trace = front ++ cycle :: back →
      cycle.refresh.Follows SentRecently (sentLog (refreshes front)).getLast? := by
    rintro front cycle back rfl
    exact h.follows (refreshes front) cycle.refresh (refreshes back) (by simp [refreshes])
  refine ⟨fun front cycle back hsplit led hwanted ↦ ?_, fun cycle hmem ↦ ?_,
    fun cycle hmem hnone ↦ ?_⟩
  · obtain ⟨sentAt, hlast, hrecent⟩ :=
      (hfollows front cycle back hsplit).getLast?_sentLog sentRecently_refl hwanted
    rw [← refreshes_append_singleton] at hlast
    have hafter := (h.caches front cycle back hsplit).1
    rw [hlast] at hafter
    refine ⟨hafter, sentAt, hlast, ?_, hrecent⟩
    -- The frame was sent in this cycle or in an earlier one.
    obtain ⟨sender, hsender, hnow⟩ := exists_of_mem_sentLog (List.mem_of_getLast? hlast)
    obtain ⟨earlier, hearlier, rfl⟩ := List.mem_map.mp hsender
    change earlier.refresh.now = sentAt at hnow
    rw [← hnow]
    rcases List.mem_append.mp hearlier with hfront | hlastCycle
    · rw [hsplit, List.map_append, List.pairwise_append] at hclock
      exact hclock.2.2 _ (List.mem_map_of_mem hfront) _ (List.mem_map_of_mem List.mem_cons_self)
    · rw [List.mem_singleton.mp hlastCycle]
  · obtain ⟨front, back, hsplit⟩ := List.append_of_mem hmem
    exact (hfollows front cycle back hsplit).length_frames_le
  · obtain ⟨front, back, hsplit⟩ := List.append_of_mem hmem
    have hframes := (hfollows front cycle back hsplit).silent hnone
    obtain ⟨hafter, hbefore⟩ := h.caches front cycle back hsplit
    refine ⟨hframes, ?_⟩
    rw [hafter, hbefore, refreshes_append_singleton, getLast?_sentLog_append_singleton, hframes]
    rfl

end run

/-- From a successful activation on, the LED cache is coherent and refreshed exactly if no LED frame
that is due is lost. -/
theorem led_cache_coherent_iff {before begun after : Component}
    {input : MyDiffbotSystemHardware.ActivateInput} {effects : List Effect} {events : List Event}
    {trace : List LedCycle}
    (hactivate : component.step before (.activate input) = some (begun, effects))
    (hactive : begun.lifecycle = .active)
    (hcycles : ∀ event ∈ events, event.isCycle = true ∧ event.readsOnce = true)
    (hrun : lighting.run begun events = some (after, trace))
    (hclock : (trace.map fun cycle ↦ cycle.refresh.now).Pairwise (· ≤ ·)) :
    LedCoherent trace ↔ lighting.Along LedReturns begun events := by
  have hsuccess := success_of_active hactivate hactive
  have hstart : LedTracks begun [] := by
    cases steps_of_step hactivate with
    | activate input hlifecycle state hstate =>
      obtain ⟨htuned, _⟩ := before.hardware.onActivate_tuned input hsuccess
      obtain ⟨_, _, _, _, _, _, hactivated⟩ := before.hardware.onActivate_of_success input hsuccess
      refine ⟨htuned.isOpen, ?_, fun _ hmem ↦ (by cases hmem), .nil, fun front _ _ hnil ↦ ?_⟩
      · dsimp only
        rw [hactivated]
        rfl
      · cases front <;> cases hnil
  constructor
  · exact Machine.along_of_good LedTracks LedCoherent
      (fun hbefore hcycle hstep ↦ hbefore.step hcycle hstep)
      (fun hbefore _ hstep hcoherent ↦ hbefore.returns_of_coherent hstep hcoherent) hrun
      (Machine.along_of_forall hcycles) hstart
  · intro hreturns
    exact (Machine.run_invariant_nil LedTracks
      (fun hbefore hcycle hstep ↦ hbefore.step hcycle hstep) hrun
      ((Machine.along_of_forall hcycles).and hreturns) hstart).coherent hclock

/-! ## The robot's LED -/

/-- The lifecycle of the robot after an activation, and the LED in the cycles of a run from there. -/
def lightUp (events : List Event) (input : MyDiffbotSystemHardware.ActivateInput)
    (cycles : List Event) : Option (LifecycleState × List LedCycle) := do
  let (before, _) ← component.run diffbot events
  let (begun, _) ← component.step before (.activate input)
  let (_, trace) ← lighting.run begun cycles
  return (begun.lifecycle, trace)

theorem exists_of_lightUp {events cycles : List Event}
    {input : MyDiffbotSystemHardware.ActivateInput} {lifecycle : LifecycleState}
    {trace : List LedCycle} (h : lightUp events input cycles = some (lifecycle, trace)) :
    ∃ before begun after earlier effects, component.run diffbot events = some (before, earlier) ∧
      component.step before (.activate input) = some (begun, effects) ∧
      begun.lifecycle = lifecycle ∧ lighting.run begun cycles = some (after, trace) := by
  obtain ⟨⟨before, earlier⟩, hbefore, h⟩ := Option.bind_eq_some_iff.mp h
  obtain ⟨⟨begun, effects⟩, hactivate, h⟩ := Option.bind_eq_some_iff.mp h
  obtain ⟨⟨after, _⟩, hrun, h⟩ := Option.bind_eq_some_iff.mp h
  obtain ⟨rfl, rfl⟩ := Prod.mk.inj (Option.some.inj h)
  exact ⟨before, begun, after, earlier, effects, hbefore, hactivate, rfl, hrun⟩

/-- A solid color, an unknown mode, and the color again after more than a second. -/
def ledEvents : List Event :=
  [.setGpioCommand ⟨"led", "led_mode"⟩ (.finite 1),
    .setGpioCommand ⟨"led", "led_color"⟩ (.finite 0x00FF00), .write (writeAt 0),
    .write (writeAt 500000000), .setGpioCommand ⟨"led", "led_mode"⟩ (.finite 7),
    .write (writeAt 600000000), .setGpioCommand ⟨"led", "led_mode"⟩ (.finite 1),
    .write (writeAt 1500000000)]

def green : LedOutput := ⟨0#8, 0xFF#8, 0#8, 1#8⟩

theorem led_cache_coherent_robot :
    ∃ before begun after effects trace,
      component.step before (.activate (activateAt 0)) = some (begun, effects) ∧
      lighting.run begun ledEvents = some (after, trace) ∧
      trace = [⟨⟨0, some green, [green]⟩, none, some green⟩,
        ⟨⟨500000000, some green, []⟩, some green, some green⟩,
        ⟨⟨600000000, none, []⟩, some green, some green⟩,
        ⟨⟨1500000000, some green, [green]⟩, some green, some green⟩] ∧
      LedCoherent trace := by
  have hlit : lightUp [.configure] (activateAt 0) ledEvents = some (.active,
      [⟨⟨0, some green, [green]⟩, none, some green⟩,
        ⟨⟨500000000, some green, []⟩, some green, some green⟩,
        ⟨⟨600000000, none, []⟩, some green, some green⟩,
        ⟨⟨1500000000, some green, [green]⟩, some green, some green⟩]) := by decide +kernel
  obtain ⟨before, begun, after, _, effects, _, hactivate, hactive, hrun⟩ := exists_of_lightUp hlit
  have hcycles : ∀ event ∈ ledEvents, event.isCycle = true ∧ event.readsOnce = true := by
    simp [ledEvents, Event.isCycle, Event.readsOnce, writeAt]
  have hreturns : lighting.Along LedReturns begun ledEvents := by
    have hwrites : ∀ event ∈ ledEvents, ∀ c, LedReturns c event := by
      simp [ledEvents, LedReturns, writeAt]
    exact (Machine.along_of_forall hwrites).imp fun c event hevent ↦ hevent c
  exact ⟨before, begun, after, effects, _, hactivate, hrun, rfl,
    (led_cache_coherent_iff hactivate hactive hcycles hrun (by decide)).mpr hreturns⟩

/-- The first LED frame of a session is lost, and remembered as sent. -/
theorem not_led_cache_coherent :
    ¬∀ earlier before begun after (input : MyDiffbotSystemHardware.ActivateInput) first effects events
      trace, component.run diffbot earlier = some (before, first) →
      component.step before (.activate input) = some (begun, effects) →
      begun.lifecycle = .active →
      (∀ event ∈ events, event.isCycle = true ∧ event.readsOnce = true) →
      lighting.run begun events = some (after, trace) →
      (trace.map fun cycle ↦ cycle.refresh.now).Pairwise (· ≤ ·) → LedCoherent trace := by
  intro h
  have hlit : lightUp [.configure] (activateAt 0)
      [.setGpioCommand ⟨"led", "led_mode"⟩ (.finite 1),
        .setGpioCommand ⟨"led", "led_color"⟩ (.finite 0x00FF00),
        .write { writeAt 0 with ledThrows := true }] =
      some (.active, [⟨⟨0, some green, []⟩, none, some green⟩]) := by decide +kernel
  obtain ⟨before, begun, after, first, effects, hbefore, hactivate, hactive, hrun⟩ :=
    exists_of_lightUp hlit
  have hcoherent := h _ before begun after _ first effects _ _ hbefore hactivate hactive
    (by simp [Event.isCycle, Event.readsOnce, writeAt]) hrun (by decide)
  obtain ⟨_, sentAt, hlast, _⟩ := hcoherent.current [] _ [] rfl green rfl
  cases hlast

end MyDiffbot.System
