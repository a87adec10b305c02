import MyDiffbot.Incremental.Memory
import MyDiffbot.System.Diagnostics

/-!
# What the diagnostic of the IMU tells of the past

A `read` decides by three trackers whether a status is due and whether the data is stale. Each of
them holds the latest value of a kind in the history of the component, from its `on_init` on and over
all its sessions. So the status of a `read` can be told from the history alone (`status_of_run`): when
one was published last, and when a `read` has found the counter of frames changed last. A successful
activation counts as both.
-/

namespace MyDiffbot.System

open Protocol Numeric Transport Incremental

/-- A step of the history: the component that an event has found. -/
abbrev Entry := Component × Event

/-- The counter of frames that a `read` finds; an activation starts from zero. -/
def counted? : Entry → Option ℕ
  | (c, .activate input) => if (c.hardware.onActivate input).1 = .success then some 0 else none
  | (c, .read input) =>
    if c.hardware.kestrel.isOpen then
      some (c.hardware.kestrel.read input.poll).1.feedback.imu.count
    else none
  | _ => none

/-- When the counter was changed. -/
def sighting? : Entry → Option Time
  | (c, .activate input) =>
    if (c.hardware.onActivate input).1 = .success then some input.now else none
  | (c, .read input) =>
    if c.hardware.kestrel.isOpen = true ∧
        (c.hardware.kestrel.read input.poll).1.feedback.imu.count ≠ c.hardware.lastImuCount then
      some input.imuChange
    else none
  | _ => none

/-- When a status was published. -/
def report? : Entry → Option Time
  | (c, .activate input) =>
    if (c.hardware.onActivate input).1 = .success then some input.now else none
  | (c, .read input) =>
    if published (c.hardware.read input).2.2 = [] then none else some input.diagPub
  | _ => none

/-! ## The trackers -/

/-- What the trackers tell of the history. -/
structure ImuTracked (trace : List Entry) (c : Component) : Prop where
  count : c.hardware.lastImuCount = (latest counted? trace).getD 0
  change : c.hardware.lastImuCountChange = (latest sighting? trace).getD 0
  pub : c.hardware.lastDiagPub = (latest report? trace).getD 0

/-- The trackers of two states are the same. -/
structure SameTrackers (h next : MyDiffbotSystemHardware) : Prop where
  count : next.lastImuCount = h.lastImuCount
  change : next.lastImuCountChange = h.lastImuCountChange
  pub : next.lastDiagPub = h.lastDiagPub

namespace MyDiffbotSystemHardware

variable (h : MyDiffbotSystemHardware)

/-- An activation that succeeds sets the trackers, and else it leaves them alone. -/
theorem onActivate_same (input : ActivateInput) (hfailed : (h.onActivate input).1 ≠ .success) :
    SameTrackers h (h.onActivate input).2.1 := by
  obtain ⟨hchange, hpub⟩ := h.onActivate_trackers input hfailed
  refine ⟨?_, hchange, hpub⟩
  unfold onActivate at hfailed ⊢
  dsimp only at hfailed ⊢
  split_ifs at hfailed ⊢
  · rfl
  · rfl
  · exact absurd rfl hfailed

theorem onActivate_reset (input : ActivateInput) (hsuccess : (h.onActivate input).1 = .success) :
    (h.onActivate input).2.1.lastImuCount = 0 ∧
      (h.onActivate input).2.1.lastImuCountChange = input.now ∧
      (h.onActivate input).2.1.lastDiagPub = input.now := by
  obtain ⟨_, _, _, _, _, _, hactivate⟩ := h.onActivate_of_success input hsuccess
  rw [hactivate]
  exact ⟨rfl, rfl, rfl⟩

theorem write_same (input : WriteInput) : SameTrackers h (h.write input).2.1 := by
  obtain ⟨_, _, _, _, _, _, hstate, _⟩ := write_keeps h input
  rw [hstate]
  exact ⟨rfl, rfl, rfl⟩

theorem onDeactivate_same (input : DeactivateInput) :
    SameTrackers h (h.onDeactivate input).2.1 := by
  obtain ⟨_, hstate, _⟩ := h.onDeactivate_eq input
  rw [hstate]
  exact ⟨rfl, rfl, rfl⟩

theorem read_count (input : ReadInput) (hopen : h.kestrel.isOpen = true) :
    (h.read input).2.1.lastImuCount = (h.kestrel.read input.poll).1.feedback.imu.count := by
  have hcounts : ∀ (h : MyDiffbotSystemHardware) publishDiag,
      ((h.readImu input publishDiag).1.readWheels input).lastImuCount =
        h.kestrel.feedback.imu.count := by
    intro h publishDiag
    obtain ⟨_, _, _, _, _, _, _, _, _, _, _, _, hwrites⟩ :=
      (h.readImu input publishDiag).1.readWheels_writes input
    rw [hwrites]
    unfold readImu
    by_cases hcount : h.kestrel.feedback.imu.count = h.lastImuCount <;>
      cases publishDiag <;> simp [hcount]
  unfold read
  simp only [hopen, Bool.not_true, Bool.false_eq_true, if_false]
  exact hcounts _ _

end MyDiffbotSystemHardware

section run

variable {c next : Component} {trace : List Entry} {event : Event} {effects : List Effect}

/-- A step that the history of the trackers knows nothing of. -/
theorem ImuTracked.skip (h : ImuTracked trace c) (hsame : SameTrackers c.hardware next.hardware)
    (hcounted : counted? (c, event) = none) (hsighting : sighting? (c, event) = none)
    (hreport : report? (c, event) = none) : ImuTracked (trace ++ [(c, event)]) next where
  count := by rw [latest_append_singleton, hcounted, Option.none_or, hsame.count, h.count]
  change := by rw [latest_append_singleton, hsighting, Option.none_or, hsame.change, h.change]
  pub := by rw [latest_append_singleton, hreport, Option.none_or, hsame.pub, h.pub]

theorem ImuTracked.activate (h : ImuTracked trace c) (input : MyDiffbotSystemHardware.ActivateInput)
    (hnext : next.hardware = (c.hardware.onActivate input).2.1) :
    ImuTracked (trace ++ [(c, .activate input)]) next := by
  by_cases hsuccess : (c.hardware.onActivate input).1 = .success
  · obtain ⟨hcount, hchange, hpub⟩ := c.hardware.onActivate_reset input hsuccess
    constructor
    · rw [latest_append_singleton, counted?, if_pos hsuccess, hnext, hcount]
      rfl
    · rw [latest_append_singleton, sighting?, if_pos hsuccess, hnext, hchange]
      rfl
    · rw [latest_append_singleton, report?, if_pos hsuccess, hnext, hpub]
      rfl
  · refine h.skip ?_ (if_neg hsuccess) (if_neg hsuccess) (if_neg hsuccess)
    rw [hnext]
    exact c.hardware.onActivate_same input hsuccess

theorem ImuTracked.read (h : ImuTracked trace c) (input : MyDiffbotSystemHardware.ReadInput)
    (hnext : next.hardware = (c.hardware.read input).2.1) :
    ImuTracked (trace ++ [(c, .read input)]) next := by
  cases hopen : c.hardware.kestrel.isOpen with
  | false =>
    have hclosed := c.hardware.read_of_closed input hopen
    refine h.skip ?_ ?_ ?_ ?_
    · rw [hnext, hclosed]
      exact ⟨rfl, rfl, rfl⟩
    · rw [counted?, hopen, if_neg Bool.false_ne_true]
    · rw [sighting?, hopen, if_neg fun hboth ↦ Bool.false_ne_true hboth.1]
    · rw [report?, hclosed]
      rfl
  | true =>
    obtain ⟨hchange, hpub, hpublished⟩ := c.hardware.read_status input hopen
    constructor
    · rw [latest_append_singleton, counted?, if_pos hopen, hnext,
        c.hardware.read_count input hopen]
      rfl
    · rw [latest_append_singleton, sighting?, hnext, hchange, hopen]
      unfold MyDiffbotSystemHardware.imuCountChange MyDiffbotSystemHardware.changeAt
      dsimp only
      split_ifs with hcount hsame hsame
      · rfl
      · exact absurd ⟨rfl, hcount⟩ hsame
      · exact absurd hsame.2 hcount
      · exact h.change
    · rw [latest_append_singleton, report?, hnext, hpub, hpublished]
      cases c.hardware.publishes input
      · exact h.pub
      · rfl

theorem ImuTracked.step (h : ImuTracked trace c) (hstep : component.step c event = some (next, effects)) :
    ImuTracked (trace ++ [(c, event)]) next := by
  cases steps_of_step hstep with
  | activate input => exact h.activate input rfl
  | read input => exact h.read input rfl
  | write input => exact h.skip (c.hardware.write_same input) rfl rfl rfl
  | deactivate input => exact h.skip (c.hardware.onDeactivate_same input) rfl rfl rfl
  | setJointCommand | setGpioCommand | configure | cleanup => exact h.skip ⟨rfl, rfl, rfl⟩ rfl rfl rfl

end run

theorem tracked_initial (info : HardwareInfo) (params : HardwareParameters) :
    ImuTracked [] (.unconfigured (MyDiffbotSystemHardware.onInit info params).2) := by
  obtain ⟨-, -, hchange, hpub⟩ := onInit_trackers info params
  refine ⟨?_, hchange, hpub⟩
  change (MyDiffbotSystemHardware.onInit info params).2.lastImuCount = 0
  unfold MyDiffbotSystemHardware.onInit
  dsimp only
  split <;> rfl

/-- A `read` on an open port. -/
def Entry.reads (entry : Entry) : Bool :=
  match entry.2 with
  | .read _ => entry.1.hardware.kestrel.isOpen
  | _ => false

end MyDiffbot.System
