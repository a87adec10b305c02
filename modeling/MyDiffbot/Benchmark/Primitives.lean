import MyDiffbot.Benchmark.Motion
import MyDiffbot.Incremental.Loop
import MyDiffbot.Numeric.Approach
import MyDiffbot.Planar.Turn

/-!
# Motion primitives

The loops of `bench.py` that drive on the odometry of the EKF, as Nav2 would. Each reads a pose,
commands a velocity that approaches its target, and sleeps. What the base makes of the commands is
left open: the loops are run on any samples, and where something is promised only of a base that
follows its commands, this is said (`Turns`, `Rolls`).
-/

namespace MyDiffbot.Benchmark

open Incremental Numeric

/-- What an iteration finds: the clock, the odometry, and whether an abort has tripped by the time it
commands. -/
structure Sample (K : Type*) where
  clock : K
  ekf : Pose K
  aborted : Bool

/-- How a loop ends. An abort is raised by `set`. -/
inductive Ending
  | reached
  | timedOut
  | aborted
  deriving DecidableEq, Repr

section loops

variable {K : Type*}

/-- `set`, after which the loop sleeps and goes on. -/
def setAnd {μ : Type*} (s : Sample K) (v w : K) (next : μ) : Except Ending ((K × K) × μ) :=
  if s.aborted then .error .aborted else .ok ((v, w), next)

theorem setAnd_eq_ok {μ : Type*} {s : Sample K} {v w : K} {next next' : μ} {act : K × K} :
    setAnd s v w next = .ok (act, next') ↔ s.aborted = false ∧ (v, w) = act ∧ next = next' := by
  unfold setAnd
  cases s.aborted <;> simp

theorem setAnd_ne_error {μ : Type*} {s : Sample K} {v w : K} {next : μ} {ending : Ending}
    (h : ending ≠ .aborted) : setAnd s v w next ≠ .error ending := by
  unfold setAnd
  cases s.aborted with
  | false => exact nofun
  | true =>
    intro herror
    exact h (Except.error.inj herror).symm

variable [Field K] [LinearOrder K] [FloorRing K] (trig : Trig K)

/-- The loop of `rotate_to`, until `tEnd`. -/
def rotateTo (yaw wmax tol tEnd : K) : Loop Unit (Sample K) (K × K) Ending where
  step _ s :=
    if ¬s.clock < tEnd then .error .timedOut
    else
      let err := wrap trig (yaw - s.ekf.yaw)
      if |err| < tol then .error .reached
      else setAnd s 0 (approach 0.25 wmax 2.5 err) ()

/-- What `rotate_by` remembers: how far it has turned, and the yaw it read last. -/
structure Turned (K : Type*) where
  done : K
  last : K

/-- The loop of `rotate_by`. -/
def rotateBy (ang wmax : K) : Loop (Turned K) (Sample K) (K × K) Ending where
  step m s :=
    if ¬0.004 < |ang - m.done| then .error .reached
    else
      let yaw := s.ekf.yaw
      let done := m.done + wrap trig (yaw - m.last)
      let err := ang - done
      setAnd s 0 (approach 0.25 wmax 2.5 err) ⟨done, yaw⟩

/-- The coordinates of `pose` along and across the line from `start` under the heading `th`. -/
def alongAcross (start : Pose K) (th : K) (pose : Pose K) : K × K :=
  let ux := trig.cos th
  let uy := trig.sin th
  ((pose.x - start.x) * ux + (pose.y - start.y) * uy,
    -(pose.x - start.x) * uy + (pose.y - start.y) * ux)

/-- The loop of `drive` from `start`, until `tEnd`; `th` is the heading. -/
def drive (start : Pose K) (th dist vmax tEnd : K) : Loop Unit (Sample K) (K × K) Ending where
  step _ s :=
    if ¬s.clock < tEnd then .error .timedOut
    else
      let onLine := alongAcross trig start th s.ekf
      let rem := dist - onLine.1
      if |rem| < 0.002 then .error .reached
      else
        let v := approach 0.025 vmax 1.6 rem
        let w := max (-0.4) (min 0.4 (2.0 * wrap trig (th - s.ekf.yaw) - copysign 1 v * 3.0 * onLine.2))
        setAnd s v w ()

/-- The distance and the bearing of the leg of `goto_odom`; there is none if the goal is near. -/
def gotoOdom (pose : Pose K) (gx gy : K) : Option (K × K) :=
  let d := trig.hypot (gx - pose.x) (gy - pose.y)
  if d < 0.01 then none else some (d, trig.atan2 (gy - pose.y) (gx - pose.x))

end loops

/-! ## What is commanded -/

section commands

variable {K : Type*} [Field K] [LinearOrder K] [IsStrictOrderedRing K] [FloorRing K] (trig : Trig K)

/-- A velocity within some limits. -/
def Within (vmax wmax : K) (command : K × K) : Prop := |command.1| ≤ vmax ∧ |command.2| ≤ wmax

theorem rotateTo_within (yaw wmax tol tEnd : K) (hwmax : 0 ≤ wmax) (samples : List (Sample K)) :
    ∀ command ∈ ((rotateTo trig yaw wmax tol tEnd).run () samples).acts, Within 0 wmax command := by
  refine Loop.forall_acts (fun {_ s act _} h ↦ ?_) () samples
  dsimp only [rotateTo] at h
  split_ifs at h
  obtain ⟨-, rfl, -⟩ := setAnd_eq_ok.mp h
  exact ⟨abs_zero.le, abs_approach_le (by norm_num) hwmax⟩

theorem drive_within (start : Pose K) (th dist vmax tEnd : K) (hvmax : 0 ≤ vmax)
    (samples : List (Sample K)) :
    ∀ command ∈ ((drive trig start th dist vmax tEnd).run () samples).acts,
      Within vmax 0.4 command := by
  refine Loop.forall_acts (fun {_ s act _} h ↦ ?_) () samples
  dsimp only [drive] at h
  split_ifs at h
  obtain ⟨-, rfl, -⟩ := setAnd_eq_ok.mp h
  refine ⟨abs_approach_le (by norm_num) hvmax, abs_le.mpr ⟨le_max_left _ _, ?_⟩⟩
  exact max_le (by norm_num) (min_le_left _ _)

end commands

end MyDiffbot.Benchmark
