import MyDiffbot.Benchmark.Arena
import MyDiffbot.Benchmark.Turning

/-!
# Driving

`drive` follows a line by what it reads along and across it. Where it ends is told by these two
coordinates, and `goto_arena` turns them into a distance from the point that was asked for
(`gotoArena_ends`): the tolerance along, all that is left across, and all that the base was displaced
between aiming and driving. A base that follows its commands from a pose under the heading stays on
the line and reaches its end (`drive_reaches`).
-/

namespace MyDiffbot.Benchmark

open Real Incremental Numeric

/-! ## Along and across -/

section line

variable (start pose : Pose ℝ) (th : ℝ)

/-- The coordinates are those in the frame that lies at the start under the heading. -/
theorem alongAcross_eq_rel :
    alongAcross realTrig start th pose =
      ((Analyze.rel realTrig ⟨start.x, start.y, th⟩ pose).x,
        (Analyze.rel realTrig ⟨start.x, start.y, th⟩ pose).y) := by
  apply Prod.ext
  · simp only [alongAcross, Analyze.rel]
    ring
  · simp only [alongAcross, Analyze.rel]
    ring

/-- A pose by its coordinates along and across the line. -/
theorem position_alongAcross :
    pose.position = start.position + Circle.exp th *
      (⟨(alongAcross realTrig start th pose).1, (alongAcross realTrig start th pose).2⟩ : ℂ) := by
  let line : Pose ℝ := ⟨start.x, start.y, th⟩
  have hsame : pose.Same (compose realTrig line (Analyze.rel realTrig line pose)) := by
    rw [Pose.same_iff, motion_compose, motion_analyze_rel, mul_inv_cancel_left]
  have hposition : pose.position = line.motion (Analyze.rel realTrig line pose).position := by
    rw [← position_compose]
    exact Complex.ext hsame.x hsame.y
  rw [hposition, Pose.motion, Planar.motion_apply, alongAcross_eq_rel]
  rfl

end line

/-- A leg leads from the pose that it was aimed at to the goal. -/
theorem position_of_leg {pose : Pose ℝ} {gx gy d bearing : ℝ}
    (hleg : gotoOdom realTrig pose gx gy = some (d, bearing)) :
    (⟨gx, gy⟩ : ℂ) = pose.position + Circle.exp bearing * d := by
  unfold gotoOdom at hleg
  dsimp only at hleg
  split_ifs at hleg
  obtain ⟨rfl, rfl⟩ := Prod.mk.inj (Option.some.inj hleg)
  let way : ℂ := ⟨gx - pose.x, gy - pose.y⟩
  have hlength : realTrig.hypot (gx - pose.x) (gy - pose.y) = ‖way‖ :=
    hypot_eq_norm _ _
  have hway : Circle.exp (realTrig.atan2 (gy - pose.y) (gx - pose.x)) * (‖way‖ : ℂ) = way := by
    rw [mul_comm, Circle.coe_exp]
    exact Complex.norm_mul_exp_arg_mul_I way
  rw [hlength, hway]
  exact Complex.ext (add_sub_cancel _ _).symm (add_sub_cancel _ _).symm

/-! ## Where a drive ends -/

section drive

variable {start : Pose ℝ} {th dist vmax tEnd : ℝ} {s : Sample ℝ} {samples : List (Sample ℝ)}

theorem drive_step_error {ending : Ending}
    (h : (drive realTrig start th dist vmax tEnd).step () s = .error ending) :
    (ending = .timedOut ∧ tEnd ≤ s.clock) ∨
      (ending = .reached ∧ |dist - (alongAcross realTrig start th s.ekf).1| < 0.002) ∨
      ending = .aborted := by
  dsimp only [drive] at h
  split_ifs at h with hclock hnear
  · exact .inr (.inl ⟨(Except.error.inj h).symm, hnear⟩)
  · exact .inr (.inr (by_contra fun hother ↦ setAnd_ne_error hother h))
  · exact .inl ⟨(Except.error.inj h).symm, not_lt.mp hclock⟩

theorem drive_reached (hreached :
      ((drive realTrig start th dist vmax tEnd).run () samples).result = some .reached) :
    ∃ used s rest, samples = used ++ s :: rest ∧
      used.length = ((drive realTrig start th dist vmax tEnd).run () samples).acts.length ∧
      |dist - (alongAcross realTrig start th s.ekf).1| < 0.002 := by
  cases samples with
  | nil => cases hreached
  | cons first samples =>
    have hstands : Loop.Stands (drive realTrig start th dist vmax tEnd) (fun _ _ _ ↦ True)
        (first :: samples) ((drive realTrig start th dist vmax tEnd).run () (first :: samples)) :=
      Loop.run_invariant (fun _ _ _ ↦ trivial) (Loop.driven_true _ _) trivial
    obtain ⟨used, s, rest, hsplit, hlength, -, hend⟩ := hstands.of_result hreached
    obtain ⟨⟨⟩, -⟩ | ⟨-, hnear⟩ | ⟨⟨⟩⟩ := drive_step_error hend
    exact ⟨used, s, rest, hsplit, hlength, hnear⟩

/-- A drive ends at the end of its line, but for the tolerance along it and what is left across. -/
theorem drive_ends (hreached :
      ((drive realTrig start th dist vmax tEnd).run () samples).result = some .reached) :
    ∃ used s rest, samples = used ++ s :: rest ∧
      used.length = ((drive realTrig start th dist vmax tEnd).run () samples).acts.length ∧
      ∃ off : ℂ, s.ekf.position = start.position + Circle.exp th * (dist + off) ∧
        ‖off‖ ≤ 0.002 + |(alongAcross realTrig start th s.ekf).2| := by
  obtain ⟨used, s, rest, hsplit, hlength, hnear⟩ := drive_reached hreached
  set along := (alongAcross realTrig start th s.ekf).1
  set across := (alongAcross realTrig start th s.ekf).2
  refine ⟨used, s, rest, hsplit, hlength, ⟨along - dist, across⟩, ?_, ?_⟩
  · have hsum : (dist + ⟨along - dist, across⟩ : ℂ) = ⟨along, across⟩ := by
      apply Complex.ext <;> simp
    rw [hsum, position_alongAcross start s.ekf th]
  · refine (Complex.norm_le_abs_re_add_abs_im _).trans (add_le_add ?_ le_rfl)
    rw [abs_sub_comm]
    exact hnear.le

end drive

/-- A leg that was driven ends at its goal, but for the tolerance along the line, what is left across
it, and what the base was displaced between aiming and driving. -/
theorem leg_ends {pose start : Pose ℝ} {gx gy d bearing vmax tEnd : ℝ} {samples : List (Sample ℝ)}
    (hleg : gotoOdom realTrig pose gx gy = some (d, bearing))
    (hreached :
      ((drive realTrig start bearing d vmax tEnd).run () samples).result = some .reached) :
    ∃ used s rest, samples = used ++ s :: rest ∧
      used.length = ((drive realTrig start bearing d vmax tEnd).run () samples).acts.length ∧
      dist s.ekf.position ⟨gx, gy⟩ ≤ dist start.position pose.position +
        (0.002 + |(alongAcross realTrig start bearing s.ekf).2|) := by
  obtain ⟨used, s, rest, hsplit, hlength, off, hposition, hsmall⟩ := drive_ends hreached
  refine ⟨used, s, rest, hsplit, hlength, ?_⟩
  have hoff : s.ekf.position - (⟨gx, gy⟩ : ℂ) =
      (start.position - pose.position) + Circle.exp bearing * off := by
    rw [hposition, position_of_leg hleg]
    ring
  calc
    dist s.ekf.position ⟨gx, gy⟩ = ‖s.ekf.position - (⟨gx, gy⟩ : ℂ)‖ := dist_eq_norm _ _
    _ ≤ ‖start.position - pose.position‖ + ‖(Circle.exp bearing : ℂ) * off‖ := by
      rw [hoff]
      exact norm_add_le _ _
    _ ≤ _ := by
      rw [dist_eq_norm, norm_mul, Circle.norm_coe, one_mul]
      exact add_le_add le_rfl hsmall

/-! ## A base that rolls as commanded -/

/-- From one sample to the next, within a period, the base rolls straight on if it was commanded
to. -/
def Rolls (period : ℝ) (s : Sample ℝ) (command : ℝ × ℝ) (s' : Sample ℝ) : Prop :=
  0 ≤ s'.clock - s.clock ∧ s'.clock - s.clock ≤ period ∧
    (command.2 = 0 → s'.ekf =
      ⟨s.ekf.x + command.1 * (s'.clock - s.clock) * cos s.ekf.yaw,
        s.ekf.y + command.1 * (s'.clock - s.clock) * sin s.ekf.yaw, s.ekf.yaw⟩)

theorem alongAcross_self (start : Pose ℝ) (th : ℝ) : alongAcross realTrig start th start = (0, 0) := by
  simp [alongAcross]

/-- Rolling under the heading moves along the line only. -/
theorem alongAcross_rolled (start pose : Pose ℝ) (way : ℝ) :
    alongAcross realTrig start pose.yaw
        ⟨pose.x + way * cos pose.yaw, pose.y + way * sin pose.yaw, pose.yaw⟩ =
      ((alongAcross realTrig start pose.yaw pose).1 + way,
        (alongAcross realTrig start pose.yaw pose).2) := by
  have hsquares := sin_sq_add_cos_sq pose.yaw
  apply Prod.ext
  · simp only [alongAcross, realTrig_cos, realTrig_sin]
    linear_combination way * hsquares
  · simp only [alongAcross, realTrig_cos, realTrig_sin]
    ring

section rolling

variable {first s s' : Sample ℝ} {dist vmax tEnd period : ℝ} {samples : List (Sample ℝ)}

/-- What is left of a line that was begun at a sample, under its heading. -/
noncomputable def leftOn (first : Sample ℝ) (dist : ℝ) (s : Sample ℝ) : ℝ :=
  dist - (alongAcross realTrig first.ekf first.ekf.yaw s.ekf).1

/-- The base is on the line, under the heading, and has paid for the time that has passed. -/
structure OnLine (first : Sample ℝ) (dist period : ℝ) (s : Sample ℝ) : Prop where
  yaw : s.ekf.yaw = first.ekf.yaw
  across : (alongAcross realTrig first.ekf first.ekf.yaw s.ekf).2 = 0
  paid : s.clock + 40 * |leftOn first dist s| ≤ first.clock + 40 * |dist| ∨
    (|leftOn first dist s| < 0.002 ∧ s.clock ≤ first.clock + 40 * |dist| + period)

theorem onLine_self (first : Sample ℝ) (dist period : ℝ) : OnLine first dist period first := by
  have hself := alongAcross_self first.ekf first.ekf.yaw
  refine ⟨rfl, ?_, .inl ?_⟩
  · rw [hself]
  · rw [leftOn, hself, sub_zero]

/-- On the line nothing is steered. -/
theorem drive_step_ok {act : ℝ × ℝ} {next : Unit} (h : OnLine first dist period s)
    (hstep : (drive realTrig first.ekf first.ekf.yaw dist vmax tEnd).step () s = .ok (act, next)) :
    0.002 ≤ |leftOn first dist s| ∧ act = (approach 0.025 vmax 1.6 (leftOn first dist s), 0) := by
  dsimp only [drive] at hstep
  rw [h.yaw, h.across, sub_self, wrap_zero] at hstep
  split_ifs at hstep with _ hnear
  obtain ⟨-, rfl, -⟩ := setAnd_eq_ok.mp hstep
  refine ⟨not_lt.mp hnear, Prod.ext rfl ?_⟩
  norm_num

theorem OnLine.step {act : ℝ × ℝ} {next : Unit} (hvmax : 0.025 ≤ vmax) (hperiod : period < 0.16)
    (h : OnLine first dist period s)
    (hstep : (drive realTrig first.ekf first.ekf.yaw dist vmax tEnd).step () s = .ok (act, next))
    (hanswer : Rolls period s act s') : OnLine first dist period s' := by
  obtain ⟨hleft, rfl⟩ := drive_step_ok h hstep
  obtain ⟨htime, hshort, hrolled⟩ := hanswer
  have hpose := hrolled rfl
  have hcoordinates := alongAcross_rolled first.ekf s.ekf
    (approach 0.025 vmax 1.6 (leftOn first dist s) * (s'.clock - s.clock))
  rw [← hpose, h.yaw] at hcoordinates
  have hnext : leftOn first dist s' = leftOn first dist s -
      approach 0.025 vmax 1.6 (leftOn first dist s) * (s'.clock - s.clock) := by
    rw [leftOn, hcoordinates, leftOn]
    ring
  refine ⟨?_, ?_, ?_⟩
  · rw [hpose, h.yaw]
  · rw [hcoordinates, h.across]
  · rw [hnext]
    rcases h.paid with hpaid | ⟨hnear, -⟩
    · have hless := @abs_sub_approach ℝ _ _ _ 0.025 vmax 1.6 (leftOn first dist s) _ 0.002
        (by norm_num) (by linarith) htime (by linarith) (by linarith) hleft
      rw [min_eq_left hvmax] at hless
      have hnonneg := abs_nonneg (leftOn first dist s)
      rcases hless with hless | hreach
      · exact .inl (by linarith)
      · exact .inr ⟨hreach, by linarith⟩
    · exact absurd hnear (not_lt.mpr hleft)

/-- A base that rolls as it is commanded, from a pose under the heading, stays on the line at every
sample the drive looks at, whether it ends or not. It ends within its tolerance of the end of the
line, and never times out on a line that takes less than the time at the lowest speed. -/
theorem drive_reaches (hvmax : 0.025 ≤ vmax) (hpositive : 0 ≤ period) (hperiod : period < 0.16)
    (hrolls : (drive realTrig first.ekf first.ekf.yaw dist vmax tEnd).Driven (Rolls period) ()
      (first :: samples)) :
    (∀ used s rest, first :: samples = used ++ s :: rest →
      used.length ≤ ((drive realTrig first.ekf first.ekf.yaw dist vmax tEnd).run ()
        (first :: samples)).acts.length → OnLine first dist period s) ∧
    (((drive realTrig first.ekf first.ekf.yaw dist vmax tEnd).run () (first :: samples)).result =
        some .reached →
      ∃ used s rest, first :: samples = used ++ s :: rest ∧
        used.length = ((drive realTrig first.ekf first.ekf.yaw dist vmax tEnd).run ()
          (first :: samples)).acts.length ∧
        alongAcross realTrig first.ekf first.ekf.yaw s.ekf = (dist - leftOn first dist s, 0) ∧
        |leftOn first dist s| < 0.002 ∧ s.ekf.yaw = first.ekf.yaw) ∧
    (((drive realTrig first.ekf first.ekf.yaw dist vmax tEnd).run () (first :: samples)).result =
        some .timedOut → tEnd ≤ first.clock + 40 * |dist| + period) ∧
    (((drive realTrig first.ekf first.ekf.yaw dist vmax tEnd).run () (first :: samples)).result =
        none →
      ∃ used s, first :: samples = used ++ [s] ∧
        s.clock + 40 * |leftOn first dist s| ≤ first.clock + 40 * |dist|) := by
  have hstands := Loop.run_invariant
    (fun hbefore hstep hanswer ↦ OnLine.step hvmax hperiod hbefore hstep hanswer) hrolls
    (onLine_self first dist period)
  refine ⟨fun used s rest hsplit hvisited ↦ ?_, fun hresult ↦ ?_, fun hresult ↦ ?_,
    fun hresult ↦ ?_⟩
  · obtain ⟨-, honline⟩ := Loop.invariant_of_visited
      (fun hbefore hstep hanswer ↦ OnLine.step hvmax hperiod hbefore hstep hanswer) hrolls
      (onLine_self first dist period) hsplit hvisited
    exact honline
  · obtain ⟨used, s, rest, hsplit, hlength, honline, hend⟩ := hstands.of_result hresult
    obtain ⟨⟨⟩, -⟩ | ⟨-, hnear⟩ | ⟨⟨⟩⟩ := drive_step_error hend
    refine ⟨used, s, rest, hsplit, hlength, Prod.ext ?_ honline.across, hnear, honline.yaw⟩
    exact (sub_sub_cancel _ _).symm
  · obtain ⟨_, s, _, -, -, honline, hend⟩ := hstands.of_result hresult
    obtain ⟨-, hlate⟩ | ⟨⟨⟩, -⟩ | ⟨⟨⟩⟩ := drive_step_error hend
    have hnonneg := abs_nonneg (leftOn first dist s)
    rcases honline.paid with hpaid | ⟨-, hpaid⟩ <;> linarith
  · obtain ⟨used, s, _, act, hsplit, honline, hstep⟩ := hstands.of_running hresult
    obtain ⟨hleft, -⟩ := drive_step_ok honline hstep
    exact ⟨used, s, hsplit, honline.paid.resolve_right fun h ↦ absurd h.1 (not_lt.mpr hleft)⟩

end rolling

noncomputable def lineFirst : Sample ℝ := ⟨0, ⟨0, 0, 0⟩, false⟩

noncomputable def lineSecond : Sample ℝ := ⟨0.1, ⟨0.0025, 0, 0⟩, false⟩

/-- A line of three millimetres, of which the first command covers all but the tolerance. -/
theorem drive_reaches_short :
    ∃ used s rest, [lineFirst, lineSecond] = used ++ s :: rest ∧ used.length = 1 ∧
      alongAcross realTrig lineFirst.ekf lineFirst.ekf.yaw s.ekf =
        (0.003 - leftOn lineFirst 0.003 s, 0) ∧
      |leftOn lineFirst 0.003 s| < 0.002 ∧ s.ekf.yaw = lineFirst.ekf.yaw := by
  have hspeed : approach 0.025 0.2 1.6 (0.003 : ℝ) = 0.025 := by norm_num [approach, copysign]
  have hfirst : (drive realTrig lineFirst.ekf lineFirst.ekf.yaw 0.003 0.2 15).step () lineFirst =
      .ok ((0.025, 0), ()) := by
    have hgoes : ¬|(0.003 : ℝ) - 0| < 0.002 := by norm_num [abs_of_pos]
    have hclock : ¬¬lineFirst.clock < 15 := by norm_num [lineFirst]
    dsimp only [drive]
    rw [alongAcross_self, if_neg hclock, if_neg hgoes, sub_self, wrap_zero, sub_zero, hspeed]
    norm_num [setAnd, lineFirst]
  have hsecond : (drive realTrig lineFirst.ekf lineFirst.ekf.yaw 0.003 0.2 15).step () lineSecond =
      .error .reached := by
    have hclock : ¬¬lineSecond.clock < 15 := by norm_num [lineSecond]
    have hnear : |0.003 - (alongAcross realTrig lineFirst.ekf lineFirst.ekf.yaw
        lineSecond.ekf).1| < 0.002 := by
      norm_num [alongAcross, lineFirst, lineSecond, abs_of_pos]
    dsimp only [drive]
    rw [if_neg hclock, if_pos hnear]
  have hrolls : (drive realTrig lineFirst.ekf lineFirst.ekf.yaw 0.003 0.2 15).Driven (Rolls 0.1) ()
      [lineFirst, lineSecond] := by
    refine (Loop.driven_of_ok hfirst).mpr ⟨?_, Loop.driven_of_error hsecond⟩
    rintro _ ⟨⟩
    refine ⟨?_, ?_, fun _ ↦ ?_⟩ <;> norm_num [lineFirst, lineSecond]
  have hrun : (drive realTrig lineFirst.ekf lineFirst.ekf.yaw 0.003 0.2 15).run ()
      [lineFirst, lineSecond] = ⟨[(0.025, 0)], (), some .reached⟩ := by
    rw [Loop.run_of_ok hfirst, Loop.run_of_error hsecond]
  obtain ⟨used, s, rest, hsplit, hlength, hends⟩ := (drive_reaches (by norm_num) (by norm_num)
    (by norm_num) hrolls).2.1 (congrArg Loop.Outcome.result hrun)
  rw [hrun] at hlength
  exact ⟨used, s, rest, hsplit, hlength, hends⟩

/-! ## In the arena -/

/-- An arena transform keeps distances. -/
theorem dist_compose (tArenaOdom pose : Pose ℝ) {gx gy ax ay : ℝ}
    (hgoal : ∀ yaw, (compose realTrig tArenaOdom ⟨gx, gy, yaw⟩).x = ax ∧
      (compose realTrig tArenaOdom ⟨gx, gy, yaw⟩).y = ay) :
    dist (compose realTrig tArenaOdom pose).position ⟨ax, ay⟩ = dist pose.position ⟨gx, gy⟩ := by
  have hpoint : (⟨ax, ay⟩ : ℂ) = (compose realTrig tArenaOdom ⟨gx, gy, 0⟩).position :=
    Complex.ext (hgoal 0).1.symm (hgoal 0).2.symm
  rw [hpoint, position_compose, position_compose, AffineIsometryEquiv.dist_map]
  rfl

/-- What `goto_arena` promises of where it ends, whatever the base does: there is no leg from a pose
that is near the point already, a leg that was driven ends near it but for what is left across the
line and what was lost before driving, and a last turn ends near the yaw that was asked for. -/
theorem gotoArena_ends {b : Bench ℝ} {ax ay vmax : ℝ} {ayaw : Option ℝ} {goal : OdomGoal ℝ}
    (hgoal : b.gotoArena realTrig ax ay ayaw vmax = some goal) :
    ∃ tArenaOdom, b.tArenaOdom = some tArenaOdom ∧
      (∀ pose, gotoOdom realTrig pose goal.gx goal.gy = none →
        dist (compose realTrig tArenaOdom pose).position ⟨ax, ay⟩ < 0.01) ∧
      (∀ pose start d bearing tEnd samples,
        gotoOdom realTrig pose goal.gx goal.gy = some (d, bearing) →
        ((drive realTrig start bearing d goal.vmax tEnd).run () samples).result = some .reached →
        ∃ used s rest, samples = used ++ s :: rest ∧
          used.length =
            ((drive realTrig start bearing d goal.vmax tEnd).run () samples).acts.length ∧
          dist (compose realTrig tArenaOdom s.ekf).position ⟨ax, ay⟩ ≤
            dist start.position pose.position +
              (0.002 + |(alongAcross realTrig start bearing s.ekf).2|)) ∧
      ∀ asked ∈ ayaw, ∃ yaw ∈ goal.yaw, ∀ wmax tol tEnd samples,
        ((rotateTo realTrig yaw wmax tol tEnd).run () samples).result = some .reached →
        ∃ used s rest, samples = used ++ s :: rest ∧
          used.length = ((rotateTo realTrig yaw wmax tol tEnd).run () samples).acts.length ∧
          |wrap realTrig (asked - (compose realTrig tArenaOdom s.ekf).yaw)| < tol := by
  obtain ⟨tArenaOdom, hsome, hreaches⟩ := gotoArena_reaches hgoal
  refine ⟨tArenaOdom, hsome, ?_, ?_, ?_⟩
  · intro pose hnone
    rw [dist_compose tArenaOdom pose hreaches.position, dist_comm, dist_eq_norm]
    unfold gotoOdom at hnone
    dsimp only at hnone
    split_ifs at hnone with hnear
    rw [hypot_eq_norm] at hnear
    exact hnear
  · intro pose start d bearing tEnd samples hleg hreached
    obtain ⟨used, s, rest, hsplit, hlength, hends⟩ := leg_ends hleg hreached
    rw [← dist_compose tArenaOdom s.ekf hreaches.position] at hends
    exact ⟨used, s, rest, hsplit, hlength, hends⟩
  · intro asked hasked
    obtain ⟨yaw, hyaw, hsame⟩ := hreaches.yaw asked hasked
    refine ⟨yaw, hyaw, fun wmax tol tEnd samples hreached ↦ ?_⟩
    obtain ⟨used, s, rest, hsplit, hlength, hnear⟩ := rotateTo_reached hreached
    have hleft : asked - (compose realTrig tArenaOdom s.ekf).yaw ≡ yaw - s.ekf.yaw
        [PMOD 2 * π] := by
      have harena : asked ≡ tArenaOdom.yaw + yaw [PMOD 2 * π] :=
        hsame.yaw.symm.trans (wrap_modEq _)
      have hdifference := harena.sub (wrap_modEq (tArenaOdom.yaw + s.ekf.yaw))
      rwa [add_sub_add_left_eq_sub] at hdifference
    rw [leftTo, ← wrap_congr hleft] at hnear
    exact ⟨used, s, rest, hsplit, hlength, hnear⟩

/-- A leg of a metre along the axis of odometry, as it is found at its start and at its end. -/
noncomputable def legSamples (goal : OdomGoal ℝ) : List (Sample ℝ) :=
  [⟨0, ⟨goal.gx - 1, goal.gy, 0⟩, false⟩, ⟨5.0, ⟨goal.gx, goal.gy, 0⟩, false⟩]

theorem gotoOdom_leg (goal : OdomGoal ℝ) :
    gotoOdom realTrig ⟨goal.gx - 1, goal.gy, 0⟩ goal.gx goal.gy = some (1, 0) := by
  have hlength : realTrig.hypot 1 0 = 1 := by
    rw [hypot_eq_norm]
    exact norm_one
  have hbearing : realTrig.atan2 0 1 = 0 := Complex.arg_one
  dsimp only [gotoOdom]
  rw [sub_sub_cancel, sub_self, hlength, hbearing, if_neg (by norm_num)]

theorem gotoArena_ends_turned :
    ∃ goal, turnedBench.gotoArena realTrig (-0.25) 0 (some π) 0.2 = some goal ∧
      ∃ used s rest, legSamples goal = used ++ s :: rest ∧ used.length = 1 ∧
        dist (compose realTrig ⟨0, 1, 1⟩ s.ekf).position ⟨-0.25, 0⟩ ≤
          0.002 + |(alongAcross realTrig ⟨goal.gx - 1, goal.gy, 0⟩ 0 s.ekf).2| := by
  obtain ⟨goal, hgoal⟩ :
      ∃ goal, turnedBench.gotoArena realTrig (-0.25) 0 (some π) 0.2 = some goal := ⟨_, rfl⟩
  obtain ⟨_, hsome, -, hleg, -⟩ := gotoArena_ends hgoal
  rw [← Option.some.inj hsome] at hleg
  let start : Pose ℝ := ⟨goal.gx - 1, goal.gy, 0⟩
  obtain ⟨act, hfirst⟩ : ∃ act,
      (drive realTrig start 0 1 goal.vmax 15).step () ⟨0, start, false⟩ = .ok (act, ()) := by
    dsimp only [drive]
    rw [alongAcross_self, if_neg (by norm_num), if_neg (by norm_num)]
    exact ⟨_, rfl⟩
  have hsecond : (drive realTrig start 0 1 goal.vmax 15).step ()
      ⟨5.0, ⟨goal.gx, goal.gy, 0⟩, false⟩ = .error .reached := by
    have halong : (alongAcross realTrig start 0 ⟨goal.gx, goal.gy, 0⟩).1 = 1 := by
      simp [alongAcross, start]
    dsimp only [drive]
    rw [halong, if_neg (by norm_num), if_pos (by norm_num)]
  have hrun : (drive realTrig start 0 1 goal.vmax 15).run () (legSamples goal) =
      ⟨[act], (), some .reached⟩ := by
    rw [legSamples, Loop.run_of_ok hfirst, Loop.run_of_error hsecond]
  obtain ⟨used, s, rest, hsplit, hlength, hends⟩ := hleg start start 1 0 15 (legSamples goal)
    (gotoOdom_leg goal) (congrArg Loop.Outcome.result hrun)
  rw [hrun] at hlength
  rw [dist_self, zero_add] at hends
  exact ⟨goal, hgoal, used, s, rest, hsplit, hlength, hends⟩

end MyDiffbot.Benchmark
