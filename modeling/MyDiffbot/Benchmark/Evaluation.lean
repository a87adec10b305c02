import MyDiffbot.Benchmark.Registration
import MyDiffbot.Benchmark.Turning
import MyDiffbot.Incremental.Spans

/-!
# The evaluation

The evaluation cuts a recording into the steps of its test, which do not overlap (`segments_spec`).
`kf_pairs` compares the way between two keyframes that odometry and the IMU tell with the way in
ground truth. Its rows are made of relative motions alone, so they are the same wherever the arena
and the frames of odometry lie (`kfPairs_moved`). For a keyframe that was accepted and the next one,
the error of the EKF is what the benchmark itself has found the second to deviate from its
prediction, if the row is not taken from the scans of the two (`ekfErr_of_run`): both tools measure
one error, in two ways.
-/

namespace MyDiffbot.Benchmark.Analyze

/-! ## Steps -/

section segments

open Incremental

/-- From a label that begins with the first text until one that begins with either. -/
structure Segment (K : Type*) where
  t0 : K
  t1 : K
  label : String

def startsWith (label text : String) : Bool := text.toList.isPrefixOf label.toList

/-- The event begins a step. -/
def begins {K : Type*} (start stop : String) (event : K × String) : Bool :=
  startsWith event.2 start && !startsWith event.2 stop

/-- The event ends a step. -/
def ends {K : Type*} (start stop : String) (event : K × String) : Bool :=
  startsWith event.2 stop || startsWith event.2 start

/-- `segments`, given the events of a recording. -/
def segments {K : Type*} (events : List (K × String)) (start stop : String) : List (Segment K) :=
  (spans (begins start stop) (ends start stop) events).map fun span ↦
    ⟨span.1.1, span.2.1, span.1.2⟩

variable {K : Type*} [LinearOrder K]

omit [LinearOrder K] in
theorem ends_of_begins {start stop : String} (event : K × String)
    (h : begins start stop event = true) : ends start stop event = true := by
  unfold begins at h
  unfold ends
  rw [(Bool.and_eq_true_iff.mp h).1, Bool.or_true]

/-- The segments are the steps with nothing in between that begins or ends one. Each ends before the
next begins, if the events are in the order of time, and no step is left out but the last, if nothing
ends it. -/
theorem segments_spec (events : List (K × String)) (start stop : String) :
    (∀ s, s ∈ segments events start stop ↔
      ∃ before between closing after,
        events = before ++ (s.t0, s.label) :: (between ++ (s.t1, closing) :: after) ∧
        begins start stop (s.t0, s.label) = true ∧ ends start stop (s.t1, closing) = true ∧
        ∀ event ∈ between, ends start stop event = false) ∧
    (events.Pairwise (fun event later ↦ event.1 ≤ later.1) →
      (segments events start stop).Pairwise fun s later ↦ s.t1 ≤ later.t0) ∧
    (events.filter (begins start stop)).length ≤ (segments events start stop).length + 1 := by
  refine ⟨fun s ↦ ?_, fun hevents ↦ ?_, ?_⟩
  · rw [segments, List.mem_map]
    constructor
    · rintro ⟨⟨first, last⟩, hspan, rfl⟩
      obtain ⟨before, between, after, hsplit, hlimits⟩ := mem_spans_iff.mp hspan
      exact ⟨before, between, last.2, after, hsplit, hlimits⟩
    · rintro ⟨before, between, closing, after, hsplit, hlimits⟩
      exact ⟨((s.t0, s.label), (s.t1, closing)),
        mem_spans_iff.mpr ⟨before, between, after, hsplit, hlimits⟩, rfl⟩
  · have hrefl : ∀ event : K × String, event.1 ≤ event.1 := fun _ ↦ le_rfl
    exact List.pairwise_map.mpr (spans_pairwise hrefl ends_of_begins hevents)
  · rw [segments, List.length_map]
    exact length_filter_opens_le ends_of_begins

/-- A test that was aborted in its second step. -/
def linEvents : List (ℚ × String) :=
  [(0, "start lin"), (1, "lin step +0.10"), (9, "lin stop"), (20, "lin step +0.20"), (21, "ABORTED")]

theorem segments_spec_lin :
    (segments linEvents "lin step" "lin stop").Pairwise (fun s later ↦ s.t1 ≤ later.t0) :=
  (segments_spec linEvents "lin step" "lin stop").2.1 (by decide +kernel)

end segments

/-! ## Keyframes -/

/-- A keyframe of a recording. -/
structure RecordedKeyframe (K : Type*) where
  label : String
  truth : Pose K
  ekf : Pose K
  wheel : Pose K
  imu : K
  rmse : K

/-- A row of `kf_pairs`. -/
structure KfPair (K : Type*) where
  a : String
  b : String
  truth : Pose K
  ekf : Pose K
  wheel : Pose K
  truthDist : K
  ekfErrXyM : K
  wheelErrXyM : K
  ekfDistErrPct : Option K
  wheelDistErrPct : Option K
  ekfYawErrDeg : K
  wheelYawErrDeg : K
  icpRmseMm : K × K
  /-- The truth is the one of `scan_to_scan`. -/
  scanToScan : Bool
  s2sFit : Option (K × K)
  imuYawErrDeg : K

section pairs

variable {K : Type*} [Field K] [LinearOrder K] [FloorRing K] (np : Numpy K) (trig : Trig K)

def degrees (x : K) : K := x * 180.0 / trig.pi

/-- Pose of the keyframe `b` in the frame of `a` by `icp` between their clouds, given what `normals`
makes of a cloud; `none` without a cloud of both. -/
def scanToScan (normals : List (K × K) → Reference K) (clouds : String → Option (List (K × K)))
    (a b : String) (init : Pose K) : Option (Fit K) :=
  (clouds a).bind fun cloudA ↦ (clouds b).map fun cloudB ↦
    icp np trig (voxel cloudB 0.02) (normals (voxel cloudA 0.01)) 60 init

/-- The row of two keyframes, given what `scan_to_scan` finds from where it starts. -/
def kfPair (scan : Pose K → Option (Fit K)) (A B : RecordedKeyframe K) : KfPair K :=
  let prior := rel trig A.truth B.truth
  let ek := rel trig A.ekf B.ekf
  let wh := rel trig A.wheel B.wheel
  let s2s := scan prior
  let used := s2s.filter fun fit ↦ 0.75 < fit.inl
  let tr := (used.map Fit.T).getD prior
  let dist := trig.hypot tr.x tr.y
  let errXy := fun odom : Pose K ↦ trig.hypot (odom.x - tr.x) (odom.y - tr.y)
  let distErrPct := fun odom : Pose K ↦
    if 0.05 < dist then some ((trig.hypot odom.x odom.y - dist) / dist * 100.0) else none
  { a := A.label
    b := B.label
    truth := tr
    ekf := ek
    wheel := wh
    truthDist := dist
    ekfErrXyM := errXy ek
    wheelErrXyM := errXy wh
    ekfDistErrPct := distErrPct ek
    wheelDistErrPct := distErrPct wh
    ekfYawErrDeg := degrees trig (wrap trig (ek.yaw - tr.yaw))
    wheelYawErrDeg := degrees trig (wrap trig (wh.yaw - tr.yaw))
    icpRmseMm := (A.rmse * 1000.0, B.rmse * 1000.0)
    scanToScan := used.isSome
    s2sFit := s2s.map fun fit ↦ (fit.rmse * 1000.0, fit.inl)
    imuYawErrDeg := degrees trig (wrap trig (wrap trig (B.imu - A.imu) - tr.yaw)) }

/-- The latest keyframe under a label. -/
def keyframe? (keyframes : List (RecordedKeyframe K)) (label : String) :
    Option (RecordedKeyframe K) :=
  keyframes.reverse.find? fun kf ↦ kf.label = label

/-- `kf_pairs`; a pair of which a keyframe is missing has no row. -/
def kfPairs (normals : List (K × K) → Reference K) (keyframes : List (RecordedKeyframe K))
    (pairs : List (String × String)) (clouds : Option (String → Option (List (K × K)))) :
    List (KfPair K) :=
  pairs.filterMap fun pair ↦
    (keyframe? keyframes pair.1).bind fun A ↦ (keyframe? keyframes pair.2).map fun B ↦
      kfPair trig
        (fun init ↦ clouds.bind fun clouds ↦ scanToScan np trig normals clouds pair.1 pair.2 init) A B

/-- What `keyframe` records. -/
def record (kf : Keyframe K) (label : String) (wheel : Pose K) (imu : K) : RecordedKeyframe K :=
  ⟨label, kf.truth, kf.ekf, wheel, imu, kf.rmse⟩

end pairs

/-! ## Where the frames lie -/

section moved

open Real

/-- A pose is told by its motion if its yaw is wrapped. -/
theorem eq_of_motion {a b : Pose ℝ} {yaw yaw' : ℝ} (ha : a.yaw = wrap realTrig yaw)
    (hb : b.yaw = wrap realTrig yaw') (h : a.motion = b.motion) : a = b := by
  obtain ⟨hx, hy, hyaw⟩ := Pose.same_iff.mpr h
  have hturn : yaw ≡ yaw' [PMOD 2 * π] := by
    rw [ha, hb] at hyaw
    exact (wrap_modEq yaw).symm.trans (hyaw.trans (wrap_modEq yaw'))
  have hwrapped : a.yaw = b.yaw := by
    rw [ha, hb]
    exact wrap_congr hturn
  cases a
  cases b
  exact congr (congrArg₂ Pose.mk hx hy) hwrapped

/-- The way between two poses is the same in every frame. -/
theorem rel_compose (frame a b : Pose ℝ) :
    rel realTrig (compose realTrig frame a) (compose realTrig frame b) = rel realTrig a b := by
  refine eq_of_motion rfl rfl ?_
  rw [motion_analyze_rel, motion_analyze_rel, motion_compose, motion_compose, mul_inv_rev,
    mul_assoc, inv_mul_cancel_left]

/-- Where the arena, the frames of odometry and the zero of the IMU lie, seen from elsewhere. -/
structure Frames where
  arena : Pose ℝ
  ekf : Pose ℝ
  wheel : Pose ℝ
  imu : ℝ

noncomputable def Frames.move (frames : Frames) (kf : RecordedKeyframe ℝ) : RecordedKeyframe ℝ :=
  { kf with
    truth := compose realTrig frames.arena kf.truth
    ekf := compose realTrig frames.ekf kf.ekf
    wheel := compose realTrig frames.wheel kf.wheel
    imu := wrap realTrig (frames.imu + kf.imu) }

theorem kfPair_moved (frames : Frames) (scan : Pose ℝ → Option (Fit ℝ))
    (A B : RecordedKeyframe ℝ) :
    kfPair realTrig scan (frames.move A) (frames.move B) = kfPair realTrig scan A B := by
  have himu : wrap realTrig ((frames.move B).imu - (frames.move A).imu) =
      wrap realTrig (B.imu - A.imu) := by
    have hturn := (wrap_modEq (frames.imu + B.imu)).sub (wrap_modEq (frames.imu + A.imu))
    rw [add_sub_add_left_eq_sub] at hturn
    exact wrap_congr hturn
  unfold kfPair
  rw [himu]
  simp only [Frames.move, rel_compose]

theorem keyframe?_moved (frames : Frames) (keyframes : List (RecordedKeyframe ℝ)) (label : String) :
    keyframe? (keyframes.map frames.move) label = (keyframe? keyframes label).map frames.move := by
  rw [keyframe?, ← List.map_reverse, List.find?_map]
  rfl

/-- The rows are the same, wherever the frames lie. -/
theorem kfPairs_moved (np : Numpy ℝ) (normals : List (ℝ × ℝ) → Reference ℝ) (frames : Frames)
    (keyframes : List (RecordedKeyframe ℝ)) (pairs : List (String × String))
    (clouds : Option (String → Option (List (ℝ × ℝ)))) :
    kfPairs np realTrig normals (keyframes.map frames.move) pairs clouds =
      kfPairs np realTrig normals keyframes pairs clouds := by
  refine List.filterMap_congr fun pair _ ↦ ?_
  rw [keyframe?_moved, keyframe?_moved, Option.bind_map]
  cases keyframe? keyframes pair.1 with
  | none => rfl
  | some A =>
    cases keyframe? keyframes pair.2 with
    | none => rfl
    | some B => exact congrArg some (kfPair_moved frames _ A B)

end moved

/-! ## The error that the benchmark has seen -/

section deviation

open Real Incremental

theorem wrap_wrap (a : ℝ) : Benchmark.wrap realTrig (Benchmark.wrap realTrig a) =
    Benchmark.wrap realTrig a :=
  wrap_eq_of_modEq (wrap_mem_Ico a) AddCommGroup.modEq_rfl

theorem abs_wrap_neg (a : ℝ) :
    |Benchmark.wrap realTrig (-a)| = |Benchmark.wrap realTrig a| := by
  obtain ⟨hlower, hupper⟩ := wrap_mem_Ico a
  have hback : -Benchmark.wrap realTrig a ≡ -a [PMOD 2 * π] := (wrap_modEq a).neg
  rcases hlower.eq_or_lt with hhalf | hlower
  · have hturn : -π ≡ -a [PMOD 2 * π] := by
      rw [← hhalf, neg_neg] at hback
      refine AddCommGroup.ModEq.trans (AddCommGroup.modEq_iff_zsmul.mpr ⟨1, ?_⟩) hback
      rw [one_zsmul]
      ring
    rw [wrap_eq_of_modEq ⟨le_rfl, by linarith [pi_pos]⟩ hturn, hhalf]
  · rw [wrap_eq_of_modEq ⟨by linarith, by linarith⟩ hback, abs_neg]

theorem abs_degrees (x : ℝ) : |degrees realTrig x| = degrees realTrig |x| := by
  have hfactor : (0 : ℝ) < 180.0 := by norm_num
  rw [degrees, degrees, realTrig_pi, abs_div, abs_mul, abs_of_pos hfactor, abs_of_pos pi_pos]

/-- How much one way differs from another is what the one deviates from the other. -/
theorem deviation_eq {ek tr dev : Pose ℝ} {yaw : ℝ} (hyaw : dev.yaw = Benchmark.wrap realTrig yaw)
    (h : dev.motion = ek.motion⁻¹ * tr.motion) :
    realTrig.hypot (ek.x - tr.x) (ek.y - tr.y) = realTrig.hypot dev.x dev.y ∧
      |Benchmark.wrap realTrig (ek.yaw - tr.yaw)| = |dev.yaw| := by
  rw [Pose.motion, Pose.motion, Pose.motion, Planar.motion_inv_mul, Planar.motion_eq_iff] at h
  obtain ⟨hposition, hturn⟩ := h
  constructor
  · rw [hypot_eq_norm, hypot_eq_norm]
    change ‖ek.position - tr.position‖ = ‖dev.position‖
    rw [hposition, norm_mul, Circle.norm_coe, one_mul, norm_sub_rev]
  · rw [← neg_sub, abs_wrap_neg, ← wrap_congr hturn, hyaw, wrap_wrap]

/-- The truth of a row that is not taken from the scans is the way between the truths. -/
theorem kfPair_truth {scan : Pose ℝ → Option (Fit ℝ)} {A B : RecordedKeyframe ℝ}
    (h : (kfPair realTrig scan A B).scanToScan = false) :
    (kfPair realTrig scan A B).truth = rel realTrig A.truth B.truth := by
  have hnone : (scan (rel realTrig A.truth B.truth)).filter (fun fit ↦ 0.75 < fit.inl) = none :=
    Option.isSome_eq_false_iff.mp h |> Option.isNone_iff_eq_none.mp
  unfold kfPair
  dsimp only
  rw [hnone]
  rfl

/-- For an accepted keyframe and the next one, the evaluation takes for the error of the EKF what the
second has deviated from its prediction, if it has not found a better truth between their scans. -/
theorem ekfErr_of_run {fence : Fence ℝ} {b first last second : Bench ℝ}
    {find find' : List (ℝ × ℝ) → Pose ℝ → Fit ℝ} {cloud cloud' : List (ℝ × ℝ)}
    {kf kf' : Keyframe ℝ} {events : List (Event ℝ)} {trace : List (Mark ℝ)}
    {scan : Pose ℝ → Option (Fit ℝ)} {label label' : String} {wheel wheel' : Pose ℝ} {imu imu' : ℝ}
    (hfirst : b.keyframe realTrig find cloud = some (first, kf)) (haccepted : kf.accepted = true)
    (hrun : (bench realTrig fence).run first events = some (last, trace))
    (hevents : ∀ event ∈ events, event.anchors = false)
    (hsecond : last.keyframe realTrig find' cloud' = some (second, kf'))
    (hrow : (kfPair realTrig scan (record kf label wheel imu)
      (record kf' label' wheel' imu')).scanToScan = false) :
    let dev := Benchmark.rel realTrig kf'.pred kf'.truth
    let row := kfPair realTrig scan (record kf label wheel imu) (record kf' label' wheel' imu')
    row.ekfErrXyM = realTrig.hypot dev.x dev.y ∧
      |row.ekfYawErrDeg| = degrees realTrig |dev.yaw| ∧
      (kf'.accepted = true → kf'.inl < 0.83 →
        row.ekfErrXyM < 0.15 ∧ |row.ekfYawErrDeg| < degrees realTrig 0.09) := by
  intro dev row
  obtain ⟨tArenaOdom, hanchor, hanchored⟩ :=
    anchoredTo_of_keyframe hfirst haccepted hrun hevents
  have hway : (compose realTrig kf.ekf (Benchmark.rel realTrig kf.ekf kf'.ekf)).Same kf'.ekf :=
    compose_rel kf.ekf kf'.ekf
  have hpredicted := hanchored (Benchmark.rel realTrig kf.ekf kf'.ekf) kf'.ekf
    (Pose.same_iff.mpr (Pose.same_iff.mp hway).symm)
  obtain ⟨hpred, hok⟩ : kf'.pred = compose realTrig tArenaOdom kf'.ekf ∧
      (kf'.accepted = true → kf'.inl < 0.83 →
        realTrig.hypot dev.x dev.y < 0.15 ∧ |dev.yaw| < 0.09) := by
    unfold Bench.keyframe at hsecond
    rw [hanchor] at hsecond
    cases hekf : last.ekf with
    | none =>
      rw [hekf] at hsecond
      cases hsecond
    | some ekf =>
      rw [hekf] at hsecond
      obtain ⟨fit, -, hresult⟩ := Option.map_eq_some_iff.mp hsecond
      obtain ⟨-, rfl⟩ := Prod.mk.inj hresult
      refine ⟨rfl, fun htaken hlow ↦ ?_⟩
      rcases of_decide_eq_true htaken with hgood | hgood
      · exact absurd hgood.1 (not_le.mpr hlow)
      · exact hgood.2.2
  have hmotion : dev.motion = (rel realTrig kf.ekf kf'.ekf).motion⁻¹ *
      (rel realTrig kf.truth kf'.truth).motion := by
    rw [motion_rel, hpred, Pose.same_iff.mp hpredicted, motion_compose, motion_rel,
      motion_analyze_rel, motion_analyze_rel]
    group
  have htruth : row.truth = rel realTrig kf.truth kf'.truth := kfPair_truth hrow
  rw [← htruth] at hmotion
  obtain ⟨hxy, hyaw⟩ := deviation_eq rfl hmotion
  have hrowXy : row.ekfErrXyM = realTrig.hypot dev.x dev.y := hxy
  have hrowYaw : |row.ekfYawErrDeg| = degrees realTrig |dev.yaw| :=
    (abs_degrees _).trans (congrArg (degrees realTrig) hyaw)
  refine ⟨hrowXy, hrowYaw, fun htaken hlow ↦ ?_⟩
  obtain ⟨hnear, hstraight⟩ := hok htaken hlow
  rw [hrowXy, hrowYaw]
  refine ⟨hnear, ?_⟩
  have hfactor : (0 : ℝ) < 180.0 := by norm_num
  exact div_lt_div_of_pos_right (mul_lt_mul_of_pos_right hstraight hfactor) pi_pos

/-- A base that stands between two keyframes, whose scans do not register. -/
theorem ekfErr_of_run_turned :
    ∃ first second kf kf', turnedBench.keyframe realTrig (fun _ _ ↦ turnedFit) [] = some (first, kf) ∧
      first.keyframe realTrig (fun _ _ ↦ turnedFit) [] = some (second, kf') ∧
      (kfPair realTrig (fun init ↦ some ⟨init, 1, 0⟩) (record kf "start" ⟨0, 0, 0⟩ 0)
          (record kf' "end" ⟨0, 0, 0⟩ 0)).ekfErrXyM =
        realTrig.hypot (Benchmark.rel realTrig kf'.pred kf'.truth).x
          (Benchmark.rel realTrig kf'.pred kf'.truth).y := by
  obtain ⟨first, kf, hfirst, haccepted, -⟩ := turnedBench_keyframe
  have hsome : (first.keyframe realTrig (fun _ _ ↦ turnedFit) []).isSome = true := by
    rw [Bench.keyframe_isSome, keyframe_step hfirst ⟨-1, 1, -1, 1⟩, if_pos haccepted]
    rfl
  obtain ⟨⟨second, kf'⟩, hsecond⟩ := Option.isSome_iff_exists.mp hsome
  have hrun : (bench realTrig ⟨-1, 1, -1, 1⟩).run first [] = some (first, []) := rfl
  have hpoor : ∀ A B, (kfPair realTrig (fun init ↦ some ⟨init, 1, 0⟩) A B).scanToScan = false := by
    intro A B
    have hlow : ¬(0.75 : ℝ) < 0 := by norm_num
    simp [kfPair, hlow]
  exact ⟨first, second, kf, kf', hfirst, hsecond,
    (ekfErr_of_run hfirst haccepted hrun nofun hsecond (hpoor _ _)).1⟩

end deviation

end MyDiffbot.Benchmark.Analyze
