import MyDiffbot.Benchmark.Cloud

/-!
# The arena

The arena is the frame of the reference scan, and `T_arena_odom` is the pose of odometry in it. A
keyframe anchors it anew when the pose that `icp` finds is good enough. `goto_arena` is told where
to go in the arena, and what it passes on are goals of odometry.

In exact arithmetic a pose stands for a motion, so every law here is one of the group of motions.
-/

namespace MyDiffbot.Benchmark

open Incremental Real

variable {K : Type*} [Field K] [LinearOrder K]

/-! ## Keyframes -/

/-- What `icp` finds: the pose, the residual of the matched points and their share. -/
structure Fit (K : Type*) where
  T : Pose K
  rmse : K
  inl : K

def Fit.score (fit : Fit K) : K := fit.inl - 5 * fit.rmse

/-- The better of the best fit so far and a new one. -/
def better (best : Option (Fit K)) (fit : Fit K) : Fit K :=
  match best with
  | none => fit
  | some best => if best.score < fit.score then fit else best

/-- The best fit of those started from `init` with the yaw off by some angles. The first good one
ends the search. -/
def searchFit (icp : Pose K → Fit K) (init : Pose K) : List K → Option (Fit K) → Option (Fit K)
  | [], best => best
  | dth :: later, best =>
    let fit := icp ⟨init.x, init.y, init.yaw + dth⟩
    if 0.7 < fit.inl ∧ fit.rmse < 0.018 then some (better best fit)
    else searchFit icp init later (some (better best fit))

theorem searchFit_isSome (icp : Pose K → Fit K) (init : Pose K) (offsets : List K) (best : Fit K) :
    (searchFit icp init offsets (some best)).isSome = true := by
  induction offsets generalizing best with
  | nil => rfl
  | cons dth later ih =>
    rw [searchFit]
    split
    · rfl
    · exact ih _

/-- Whether a fit that deviates from the prediction by `dev` is taken for the truth. -/
def Fit.Ok (trig : Trig K) (fit : Fit K) (dev : Pose K) : Prop :=
  (0.83 ≤ fit.inl ∧ fit.rmse ≤ 0.0115) ∨
    (0.75 ≤ fit.inl ∧ fit.rmse ≤ 0.012 ∧ trig.hypot dev.x dev.y < 0.15 ∧ |dev.yaw| < 0.09)

instance (trig : Trig K) (fit : Fit K) (dev : Pose K) : Decidable (fit.Ok trig dev) :=
  inferInstanceAs (Decidable (_ ∨ _))

/-- What `keyframe` returns, but for what it only records. -/
structure Keyframe (K : Type*) where
  truth : Pose K
  ekf : Pose K
  rmse : K
  inl : K
  accepted : Bool
  pred : Pose K

variable [FloorRing K] (trig : Trig K)

namespace Bench

variable (b : Bench K)

/-- `keyframe`, given what `icp` makes of a cloud from where it starts, and the settled cloud, which
is thinned first. It fails without odometry or an arena transform. -/
def keyframe (icp : List (K × K) → Pose K → Fit K) (cloud : List (K × K)) :
    Option (Bench K × Keyframe K) :=
  match b.ekf, b.tArenaOdom with
  | some ekf, some tArenaOdom =>
    let init := compose trig tArenaOdom ekf
    (searchFit (icp (voxel cloud 0.02)) init [0, 0.1, -0.1, 0.25, -0.25] none).map fun fit ↦
      let dev := rel trig init fit.T
      let ok := decide (fit.Ok trig dev)
      (if ok then { b with tArenaOdom := some (compose trig fit.T (inverse trig ekf)) } else b,
        { truth := fit.T, ekf, rmse := fit.rmse, inl := fit.inl, accepted := ok, pred := init })
  | _, _ => none

/-- A keyframe comes to an end, whatever `icp` finds. -/
theorem keyframe_isSome (icp : List (K × K) → Pose K → Fit K) (cloud : List (K × K)) :
    (b.keyframe trig icp cloud).isSome = (b.ekf.isSome && b.tArenaOdom.isSome) := by
  unfold keyframe
  cases b.ekf with
  | none => rfl
  | some ekf =>
    cases b.tArenaOdom with
    | none => rfl
    | some tArenaOdom =>
      dsimp only
      rw [Option.isSome_map, searchFit]
      split
      · rfl
      · exact searchFit_isSome _ _ _ _

end Bench

/-! ## Goals -/

/-- What `goto_arena` passes to `goto_odom`, and to `rotate_to` if a yaw is asked for. -/
structure OdomGoal (K : Type*) where
  gx : K
  gy : K
  vmax : K
  yaw : Option K

/-- `goto_arena`; it fails without an arena transform. -/
def Bench.gotoArena (b : Bench K) (ax ay : K) (ayaw : Option K) (vmax : K) :
    Option (OdomGoal K) :=
  b.tArenaOdom.map fun tArenaOdom ↦
    let tInv := inverse trig tArenaOdom
    let goal := compose trig tInv ⟨ax, ay, 0⟩
    { gx := goal.x, gy := goal.y, vmax, yaw := ayaw.map fun ayaw ↦ wrap trig (ayaw + tInv.yaw) }

/-! ## The laws of poses -/

section laws

variable (a b c : Pose ℝ)

theorem compose_assoc :
    (compose realTrig (compose realTrig a b) c).Same
      (compose realTrig a (compose realTrig b c)) := by
  rw [Pose.same_iff, motion_compose, motion_compose, motion_compose, motion_compose, mul_assoc]

theorem compose_inverse : (compose realTrig a (inverse realTrig a)).Same ⟨0, 0, 0⟩ := by
  rw [Pose.same_iff, motion_compose, motion_inverse, mul_inv_cancel, Pose.motion_origin]

theorem inverse_compose : (compose realTrig (inverse realTrig a) a).Same ⟨0, 0, 0⟩ := by
  rw [Pose.same_iff, motion_compose, motion_inverse, inv_mul_cancel, Pose.motion_origin]

theorem compose_rel : (compose realTrig a (rel realTrig a b)).Same b := by
  rw [Pose.same_iff, motion_compose, motion_rel, mul_inv_cancel_left]

theorem rel_same : (rel realTrig a b).Same (Analyze.rel realTrig a b) := by
  rw [Pose.same_iff, motion_rel, motion_analyze_rel]

/-- What lies at `d` from the odometry pose lies at `d` from the truth, once the arena transform is
anchored to the two. -/
theorem compose_anchor {truth ekf d odom : Pose ℝ} (h : odom.Same (compose realTrig ekf d)) :
    (compose realTrig (compose realTrig truth (inverse realTrig ekf)) odom).Same
      (compose realTrig truth d) := by
  rw [Pose.same_iff, motion_compose] at *
  calc
    _ = truth.motion * ekf.motion⁻¹ * odom.motion := by rw [motion_compose, motion_inverse]
    _ = truth.motion * d.motion := by rw [h, mul_assoc, inv_mul_cancel_left]
    _ = _ := (motion_compose truth d).symm

end laws

/-! ## Anchored runs -/

/-- The arena pose of whatever lies at some pose from `ekf` lies there from `truth`. -/
def Bench.AnchoredTo (b : Bench ℝ) (truth ekf : Pose ℝ) : Prop :=
  ∃ tArenaOdom, b.tArenaOdom = some tArenaOdom ∧ ∀ d odom : Pose ℝ,
    odom.Same (compose realTrig ekf d) →
      (compose realTrig tArenaOdom odom).Same (compose realTrig truth d)

/-- Whether a step anchors the arena transform. -/
def Event.anchors : Event K → Bool
  | anchor _ _ => true
  | _ => false

section run

variable {trig} {fence : Fence K} {b first last : Bench K} {event : Event K}
  {events : List (Event K)} {trace : List (Mark K)}

theorem step_tArenaOdom (h : event.anchors = false) :
    (b.step trig fence event).1.tArenaOdom = b.tArenaOdom := by
  cases event with
  | tick t tRun => exact (b.tick_spec trig fence t tRun).1.tArenaOdom
  | set v w =>
    dsimp only [Bench.step]
    split <;> rfl
  | onJs t names positions =>
    dsimp only [Bench.step, Bench.onJs]
    cases wheelPositions? names positions <;> rfl
  | onScan t scan =>
    dsimp only [Bench.step, Bench.onScan]
    cases b.tLidar <;> rfl
  | onTfStatic transforms =>
    obtain ⟨tLidar, hresult⟩ := b.onTfStatic_eq trig transforms
    dsimp only [Bench.step]
    rw [hresult]
  | onIntroValues t namesVersion values =>
    obtain ⟨intro, tgtSince, introRow, hresult⟩ := b.onIntroValues_eq t namesVersion values
    dsimp only [Bench.step]
    rw [hresult]
  | anchor truth ekf => cases h
  | assign v w | stop | trip reason | onEkf x y orientation | onIntroNames namesVersion names
  | setFence on | setGuard on | start name | finish => rfl

/-- Only an anchor changes the arena transform. -/
theorem tArenaOdom_of_run (hrun : (bench trig fence).run b events = some (last, trace))
    (hevents : ∀ event ∈ events, event.anchors = false) : last.tArenaOdom = b.tArenaOdom := by
  refine Machine.run_invariant_nil (fun later _ ↦ later.tArenaOdom = b.tArenaOdom)
    (fun {later _ event _ _} hbefore hanchors hstep ↦ ?_) hrun (Machine.along_of_forall hevents) rfl
  have hkept : (later.step trig fence event).1.tArenaOdom = later.tArenaOdom :=
    step_tArenaOdom hanchors
  rw [Option.some.inj hstep] at hkept
  exact hkept.trans hbefore

/-- What a keyframe does is an anchor at the odometry pose and the truth it returns, if it is
accepted, and else nothing. -/
theorem keyframe_step {icp : List (K × K) → Pose K → Fit K} {cloud : List (K × K)}
    {kf : Keyframe K} (h : b.keyframe trig icp cloud = some (first, kf)) (fence : Fence K) :
    first = if kf.accepted then (b.step trig fence (.anchor kf.truth kf.ekf)).1 else b := by
  unfold Bench.keyframe at h
  split at h
  · obtain ⟨fit, -, hresult⟩ := Option.map_eq_some_iff.mp h
    obtain ⟨rfl, rfl⟩ := Prod.mk.inj hresult
    rfl
  · cases h

end run

section anchored

variable {fence : Fence ℝ} {b first last : Bench ℝ} {truth ekf : Pose ℝ} {events : List (Event ℝ)}
  {trace : List (Mark ℝ)}

variable (fence b truth ekf) in
theorem anchoredTo_step : (b.step realTrig fence (.anchor truth ekf)).1.AnchoredTo truth ekf :=
  ⟨_, rfl, fun _ _ ↦ compose_anchor⟩

/-- A node stays anchored until the next anchor. -/
theorem Bench.AnchoredTo.run (h : first.AnchoredTo truth ekf)
    (hrun : (bench realTrig fence).run first events = some (last, trace))
    (hevents : ∀ event ∈ events, event.anchors = false) : last.AnchoredTo truth ekf := by
  obtain ⟨tArenaOdom, hsome, hanchored⟩ := h
  exact ⟨tArenaOdom, (tArenaOdom_of_run hrun hevents).trans hsome, hanchored⟩

theorem anchoredTo_of_anchor
    (hrun : (bench realTrig fence).run b (.anchor truth ekf :: events) = some (last, trace))
    (hevents : ∀ event ∈ events, event.anchors = false) : last.AnchoredTo truth ekf := by
  obtain ⟨first, _, _, hstep, hlater, -⟩ := Machine.run_cons_eq_some.mp hrun
  have hfirst : first.AnchoredTo truth ekf := by
    rw [← (Prod.mk.inj (Option.some.inj hstep)).1]
    exact anchoredTo_step fence b truth ekf
  exact hfirst.run hlater hevents

theorem anchoredTo_of_keyframe {icp : List (ℝ × ℝ) → Pose ℝ → Fit ℝ} {cloud : List (ℝ × ℝ)}
    {kf : Keyframe ℝ} (hkeyframe : b.keyframe realTrig icp cloud = some (first, kf))
    (haccepted : kf.accepted = true)
    (hrun : (bench realTrig fence).run first events = some (last, trace))
    (hevents : ∀ event ∈ events, event.anchors = false) : last.AnchoredTo kf.truth kf.ekf := by
  have hfirst : first.AnchoredTo kf.truth kf.ekf := by
    rw [keyframe_step hkeyframe fence, if_pos haccepted]
    exact anchoredTo_step fence b kf.truth kf.ekf
  exact hfirst.run hrun hevents

end anchored

/-! ## Goals in the arena -/

/-- Seen from the arena, a goal is where it was asked for. -/
structure OdomGoal.Reaches (goal : OdomGoal ℝ) (tArenaOdom : Pose ℝ) (ax ay : ℝ)
    (ayaw : Option ℝ) : Prop where
  position : ∀ yaw, (compose realTrig tArenaOdom ⟨goal.gx, goal.gy, yaw⟩).x = ax ∧
    (compose realTrig tArenaOdom ⟨goal.gx, goal.gy, yaw⟩).y = ay
  yaw : ∀ asked ∈ ayaw, ∃ yaw ∈ goal.yaw,
    (compose realTrig tArenaOdom ⟨goal.gx, goal.gy, yaw⟩).Same ⟨ax, ay, asked⟩

/-- The position does not depend on the yaw that the base has there. -/
theorem position_goal (tArenaOdom : Pose ℝ) (ax ay yaw : ℝ) :
    (compose realTrig tArenaOdom
      { compose realTrig (inverse realTrig tArenaOdom) ⟨ax, ay, 0⟩ with yaw }).position =
        ⟨ax, ay⟩ := by
  rw [position_compose]
  change tArenaOdom.motion
    (compose realTrig (inverse realTrig tArenaOdom) ⟨ax, ay, 0⟩).position = _
  rw [position_compose, motion_inverse, AffineIsometryEquiv.coe_inv,
    AffineIsometryEquiv.apply_symm_apply]
  rfl

theorem gotoArena_reaches {b : Bench ℝ} {ax ay vmax : ℝ} {ayaw : Option ℝ} {goal : OdomGoal ℝ}
    (h : b.gotoArena realTrig ax ay ayaw vmax = some goal) :
    ∃ tArenaOdom, b.tArenaOdom = some tArenaOdom ∧ goal.Reaches tArenaOdom ax ay ayaw := by
  obtain ⟨tArenaOdom, hsome, rfl⟩ := Option.map_eq_some_iff.mp h
  have hposition : ∀ yaw, _ := fun yaw ↦ Complex.ext_iff.mp (position_goal tArenaOdom ax ay yaw)
  refine ⟨tArenaOdom, hsome, hposition, fun asked hasked ↦ ?_⟩
  have hturn := (wrap_modEq (asked + -tArenaOdom.yaw)).add_left tArenaOdom.yaw
  rw [add_neg_cancel_comm_assoc] at hturn
  exact ⟨wrap realTrig (asked + -tArenaOdom.yaw), Option.mem_map.mpr ⟨asked, hasked, rfl⟩,
    (hposition _).1, (hposition _).2, (wrap_modEq _).trans hturn⟩

/-! ## The tools together -/

/-- In exact arithmetic the poses of both tools obey the laws of motions. So an anchored node tells
arena poses from odometry, whichever steps follow the anchor, and its goals are where they were
asked for. -/
theorem poses_consistent :
    (∀ a, wrap realTrig a ∈ Set.Ico (-π) π ∧ wrap realTrig a ≡ a [PMOD 2 * π] ∧
      Analyze.wrap realTrig a = wrap realTrig a) ∧
    (∀ a b c, (compose realTrig (compose realTrig a b) c).Same
      (compose realTrig a (compose realTrig b c))) ∧
    (∀ a, (compose realTrig a (inverse realTrig a)).Same ⟨0, 0, 0⟩ ∧
      (compose realTrig (inverse realTrig a) a).Same ⟨0, 0, 0⟩) ∧
    (∀ a b, (compose realTrig a (rel realTrig a b)).Same b) ∧
    (∀ a b, (rel realTrig a b).Same (Analyze.rel realTrig a b)) ∧
    (∀ truth ekf d, (compose realTrig (compose realTrig truth (inverse realTrig ekf))
      (compose realTrig ekf d)).Same (compose realTrig truth d)) ∧
    (∀ (fence : Fence ℝ) (b last : Bench ℝ) (truth ekf : Pose ℝ) (events : List (Event ℝ)) trace,
      (bench realTrig fence).run b (.anchor truth ekf :: events) = some (last, trace) →
      (∀ event ∈ events, event.anchors = false) → last.AnchoredTo truth ekf) ∧
    (∀ (fence : Fence ℝ) (b first last : Bench ℝ) icp cloud kf (events : List (Event ℝ)) trace,
      b.keyframe realTrig icp cloud = some (first, kf) → kf.accepted = true →
      (bench realTrig fence).run first events = some (last, trace) →
      (∀ event ∈ events, event.anchors = false) → last.AnchoredTo kf.truth kf.ekf) ∧
    (∀ (b : Bench ℝ) ax ay ayaw vmax goal, b.gotoArena realTrig ax ay ayaw vmax = some goal →
      ∃ tArenaOdom, b.tArenaOdom = some tArenaOdom ∧ goal.Reaches tArenaOdom ax ay ayaw) :=
  ⟨fun a ↦ ⟨wrap_mem_Ico a, wrap_modEq a, Analyze.wrap_eq a⟩, compose_assoc,
    fun a ↦ ⟨compose_inverse a, inverse_compose a⟩, compose_rel, rel_same,
    fun _ _ _ ↦ compose_anchor ⟨rfl, rfl, AddCommGroup.modEq_rfl⟩,
    fun _ _ _ _ _ _ _ ↦ anchoredTo_of_anchor, fun _ _ _ _ _ _ _ _ _ ↦ anchoredTo_of_keyframe,
    fun _ _ _ _ _ _ ↦ gotoArena_reaches⟩

/-- A node whose odometry has turned by one radian, in an arena that it is turned to. -/
noncomputable def turnedBench : Bench ℝ :=
  { Bench.initial (some ⟨0, 1, 1⟩) with ekf := some ⟨1, 0, 1⟩ }

/-- A good fit, away from the prediction. -/
noncomputable def turnedFit : Fit ℝ := ⟨⟨0, 1, π⟩, 0, 1⟩

theorem turnedBench_keyframe :
    ∃ first kf, turnedBench.keyframe realTrig (fun _ _ ↦ turnedFit) [] = some (first, kf) ∧
      kf.accepted = true ∧ kf.truth = ⟨0, 1, π⟩ ∧ kf.ekf = ⟨1, 0, 1⟩ := by
  have hgood : 0.7 < turnedFit.inl ∧ turnedFit.rmse < 0.018 := by
    constructor <;> norm_num [turnedFit]
  have hok : ∀ dev, turnedFit.Ok realTrig dev := fun dev ↦ .inl (by
    constructor <;> norm_num [turnedFit])
  dsimp only [Bench.keyframe, turnedBench, Bench.initial, searchFit]
  rw [if_pos hgood]
  exact ⟨_, _, rfl, decide_eq_true (hok _), rfl, rfl⟩

theorem poses_consistent_turned :
    (∃ last, (bench realTrig ⟨-1, 1, -1, 1⟩).run turnedBench
        [.anchor ⟨0, 0, 0⟩ ⟨1, 0, 1⟩, .stop] = some (last, []) ∧
      last.AnchoredTo ⟨0, 0, 0⟩ ⟨1, 0, 1⟩) ∧
    (∃ first kf, turnedBench.keyframe realTrig (fun _ _ ↦ turnedFit) [] = some (first, kf) ∧
      first.AnchoredTo ⟨0, 1, π⟩ ⟨1, 0, 1⟩) ∧
    ∃ goal, turnedBench.gotoArena realTrig (-0.25) 0 (some π) 0.2 = some goal ∧
      goal.Reaches ⟨0, 1, 1⟩ (-0.25) 0 (some π) := by
  obtain ⟨-, -, -, -, -, -, hanchor, hkeyframe, hgoal⟩ := poses_consistent
  refine ⟨⟨_, rfl, ?_⟩, ?_, ⟨_, rfl, ?_⟩⟩
  · exact hanchor ⟨-1, 1, -1, 1⟩ turnedBench _ _ _ [.stop] [] rfl (by simp [Event.anchors])
  · obtain ⟨first, kf, hfirst, haccepted, htruth, hekf⟩ := turnedBench_keyframe
    rw [← htruth, ← hekf]
    exact ⟨first, kf, hfirst, hkeyframe ⟨-1, 1, -1, 1⟩ _ _ _ _ _ _ [] [] hfirst haccepted rfl nofun⟩
  · obtain ⟨_, hsome, hreaches⟩ := hgoal turnedBench _ _ _ _ _ rfl
    rwa [← Option.some.inj hsome] at hreaches

end MyDiffbot.Benchmark
