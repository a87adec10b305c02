import MyDiffbot.Benchmark.Arena
import Mathlib.Data.List.MinMax
import Mathlib.Data.List.Sort

/-!
# Registration of scans

The ground truth of the benchmark: `icp` registers a cloud against the reference scan, point to
plane, with the far points trimmed. The cloud and the reference are exact here, and the least squares
of `numpy` are a parameter. The fit does not depend on the frame in which the cloud is given
(`icp_tfPts`). A keyframe registers its settled cloud as it is thinned to cells of 2 cm: an exact
prediction is left as it is (`keyframe_exact`), and an accepted keyframe lays the thinned cloud over
the reference (`accepted_overlaps`).
-/

namespace MyDiffbot.Benchmark

/-! ## The reference -/

/-- What `icp` takes from `numpy`: `lstsq` is given the rows and the right-hand side. -/
structure Numpy (K : Type*) where
  sqrt : K → K
  lstsq : List (K × K × K) → List K → K × K × K

/-- A point of the reference and the normal of its surface. -/
structure Landmark (K : Type*) where
  q : K × K
  n : K × K

/-- The reference scan. Without a point `argmin` fails. -/
structure Reference (K : Type*) where
  landmarks : List (Landmark K)
  ne_nil : landmarks ≠ []

section registration

variable {K : Type*} [Field K] [LinearOrder K]

/-- The squared distance of two points. -/
def d2 (p q : K × K) : K := (p.1 - q.1) ^ 2 + (p.2 - q.2) ^ 2

/-- The landmark that is nearest to a point, the first one of several. -/
def Reference.nearest (ref : Reference K) (p : K × K) : Landmark K :=
  (ref.landmarks.argmin fun r ↦ d2 p r.q).get
    (Option.isSome_iff_ne_none.mpr fun hnone ↦ ref.ne_nil (List.argmin_eq_none.mp hnone))

/-- A point of the cloud with its nearest landmark. -/
structure Match (K : Type*) where
  p : K × K
  r : Landmark K

def Reference.matches (ref : Reference K) (points : List (K × K)) : List (Match K) :=
  points.map fun p ↦ ⟨p, ref.nearest p⟩

variable (np : Numpy K)

def Match.dist (m : Match K) : K := np.sqrt (d2 m.p m.r.q)

/-- The distance from the plane of the landmark. -/
def Match.residual (m : Match K) : K :=
  (m.p.1 - m.r.q.1) * m.r.n.1 + (m.p.2 - m.r.q.2) * m.r.n.2

/-- The row of the linearised motion. -/
def Match.row (m : Match K) : K × K × K :=
  (m.r.n.1, m.r.n.2, m.r.n.2 * m.p.1 - m.r.n.1 * m.p.2)

/-! ## Iterations -/

variable [FloorRing K]

/-- `percentile`, with linear interpolation; the share is between 0 and 1. -/
def percentile (values : List K) (share : K) : K :=
  let sorted := values.insertionSort (· ≤ ·)
  let h := ((sorted.length : K) - 1) * share
  let low := sorted.getD ⌊h⌋₊ 0
  low + (sorted.getD (⌊h⌋₊ + 1) low - low) * (h - ⌊h⌋₊)

/-- The matches that the iteration `i` uses: people and chairs move. -/
def trimmed (i : ℕ) (pairs : List (Match K)) : List (Match K) :=
  let thr := max 0.04 (0.4 * 0.85 ^ i)
  let limit := min thr (max 0.015 (percentile (pairs.map (Match.dist np)) 0.75))
  pairs.filter fun m ↦ m.dist np < limit

/-- How an iteration ends. -/
inductive Iteration (K : Type*)
  /-- There are too few matches. -/
  | lost
  | goesOn (T : Pose K)
  | settled (T : Pose K)

variable (trig : Trig K) (src : List (K × K)) (ref : Reference K)

def iterate (i : ℕ) (T : Pose K) : Iteration K :=
  let pairs := trimmed np i (ref.matches (tfPts trig src T))
  if pairs.length < 30 then .lost
  else
    let d := np.lstsq (pairs.map Match.row) (pairs.map fun m ↦ -m.residual)
    let next := compose trig ⟨d.1, d.2.1, d.2.2⟩ T
    if 15 < i ∧ |d.1| < 1e-5 ∧ |d.2.1| < 1e-5 ∧ |d.2.2| < 1e-5 then .settled next
    else .goesOn next

/-- The fit of a pose: over all points, without trimming. -/
def evaluate (T : Pose K) : Fit K :=
  let pairs := ref.matches (tfPts trig src T)
  let near := pairs.filter fun m ↦ m.dist np < 0.05
  { T
    rmse :=
      if near.isEmpty then 1
      else np.sqrt ((near.map fun m ↦ |m.residual| ^ 2).sum / near.length)
    inl := near.length / pairs.length }

/-- The iterations from `i` on, as many as are left. -/
def icpFrom : ℕ → ℕ → Pose K → Fit K
  | 0, _, T => evaluate np trig src ref T
  | left + 1, i, T =>
    match iterate np trig src ref i T with
    | .lost => ⟨T, 1, 0⟩
    | .goesOn next => icpFrom left (i + 1) next
    | .settled next => evaluate np trig src ref next

/-- `icp`. The cloud is not empty. -/
def icp (iters : ℕ) (init : Pose K) : Fit K := icpFrom np trig src ref iters 0 init

end registration

/-! ## The frame of the cloud -/

section frame

variable (np : Numpy ℝ) (src : List (ℝ × ℝ)) (ref : Reference ℝ) {g T T' : Pose ℝ}

theorem tfPts_of_same {a b : Pose ℝ} (h : a.Same b) (points : List (ℝ × ℝ)) :
    tfPts realTrig points a = tfPts realTrig points b := by
  rw [tfPts_eq_map, tfPts_eq_map, Pose.same_iff.mp h]

theorem compose_congr {d : Pose ℝ} (h : (compose realTrig T g).Same T') :
    (compose realTrig (compose realTrig d T) g).Same (compose realTrig d T') := by
  rw [Pose.same_iff] at *
  rw [motion_compose, motion_compose, motion_compose, mul_assoc, ← motion_compose, h]

/-- The poses of two registrations of one cloud, given in two frames. -/
theorem tfPts_tfPts_of_same (h : (compose realTrig T g).Same T') :
    tfPts realTrig (tfPts realTrig src g) T = tfPts realTrig src T' := by
  rw [tfPts_tfPts, tfPts_of_same h]

/-- Fits of one cloud, given in two frames. -/
structure Fit.Agrees (g : Pose ℝ) (fit fit' : Fit ℝ) : Prop where
  T : (compose realTrig fit.T g).Same fit'.T
  rmse : fit.rmse = fit'.rmse
  inl : fit.inl = fit'.inl

theorem evaluate_agrees (h : (compose realTrig T g).Same T') :
    (evaluate np realTrig (tfPts realTrig src g) ref T).Agrees g
      (evaluate np realTrig src ref T') := by
  unfold evaluate
  rw [tfPts_tfPts_of_same src h]
  exact ⟨h, rfl, rfl⟩

theorem icpFrom_agrees (left i : ℕ) (h : (compose realTrig T g).Same T') :
    (icpFrom np realTrig (tfPts realTrig src g) ref left i T).Agrees g
      (icpFrom np realTrig src ref left i T') := by
  induction left generalizing i T T' with
  | zero => exact evaluate_agrees np src ref h
  | succ left ih =>
    unfold icpFrom iterate
    rw [tfPts_tfPts_of_same src h]
    dsimp only
    split_ifs
    · exact ⟨h, rfl, rfl⟩
    · exact evaluate_agrees np src ref (compose_congr h)
    · exact ih (i + 1) (compose_congr h)

/-- A cloud in another frame is registered as well, to the pose of that frame. -/
theorem icp_tfPts (iters : ℕ) (g init : Pose ℝ) :
    (icp np realTrig (tfPts realTrig src g) ref iters init).Agrees g
      (icp np realTrig src ref iters (compose realTrig init g)) :=
  icpFrom_agrees np src ref iters 0 (Pose.same_iff.mpr rfl)

end frame

/-! ## Fits -/

section fits

variable {K : Type*} [Field K] [LinearOrder K]

namespace Reference

variable (ref : Reference K) (p : K × K)

theorem nearest_mem_argmin : ref.nearest p ∈ ref.landmarks.argmin fun r ↦ d2 p r.q :=
  Option.get_mem _

theorem nearest_mem : ref.nearest p ∈ ref.landmarks := List.argmin_mem (ref.nearest_mem_argmin p)

theorem d2_nearest_le {r : Landmark K} (h : r ∈ ref.landmarks) :
    d2 p (ref.nearest p).q ≤ d2 p r.q :=
  @List.le_of_mem_argmin _ _ _ (fun r : Landmark K ↦ d2 p r.q) _ _ _ h (ref.nearest_mem_argmin p)

end Reference

variable [FloorRing K] (np : Numpy K) (trig : Trig K) (src : List (K × K)) (ref : Reference K)

/-- `icp` ends with the fit of a pose, or it is lost. -/
theorem icpFrom_eq (left i : ℕ) (T : Pose K) :
    ∃ T', icpFrom np trig src ref left i T = ⟨T', 1, 0⟩ ∨
      icpFrom np trig src ref left i T = evaluate np trig src ref T' := by
  induction left generalizing i T with
  | zero => exact ⟨T, .inr rfl⟩
  | succ left ih =>
    unfold icpFrom
    cases iterate np trig src ref i T with
    | lost => exact ⟨T, .inl rfl⟩
    | goesOn next => exact ih (i + 1) next
    | settled next => exact ⟨next, .inr rfl⟩

omit [FloorRing K] in
theorem eq_of_better {best : Option (Fit K)} {fit : Fit K} :
    better best fit = fit ∨ best = some (better best fit) := by
  unfold better
  cases best with
  | none => exact .inl rfl
  | some best =>
    dsimp only
    split_ifs
    · exact .inl rfl
    · exact .inr rfl

omit [FloorRing K] in
/-- The best fit is one that `icp` has found. -/
theorem exists_of_searchFit {find : Pose K → Fit K} {init : Pose K} {offsets : List K}
    {best : Option (Fit K)} {fit : Fit K} (h : searchFit find init offsets best = some fit) :
    best = some fit ∨ ∃ start, fit = find start := by
  induction offsets generalizing best with
  | nil => exact .inl h
  | cons dth later ih =>
    have hbetter : ∀ found, better best (find ⟨init.x, init.y, init.yaw + dth⟩) = found →
        best = some found ∨ ∃ start, found = find start := by
      rintro _ rfl
      rcases @eq_of_better _ _ _ best (find ⟨init.x, init.y, init.yaw + dth⟩) with hnew | hbest
      · exact .inr ⟨_, hnew⟩
      · exact .inl hbest
    rw [searchFit] at h
    split_ifs at h
    · exact hbetter fit (Option.some.inj h)
    · rcases ih h with hfirst | hfound
      · exact hbetter fit (Option.some.inj hfirst)
      · exact .inr hfound

end fits

/-! ## Accepted keyframes -/

section accepted

/-- The exact square root. -/
noncomputable def realNumpy (lstsq : List (ℝ × ℝ × ℝ) → List ℝ → ℝ × ℝ × ℝ) : Numpy ℝ where
  sqrt := Real.sqrt
  lstsq

variable {lstsq : List (ℝ × ℝ × ℝ) → List ℝ → ℝ × ℝ × ℝ} {src cloud : List (ℝ × ℝ)}
  {ref : Reference ℝ}

/-- Some matches lie over the reference. -/
structure Overlaps (ref : Reference ℝ) (near : List (Match ℝ)) : Prop where
  landmark : ∀ m ∈ near, m.r ∈ ref.landmarks
  close : ∀ m ∈ near, √(d2 m.p m.r.q) < 0.05
  planes : (near.map fun m ↦ |m.residual| ^ 2).sum ≤ (0.012 : ℝ) ^ 2 * near.length

/-- A good fit overlaps with the reference. -/
theorem overlaps_of_evaluate {T : Pose ℝ}
    (hinl : 0.75 ≤ (evaluate (realNumpy lstsq) realTrig src ref T).inl)
    (hrmse : (evaluate (realNumpy lstsq) realTrig src ref T).rmse ≤ 0.012) :
    ∃ near, near.Sublist (ref.matches (tfPts realTrig src T)) ∧
      0.75 * (src.length : ℝ) ≤ near.length ∧ Overlaps ref near := by
  set pairs := ref.matches (tfPts realTrig src T) with hpairs
  set near := pairs.filter fun m ↦ m.dist (realNumpy lstsq) < 0.05 with hnear
  have hlength : pairs.length = src.length := by
    rw [hpairs, Reference.matches, List.length_map, tfPts, List.length_map]
  have hshare : 0.75 ≤ (near.length : ℝ) / pairs.length := hinl
  have hsome : (0 : ℝ) < pairs.length := by
    by_contra hempty
    rw [(not_lt.mp hempty).antisymm (Nat.cast_nonneg _), div_zero] at hshare
    norm_num at hshare
  have hmany : 0.75 * (pairs.length : ℝ) ≤ near.length := (le_div_iff₀ hsome).mp hshare
  have hpositive : (0 : ℝ) < near.length := by linarith
  have hnonempty : near.isEmpty = false := by
    rw [List.isEmpty_eq_false_iff]
    exact List.ne_nil_of_length_pos (Nat.cast_pos.mp hpositive)
  refine ⟨near, List.filter_sublist, hlength ▸ hmany, ⟨fun m hm ↦ ?_, fun m hm ↦ ?_, ?_⟩⟩
  · obtain ⟨p, -, rfl⟩ := List.mem_map.mp (List.mem_of_mem_filter hm)
    exact ref.nearest_mem p
  · have hdist : m.dist (realNumpy lstsq) < 0.05 := of_decide_eq_true (List.mem_filter.mp hm).2
    exact hdist
  · have hroot : √((near.map fun m ↦ |m.residual| ^ 2).sum / near.length) ≤ 0.012 := by
      have hfit : (evaluate (realNumpy lstsq) realTrig src ref T).rmse =
          if near.isEmpty then 1 else √((near.map fun m ↦ |m.residual| ^ 2).sum / near.length) := rfl
      rwa [hfit, hnonempty, if_neg Bool.false_ne_true] at hrmse
    exact (div_le_iff₀ hpositive).mp ((Real.sqrt_le_left (by norm_num)).mp hroot)

/-- Under the truth of an accepted keyframe three quarters of the points of the thinned cloud are
within 5 cm of the reference, and these are 12 mm from its planes in the mean. -/
theorem accepted_overlaps {b first : Bench ℝ} {kf : Keyframe ℝ} {iters : ℕ}
    (hkeyframe : b.keyframe realTrig (fun src ↦ icp (realNumpy lstsq) realTrig src ref iters) cloud =
      some (first, kf)) (haccepted : kf.accepted = true) :
    ∃ near, near.Sublist (ref.matches (tfPts realTrig (voxel cloud 0.02) kf.truth)) ∧
      0.75 * ((voxel cloud 0.02).length : ℝ) ≤ near.length ∧ Overlaps ref near := by
  unfold Bench.keyframe at hkeyframe
  split at hkeyframe
  · obtain ⟨fit, hfit, hresult⟩ := Option.map_eq_some_iff.mp hkeyframe
    obtain ⟨-, rfl⟩ := Prod.mk.inj hresult
    have hok := of_decide_eq_true haccepted
    have hgood : 0.75 ≤ fit.inl ∧ fit.rmse ≤ 0.012 := by
      rcases hok with ⟨hinl, hrmse⟩ | ⟨hinl, hrmse, -⟩
      · constructor <;> linarith
      · exact ⟨hinl, hrmse⟩
    rcases exists_of_searchFit hfit with hnone | ⟨start, rfl⟩
    · cases hnone
    · obtain ⟨T, hlost | heval⟩ :=
        icpFrom_eq (realNumpy lstsq) realTrig (voxel cloud 0.02) ref iters 0 start
      · dsimp only [icp] at hgood
        rw [hlost] at hgood
        norm_num at hgood
      · dsimp only [icp] at hgood ⊢
        rw [heval] at hgood ⊢
        exact overlaps_of_evaluate hgood.1 hgood.2
  · cases hkeyframe

/-! ## Exact predictions -/

/-- Every point of the cloud is at a landmark. -/
def Lies (src : List (ℝ × ℝ)) (ref : Reference ℝ) (T : Pose ℝ) : Prop :=
  ∀ p ∈ tfPts realTrig src T, ∃ r ∈ ref.landmarks, r.q = p

variable {init T : Pose ℝ}

theorem Lies.of_same (h : Lies src ref init) (hsame : T.Same init) : Lies src ref T := by
  intro p hp
  rw [tfPts_of_same hsame] at hp
  exact h p hp

/-- The nearest landmark is where the point is. -/
theorem Lies.q_eq (h : Lies src ref T) {m : Match ℝ}
    (hm : m ∈ ref.matches (tfPts realTrig src T)) : m.r.q = m.p := by
  obtain ⟨p, hp, rfl⟩ := List.mem_map.mp hm
  obtain ⟨r, hr, rfl⟩ := h p hp
  have hle := ref.d2_nearest_le r.q hr
  have hzero : d2 r.q r.q = 0 := by
    unfold d2
    rw [sub_self, sub_self]
    norm_num
  rw [hzero] at hle
  have hx := sq_nonneg (r.q.1 - (ref.nearest r.q).q.1)
  have hy := sq_nonneg (r.q.2 - (ref.nearest r.q).q.2)
  unfold d2 at hle
  apply Prod.ext
  · exact (sub_eq_zero.mp (pow_eq_zero_iff two_ne_zero |>.mp (by linarith))).symm
  · exact (sub_eq_zero.mp (pow_eq_zero_iff two_ne_zero |>.mp (by linarith))).symm

theorem Lies.dist_eq (h : Lies src ref T) {m : Match ℝ}
    (hm : m ∈ ref.matches (tfPts realTrig src T)) : m.dist (realNumpy lstsq) = 0 := by
  have hzero : d2 m.p m.r.q = 0 := by
    unfold d2
    rw [h.q_eq hm, sub_self, sub_self]
    norm_num
  exact (congrArg Real.sqrt hzero).trans Real.sqrt_zero

theorem Lies.residual_eq (h : Lies src ref T) {m : Match ℝ}
    (hm : m ∈ ref.matches (tfPts realTrig src T)) : m.residual = 0 := by
  rw [Match.residual, h.q_eq hm, sub_self, sub_self, zero_mul, zero_mul, add_zero]

/-- An exact match is trimmed of nothing. -/
theorem Lies.trimmed_eq (h : Lies src ref T) (i : ℕ) :
    trimmed (realNumpy lstsq) i (ref.matches (tfPts realTrig src T)) =
      ref.matches (tfPts realTrig src T) := by
  refine List.filter_eq_self.mpr fun m hm ↦ decide_eq_true ?_
  rw [h.dist_eq hm]
  exact lt_min (lt_max_of_lt_left (by norm_num)) (lt_max_of_lt_left (by norm_num))

theorem length_matches (T : Pose ℝ) : (ref.matches (tfPts realTrig src T)).length = src.length := by
  rw [Reference.matches, List.length_map, tfPts, List.length_map]

/-- The fit of an exact match. -/
theorem Lies.evaluate_eq (h : Lies src ref T) (hsome : src ≠ []) :
    evaluate (realNumpy lstsq) realTrig src ref T = ⟨T, 0, 1⟩ := by
  set pairs := ref.matches (tfPts realTrig src T) with hpairs
  have hnear : pairs.filter (fun m ↦ m.dist (realNumpy lstsq) < 0.05) = pairs := by
    refine List.filter_eq_self.mpr fun m hm ↦ decide_eq_true ?_
    rw [h.dist_eq hm]
    norm_num
  have hlength : (pairs.length : ℝ) ≠ 0 := by
    rw [length_matches, Nat.cast_ne_zero]
    exact List.length_eq_zero_iff.not.mpr hsome
  have hnonempty : pairs.isEmpty = false := by
    rw [List.isEmpty_eq_false_iff]
    exact fun hnil ↦ hlength (by rw [hnil, List.length_nil, Nat.cast_zero])
  have hsum : (pairs.map fun m ↦ |m.residual| ^ 2).sum = 0 := by
    refine List.sum_eq_zero fun x hx ↦ ?_
    obtain ⟨m, hm, rfl⟩ := List.mem_map.mp hx
    rw [h.residual_eq hm, abs_zero]
    norm_num
  unfold evaluate
  dsimp only
  rw [← hpairs, hnear, hnonempty, if_neg Bool.false_ne_true, hsum, zero_div, div_self hlength]
  exact congrArg (Fit.mk T · 1) Real.sqrt_zero

/-- The shortest solution for a right-hand side of zeros is zero. -/
def Homogeneous (lstsq : List (ℝ × ℝ × ℝ) → List ℝ → ℝ × ℝ × ℝ) : Prop :=
  ∀ rows, lstsq rows (rows.map fun _ ↦ 0) = (0, 0, 0)

theorem compose_zero (T : Pose ℝ) : (compose realTrig ⟨0, 0, 0⟩ T).Same T := by
  rw [Pose.same_iff, motion_compose, Pose.motion_origin, one_mul]

/-- An iteration leaves an exact match as it is. -/
theorem Lies.iterate_eq (h : Lies src ref T) (hlstsq : Homogeneous lstsq)
    (hmany : 30 ≤ src.length) (i : ℕ) :
    ∃ next : Pose ℝ, next.Same T ∧
      (iterate (realNumpy lstsq) realTrig src ref i T = .goesOn next ∨
        iterate (realNumpy lstsq) realTrig src ref i T = .settled next) := by
  set pairs := ref.matches (tfPts realTrig src T) with hpairs
  have hzero : (pairs.map fun m ↦ -m.residual) = (pairs.map Match.row).map fun _ ↦ 0 := by
    rw [List.map_map]
    refine List.map_congr_left fun m hm ↦ ?_
    rw [h.residual_eq hm, neg_zero]
    rfl
  have hfew : ¬pairs.length < 30 := by
    rw [hpairs, length_matches]
    exact not_lt.mpr hmany
  have hsolved : lstsq (pairs.map Match.row) (pairs.map fun m ↦ -m.residual) = (0, 0, 0) := by
    rw [hzero]
    exact hlstsq _
  refine ⟨compose realTrig ⟨0, 0, 0⟩ T, compose_zero T, ?_⟩
  unfold iterate
  dsimp only
  rw [← hpairs, hpairs, h.trimmed_eq, ← hpairs, if_neg hfew]
  have hstep : (realNumpy lstsq).lstsq (pairs.map Match.row) (pairs.map fun m ↦ -m.residual) =
    (0, 0, 0) := hsolved
  rw [hstep]
  split_ifs
  · exact .inr rfl
  · exact .inl rfl

theorem Lies.icpFrom_eq (h : Lies src ref init) (hlstsq : Homogeneous lstsq)
    (hmany : 30 ≤ src.length) (left i : ℕ) (hT : T.Same init) :
    ∃ T', T'.Same init ∧ icpFrom (realNumpy lstsq) realTrig src ref left i T = ⟨T', 0, 1⟩ := by
  have hsome : src ≠ [] := List.ne_nil_of_length_pos (by omega)
  induction left generalizing i T with
  | zero => exact ⟨T, hT, (h.of_same hT).evaluate_eq hsome⟩
  | succ left ih =>
    obtain ⟨next, hnext, hstep | hstep⟩ := (h.of_same hT).iterate_eq hlstsq hmany i
    · have hsame : next.Same init :=
        Pose.same_iff.mpr ((Pose.same_iff.mp hnext).trans (Pose.same_iff.mp hT))
      rw [icpFrom, hstep]
      exact ih (i + 1) hsame
    · have hsame : next.Same init :=
        Pose.same_iff.mpr ((Pose.same_iff.mp hnext).trans (Pose.same_iff.mp hT))
      rw [icpFrom, hstep]
      exact ⟨next, hsame, (h.of_same hsame).evaluate_eq hsome⟩

/-- A keyframe takes a good fit from where odometry predicts the base. -/
theorem keyframe_of_fit {b : Bench ℝ} {find : List (ℝ × ℝ) → Pose ℝ → Fit ℝ}
    {ekf tArenaOdom T : Pose ℝ} (hekf : b.ekf = some ekf) (hanchor : b.tArenaOdom = some tArenaOdom)
    (hfit : find (voxel cloud 0.02) (compose realTrig tArenaOdom ekf) = ⟨T, 0, 1⟩) :
    b.keyframe realTrig find cloud =
      some ({ b with tArenaOdom := some (compose realTrig T (inverse realTrig ekf)) },
        { truth := T, ekf, rmse := 0, inl := 1, accepted := true
          pred := compose realTrig tArenaOdom ekf }) := by
  have hstart : find (voxel cloud 0.02) ⟨(compose realTrig tArenaOdom ekf).x,
      (compose realTrig tArenaOdom ekf).y, (compose realTrig tArenaOdom ekf).yaw + 0⟩ = ⟨T, 0, 1⟩ := by
    rw [add_zero]
    exact hfit
  have hok : ∀ dev, (⟨T, 0, 1⟩ : Fit ℝ).Ok realTrig dev := fun dev ↦
    .inl ⟨by norm_num, by norm_num⟩
  unfold Bench.keyframe
  rw [hekf, hanchor]
  dsimp only
  rw [searchFit, hstart, if_pos ⟨by norm_num, by norm_num⟩]
  simp only [better, Option.map_some, hok, decide_true, if_true]

/-- If the thinned cloud has thirty points and shows the reference just where odometry predicts it, a
keyframe is accepted there, and the arena stays where it is. -/
theorem keyframe_exact {b : Bench ℝ} {ekf tArenaOdom : Pose ℝ} {iters : ℕ}
    (hekf : b.ekf = some ekf) (hanchor : b.tArenaOdom = some tArenaOdom)
    (hlies : Lies (voxel cloud 0.02) ref (compose realTrig tArenaOdom ekf))
    (hlstsq : Homogeneous lstsq) (hmany : 30 ≤ (voxel cloud 0.02).length) :
    ∃ first kf anchored,
      b.keyframe realTrig (fun src ↦ icp (realNumpy lstsq) realTrig src ref iters) cloud =
        some (first, kf) ∧ kf.accepted = true ∧ kf.rmse = 0 ∧ kf.inl = 1 ∧
      kf.truth.Same (compose realTrig tArenaOdom ekf) ∧
      first.tArenaOdom = some anchored ∧ anchored.Same tArenaOdom := by
  obtain ⟨T, hsame, hfit⟩ := hlies.icpFrom_eq hlstsq hmany iters 0 (Pose.same_iff.mpr rfl)
  refine ⟨_, _, _, keyframe_of_fit hekf hanchor hfit, rfl, rfl, rfl, hsame, rfl, ?_⟩
  rw [Pose.same_iff] at *
  rw [motion_compose, hsame, motion_compose, motion_inverse, mul_inv_cancel_right]

/-! ## A wall -/

/-- The squares of what a motion leaves of the right-hand side. -/
def squaredError (rows : List (ℝ × ℝ × ℝ)) (rhs : List ℝ) (d : ℝ × ℝ × ℝ) : ℝ :=
  ((rows.zip rhs).map fun r ↦
    (r.1.1 * d.1 + r.1.2.1 * d.2.1 + r.1.2.2 * d.2.2 - r.2) ^ 2).sum

def squaredLength (d : ℝ × ℝ × ℝ) : ℝ := d.1 ^ 2 + d.2.1 ^ 2 + d.2.2 ^ 2

/-- What `lstsq` finds: of the motions that leave the least, the shortest. -/
structure SolvesLeastSquares (rows : List (ℝ × ℝ × ℝ)) (rhs : List ℝ) (d : ℝ × ℝ × ℝ) :
    Prop where
  least : ∀ d', squaredError rows rhs d ≤ squaredError rows rhs d'
  shortest : ∀ d', squaredError rows rhs d' ≤ squaredError rows rhs d →
    squaredLength d ≤ squaredLength d'

open Classical in
noncomputable def leastSquares (rows : List (ℝ × ℝ × ℝ)) (rhs : List ℝ) : ℝ × ℝ × ℝ :=
  if h : ∃ d, SolvesLeastSquares rows rhs d then h.choose else (0, 0, 0)

theorem squaredError_nonneg (rows : List (ℝ × ℝ × ℝ)) (rhs : List ℝ) (d : ℝ × ℝ × ℝ) :
    0 ≤ squaredError rows rhs d := by
  refine List.sum_nonneg fun x hx ↦ ?_
  obtain ⟨r, -, rfl⟩ := List.mem_map.mp hx
  exact sq_nonneg _

theorem squaredError_zero (rows : List (ℝ × ℝ × ℝ)) :
    squaredError rows (rows.map fun _ ↦ 0) (0, 0, 0) = 0 := by
  refine List.sum_eq_zero fun x hx ↦ ?_
  obtain ⟨r, hr, rfl⟩ := List.mem_map.mp hx
  obtain ⟨-, hright⟩ := List.of_mem_zip hr
  obtain ⟨-, -, hzero⟩ := List.mem_map.mp hright
  rw [← hzero]
  ring

theorem homogeneous_leastSquares : Homogeneous leastSquares := by
  intro rows
  have hexists : ∃ d, SolvesLeastSquares rows (rows.map fun _ ↦ 0) d := by
    refine ⟨(0, 0, 0), fun d' ↦ ?_, fun d' _ ↦ ?_⟩
    · rw [squaredError_zero]
      exact squaredError_nonneg _ _ _
    · have hzero : squaredLength (0, 0, 0) = 0 := by norm_num [squaredLength]
      rw [hzero]
      unfold squaredLength
      positivity
  have hsolves := hexists.choose_spec
  rw [leastSquares, dif_pos hexists]
  set d := hexists.choose
  have hshort : squaredLength d ≤ squaredLength (0, 0, 0) := by
    refine hsolves.shortest _ ?_
    rw [squaredError_zero]
    exact squaredError_nonneg _ _ _
  norm_num [squaredLength] at hshort
  have hparts : d.1 = 0 ∧ d.2.1 = 0 ∧ d.2.2 = 0 := by
    refine ⟨?_, ?_, ?_⟩ <;> nlinarith [sq_nonneg d.1, sq_nonneg d.2.1, sq_nonneg d.2.2]
  exact Prod.ext hparts.1 (Prod.ext hparts.2.1 hparts.2.2)

/-- Thirty points of a wall ahead, 6 cm apart. -/
noncomputable def wallCloud : List (ℝ × ℝ) := (List.range 30).map fun (k : ℕ) ↦ (1, k * 0.06)

/-- The reference knows each point of the wall. -/
noncomputable def wallReference : Reference ℝ where
  landmarks := wallCloud.map fun q ↦ ⟨q, (1, 0)⟩
  ne_nil := List.ne_nil_of_length_pos (by simp [wallCloud])

/-- A node at the origin of the arena. -/
noncomputable def originBench : Bench ℝ :=
  { Bench.initial (some ⟨0, 0, 0⟩) with ekf := some ⟨0, 0, 0⟩ }

/-- Cells up to 6 cm have one point of the wall each. -/
theorem voxel_wallCloud {res : ℝ} (hpositive : 0 < res) (hres : res ≤ 0.06) :
    voxel wallCloud res = wallCloud := by
  refine Incremental.thinFrom_eq_self (List.pairwise_map.mpr ?_) fun _ _ ↦ List.not_mem_nil
  refine List.pairwise_lt_range.imp fun {i j} hless ↦ ?_
  have hapart : (i * 0.06 : ℝ) / res + 1 ≤ j * 0.06 / res := by
    have hnext : (i : ℝ) + 1 ≤ j := by exact_mod_cast hless
    rw [div_add_one hpositive.ne']
    exact div_le_div_of_nonneg_right (by linarith) hpositive.le
  have hfloor := Int.floor_le_floor hapart
  rw [Int.floor_add_one] at hfloor
  dsimp only [cellNumber, cell]
  omega

theorem lies_wall : Lies wallCloud wallReference (compose realTrig ⟨0, 0, 0⟩ ⟨0, 0, 0⟩) := by
  intro p hp
  rw [tfPts_of_same (compose_zero _)] at hp
  obtain ⟨point, hpoint, rfl⟩ := List.mem_map.mp hp
  refine ⟨_, List.mem_map_of_mem hpoint, ?_⟩
  simp

theorem length_wallCloud : wallCloud.length = 30 := by simp [wallCloud]

theorem keyframe_exact_wall :
    ∃ first kf anchored, originBench.keyframe realTrig
        (fun src ↦ icp (realNumpy leastSquares) realTrig src wallReference 60) wallCloud =
        some (first, kf) ∧ kf.accepted = true ∧ kf.rmse = 0 ∧ kf.inl = 1 ∧
      kf.truth.Same (compose realTrig ⟨0, 0, 0⟩ ⟨0, 0, 0⟩) ∧
      first.tArenaOdom = some anchored ∧ anchored.Same ⟨0, 0, 0⟩ := by
  have hkept := @voxel_wallCloud 0.02 (by norm_num) (by norm_num)
  refine keyframe_exact rfl rfl ?_ homogeneous_leastSquares ?_
  · rw [hkept]
    exact lies_wall
  · rw [hkept, length_wallCloud]

theorem accepted_overlaps_wall :
    ∃ T near, near.Sublist (wallReference.matches (tfPts realTrig wallCloud T)) ∧
      0.75 * (wallCloud.length : ℝ) ≤ near.length ∧ Overlaps wallReference near := by
  have hkept := @voxel_wallCloud 0.02 (by norm_num) (by norm_num)
  obtain ⟨T, -, hfit⟩ := lies_wall.icpFrom_eq homogeneous_leastSquares length_wallCloud.ge 60 0
    (Pose.same_iff.mpr rfl)
  rw [← hkept] at hfit
  have hkeyframe := @keyframe_of_fit wallCloud originBench
    (fun src ↦ icp (realNumpy leastSquares) realTrig src wallReference 60) _ _ T rfl rfl hfit
  have hoverlaps := accepted_overlaps hkeyframe rfl
  rw [hkept] at hoverlaps
  exact ⟨T, hoverlaps⟩

end accepted

end MyDiffbot.Benchmark
