import MyDiffbot.Benchmark.Registration
import Mathlib.Data.Prod.Lex

/-!
# Relocalisation

`t_locate` finds the base in the arena without a prediction. It registers a thinned cloud from a grid
of seeds, refines the six best of the fits with the full cloud, and anchors the arena transform to the
best of these. No refined fit beats the one that it anchors to, and no fit that was left out had beaten
one that was refined (`locate_best`). Unlike a keyframe it takes whatever fit is the best.
-/

namespace MyDiffbot.Benchmark

open Incremental

section locate

variable {K : Type*} [Field K] [LinearOrder K] [FloorRing K] (np : Numpy K) (trig : Trig K)

/-- The grid of seeds, in the order of the loops. -/
def seeds : List (Pose K) :=
  (List.range 18).flatMap fun (i : ℕ) ↦ [-0.3, 0, 0.3].flatMap fun x ↦ [-0.3, 0, 0.3].map fun y ↦
    ⟨x, y, ((i : K) * 20.0 - 180.0) * trig.pi / 180.0⟩

/-- The first landmark of each cell of 4 cm, in the order of the cells. -/
def Reference.thinned (ref : Reference K) : Reference K where
  landmarks := (thin (fun r ↦ cell 0.04 r.q) ref.landmarks).insertionSort fun r r' ↦
    toLex (cell 0.04 r.q) ≤ toLex (cell 0.04 r'.q)
  ne_nil hnil := by
    obtain ⟨r, hr⟩ := List.exists_mem_of_ne_nil _ ref.ne_nil
    obtain ⟨first, hfirst, -⟩ :=
      @exists_mem_thin _ _ _ (fun r : Landmark K ↦ cell 0.04 r.q) _ r hr
    have hsorted := (List.mem_insertionSort fun r r' : Landmark K ↦
      toLex (cell 0.04 r.q) ≤ toLex (cell 0.04 r'.q)).mpr hfirst
    rw [hnil] at hsorted
    cases hsorted

/-- The fits in the order of their scores, the best one first. -/
def ranked (found : List (Fit K)) : List (Fit K) :=
  found.insertionSort fun fit fit' ↦ fit'.score ≤ fit.score

/-- The best one of the refined fits. -/
def bestOf (fine : Pose K → Fit K) (top : List (Fit K)) (best : Option (Fit K)) :
    Option (Fit K) :=
  top.foldl (fun best fit ↦ some (better best (fine fit.T))) best

/-- `t_locate`, given the settled cloud, on the node as it is after the registration; it fails without
odometry. -/
def Bench.locate (ref : Reference K) (settled : List (K × K)) (b : Bench K) :
    Option (Bench K × Fit K) :=
  let full := voxel settled 0.02
  let cloud := voxel full 0.06
  let found := (seeds trig).map (icp np trig cloud ref.thinned 12)
  b.ekf.bind fun ekf ↦
    (bestOf (icp np trig full ref 60) ((ranked found).take 6) none).map fun fit ↦
      ({ b with
          fenceOn := false
          tArenaOdom := some (compose trig fit.T (inverse trig ekf)) }, fit)

end locate

/-! ## The best fit -/

section best

variable {K : Type*} [Field K] [LinearOrder K] {fine : Pose K → Fit K} {top : List (Fit K)}
  {fit : Fit K}

/-- Neither the best fit so far nor the new one beats the better of the two. -/
theorem score_le_better (best : Option (Fit K)) (fit : Fit K) :
    fit.score ≤ (better best fit).score ∧ ∀ old ∈ best, old.score ≤ (better best fit).score := by
  unfold better
  cases best with
  | none => exact ⟨le_rfl, nofun⟩
  | some best =>
    dsimp only
    split_ifs with hbeats
    · refine ⟨le_rfl, fun old hold ↦ ?_⟩
      rw [← Option.some.inj hold]
      exact hbeats.le
    · refine ⟨not_lt.mp hbeats, fun old hold ↦ ?_⟩
      rw [Option.some.inj hold]

theorem bestOf_isSome (hsome : top ≠ []) (best : Option (Fit K)) :
    (bestOf fine top best).isSome = true := by
  induction top generalizing best with
  | nil => exact absurd rfl hsome
  | cons first later ih =>
    cases later with
    | nil => rfl
    | cons second rest => exact ih (List.cons_ne_nil _ _) _

/-- The best one is among those that it is chosen from. -/
theorem mem_of_bestOf {best : Option (Fit K)} (h : bestOf fine top best = some fit) :
    best = some fit ∨ ∃ coarse ∈ top, fit = fine coarse.T := by
  induction top generalizing best with
  | nil => exact .inl h
  | cons first later ih =>
    rcases ih h with hbetter | ⟨coarse, hmem, hfit⟩
    · obtain rfl := Option.some.inj hbetter
      rcases @eq_of_better _ _ _ best (fine first.T) with hnew | hbest
      · exact .inr ⟨first, List.mem_cons_self, hnew⟩
      · exact .inl hbest
    · exact .inr ⟨coarse, List.mem_cons_of_mem _ hmem, hfit⟩

/-- No fit beats the best one. -/
theorem score_le_of_bestOf {best : Option (Fit K)} (h : bestOf fine top best = some fit) :
    (∀ coarse ∈ top, (fine coarse.T).score ≤ fit.score) ∧
      ∀ old ∈ best, old.score ≤ fit.score := by
  induction top generalizing best with
  | nil =>
    refine ⟨nofun, fun old hold ↦ ?_⟩
    rw [Option.some.inj (hold.symm.trans h)]
  | cons first later ih =>
    obtain ⟨hlater, hbetter⟩ := ih h
    obtain ⟨hnew, hold⟩ := score_le_better best (fine first.T)
    have hle := hbetter _ rfl
    refine ⟨fun coarse hcoarse ↦ ?_, fun old hmem ↦ (hold old hmem).trans hle⟩
    rcases List.mem_cons.mp hcoarse with rfl | hmem
    · exact hnew.trans hle
    · exact hlater coarse hmem

/-- The best ones of the ranked fits are refined, and no refined one beats the fit. -/
structure Best (fine : Pose K → Fit K) (found top rest : List (Fit K)) (fit : Fit K) : Prop where
  perm : (top ++ rest).Perm found
  ranked : ∀ coarse ∈ top, ∀ left ∈ rest, left.score ≤ coarse.score
  mem : ∃ coarse ∈ top, fit = fine coarse.T
  best : ∀ coarse ∈ top, (fine coarse.T).score ≤ fit.score

theorem best_of_bestOf {found : List (Fit K)} {n : ℕ}
    (h : bestOf fine ((ranked found).take n) none = some fit) :
    Best fine found ((ranked found).take n) ((ranked found).drop n) fit := by
  have htotal : Std.Total fun fit fit' : Fit K ↦ fit'.score ≤ fit.score :=
    ⟨fun fit fit' ↦ le_total fit'.score fit.score⟩
  have htrans : IsTrans (Fit K) fun fit fit' ↦ fit'.score ≤ fit.score :=
    ⟨fun _ _ _ hfirst hsecond ↦ hsecond.trans hfirst⟩
  have hsorted := List.pairwise_insertionSort (fun fit fit' : Fit K ↦ fit'.score ≤ fit.score) found
  refine ⟨?_, ?_, ?_, (score_le_of_bestOf h).1⟩
  · rw [List.take_append_drop]
    exact List.perm_insertionSort _ found
  · rw [← List.take_append_drop n (found.insertionSort _)] at hsorted
    exact (List.pairwise_append.mp hsorted).2.2
  · exact (mem_of_bestOf h).resolve_left nofun

end best

/-! ## Located nodes -/

section located

variable (np : Numpy ℝ) (ref : Reference ℝ) (settled : List (ℝ × ℝ)) {b first last : Bench ℝ}
  {fit : Fit ℝ} {fence : Fence ℝ} {events : List (Event ℝ)} {trace : List (Mark ℝ)}

theorem length_seeds : (seeds realTrig).length = 162 := by
  simp [seeds]

theorem locate_isSome (b : Bench ℝ) :
    (b.locate np realTrig ref settled).isSome = b.ekf.isSome := by
  unfold Bench.locate
  cases b.ekf with
  | none => rfl
  | some ekf =>
    rw [Option.bind_some, Option.isSome_map, Option.isSome_some]
    refine bestOf_isSome (List.ne_nil_of_length_pos ?_) none
    rw [List.length_take, ranked, List.length_insertionSort, List.length_map, length_seeds]
    exact Nat.succ_pos _

/-- What `t_locate` anchors to is the best one of six refined fits, and no better one was left out.
Its pose is evaluated, unless the registration was lost, and the node stays anchored to it until the
next anchor. -/
theorem locate_best (h : b.locate np realTrig ref settled = some (first, fit))
    (hrun : (bench realTrig fence).run first events = some (last, trace))
    (hevents : ∀ event ∈ events, event.anchors = false) :
    ∃ ekf top rest, b.ekf = some ekf ∧ top.length = 6 ∧
      Best (icp np realTrig (voxel settled 0.02) ref 60)
        ((seeds realTrig).map (icp np realTrig (voxel (voxel settled 0.02) 0.06) ref.thinned 12))
        top rest fit ∧
      (fit = ⟨fit.T, 1, 0⟩ ∨ fit = evaluate np realTrig (voxel settled 0.02) ref fit.T) ∧
      last.AnchoredTo fit.T ekf := by
  obtain ⟨ekf, hekf, hmap⟩ := Option.bind_eq_some_iff.mp h
  obtain ⟨best, hbest, hresult⟩ := Option.map_eq_some_iff.mp hmap
  obtain ⟨rfl, rfl⟩ := Prod.mk.inj hresult
  have hchosen := best_of_bestOf hbest
  have hlength : ((ranked ((seeds realTrig).map (icp np realTrig
      (voxel (voxel settled 0.02) 0.06) ref.thinned 12))).take 6).length = 6 := by
    rw [List.length_take, ranked, List.length_insertionSort, List.length_map, length_seeds]
    rfl
  refine ⟨ekf, _, _, hekf, hlength, hchosen, ?_, ?_⟩
  · obtain ⟨coarse, -, hfine⟩ := hchosen.mem
    obtain ⟨T, hlost | heval⟩ :=
      icpFrom_eq np realTrig (voxel settled 0.02) ref 60 0 coarse.T
    · exact .inl (by rw [hfine, icp, hlost])
    · exact .inr (by rw [hfine, icp, heval]; rfl)
  · have hfirst : Bench.AnchoredTo { b with
        fenceOn := false
        tArenaOdom := some (compose realTrig best.T (inverse realTrig ekf)) } best.T ekf :=
      ⟨_, rfl, fun _ _ ↦ compose_anchor⟩
    exact hfirst.run hrun hevents

/-- The wall, of which both clouds keep the thirty points; the base moves on behind the
relocalisation. -/
theorem locate_best_wall :
    ∃ first fit last trace, originBench.locate (realNumpy leastSquares) realTrig wallReference
        wallCloud = some (first, fit) ∧
      (bench realTrig ⟨-1, 1, -1, 1⟩).run first
        [.assign 0.2 0, .onEkf 0.1 0 ⟨0, 0, 0, 1⟩, .stop, .setFence true] = some (last, trace) ∧
      voxel wallCloud 0.02 = wallCloud ∧ voxel wallCloud 0.06 = wallCloud ∧
      last.AnchoredTo fit.T ⟨0, 0, 0⟩ := by
  have hsome := locate_isSome (realNumpy leastSquares) wallReference wallCloud originBench
  obtain ⟨⟨first, fit⟩, hlocate⟩ := Option.isSome_iff_exists.mp (hsome.trans rfl)
  obtain ⟨⟨last, trace⟩, hrun⟩ : ∃ result, (bench realTrig ⟨-1, 1, -1, 1⟩).run first
      [.assign 0.2 0, .onEkf 0.1 0 ⟨0, 0, 0, 1⟩, .stop, .setFence true] = some result := ⟨_, rfl⟩
  obtain ⟨ekf, top, rest, hekf, -, -, -, hanchored⟩ :=
    locate_best _ _ _ hlocate hrun (by simp [Event.anchors])
  obtain rfl := Option.some.inj hekf
  exact ⟨first, fit, last, trace, hlocate, hrun, voxel_wallCloud (by norm_num) (by norm_num),
    voxel_wallCloud (by norm_num) le_rfl, hanchored⟩

end located

end MyDiffbot.Benchmark
