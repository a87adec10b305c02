import MyDiffbot.Benchmark.Gate
import MyDiffbot.Benchmark.Motion
import MyDiffbot.Incremental.Thinning

/-!
# Settled clouds

The cloud of a keyframe is stacked from some scans that were taken after the base has settled, taken
to the frame of the base, and thinned to one point for each cell. Cells have one number each, and no
two cells that the lidar can reach have the same one.
-/

namespace MyDiffbot.Benchmark

open Incremental

section voxel

variable {K : Type*} [Field K] [LinearOrder K] [FloorRing K]

/-- The cell of a point. -/
def cell (res : K) (p : K × K) : ℤ × ℤ := (⌊p.1 / res⌋, ⌊p.2 / res⌋)

/-- The number of a cell. -/
def cellNumber (c : ℤ × ℤ) : ℤ := c.1 * 1000003 + c.2

/-- `voxel`: the first point for each number. -/
def voxel (points : List (K × K)) (res : K) : List (K × K) :=
  thin (fun p ↦ cellNumber (cell res p)) points

/-- What `settled_cloud` gives for the scans that it has found by now, each with its time; `none`
while there are too few of them since `tStart`. -/
def settledCloud (trig : Trig K) (tLidar : Pose K) (tStart : K) (n : ℕ)
    (scans : List (K × List (K × K))) : Option (List (K × K)) :=
  let fresh := scans.filter fun s ↦ tStart < s.1
  if fresh.length < n then none
  else some (voxel (tfPts trig ((fresh.take n).flatMap Prod.snd) tLidar) 0.01)

end voxel

/-! ## Cells -/

section cells

/-- Cells whose second index is small have different numbers. -/
theorem cellNumber_injective {c d : ℤ × ℤ} (hc : |c.2| ≤ 500001) (hd : |d.2| ≤ 500001)
    (h : cellNumber c = cellNumber d) : c = d := by
  unfold cellNumber at h
  rw [abs_le] at hc hd
  apply Prod.ext <;> omega

variable {K : Type*} [Field K] [LinearOrder K] [IsStrictOrderedRing K] [FloorRing K] {res : K}
  {p q : K × K}

/-- Points of one cell are less than a cell apart, along each axis. -/
theorem near_of_cell_eq (hres : 0 < res) (h : cell res p = cell res q) :
    |p.1 - q.1| < res ∧ |p.2 - q.2| < res := by
  have hnear : ∀ x y : K, ⌊x / res⌋ = ⌊y / res⌋ → |x - y| < res := by
    intro x y hfloor
    have hlt := Int.abs_sub_lt_one_of_floor_eq_floor hfloor
    rwa [← sub_div, abs_div, abs_of_pos hres, div_lt_one hres] at hlt
  exact ⟨hnear _ _ (congrArg Prod.fst h), hnear _ _ (congrArg Prod.snd h)⟩

theorem abs_cell_le {bound : ℤ} (hres : 0 < res) (h : |p.2| ≤ bound * res) :
    |(cell res p).2| ≤ bound := by
  obtain ⟨hlower, hupper⟩ := abs_le.mp h
  rw [abs_le]
  constructor
  · refine Int.le_floor.mpr ?_
    rw [le_div_iff₀ hres, Int.cast_neg, neg_mul]
    exact hlower
  · have hfloor : (⌊p.2 / res⌋ : K) ≤ bound := by
      calc
        _ ≤ p.2 / res := Int.floor_le _
        _ ≤ bound := (div_le_iff₀ hres).mpr hupper
    exact Int.cast_le.mp hfloor

/-- What a thinned cloud keeps of a cloud. -/
structure Thins (res : K) (points cloud : List (K × K)) : Prop where
  sublist : cloud.Sublist points
  covers : ∀ p ∈ points, ∃ q ∈ cloud, |p.1 - q.1| < res ∧ |p.2 - q.2| < res
  apart : cloud.Pairwise fun p q ↦ cell res p ≠ cell res q
  again : voxel cloud res = cloud

theorem voxel_thins {points : List (K × K)} (hres : 0 < res)
    (hrange : ∀ p ∈ points, |p.2| ≤ 500001 * res) : Thins res points (voxel points res) where
  sublist := thin_sublist points
  covers p hp := by
    obtain ⟨q, hq, hnumber⟩ := @exists_mem_thin _ _ _
      (fun p : K × K ↦ cellNumber (cell res p)) points p hp
    have hsmall : ∀ p ∈ points, |(cell res p).2| ≤ 500001 := fun p hp ↦
      abs_cell_le hres (by exact_mod_cast hrange p hp)
    have hcell := cellNumber_injective (hsmall p hp)
      (hsmall q ((thin_sublist points).subset hq)) hnumber.symm
    exact ⟨q, hq, near_of_cell_eq hres hcell⟩
  apart := (pairwise_thin points).imp fun hne heq ↦ hne (congrArg cellNumber heq)
  again := thin_thin points

end cells

/-! ## What the lidar can reach -/

section reach

variable {tLidar : Pose ℝ} {scans : List (ℝ × List (ℝ × ℝ))} {scan : LaserScan ℝ}

/-- A point of a scan is within 8 m, in whichever direction it is looked at. -/
theorem abs_scanPoint_lt {p : ℝ × ℝ} (h : p ∈ scanPoints realTrig scan) (yaw : ℝ) :
    |p.1 * Real.sin yaw + p.2 * Real.cos yaw| < 8 := by
  obtain ⟨⟨range?, i⟩, -, hpoint⟩ := List.mem_filterMap.mp h
  obtain ⟨r, -, hr⟩ := Option.bind_eq_some_iff.mp hpoint
  dsimp only at hr
  split_ifs at hr with hlimits
  obtain rfl := Option.some.inj hr
  set a := scan.angleMin + i * scan.angleIncrement
  have hturn : r * realTrig.cos a * Real.sin yaw + r * realTrig.sin a * Real.cos yaw =
      r * Real.sin (a + yaw) := by
    rw [Real.sin_add, realTrig_cos, realTrig_sin]
    ring
  have hpositive : 0 < r := by linarith [hlimits.1]
  rw [hturn, abs_mul, abs_of_pos hpositive]
  calc
    _ ≤ r * 1 := mul_le_mul_of_nonneg_left (Real.abs_sin_le_one _) hpositive.le
    _ < 8 := by linarith [hlimits.2]

/-- Whatever the scans show, the settled cloud keeps a point within 1 cm of each of theirs, along each
axis, and one for each cell only, if the lidar is mounted less than 4 km from the base. -/
theorem settledCloud_thins {tStart : ℝ} {n : ℕ} {cloud : List (ℝ × ℝ)}
    (hscans : ∀ s ∈ scans, ∃ scan, s.2 = scanPoints realTrig scan) (hmount : |tLidar.y| ≤ 4000)
    (hcloud : settledCloud realTrig tLidar tStart n scans = some cloud) :
    Thins 0.01 (tfPts realTrig
      (((scans.filter fun s ↦ tStart < s.1).take n).flatMap Prod.snd) tLidar) cloud := by
  unfold settledCloud at hcloud
  dsimp only at hcloud
  split_ifs at hcloud
  obtain rfl := Option.some.inj hcloud
  refine voxel_thins (by norm_num) fun p hp ↦ ?_
  obtain ⟨point, hpoint, rfl⟩ := List.mem_map.mp hp
  obtain ⟨s, hs, hmem⟩ := List.mem_flatMap.mp hpoint
  obtain ⟨scan, hscan⟩ := hscans s (List.mem_of_mem_filter (List.mem_of_mem_take hs))
  rw [hscan] at hmem
  have hreach := abs_scanPoint_lt hmem tLidar.yaw
  dsimp only [realTrig_cos, realTrig_sin]
  calc
    _ ≤ |point.1 * Real.sin tLidar.yaw + point.2 * Real.cos tLidar.yaw| + |tLidar.y| :=
      abs_add_le _ _
    _ ≤ 500001 * 0.01 := by norm_num; linarith

/-- One scan of a wall, after the base has settled. -/
noncomputable def wallScans : List (ℝ × List (ℝ × ℝ)) :=
  [(1, scanPoints realTrig ⟨0, 0, [some 1, some 1, none]⟩)]

theorem settledCloud_thins_wall :
    ∃ cloud, settledCloud realTrig ⟨0, 0, 0⟩ 0 1 wallScans = some cloud ∧
      Thins 0.01 (tfPts realTrig (((wallScans.filter fun s ↦ 0 < s.1).take 1).flatMap Prod.snd)
        ⟨0, 0, 0⟩) cloud := by
  have hsome : (settledCloud realTrig ⟨0, 0, 0⟩ 0 1 wallScans).isSome = true := by
    simp [settledCloud, wallScans]
  obtain ⟨cloud, hcloud⟩ := Option.isSome_iff_exists.mp hsome
  refine ⟨cloud, hcloud, settledCloud_thins (fun s hs ↦ ?_) (by norm_num) hcloud⟩
  rw [List.mem_singleton.mp hs]
  exact ⟨_, rfl⟩

end reach

end MyDiffbot.Benchmark
