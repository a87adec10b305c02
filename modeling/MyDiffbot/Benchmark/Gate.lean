import MyDiffbot.Benchmark.Pose
import MyDiffbot.Incremental.Memory
import MyDiffbot.Incremental.Trace
import Mathlib.Data.Fin.VecNotation
import Mathlib.Data.Rat.Floor

/-!
# The safety gate of the benchmark

`Bench` of `bench.py` commands the base in a timer callback, `tick`, which first checks the joint
states, the fence, the clearance of the lidar and the wheels. Whatever fails trips an abort that is
never taken back. The other callbacks and the tests run between the ticks in any order, each step at
once. A tick that commands a motion has found everything in order, and nothing has tripped before it
(`tickOk_of_run`).

The callbacks that only record are left out, and of the record all but what `power_dropout` reads.
-/

namespace MyDiffbot.Benchmark

open Incremental

/-! ## The node -/

/-- Free distance from the footprint. -/
structure Clearance (K : Type*) where
  ahead : K
  behind : K
  around : K
  deriving DecidableEq

/-- What is written down at a power dropout; the numbers are rounded there. -/
structure DropoutContext (K : Type*) where
  test : String
  tRun : K
  motionS : K
  cmd : K × K
  targetMrps : K × K
  pwmPermille : K × K
  deriving DecidableEq

/-- The reasons of `trip`, with what their texts tell. None of the texts is empty. -/
inductive AbortReason (K : Type*)
  | staleJointStates
  | geofence (x y : K)
  | noFreshScan
  | obstacleAhead (ahead : K)
  | obstacleBehind (behind : K)
  | obstacleWhileTurning (around : K)
  | powerDropout (ctx : DropoutContext K)
  | wheelNotMoving (left : Bool)
  | signal (signum : ℤ)
  | exception (text : String)
  deriving DecidableEq

/-- The bounds of `FENCE`, which come from the environment. -/
structure Fence (K : Type*) where
  xMin : K
  xMax : K
  yMin : K
  yMax : K

/-- The members of `Bench` that the gate reads, directly or through what it checks. Of a pair that
belongs to the wheels, 0 is the left one. -/
structure Bench (K : Type*) where
  cmd : K × K
  abort : Option (AbortReason K)
  ekf : Option (Pose K)
  js : Option (Fin 2 → K)
  jsT : Option K
  tgtSince : Fin 2 → Option K
  stallStart : Fin 2 → Option K
  motionHist : List (K × (Fin 2 → K))
  tLidar : Option (Pose K)
  introNames : ℕ → Option (List String)
  /-- `_intro_ver` and `_intro_idx`, which are set together. -/
  intro : Option (ℕ × List ℕ)
  /-- The latest row of `rec['intro']`, without its time. -/
  introRow : Option (List K)
  tArenaOdom : Option (Pose K)
  fenceOn : Bool
  guardOn : Bool
  /-- `clear` and `clear_t`, which are set together. -/
  clear : Option (Clearance K × K)
  motionTime : K
  testName : String

variable {K : Type*}

/-- Which way the base drives. -/
inductive Way
  | ahead
  | behind

def Clearance.along (clear : Clearance K) : Way → K
  | .ahead => clear.ahead
  | .behind => clear.behind

section node

variable [Field K]

/-- `__init__`, given the arena transform of the saved state. -/
def Bench.initial (tArenaOdom : Option (Pose K)) : Bench K where
  cmd := (0, 0)
  abort := none
  ekf := none
  js := none
  jsT := none
  tgtSince := fun _ ↦ none
  stallStart := fun _ ↦ none
  motionHist := []
  tLidar := none
  introNames := fun _ ↦ none
  intro := none
  introRow := none
  tArenaOdom
  fenceOn := true
  guardOn := true
  clear := none
  motionTime := 0
  testName := "?"

/-! ## Callbacks -/

/-- `FOOTPRINT_R`. -/
def footprintR : K := 0.17

/-- `LaserScan`; a range that is not finite is `none`. -/
structure LaserScan (K : Type*) where
  angleMin : K
  angleIncrement : K
  ranges : List (Option K)

/-- A transform of `/tf_static`. -/
structure StaticTransform (K : Type*) where
  childFrameId : String
  x : K
  y : K
  rotation : Orientation K

/-- `INTRO`. -/
def introNames : List String :=
  ["left_wheel.target_velocity", "left_wheel.measured_velocity", "left_wheel.firmware_velocity",
    "left_wheel.pwm", "right_wheel.target_velocity", "right_wheel.measured_velocity",
    "right_wheel.firmware_velocity", "right_wheel.pwm"]

/-- The positions of the two wheel joints, if the message has them. -/
def wheelPositions? (names : List String) (positions : List K) : Option (Fin 2 → K) :=
  match names.idxOf? "left_wheel_joint", names.idxOf? "right_wheel_joint" with
  | some il, some ir =>
    match positions[il]?, positions[ir]? with
    | some left, some right => some ![left, right]
    | _, _ => none
  | _, _ => none

/-- The indices of the recorded values among some names. -/
def introLookup? (names : List String) : Option (List ℕ) :=
  (introNames.map ("My_diffbot." ++ ·)).mapM fun name ↦ names.idxOf? name

section callbacks

variable [LinearOrder K] (trig : Trig K)

/-- The points of a scan, in the frame of the lidar. -/
def scanPoints (scan : LaserScan K) : List (K × K) :=
  scan.ranges.zipIdx.filterMap fun (range?, i) ↦
    range?.bind fun r ↦
      let a := scan.angleMin + i * scan.angleIncrement
      if 0.15 < r ∧ r < 8 then some (r * trig.cos a, r * trig.sin a) else none

/-- The smallest of some gaps; 9 m if there is none. -/
def minGap : List K → K
  | [] => 9
  | gap :: gaps => gaps.foldl min gap

/-- What `update_clearance` computes. Points within the footprint are the robot itself. -/
def clearance (points : List (K × K)) : Clearance K :=
  let d := fun p : K × K ↦ trig.hypot p.1 p.2
  let pb := points.filter fun p ↦ footprintR < d p
  let cone := fun p : K × K ↦ |trig.atan2 p.2 (abs p.1)| < 35 * trig.pi / 180
  let lane := fun p : K × K ↦ |p.2| < footprintR + 0.05 ∨ cone p
  let gap := fun p : K × K ↦ d p - footprintR
  { ahead := minGap ((pb.filter fun p ↦ 0 < p.1 ∧ lane p).map gap)
    behind := minGap ((pb.filter fun p ↦ p.1 < 0 ∧ lane p).map gap)
    around := minGap (pb.map gap) }

/-- On which side of the base a point is. -/
def Way.Side : Way → K × K → Prop
  | ahead, p => 0 < p.1
  | behind, p => p.1 < 0

instance (way : Way) (p : K × K) : Decidable (way.Side p) :=
  match way with
  | .ahead | .behind => inferInstanceAs (Decidable (_ < _))

/-- A point, in the frame of the base, that counts on the way: it is not the robot itself, and it is
in the lane or in the cone on that side. -/
def Way.Counts (way : Way) (p : K × K) : Prop :=
  footprintR < trig.hypot p.1 p.2 ∧ way.Side p ∧
    (|p.2| < footprintR + 0.05 ∨ |trig.atan2 p.2 (abs p.1)| < 35 * trig.pi / 180)

instance (way : Way) (p : K × K) : Decidable (way.Counts trig p) :=
  inferInstanceAs (Decidable (_ ∧ _))

/-- The points show an obstacle at a distance from the footprint: one of those that count is no
farther, or there is none and the way is free for 9 m. -/
def ShowsObstacle (way : Way) (points : List (K × K)) (gap : K) : Prop :=
  (∃ p ∈ points, way.Counts trig p ∧ trig.hypot p.1 p.2 - footprintR ≤ gap) ∨
    ((∀ p ∈ points, ¬way.Counts trig p) ∧ 9 ≤ gap)

instance (way : Way) (points : List (K × K)) (gap : K) :
    Decidable (ShowsObstacle trig way points gap) :=
  inferInstanceAs (Decidable (_ ∨ _))

namespace Bench

variable (b : Bench K)

def onEkf (x y : K) (orientation : Orientation K) : Bench K :=
  { b with ekf := some ⟨x, y, yawOf trig orientation⟩ }

def onJs (t : K) (names : List String) (positions : List K) : Bench K :=
  match wheelPositions? names positions with
  | none => b
  | some js =>
    let motionHist := b.motionHist ++ [(t, js)]
    { b with
      js := some js
      jsT := some t
      motionHist :=
        if 200 < motionHist.length then motionHist.drop (motionHist.length - 200) else motionHist }

def updateClearance (t : K) (pb : List (K × K)) : Bench K :=
  { b with clear := some (clearance trig pb, t) }

def onScan (t : K) (scan : LaserScan K) : Bench K :=
  match b.tLidar with
  | none => b
  | some tLidar => b.updateClearance trig t (tfPts trig (scanPoints trig scan) tLidar)

def onTfStatic (transforms : List (StaticTransform K)) : Bench K :=
  transforms.foldl (fun b tr ↦
    if tr.childFrameId = "lidar_link" then
      { b with tLidar := some ⟨tr.x, tr.y, yawOf trig tr.rotation⟩ }
    else b) b

def onIntroNames (namesVersion : ℕ) (names : List String) : Bench K :=
  { b with introNames := Function.update b.introNames namesVersion (some names) }

/-- The indices in use, looked up again when the version of the names has changed. -/
def introIdx? (namesVersion : ℕ) (names : List String) : Option (List ℕ) :=
  match b.intro with
  | some (version, idx) => if version = namesVersion then some idx else introLookup? names
  | none => introLookup? names

def onIntroValues (t : K) (namesVersion : ℕ) (values : List K) : Bench K :=
  match b.introNames namesVersion with
  | none | some [] => b
  | some names =>
    match b.introIdx? namesVersion names with
    | none => b
    | some idx =>
      let b := { b with intro := some (namesVersion, idx) }
      match idx.mapM fun i ↦ values[i]? with
      | none => b
      | some vals =>
        let target := ![vals.getD 0 0, vals.getD 4 0]
        { b with
          tgtSince := fun k ↦ if 60 < |target k| then (b.tgtSince k).or (some t) else none
          introRow := some vals }

end Bench

end callbacks

/-! ## The safety checks -/

/-- Where `FENCE` lets the axle centre be. -/
def Fence.Contains [LinearOrder K] (fence : Fence K) (x y : K) : Prop :=
  fence.xMin ≤ x ∧ x ≤ fence.xMax ∧ fence.yMin ≤ y ∧ y ≤ fence.yMax

instance [LinearOrder K] (fence : Fence K) (x y : K) : Decidable (fence.Contains x y) :=
  inferInstanceAs (Decidable (_ ∧ _ ∧ _ ∧ _))

namespace Bench

variable (b : Bench K)

/-- `trip`; what trips is returned besides. -/
def trip (reason : AbortReason K) : Bench K × List (AbortReason K) :=
  ({ b with abort := some reason, cmd := (0, 0) }, [reason])

def powerDropout (tRun : K) : Bench K × List (AbortReason K) :=
  let it := b.introRow.getD (List.replicate 8 0)
  b.trip (.powerDropout
    { test := b.testName
      tRun
      motionS := b.motionTime
      cmd := b.cmd
      targetMrps := (it.getD 0 0, it.getD 4 0)
      pwmPermille := (it.getD 3 0, it.getD 7 0) })

variable [LinearOrder K] [FloorRing K] (trig : Trig K) (fence : Fence K)

def checkJointStates (t : K) : Bench K × List (AbortReason K) :=
  match b.jsT with
  | some jsT => if 0.3 < t - jsT then b.trip .staleJointStates else (b, [])
  | none => (b, [])

def checkFence : Bench K × List (AbortReason K) :=
  match b.fenceOn, b.tArenaOdom, b.ekf with
  | true, some tArenaOdom, some ekf =>
    let pose := compose trig tArenaOdom ekf
    if fence.Contains pose.x pose.y then (b, []) else b.trip (.geofence pose.x pose.y)
  | _, _, _ => (b, [])

def checkGuard (t v w : K) : Bench K × List (AbortReason K) :=
  if b.guardOn = true ∧ (0.01 < |v| ∨ 0.05 < |w|) then
    let b := { b with motionTime := b.motionTime + 0.02 }
    match b.clear with
    | none => b.trip .noFreshScan
    | some (clear, clearT) =>
      let need := 0.08 + 0.15 * |v| + v * v / 1.6
      if 0.5 < t - clearT then b.trip .noFreshScan
      else if 0.01 < v ∧ clear.ahead < need then b.trip (.obstacleAhead clear.ahead)
      else if v < -0.01 ∧ clear.behind < need then b.trip (.obstacleBehind clear.behind)
      else if |v| ≤ 0.01 ∧ clear.around < 0.04 then b.trip (.obstacleWhileTurning clear.around)
      else (b, [])
  else (b, [])

def checkStall (t tRun : K) : Bench K × List (AbortReason K) :=
  match (b.motionHist.filter fun h ↦ 0.6 ≤ t - h.1).getLast?, b.js with
  | some o, some js =>
    let still := fun k ↦ |js k - o.2 k| < 1e-3
    let stuck := fun k ↦ (∃ since ∈ b.tgtSince k, 1 < t - since) ∧ still k
    let b := { b with
      stallStart := fun k ↦ if stuck k then (b.stallStart k).or (some t) else none }
    if ∀ k, stuck k then b.powerDropout tRun
    else if (∃ k, stuck k) ∧ ∃ k, ∃ start ∈ b.stallStart k, 1.5 < t - start then
      b.trip (.wheelNotMoving (decide (stuck 0)))
    else (b, [])
  | _, _ => (b, [])

/-- `tick`: what is published, the node after it, and what tripped. -/
def tick (t tRun : K) : (K × K) × Bench K × List (AbortReason K) :=
  let (v, w) := b.cmd
  let (b, trips) :=
    if b.abort.isSome then (b, [])
    else
      let (b, stale) := b.checkJointStates t
      let (b, outside) := b.checkFence trig fence
      let (b, blocked) := b.checkGuard t v w
      let (b, stalled) := b.checkStall t tRun
      (b, stale ++ outside ++ blocked ++ stalled)
  (if b.abort.isSome then (0, 0) else (v, w), b, trips)

end Bench

/-! ## Runs -/

inductive Event (K : Type*)
  /-- The timer, at a time; the clock is read again if a power dropout is written down. -/
  | tick (t tRun : K)
  | set (v w : K)
  /-- The assignment of `set`, reached after its check has passed. -/
  | assign (v w : K)
  | stop
  /-- A signal or an exception. -/
  | trip (reason : AbortReason K)
  | onEkf (x y : K) (orientation : Orientation K)
  | onJs (t : K) (names : List String) (positions : List K)
  | onScan (t : K) (scan : LaserScan K)
  | onTfStatic (transforms : List (StaticTransform K))
  | onIntroNames (namesVersion : ℕ) (names : List String)
  | onIntroValues (t : K) (namesVersion : ℕ) (values : List K)
  | setFence (on : Bool)
  | setGuard (on : Bool)
  /-- A reference, a relocalisation or an accepted keyframe: the arena transform is anchored to the
  pose of a scan, at the odometry pose it was taken at. -/
  | anchor (truth ekf : Pose K)
  | start (name : String)
  /-- The end of `main`. -/
  | finish

/-- What is seen of a run. -/
inductive Mark (K : Type*)
  /-- Joint states with both wheels arrived. -/
  | joints (t : K)
  /-- A scan has given a clearance. -/
  | cleared (clear : Clearance K) (t : K)
  | tripped (reason : AbortReason K)
  /-- A tick has published a command; with the node it found. -/
  | published (t : K) (command : K × K) (node : Bench K)

namespace Mark

def joints? : Mark K → Option K
  | joints t => some t
  | _ => none

def cleared? : Mark K → Option (Clearance K × K)
  | cleared clear t => some (clear, t)
  | _ => none

def tripped? : Mark K → Option (AbortReason K)
  | tripped reason => some reason
  | _ => none

end Mark

section run

variable [LinearOrder K] [FloorRing K] (trig : Trig K) (fence : Fence K)

/-- One step of the node. `hold` is a `set` followed by waiting. -/
def Bench.step (b : Bench K) : Event K → Bench K × List (Mark K)
  | .tick t tRun =>
    let (command, next, trips) := b.tick trig fence t tRun
    (next, trips.map .tripped ++ [.published t command b])
  | .set v w => (if b.abort.isSome then b else { b with cmd := (v, w) }, [])
  | .assign v w => ({ b with cmd := (v, w) }, [])
  | .stop => ({ b with cmd := (0, 0) }, [])
  | .trip reason =>
    let (next, trips) := b.trip reason
    (next, trips.map .tripped)
  | .onEkf x y orientation => (b.onEkf trig x y orientation, [])
  | .onJs t names positions =>
    (b.onJs t names positions, (wheelPositions? names positions).toList.map fun _ ↦ .joints t)
  | .onScan t scan =>
    (b.onScan trig t scan, b.tLidar.toList.map fun tLidar ↦
      .cleared (clearance trig (tfPts trig (scanPoints trig scan) tLidar)) t)
  | .onTfStatic transforms => (b.onTfStatic trig transforms, [])
  | .onIntroNames namesVersion names => (b.onIntroNames namesVersion names, [])
  | .onIntroValues t namesVersion values => (b.onIntroValues t namesVersion values, [])
  | .setFence on => ({ b with fenceOn := on }, [])
  | .setGuard on => ({ b with guardOn := on }, [])
  | .anchor truth ekf => ({ b with tArenaOdom := some (compose trig truth (inverse trig ekf)) }, [])
  | .start name => ({ b with testName := name }, [])
  | .finish => ({ b with cmd := (0, 0) }, [])

def bench : Machine (Bench K) (Event K) (Mark K) where
  step b event := some (b.step trig fence event)

/-- What a tick at `t` must have found to move the base. -/
structure MayMove (t : K) (command : K × K) (node : Bench K) : Prop where
  asked : command = node.cmd
  joints : ∀ jsT ∈ node.jsT, t - jsT ≤ 0.3
  inside : node.fenceOn = true → ∀ tArenaOdom ∈ node.tArenaOdom, ∀ ekf ∈ node.ekf,
    fence.Contains (compose trig tArenaOdom ekf).x (compose trig tArenaOdom ekf).y
  clear : node.guardOn = true → 0.01 < |command.1| ∨ 0.05 < |command.2| →
    ∃ clear clearT, node.clear = some (clear, clearT) ∧ t - clearT ≤ 0.5 ∧
      (0.01 < command.1 →
        0.08 + 0.15 * |command.1| + command.1 ^ 2 / 1.6 ≤ clear.ahead) ∧
      (command.1 < -0.01 →
        0.08 + 0.15 * |command.1| + command.1 ^ 2 / 1.6 ≤ clear.behind) ∧
      (|command.1| ≤ 0.01 → 0.04 ≤ clear.around)

/-- What is promised of a tick behind some marks. -/
structure TickOk (front : List (Mark K)) (t : K) (command : K × K) (node : Bench K) : Prop where
  /-- The node remembers what was seen last. -/
  seen : node.jsT = latest Mark.joints? front ∧ node.clear = latest Mark.cleared? front
  moves : command ≠ (0, 0) → (∀ mark ∈ front, mark.tripped? = none) ∧
    MayMove trig fence t command node
  latched : (∃ mark ∈ front, mark.tripped? ≠ none) → command = (0, 0)

end run

end node

/-! ## What a scan shows -/

section shows

variable {K : Type*} [LinearOrder K] {gap : K}

theorem foldl_min_le_iff {first : K} {gaps : List K} :
    gaps.foldl min first ≤ gap ↔ first ≤ gap ∨ ∃ g ∈ gaps, g ≤ gap := by
  induction gaps generalizing first with
  | nil => simp
  | cons g gaps ih =>
    rw [List.foldl_cons, ih, min_le_iff, List.exists_mem_cons_iff, or_assoc]

theorem minGap_le_iff [Field K] {gaps : List K} :
    minGap gaps ≤ gap ↔ (∃ g ∈ gaps, g ≤ gap) ∨ (gaps = [] ∧ 9 ≤ gap) := by
  cases gaps with
  | nil => simp [minGap]
  | cons g gaps =>
    rw [minGap, foldl_min_le_iff, List.exists_mem_cons_iff]
    simp

/-- The clearance along the way is at most the gap exactly if the points show the obstacle. -/
theorem along_le_iff [Field K] {trig : Trig K} {way : Way} {points : List (K × K)} :
    (clearance trig points).along way ≤ gap ↔ ShowsObstacle trig way points gap := by
  have hgaps : (clearance trig points).along way =
      minGap ((points.filter fun p ↦ way.Counts trig p).map fun p ↦
        trig.hypot p.1 p.2 - footprintR) := by
    cases way <;>
    · dsimp only [Clearance.along, clearance]
      rw [List.filter_filter]
      refine congrArg minGap (congrArg (List.map _) (List.filter_congr fun p _ ↦ ?_))
      simp only [Way.Counts, Way.Side, ← Bool.decide_and, and_comm]
  rw [hgaps, minGap_le_iff, ShowsObstacle]
  simp [List.filter_eq_nil_iff, and_assoc]

end shows

/-! ## What the callbacks and the checks change -/

/-- Some checks that tripped for some reasons: they change none of the members that are checked. -/
structure Checked (b next : Bench K) (trips : List (AbortReason K)) : Prop where
  abort : next.abort = trips.getLast?.or b.abort
  jsT : next.jsT = b.jsT
  fenceOn : next.fenceOn = b.fenceOn
  tArenaOdom : next.tArenaOdom = b.tArenaOdom
  ekf : next.ekf = b.ekf
  guardOn : next.guardOn = b.guardOn
  clear : next.clear = b.clear

namespace Checked

variable {b middle next : Bench K} {trips later : List (AbortReason K)}

theorem refl (b : Bench K) : Checked b b [] := ⟨rfl, rfl, rfl, rfl, rfl, rfl, rfl⟩

theorem trans (first : Checked b middle trips) (second : Checked middle next later) :
    Checked b next (trips ++ later) where
  abort := by rw [second.abort, first.abort, List.getLast?_append, Option.or_assoc]
  jsT := second.jsT.trans first.jsT
  fenceOn := second.fenceOn.trans first.fenceOn
  tArenaOdom := second.tArenaOdom.trans first.tArenaOdom
  ekf := second.ekf.trans first.ekf
  guardOn := second.guardOn.trans first.guardOn
  clear := second.clear.trans first.clear

/-- A trip has a reason. -/
theorem trip [Field K] (h : Checked b middle []) (reason : AbortReason K) {holds : Prop} :
    Checked b (middle.trip reason).1 (middle.trip reason).2 ∧
      ((middle.trip reason).2 = [] → holds) :=
  ⟨h.trans ⟨rfl, rfl, rfl, rfl, rfl, rfl, rfl⟩, fun hnil ↦ absurd hnil (List.cons_ne_nil _ _)⟩

end Checked

/-- Trips carry no other values than their reasons. -/
theorem latest_tripped_eq_none {β : Type*} {value? : Mark K → Option β}
    (trips : List (AbortReason K)) (h : ∀ reason, value? (.tripped reason) = none) :
    latest value? (trips.map Mark.tripped) = none := by
  refine latest_eq_none_iff.mpr fun mark hmem ↦ ?_
  obtain ⟨reason, -, rfl⟩ := List.mem_map.mp hmem
  exact h reason

namespace Bench

variable [Field K] (b : Bench K)

section ordered

variable [LinearOrder K]

theorem onIntroValues_eq (t : K) (namesVersion : ℕ) (values : List K) :
    ∃ intro tgtSince introRow,
      b.onIntroValues t namesVersion values = { b with intro, tgtSince, introRow } := by
  unfold onIntroValues
  split
  · exact ⟨_, _, _, rfl⟩
  · exact ⟨_, _, _, rfl⟩
  · split
    · exact ⟨_, _, _, rfl⟩
    · dsimp only
      split <;> exact ⟨_, _, _, rfl⟩

theorem checkJointStates_spec (t : K) :
    Checked b (b.checkJointStates t).1 (b.checkJointStates t).2 ∧
      ((b.checkJointStates t).2 = [] → ∀ jsT ∈ b.jsT, t - jsT ≤ 0.3) := by
  unfold checkJointStates
  cases b.jsT with
  | none => exact ⟨.refl b, fun _ _ hmem ↦ (by cases hmem)⟩
  | some jsT =>
    by_cases hstale : 0.3 < t - jsT
    · simp only [if_pos hstale]
      exact (Checked.refl b).trip _
    · simp only [if_neg hstale]
      refine ⟨.refl b, fun _ jsT hmem ↦ ?_⟩
      obtain rfl := Option.some.inj hmem
      exact not_lt.mp hstale

theorem checkGuard_spec (t v w : K) :
    Checked b (b.checkGuard t v w).1 (b.checkGuard t v w).2 ∧
      ((b.checkGuard t v w).2 = [] → b.guardOn = true → 0.01 < |v| ∨ 0.05 < |w| →
        ∃ clear clearT, b.clear = some (clear, clearT) ∧ t - clearT ≤ 0.5 ∧
          (0.01 < v → 0.08 + 0.15 * |v| + v ^ 2 / 1.6 ≤ clear.ahead) ∧
          (v < -0.01 → 0.08 + 0.15 * |v| + v ^ 2 / 1.6 ≤ clear.behind) ∧
          (|v| ≤ 0.01 → 0.04 ≤ clear.around)) := by
  unfold checkGuard
  by_cases hguarded : b.guardOn = true ∧ (0.01 < |v| ∨ 0.05 < |w|)
  · have htimed : Checked b { b with motionTime := b.motionTime + 0.02 } [] :=
      ⟨rfl, rfl, rfl, rfl, rfl, rfl, rfl⟩
    rw [if_pos hguarded]
    dsimp only
    split
    · exact htimed.trip _
    · rename_i clear clearT hclear
      split_ifs with hold hahead hbehind haround
      · exact htimed.trip _
      · exact htimed.trip _
      · exact htimed.trip _
      · exact htimed.trip _
      · rw [sq]
        exact ⟨htimed, fun _ _ _ ↦ ⟨clear, clearT, hclear, not_lt.mp hold,
          fun hforward ↦ not_lt.mp fun hclose ↦ hahead ⟨hforward, hclose⟩,
          fun hbackward ↦ not_lt.mp fun hclose ↦ hbehind ⟨hbackward, hclose⟩,
          fun hslow ↦ not_lt.mp fun hclose ↦ haround ⟨hslow, hclose⟩⟩⟩
  · rw [if_neg hguarded]
    exact ⟨.refl b, fun _ hon hfast ↦ absurd ⟨hon, hfast⟩ hguarded⟩

theorem checkStall_checked (t tRun : K) :
    Checked b (b.checkStall t tRun).1 (b.checkStall t tRun).2 := by
  unfold checkStall
  split
  · dsimp only
    split_ifs <;> exact ⟨rfl, rfl, rfl, rfl, rfl, rfl, rfl⟩
  · exact .refl b

end ordered

theorem onTfStatic_eq (trig : Trig K) (transforms : List (StaticTransform K)) :
    ∃ tLidar, b.onTfStatic trig transforms = { b with tLidar } := by
  induction transforms generalizing b with
  | nil => exact ⟨b.tLidar, rfl⟩
  | cons tr transforms ih =>
    rw [onTfStatic, List.foldl_cons]
    split
    · exact ih _
    · exact ih b

end Bench

/-! ## One tick -/

section run

variable [Field K] [LinearOrder K] [FloorRing K] (trig : Trig K) (fence : Fence K)

namespace Bench

variable (b : Bench K)

theorem checkFence_spec :
    Checked b (b.checkFence trig fence).1 (b.checkFence trig fence).2 ∧
      ((b.checkFence trig fence).2 = [] → b.fenceOn = true →
        ∀ tArenaOdom ∈ b.tArenaOdom, ∀ ekf ∈ b.ekf,
          fence.Contains (compose trig tArenaOdom ekf).x (compose trig tArenaOdom ekf).y) := by
  unfold checkFence
  split
  · rename_i tArenaOdom ekf hon htransform hekf
    dsimp only
    split_ifs with hinside
    · refine ⟨.refl b, fun _ _ other hother pose hpose ↦ ?_⟩
      obtain rfl := Option.some.inj (htransform.symm.trans hother)
      obtain rfl := Option.some.inj (hekf.symm.trans hpose)
      exact hinside
    · exact (Checked.refl b).trip _
  · rename_i hunknown
    exact ⟨.refl b, fun _ hon tArenaOdom htransform ekf hekf ↦
      absurd hekf (hunknown tArenaOdom ekf hon htransform)⟩

theorem tick_of_aborted (t tRun : K) (habort : b.abort.isSome = true) :
    b.tick trig fence t tRun = ((0, 0), b, []) := by
  unfold tick
  simp only [if_pos habort]

/-- A tick changes none of the members that it checks but `abort`, and commands a motion only if
nothing has tripped and everything is in order. -/
theorem tick_spec (t tRun : K) :
    Checked b (b.tick trig fence t tRun).2.1 (b.tick trig fence t tRun).2.2 ∧
      ((b.tick trig fence t tRun).1 ≠ (0, 0) → b.abort = none ∧
        (b.tick trig fence t tRun).2.2 = [] ∧
        MayMove trig fence t (b.tick trig fence t tRun).1 b) := by
  cases habort : b.abort.isSome with
  | true =>
    rw [b.tick_of_aborted trig fence t tRun habort]
    exact ⟨.refl b, fun hmoves ↦ absurd rfl hmoves⟩
  | false =>
    have hnone : b.abort = none := Option.not_isSome_iff_eq_none.mp (Bool.not_eq_true _ ▸ habort)
    obtain ⟨hstale, hjoints⟩ := b.checkJointStates_spec t
    set first := b.checkJointStates t
    obtain ⟨hfenced, hinside⟩ := first.1.checkFence_spec trig fence
    set second := first.1.checkFence trig fence
    obtain ⟨hguarded, hclear⟩ := second.1.checkGuard_spec t b.cmd.1 b.cmd.2
    set third := second.1.checkGuard t b.cmd.1 b.cmd.2
    have hstalled := third.1.checkStall_checked t tRun
    have htick : b.tick trig fence t tRun =
        (if (third.1.checkStall t tRun).1.abort.isSome then (0, 0) else b.cmd,
          (third.1.checkStall t tRun).1,
          first.2 ++ second.2 ++ third.2 ++ (third.1.checkStall t tRun).2) := by
      unfold tick
      simp only [habort]
      rfl
    have hchecked := ((hstale.trans hfenced).trans hguarded).trans hstalled
    rw [htick]
    refine ⟨hchecked, fun hmoves ↦ ?_⟩
    dsimp only at hmoves ⊢
    have hquiet : (third.1.checkStall t tRun).1.abort = none := by
      by_contra hsome
      rw [if_pos (Option.isSome_iff_ne_none.mpr hsome)] at hmoves
      exact hmoves rfl
    have hnil := hchecked.abort
    rw [hquiet, hnone, Option.or_none, eq_comm, List.getLast?_eq_none_iff] at hnil
    obtain ⟨hthree, hfourth⟩ := List.append_eq_nil_iff.mp hnil
    obtain ⟨htwo, hthird⟩ := List.append_eq_nil_iff.mp hthree
    obtain ⟨hfirst, hsecond⟩ := List.append_eq_nil_iff.mp htwo
    rw [hquiet]
    refine ⟨hnone, hnil, rfl, hjoints hfirst, ?_, ?_⟩
    · rw [← hstale.fenceOn, ← hstale.tArenaOdom, ← hstale.ekf]
      exact hinside hsecond
    · rw [← (hstale.trans hfenced).guardOn, ← (hstale.trans hfenced).clear]
      exact hclear hthird

/-! ## Any step -/

/-- The node holds the reason of the latest trip, the time of the latest joint states and the latest
clearance. -/
theorem step_remembers (event : Event K) :
    (b.step trig fence event).1.abort =
        (latest Mark.tripped? (b.step trig fence event).2).or b.abort ∧
      (b.step trig fence event).1.jsT =
        (latest Mark.joints? (b.step trig fence event).2).or b.jsT ∧
      (b.step trig fence event).1.clear =
        (latest Mark.cleared? (b.step trig fence event).2).or b.clear := by
  cases event with
  | tick t tRun =>
    obtain ⟨hchecked, _⟩ := b.tick_spec trig fence t tRun
    set result := b.tick trig fence t tRun
    have hpublished : ∀ {β : Type _} (value? : Mark K → Option β),
        value? (.published t result.1 b) = none →
        latest value? (b.step trig fence (.tick t tRun)).2 =
          latest value? (result.2.2.map Mark.tripped) := by
      intro β value? hnone
      change latest value? (result.2.2.map Mark.tripped ++ [.published t result.1 b]) = _
      rw [latest_append, latest_eq_none_iff.mpr, Option.none_or]
      intro mark hmem
      rw [List.mem_singleton.mp hmem]
      exact hnone
    have htripped : latest Mark.tripped? (result.2.2.map Mark.tripped) = result.2.2.getLast? := by
      rw [latest, List.filterMap_map]
      exact congrArg List.getLast? List.filterMap_some
    rw [hpublished _ rfl, hpublished _ rfl, hpublished _ rfl, htripped,
      latest_tripped_eq_none _ fun _ ↦ rfl, latest_tripped_eq_none _ fun _ ↦ rfl]
    exact ⟨hchecked.abort, hchecked.jsT, hchecked.clear⟩
  | set v w =>
    dsimp only [Bench.step]
    split <;> exact ⟨rfl, rfl, rfl⟩
  | onJs t names positions =>
    dsimp only [Bench.step, onJs]
    cases wheelPositions? names positions <;> exact ⟨rfl, rfl, rfl⟩
  | onScan t scan =>
    dsimp only [Bench.step, onScan]
    cases b.tLidar <;> exact ⟨rfl, rfl, rfl⟩
  | onTfStatic transforms =>
    obtain ⟨tLidar, hresult⟩ := b.onTfStatic_eq trig transforms
    dsimp only [Bench.step]
    rw [hresult]
    exact ⟨rfl, rfl, rfl⟩
  | onIntroValues t namesVersion values =>
    obtain ⟨intro, tgtSince, introRow, hresult⟩ := b.onIntroValues_eq t namesVersion values
    dsimp only [Bench.step]
    rw [hresult]
    exact ⟨rfl, rfl, rfl⟩
  | assign v w | stop | trip reason | onEkf x y orientation | onIntroNames namesVersion names
  | setFence on | setGuard on | anchor truth ekf | start name | finish => exact ⟨rfl, rfl, rfl⟩

end Bench

/-! ## The invariant -/

/-- What is known of the node after some marks. -/
structure Guarded (trace : List (Mark K)) (b : Bench K) : Prop where
  abort : b.abort = latest Mark.tripped? trace
  jsT : b.jsT = latest Mark.joints? trace
  clear : b.clear = latest Mark.cleared? trace
  ticks : ∀ front mark back, trace = front ++ mark :: back →
    ∀ t command node, mark = .published t command node →
      TickOk trig fence front t command node

variable {trig fence} {b next : Bench K} {trace marks : List (Mark K)} {event : Event K}

/-- Only a tick publishes, and it does so behind its trips. -/
theorem tick_of_published {front back : List (Mark K)} {t : K} {command : K × K} {node : Bench K}
    (hsplit : (b.step trig fence event).2 = front ++ .published t command node :: back) :
    ∃ tRun, command = (b.tick trig fence t tRun).1 ∧ node = b ∧
      front = (b.tick trig fence t tRun).2.2.map .tripped := by
  have hmem : Mark.published t command node ∈ (b.step trig fence event).2 := by
    rw [hsplit]
    exact List.mem_append_right _ List.mem_cons_self
  cases event with
  | tick now tRun =>
    change (b.tick trig fence now tRun).2.2.map Mark.tripped ++
      [.published now (b.tick trig fence now tRun).1 b] = _ at hsplit
    have hnew : Mark.published t command node ∉
        (b.tick trig fence now tRun).2.2.map Mark.tripped := by
      intro htrip
      obtain ⟨reason, -, hreason⟩ := List.mem_map.mp htrip
      cases hreason
    obtain ⟨hfront, hmark⟩ := eq_last_of_split hsplit hnew
    obtain ⟨rfl, rfl, rfl⟩ := Mark.published.inj hmark
    exact ⟨tRun, rfl, rfl, hfront⟩
  | onJs now names positions =>
    obtain ⟨_, -, hmark⟩ := List.mem_map.mp hmem
    cases hmark
  | onScan now scan =>
    obtain ⟨_, -, hmark⟩ := List.mem_map.mp hmem
    cases hmark
  | trip reason =>
    cases List.mem_singleton.mp hmem
  | set v w | assign v w | stop | onEkf x y orientation | onIntroNames namesVersion names
  | onIntroValues t namesVersion values | onTfStatic transforms | setFence on | setGuard on
  | anchor truth ekf | start name | finish => cases hmem

theorem Guarded.tickOk (h : Guarded trig fence trace b) {front back : List (Mark K)} {t : K}
    {command : K × K} {node : Bench K}
    (hsplit : (b.step trig fence event).2 = front ++ .published t command node :: back) :
    TickOk trig fence (trace ++ front) t command node := by
  obtain ⟨tRun, rfl, rfl, rfl⟩ := tick_of_published hsplit
  obtain ⟨_, hmoves⟩ := node.tick_spec trig fence t tRun
  have hsafe : (node.tick trig fence t tRun).1 ≠ (0, 0) →
      (∀ mark ∈ trace ++ (node.tick trig fence t tRun).2.2.map Mark.tripped,
        mark.tripped? = none) ∧ MayMove trig fence t (node.tick trig fence t tRun).1 node := by
    intro hcommand
    obtain ⟨hnone, hquiet, hmay⟩ := hmoves hcommand
    rw [hquiet, List.map_nil, List.append_nil]
    exact ⟨latest_eq_none_iff.mp (h.abort.symm.trans hnone), hmay⟩
  refine ⟨⟨?_, ?_⟩, hsafe, fun ⟨mark, hmem, htripped⟩ ↦ ?_⟩
  · rw [latest_append, latest_tripped_eq_none _ fun _ ↦ rfl, Option.none_or, h.jsT]
  · rw [latest_append, latest_tripped_eq_none _ fun _ ↦ rfl, Option.none_or, h.clear]
  · by_contra hcommand
    exact htripped ((hsafe hcommand).1 mark hmem)

theorem bench_holds :
    (bench trig fence).Holds Bench.abort Mark.tripped? ∧
      (bench trig fence).Holds Bench.jsT Mark.joints? ∧
      (bench trig fence).Holds Bench.clear Mark.cleared? := by
  refine ⟨fun b event next marks hstep ↦ ?_, fun b event next marks hstep ↦ ?_,
    fun b event next marks hstep ↦ ?_⟩
  all_goals
    have hremembers := b.step_remembers trig fence event
    rw [Option.some.inj hstep] at hremembers
  · exact hremembers.1
  · exact hremembers.2.1
  · exact hremembers.2.2

theorem Guarded.step (h : Guarded trig fence trace b)
    (hstep : (bench trig fence).step b event = some (next, marks)) :
    Guarded trig fence (trace ++ marks) next where
  abort := Machine.Holds.append bench_holds.1 h.abort hstep
  jsT := Machine.Holds.append bench_holds.2.1 h.jsT hstep
  clear := Machine.Holds.append bench_holds.2.2 h.clear hstep
  ticks := by
    refine forall_split_append h.ticks fun front mark back hsplit t command node hmark ↦ ?_
    have hpublished : (b.step trig fence event).2 =
        front ++ .published t command node :: back := by
      rw [Option.some.inj hstep, ← hmark]
      exact hsplit
    exact h.tickOk hpublished

/-- In every run of the node, whatever steps it is made of, a tick that commands a motion has found
the joint states fresh, the base within the fence and room to move, and nothing has tripped before
it; behind a trip every tick commands standstill. -/
theorem tickOk_of_run {tArenaOdom : Option (Pose K)} {events : List (Event K)}
    (hrun : (bench trig fence).run (Bench.initial tArenaOdom) events = some (b, trace)) :
    ∀ front t command node back, trace = front ++ .published t command node :: back →
      TickOk trig fence front t command node := by
  have hstart : Guarded trig fence [] (Bench.initial tArenaOdom) := by
    refine ⟨rfl, rfl, rfl, fun front mark back hsplit ↦ ?_⟩
    cases front <;> cases hsplit
  have hguarded : Guarded trig fence trace b :=
    Machine.run_invariant_nil (fun b trace ↦ Guarded trig fence trace b)
      (fun hbefore _ hstep ↦ hbefore.step hstep) hrun (Machine.along_true _ _) hstart
  exact fun front t command node back hsplit ↦
    hguarded.ticks front _ back hsplit t command node rfl

end run

/-! ## A run -/

/-- What `math` gives for points and angles on the x-axis. -/
def levelTrig : Trig ℚ where
  pi := 3.14159265358979
  cos := fun _ ↦ 1
  sin := fun _ ↦ 0
  atan2 := fun _ _ ↦ 0
  hypot := fun x y ↦ |x| + |y|

/-- The default of `FENCE`. -/
def freeFloor : Fence ℚ := ⟨-0.85, 0.35, -0.35, 0.35⟩

/-- The base drives while the way is free; a signal stops it, and a later `set` has no effect. -/
def signalRun : List (Event ℚ) :=
  [.onTfStatic [⟨"lidar_link", 0, 0, ⟨0, 0, 0, 1⟩⟩], .onEkf 0 0 ⟨0, 0, 0, 1⟩,
    .onJs 1 ["left_wheel_joint", "right_wheel_joint"] [0, 0],
    .onScan 1 ⟨0, 0, [some 1, none]⟩, .set 0.2 0, .tick 1.1 1.1, .trip (.signal 15), .set 0.2 0,
    .tick 1.12 1.12]

/-- The command that a mark publishes. -/
def Mark.command? {K : Type*} : Mark K → Option (K × K)
  | published _ command _ => some command
  | _ => none

theorem tickOk_of_run_signal :
    ∃ b trace, (bench levelTrig freeFloor).run (.initial (some ⟨0, 0, 0⟩)) signalRun =
        some (b, trace) ∧
      trace.filterMap Mark.command? = [(0.2, 0), (0, 0)] ∧
      ∀ front t command node back, trace = front ++ .published t command node :: back →
        TickOk levelTrig freeFloor front t command node := by
  have hcommands : ((bench levelTrig freeFloor).run (.initial (some ⟨0, 0, 0⟩)) signalRun).map
      (fun result ↦ result.2.filterMap Mark.command?) = some [(0.2, 0), (0, 0)] := by
    decide +kernel
  obtain ⟨⟨b, trace⟩, hrun, htrace⟩ := Option.map_eq_some_iff.mp hcommands
  exact ⟨b, trace, hrun, htrace, tickOk_of_run hrun⟩

end MyDiffbot.Benchmark
