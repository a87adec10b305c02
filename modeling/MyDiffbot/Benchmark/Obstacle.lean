import MyDiffbot.Benchmark.Gate
import MyDiffbot.Numeric.Braking
import Mathlib.Tactic.NormNum

/-!
# The margin of the obstacle guard

A tick lets the base drive on only if the latest scan has found more room than the base needs, which
grows with the speed that is commanded. Meanwhile the base moves on. If it brakes with at least
0.8 m/s², every scan shows the obstacle, and the scans and the ticks come often enough, then it comes
to a stand before the obstacle whenever the guard trips or a test stops it, however the steps of the
node are interleaved (`keeps_room`). How much of the gap is left is told by the age of the scans, the
period of the ticks, and how far the commanded speed may fall below the speed of the base. An obstacle
that no scan shows is not seen by the guard, and behind the base the body hides most of the room.
-/

namespace MyDiffbot.Benchmark

open Incremental Numeric

section drive

variable {K : Type*}

def Way.speed [Neg K] : Way → K × K → K
  | ahead, command => command.1
  | behind, command => -command.1

/-- The node and the base before an obstacle. -/
structure Drive (K : Type*) where
  node : Bench K
  here : Situation K
  /-- The speed towards the obstacle that was published last, or 0 if it leads away. -/
  speed : K
  /-- When the node has ticked last. -/
  ticked : K
  /-- The fastest level since the latest scan. -/
  peak : K

/-- How often the scans and the ticks come, and how much faster than commanded the base may be. -/
structure Limits (K : Type*) where
  age : K
  period : K
  lag : K

variable [Field K]

/-- What the guard leaves of the gap at a speed: the margin that it asks for, less what the base
covers since the scan, the way that it takes to stand, and what it covers until the next tick. -/
def Limits.left (limits : Limits K) (v : K) : K :=
  0.08 + 0.15 * v + v ^ 2 / 1.6 - (v + limits.lag) * limits.age - (v + limits.lag) ^ 2 / 1.6 -
    v * limits.period

/-- A base at rest, before the node begins. -/
def Drive.initial (tArenaOdom : Option (Pose K)) (t gap : K) : Drive K :=
  ⟨.initial tArenaOdom, ⟨t, gap, 0⟩, 0, t, 0⟩

variable [LinearOrder K]

variable [FloorRing K] (trig : Trig K) (fence : Fence K) (way : Way)

/-- A step of the node, with the base where it is by then. -/
def Drive.next (drive : Drive K) (here : Situation K) (event : Event K) : Drive K :=
  let node := (drive.node.step trig fence event).1
  match event with
  | .tick t tRun =>
    let speed := max 0 (way.speed (drive.node.tick trig fence t tRun).1)
    { node, here, speed, ticked := t, peak := max drive.peak speed }
  | .onScan _ _ =>
    { drive with
      node, here
      peak := if drive.node.tLidar.isSome then here.level drive.speed else drive.peak }
  | _ => { drive with node, here }

/-- The node before an obstacle; where the base is at each step is given with the step. -/
def driving : Machine (Drive K) (Situation K × Event K) (Situation K) where
  step drive event := some (drive.next trig fence way event.1 event.2, [event.1])

/-- What is asked of a step: the base follows the latest command, and brakes with 0.8 m/s² at least; a
tick is not late while the base is driven, and it drives the base on with the guard switched on, a
scan that is not too old, and a speed that leaves enough room and has not fallen too fast; and a scan
shows the obstacle where it is. -/
def Allowed (limits : Limits K) (room : K) (drive : Drive K) (event : Situation K × Event K) : Prop :=
  Follows 1.6 drive.speed drive.here event.1 ∧
    (0 < drive.speed → event.1.t ≤ drive.ticked + limits.period) ∧
    match event.2 with
    | .tick t tRun =>
      let v := way.speed (drive.node.tick trig fence t tRun).1
      t = event.1.t ∧ (0 < v → 0.01 < v ∧ drive.node.guardOn = true ∧
        (∀ clear ∈ drive.node.clear, t - clear.2 ≤ limits.age) ∧
        drive.peak ≤ v + limits.lag ∧ room ≤ limits.left v)
    | .onScan t scan =>
      t = event.1.t ∧ ∀ tLidar ∈ drive.node.tLidar,
        ShowsObstacle trig way (tfPts trig (scanPoints trig scan) tLidar) event.1.gap
    | _ => True

instance (limits : Limits K) (room : K) (drive : Drive K) (event : Situation K × Event K) :
    Decidable (Allowed trig fence way limits room drive event) :=
  match event with
  | (_, .tick _ _) => inferInstanceAs (Decidable (_ ∧ _ ∧ _ ∧ _))
  | (_, .onScan _ _) => inferInstanceAs (Decidable (_ ∧ _ ∧ _ ∧ _))
  | (_, .set _ _) | (_, .assign _ _) | (_, .stop) | (_, .trip _) | (_, .onEkf _ _ _)
  | (_, .onJs _ _ _) | (_, .onTfStatic _) | (_, .onIntroNames _ _) | (_, .onIntroValues _ _ _)
  | (_, .setFence _) | (_, .setGuard _) | (_, .anchor _ _) | (_, .start _) | (_, .finish) =>
    inferInstanceAs (Decidable (_ ∧ _ ∧ True))

end drive

/-! ## The invariant -/

section keeps

variable {K : Type*} [Field K] [LinearOrder K] [FloorRing K] {trig : Trig K} {fence : Fence K}
  {way : Way} {limits : Limits K} {room : K}

theorem clear_step (b : Bench K) (event : Event K) (hscan : ∀ t scan, event ≠ .onScan t scan) :
    (b.step trig fence event).1.clear = b.clear := by
  cases event with
  | tick t tRun => exact (b.tick_spec trig fence t tRun).1.clear
  | onScan t scan => exact absurd rfl (hscan t scan)
  | set v w =>
    dsimp only [Bench.step]
    split <;> rfl
  | onJs t names positions =>
    dsimp only [Bench.step, Bench.onJs]
    cases wheelPositions? names positions <;> rfl
  | onTfStatic transforms =>
    obtain ⟨tLidar, hresult⟩ := b.onTfStatic_eq trig transforms
    dsimp only [Bench.step]
    rw [hresult]
  | onIntroValues t namesVersion values =>
    obtain ⟨intro, tgtSince, introRow, hresult⟩ := b.onIntroValues_eq t namesVersion values
    dsimp only [Bench.step]
    rw [hresult]
  | assign v w | stop | trip reason | onEkf x y orientation | onIntroNames namesVersion names
  | setFence on | setGuard on | anchor truth ekf | start name | finish => rfl

variable [IsStrictOrderedRing K]

/-- What the guard has asked of a tick that drives the base on. -/
theorem need_le_along {t : K} {command : K × K} {node : Bench K}
    (hmay : MayMove trig fence t command node) (hon : node.guardOn = true)
    (hfast : 0.01 < way.speed command) :
    ∃ clear ∈ node.clear, 0.08 + 0.15 * way.speed command + way.speed command ^ 2 / 1.6 ≤
      clear.1.along way := by
  have hpos : (0 : K) < 0.01 := by norm_num
  cases way with
  | ahead =>
    change 0.01 < command.1 at hfast
    have habs : |command.1| = command.1 := abs_of_pos (hpos.trans hfast)
    obtain ⟨clear, clearT, hclear, -, hahead, -⟩ := hmay.clear hon (.inl (habs.symm ▸ hfast))
    have hneed := hahead hfast
    rw [habs] at hneed
    exact ⟨(clear, clearT), hclear, hneed⟩
  | behind =>
    change 0.01 < -command.1 at hfast
    have habs : |command.1| = -command.1 := abs_of_neg (neg_pos.mp (hpos.trans hfast))
    obtain ⟨clear, clearT, hclear, -, -, hbehind, -⟩ :=
      hmay.clear hon (.inl (habs.symm ▸ hfast))
    have hneed := hbehind (lt_neg_of_lt_neg hfast)
    rw [habs, ← neg_sq] at hneed
    exact ⟨(clear, clearT), hclear, hneed⟩

/-- The room is kept, with what the base may cover until the next tick in hand. -/
structure Keeps (way : Way) (limits : Limits K) (room : K) (drive : Drive K)
    (trace : List (Situation K)) : Prop where
  speed : 0 ≤ drive.speed
  paid : room + drive.speed * (drive.ticked + limits.period - drive.here.t) ≤
    drive.here.room 1.6 drive.speed
  seen : ∀ clear ∈ drive.node.clear,
    Seen (clear.1.along way) clear.2 drive.peak drive.speed drive.here
  kept : ∀ s ∈ trace, room ≤ s.room 1.6 0

namespace Keeps

variable {drive : Drive K} {trace : List (Situation K)} {here : Situation K} {event : Event K}

/-- The way from the latest step to the next one. -/
theorem moved (h : Keeps way limits room drive trace) (hfollows : Follows 1.6 drive.speed drive.here here)
    (htime : 0 < drive.speed → here.t ≤ drive.ticked + limits.period) :
    Keeps way limits room { drive with here } (trace ++ [here]) := by
  have hpaid : room + drive.speed * (drive.ticked + limits.period - here.t) ≤
      here.room 1.6 drive.speed := by
    have hroom := room_follows hfollows
    linarith [h.paid]
  have hhand : 0 ≤ drive.speed * (drive.ticked + limits.period - here.t) := by
    rcases h.speed.eq_or_lt with hzero | hpos
    · rw [← hzero, zero_mul]
    · exact mul_nonneg h.speed (sub_nonneg.mpr (htime hpos))
  refine ⟨h.speed, hpaid, fun clear hclear ↦ (h.seen clear hclear).follows hfollows, ?_⟩
  refine List.forall_mem_append.mpr ⟨h.kept, List.forall_mem_singleton.mpr ?_⟩
  have hless := @Situation.room_anti K _ _ 1.6 drive.speed here _ 0 (by norm_num) le_rfl h.speed
  linarith

/-- A tick stops the base, or it finds enough room to drive it on. -/
theorem tick {t tRun : K} (hlag : 0 ≤ limits.lag) (h : Keeps way limits room drive trace)
    (hroom : room ≤ drive.here.room 1.6 0)
    (ht : t = drive.here.t)
    (hdrives : 0 < way.speed (drive.node.tick trig fence t tRun).1 →
      0.01 < way.speed (drive.node.tick trig fence t tRun).1 ∧ drive.node.guardOn = true ∧
        (∀ clear ∈ drive.node.clear, t - clear.2 ≤ limits.age) ∧
        drive.peak ≤ way.speed (drive.node.tick trig fence t tRun).1 + limits.lag ∧
        room ≤ limits.left (way.speed (drive.node.tick trig fence t tRun).1)) :
    Keeps way limits room (drive.next trig fence way drive.here (.tick t tRun)) trace := by
  set command := (drive.node.tick trig fence t tRun).1
  set v := way.speed command
  have hclear : (drive.node.step trig fence (.tick t tRun)).1.clear = drive.node.clear :=
    clear_step _ _ fun _ _ ↦ nofun
  have hseen : ∀ clear ∈ drive.node.clear,
      Seen (clear.1.along way) clear.2 (max drive.peak (max 0 v)) (max 0 v) drive.here :=
    fun clear hmem ↦ ((h.seen clear hmem).mono (le_max_left _ _)).command (le_max_right _ _)
  refine ⟨le_max_left _ _, ?_, fun clear hmem ↦ hseen clear (hclear ▸ hmem), h.kept⟩
  change room + max 0 v * (t + limits.period - drive.here.t) ≤ drive.here.room 1.6 (max 0 v)
  rw [ht, add_sub_cancel_left]
  by_cases hv : 0 < v
  · obtain ⟨hfast, hon, hage, hpeak, hleft⟩ := hdrives hv
    rw [max_eq_right hv.le] at hseen ⊢
    have hmoves : command ≠ (0, 0) := by
      intro hzero
      have hstill : v = 0 := by
        change way.speed command = 0
        rw [hzero]
        cases way
        · rfl
        · exact neg_zero
      exact hv.ne' hstill
    obtain ⟨clear, hmem, hneed⟩ :=
      need_le_along ((drive.node.tick_spec trig fence t tRun).2 hmoves).2.2 hon hfast
    have hfound := (hseen clear hmem).mono (max_le hpeak (le_add_of_nonneg_right hlag))
    have hdecel : (0 : K) < 1.6 := by norm_num
    have hstop := room_of_seen hdecel hv.le hfound (ht ▸ hage clear hmem)
    unfold Limits.left at hleft
    linarith
  · rw [max_eq_left (not_lt.mp hv), zero_mul, add_zero]
    exact hroom

omit [IsStrictOrderedRing K] in
/-- A scan shows how far the obstacle is just now. -/
theorem scan {t : K} {scan : LaserScan K} (h : Keeps way limits room drive trace)
    (ht : t = drive.here.t)
    (hshows : ∀ tLidar ∈ drive.node.tLidar,
      ShowsObstacle trig way (tfPts trig (scanPoints trig scan) tLidar) drive.here.gap) :
    Keeps way limits room (drive.next trig fence way drive.here (.onScan t scan)) trace := by
  cases hlidar : drive.node.tLidar with
  | none =>
    have hnext : drive.next trig fence way drive.here (.onScan t scan) = drive := by
      simp only [Drive.next, Bench.step, Bench.onScan, hlidar, Option.isSome_none,
        Bool.false_eq_true, if_false]
    rwa [hnext]
  | some tLidar =>
    have hnext : drive.next trig fence way drive.here (.onScan t scan) =
        { drive with
          node := drive.node.updateClearance trig t (tfPts trig (scanPoints trig scan) tLidar)
          peak := drive.here.level drive.speed } := by
      simp only [Drive.next, Bench.step, Bench.onScan, hlidar, Option.isSome_some, if_true]
    rw [hnext]
    refine ⟨h.speed, h.paid, fun clear hmem ↦ ?_, h.kept⟩
    obtain rfl := Option.some.inj hmem
    refine ⟨ht.le, le_rfl, ?_⟩
    rw [ht, sub_self, mul_zero, sub_zero]
    exact along_le_iff.mpr (hshows tLidar hlidar)

theorem step (hlag : 0 ≤ limits.lag) (h : Keeps way limits room drive trace)
    (hallowed : Allowed trig fence way limits room drive (here, event)) :
    Keeps way limits room (drive.next trig fence way here event) (trace ++ [here]) := by
  obtain ⟨hfollows, htime, hevent⟩ := hallowed
  have hmoved := h.moved hfollows htime
  have hroom : room ≤ here.room 1.6 0 :=
    hmoved.kept here (List.mem_append_right _ (List.mem_singleton_self here))
  have hsame : (∀ t scan, event ≠ .onScan t scan) →
      Keeps way limits room { drive with node := (drive.node.step trig fence event).1, here }
        (trace ++ [here]) := fun hscan ↦
    ⟨hmoved.speed, hmoved.paid,
      fun clear hmem ↦ hmoved.seen clear (clear_step drive.node event hscan ▸ hmem), hmoved.kept⟩
  cases event with
  | tick t tRun => exact hmoved.tick hlag hroom hevent.1 hevent.2
  | onScan t scan => exact hmoved.scan hevent.1 hevent.2
  | set v w | assign v w | stop | trip reason | onEkf x y orientation | onJs t names positions
  | onTfStatic transforms | onIntroNames namesVersion names
  | onIntroValues t namesVersion values | setFence on | setGuard on | anchor truth ekf
  | start name | finish => exact hsame fun _ _ ↦ nofun

end Keeps

/-- In every run of the node, whatever its steps are, the base can come to a stand at any time with
the room still before it. -/
theorem keeps_room {tArenaOdom : Option (Pose K)} {begun gap : K} {final : Drive K}
    {events : List (Situation K × Event K)} {trace : List (Situation K)}
    (hlag : 0 ≤ limits.lag) (hgap : room ≤ gap)
    (hrun : (driving trig fence way).run (.initial tArenaOdom begun gap) events =
      some (final, trace))
    (halong : (driving trig fence way).Along (Allowed trig fence way limits room)
      (.initial tArenaOdom begun gap) events) :
    ∀ s ∈ trace, room ≤ s.gap - max s.speed 0 ^ 2 / 1.6 := by
  have hstart : Keeps way limits room (.initial tArenaOdom begun gap) [] := by
    refine ⟨le_rfl, ?_, nofun, nofun⟩
    simpa [Drive.initial, Situation.room, Situation.level] using hgap
  refine (Machine.run_invariant_nil (Keeps way limits room) (fun hbefore hallowed hstep ↦ ?_) hrun
    halong hstart).kept
  obtain ⟨rfl, rfl⟩ := Prod.mk.inj (Option.some.inj hstep)
  exact hbefore.step hlag hallowed

end keeps

/-- Scans at 10 Hz and ticks at 50 Hz leave the 8 cm at the highest speed of the base. -/
example : (⟨0.12, 0.03, 0⟩ : Limits ℚ).left 0.35 = 0.08 := by decide +kernel

/-- The oldest scan that the guard takes for fresh does not. -/
example : (⟨0.5, 0.02, 0⟩ : Limits ℚ).left 0.35 < 0 := by decide +kernel

/-! ## A run -/

/-- A drive at 0.2 m/s towards a wall, which a signal ends. -/
def wallRun : List (Situation ℚ × Event ℚ) :=
  [(⟨0, 0.83, 0⟩, .onTfStatic [⟨"lidar_link", 0, 0, ⟨0, 0, 0, 1⟩⟩]),
    (⟨1, 0.83, 0⟩, .onScan 1 ⟨0, 0, [some 1, none]⟩), (⟨1.05, 0.83, 0⟩, .set 0.2 0),
    (⟨1.1, 0.83, 0⟩, .tick 1.1 1.1), (⟨1.12, 0.827, 0.2⟩, .trip (.signal 15)),
    (⟨1.12, 0.827, 0.2⟩, .tick 1.12 1.12), (⟨1.4, 0.802, 0⟩, .finish)]

theorem keeps_room_wall :
    ∃ final trace, (driving levelTrig freeFloor .ahead).run (.initial none 0 0.83) wallRun =
        some (final, trace) ∧ ∀ s ∈ trace, 0.07 ≤ s.gap - max s.speed 0 ^ 2 / 1.6 := by
  have hruns : ((driving levelTrig freeFloor .ahead).run (.initial none 0 0.83) wallRun).isSome := by
    decide +kernel
  have halong : (driving levelTrig freeFloor .ahead).Along
      (Allowed levelTrig freeFloor .ahead ⟨0.15, 0.05, 0⟩ 0.07) (.initial none 0 0.83) wallRun := by
    decide +kernel
  obtain ⟨⟨final, trace⟩, hrun⟩ := Option.isSome_iff_exists.mp hruns
  exact ⟨final, trace, hrun, keeps_room le_rfl (by norm_num) hrun halong⟩

end MyDiffbot.Benchmark
