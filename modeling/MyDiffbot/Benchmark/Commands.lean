import MyDiffbot.Benchmark.Primitives
import MyDiffbot.Benchmark.Stall

/-!
# What is published

The tests run beside the timer, and they command the base through a member that the ticks publish.
A tick that moves the base publishes the latest command that was given, and since then nothing has
stopped the base (`published_of_run`). So the limits of the primitives are limits of what is
published, however their steps are interleaved with the ticks and the callbacks (`within_of_run`).
-/

namespace MyDiffbot.Benchmark

open Incremental

variable {K : Type*} [Field K] [LinearOrder K] [FloorRing K] (trig : Trig K) (fence : Fence K)

/-- The command that a step gives. Whatever trips or stops gives standstill. -/
def given? : Entry K → Option (K × K)
  | (b, .set v w) => if b.abort.isSome then none else some (v, w)
  | (_, .assign v w) => some (v, w)
  | (_, .stop) => some (0, 0)
  | (_, .trip _) => some (0, 0)
  | (_, .finish) => some (0, 0)
  | (b, .tick t tRun) => if (b.tick trig fence t tRun).2.2.isEmpty then none else some (0, 0)
  | _ => none

/-! ## The command that is kept -/

/-- Some checks stop the base if and only if one of them has tripped. -/
def Stops (b next : Bench K) (trips : List (AbortReason K)) : Prop :=
  next.cmd = if trips.isEmpty then b.cmd else (0, 0)

namespace Stops

variable {b middle next : Bench K} {trips later : List (AbortReason K)}

omit [LinearOrder K] [FloorRing K] in
theorem trans (first : Stops b middle trips) (second : Stops middle next later) :
    Stops b next (trips ++ later) := by
  unfold Stops at *
  rw [second, first]
  cases trips <;> cases later <;> rfl

end Stops

namespace Bench

variable (b : Bench K)

omit [FloorRing K] in
theorem checkJointStates_stops (t : K) :
    Stops b (b.checkJointStates t).1 (b.checkJointStates t).2 := by
  unfold checkJointStates
  split
  · split_ifs <;> rfl
  · rfl

theorem checkFence_stops : Stops b (b.checkFence trig fence).1 (b.checkFence trig fence).2 := by
  unfold checkFence
  split
  · dsimp only
    split_ifs <;> rfl
  · rfl

omit [FloorRing K] in
theorem checkGuard_stops (t v w : K) : Stops b (b.checkGuard t v w).1 (b.checkGuard t v w).2 := by
  unfold checkGuard
  split_ifs
  · dsimp only
    split
    · rfl
    · split_ifs <;> rfl
  · rfl

omit [FloorRing K] in
theorem checkStall_stops (t tRun : K) :
    Stops b (b.checkStall t tRun).1 (b.checkStall t tRun).2 := by
  unfold checkStall
  split
  · dsimp only
    split_ifs <;> rfl
  · rfl

theorem tick_stops (t tRun : K) :
    Stops b (b.tick trig fence t tRun).2.1 (b.tick trig fence t tRun).2.2 := by
  cases habort : b.abort.isSome with
  | true =>
    rw [b.tick_of_aborted trig fence t tRun habort]
    rfl
  | false =>
    have hchecks := (((b.checkJointStates_stops t).trans (checkFence_stops trig fence _)).trans
      (checkGuard_stops _ t b.cmd.1 b.cmd.2)).trans (checkStall_stops _ t tRun)
    unfold Bench.tick
    simp only [habort]
    exact hchecks

end Bench

variable {trig fence} {b : Bench K} {trace front back : List (Entry K)} {events : List (Event K)}
  {tArenaOdom : Option (Pose K)}

/-- Each step leaves the command as it was, or gives one. -/
theorem cmd_step (b : Bench K) (event : Event K) :
    (b.step trig fence event).1.cmd = (given? trig fence (b, event)).getD b.cmd := by
  cases event with
  | tick t tRun =>
    change (b.tick trig fence t tRun).2.1.cmd = _
    rw [b.tick_stops trig fence t tRun, given?]
    split_ifs <;> rfl
  | set v w =>
    dsimp only [Bench.step, given?]
    split_ifs <;> rfl
  | onJs t names positions =>
    dsimp only [Bench.step, Bench.onJs]
    cases wheelPositions? names positions <;> rfl
  | onScan t scan =>
    dsimp only [Bench.step, Bench.onScan]
    cases b.tLidar <;> rfl
  | onTfStatic transforms =>
    obtain ⟨tLidar, hresult⟩ := b.onTfStatic_eq trig transforms
    dsimp only [Bench.step]
    rw [hresult]
    rfl
  | onIntroValues t namesVersion values =>
    obtain ⟨intro, tgtSince, introRow, hresult⟩ := b.onIntroValues_eq t namesVersion values
    dsimp only [Bench.step]
    rw [hresult]
    rfl
  | assign v w | stop | trip reason | onEkf x y orientation | onIntroNames namesVersion names
  | setFence on | setGuard on | anchor truth ekf | start name | finish => rfl

/-! ## What the ticks publish -/

/-- The node keeps the latest command that was given. -/
theorem cmd_of_run
    (hrun : (history trig fence).run (Bench.initial tArenaOdom) events = some (b, trace)) :
    b.cmd = (latest (given? trig fence) trace).getD (0, 0) ∧
      ∀ front entry back, trace = front ++ entry :: back →
        entry.1.cmd = (latest (given? trig fence) front).getD (0, 0) := by
  refine @history_invariant K _ _ _ trig fence
    (fun trace b ↦ b.cmd = (latest (given? trig fence) trace).getD (0, 0)) _ _ _ _
    (fun {trace b} event hbefore ↦ ?_) hrun rfl
  rw [latest_append_singleton, cmd_step, hbefore]
  cases given? trig fence (b, event) <;> rfl

variable {node : Bench K} {t tRun : K}

/-- A tick that moves the base publishes the latest command that a test has given; nothing has
stopped the base since then. -/
theorem published_of_run
    (hrun : (history trig fence).run (Bench.initial tArenaOdom) events = some (b, trace))
    (hsplit : trace = front ++ (node, .tick t tRun) :: back)
    (hmoves : (node.tick trig fence t tRun).1 ≠ (0, 0)) :
    ∃ before found v w since, (front = before ++ (found, .set v w) :: since ∧ found.abort = none ∨
        front = before ++ (found, .assign v w) :: since) ∧
      (node.tick trig fence t tRun).1 = (v, w) ∧
      ∀ later ∈ since, given? trig fence later = none := by
  have hasked := ((node.tick_spec trig fence t tRun).2 hmoves).2.2.asked
  have hcmd := (cmd_of_run hrun).2 front _ back hsplit
  rw [← hasked] at hcmd
  cases hlatest : latest (given? trig fence) front with
  | none =>
    rw [hlatest] at hcmd
    exact absurd hcmd hmoves
  | some given =>
    rw [hlatest, Option.getD_some] at hcmd
    obtain ⟨before, ⟨found, event⟩, since, hfront, hgiven, hsince⟩ :=
      latest_eq_some_iff.mp hlatest
    rw [← hcmd] at hgiven
    have hstill : ∀ {command : K × K}, command = (0, 0) → given? trig fence (found, event) =
        some command → False := by
      rintro _ rfl hzero
      exact hmoves (Option.some.inj (hgiven.symm.trans hzero))
    cases event with
    | set v w =>
      rw [given?] at hgiven
      split_ifs at hgiven with habort
      have hnone := Option.not_isSome_iff_eq_none.mp habort
      exact ⟨before, found, v, w, since, .inl ⟨hfront, hnone⟩, (Option.some.inj hgiven).symm,
        hsince⟩
    | assign v w =>
      exact ⟨before, found, v, w, since, .inr hfront, (Option.some.inj hgiven).symm, hsince⟩
    | stop | trip reason | finish => exact (hstill rfl rfl).elim
    | tick t tRun =>
      rw [given?] at hgiven
      split_ifs at hgiven
      exact absurd (Option.some.inj hgiven).symm hmoves
    | onEkf x y orientation | onJs t names positions | onScan t scan | onTfStatic transforms
    | onIntroNames namesVersion names | onIntroValues t namesVersion values | setFence on
    | setGuard on | anchor truth ekf | start name => cases hgiven

/-! ## Limits -/

/-- The command that a test gives. -/
def Event.command? : Event K → Option (K × K)
  | set v w => some (v, w)
  | assign v w => some (v, w)
  | _ => none

variable {vmax wmax : K}

omit [FloorRing K] in
theorem Within.mono {vmax' wmax' : K} {command : K × K} (h : Within vmax wmax command)
    (hvmax : vmax ≤ vmax') (hwmax : wmax ≤ wmax') : Within vmax' wmax' command :=
  ⟨h.1.trans hvmax, h.2.trans hwmax⟩

variable [IsStrictOrderedRing K]

/-- Limits of what the tests give are limits of what is published. -/
theorem within_of_run (hvmax : 0 ≤ vmax) (hwmax : 0 ≤ wmax)
    (hgiven : ∀ command ∈ events.filterMap Event.command?, Within vmax wmax command)
    (hrun : (history trig fence).run (Bench.initial tArenaOdom) events = some (b, trace))
    (hsplit : trace = front ++ (node, .tick t tRun) :: back) :
    Within vmax wmax (node.tick trig fence t tRun).1 := by
  by_cases hmoves : (node.tick trig fence t tRun).1 = (0, 0)
  · rw [hmoves]
    exact ⟨abs_zero.trans_le hvmax, abs_zero.trans_le hwmax⟩
  · obtain ⟨before, found, v, w, since, hfront, hcommand, -⟩ := published_of_run hrun hsplit hmoves
    rw [hcommand]
    have hevent : ∀ event, (found, event) ∈ trace → event.command? = some (v, w) →
        Within vmax wmax (v, w) := by
      intro event hmem hgives
      refine hgiven _ (List.mem_filterMap.mpr ⟨event, ?_, hgives⟩)
      rw [← Machine.events_of_history hrun]
      exact List.mem_map_of_mem hmem
    rcases hfront with ⟨rfl, -⟩ | rfl
    · exact hevent (.set v w) (by simp [hsplit]) rfl
    · exact hevent (.assign v w) (by simp [hsplit]) rfl

/-- Wherever `goto_odom` turns and drives to, and whatever happens meanwhile, no tick publishes more
than its limits: the speed that it was given, and 0.8 rad/s. -/
theorem gotoOdom_within {bearing d yaw tol tEnd tEnd' tEnd'' : K} {start : Pose K}
    {turning driving facing : List (Sample K)} (hvmax : 0 ≤ vmax)
    (hgiven : events.filterMap Event.command? =
      ((rotateTo trig bearing 0.8 tol tEnd).run () turning).acts ++
        ((drive trig start bearing d vmax tEnd').run () driving).acts ++
        ((rotateTo trig yaw 0.8 tol tEnd'').run () facing).acts)
    (hrun : (history trig fence).run (Bench.initial tArenaOdom) events = some (b, trace))
    (hsplit : trace = front ++ (node, .tick t tRun) :: back) :
    Within vmax 0.8 (node.tick trig fence t tRun).1 := by
  have hwmax : (0 : K) ≤ 0.8 := by norm_num
  have hturns : ∀ yaw tEnd samples, ∀ command ∈ ((rotateTo trig yaw 0.8 tol tEnd).run () samples).acts,
      Within vmax 0.8 command := fun yaw tEnd samples command hmem ↦
    (rotateTo_within trig yaw 0.8 tol tEnd hwmax samples command hmem).mono hvmax le_rfl
  refine within_of_run hvmax hwmax ?_ hrun hsplit
  rw [hgiven]
  refine List.forall_mem_append.mpr ⟨List.forall_mem_append.mpr ⟨?_, ?_⟩, ?_⟩
  · exact hturns bearing tEnd turning
  · intro command hmem
    exact (drive_within trig start bearing d vmax tEnd' hvmax driving command hmem).mono le_rfl
      (by norm_num)
  · exact hturns yaw tEnd'' facing

/-! ## A run -/

/-- A turn is begun and stopped. -/
def turningRun : List (Event ℚ) :=
  [.setGuard false, .set 0 0.8, .tick 1 1, .stop, .tick 1.02 1.02]

theorem exists_of_turningRun :
    ∃ (b node : Bench ℚ) (trace front back : List (Entry ℚ)),
      (history levelTrig freeFloor).run (.initial none) turningRun = some (b, trace) ∧
      trace = front ++ (node, .tick 1 1) :: back ∧
      (node.tick levelTrig freeFloor 1 1).1 = (0, 0.8) := by
  let first : Bench ℚ := .initial none
  let second : Bench ℚ := { first with guardOn := false }
  let third : Bench ℚ := { second with cmd := (0, 0.8) }
  let fourth : Bench ℚ := (third.tick levelTrig freeFloor 1 1).2.1
  let fifth : Bench ℚ := { fourth with cmd := (0, 0) }
  exact ⟨(fifth.tick levelTrig freeFloor 1.02 1.02).2.1, third, _,
    [(first, .setGuard false), (second, .set 0 0.8)], [(fourth, .stop), (fifth, .tick 1.02 1.02)],
    rfl, rfl, by decide +kernel⟩

theorem published_of_run_turning :
    ∃ (b node : Bench ℚ) (trace front back : List (Entry ℚ)),
      (history levelTrig freeFloor).run (.initial none) turningRun = some (b, trace) ∧
      trace = front ++ (node, .tick 1 1) :: back ∧
      ∃ before found v w since, (front = before ++ (found, .set v w) :: since ∧
          found.abort = none ∨ front = before ++ (found, .assign v w) :: since) ∧
        (0, 0.8) = (v, w) ∧ ∀ later ∈ since, given? levelTrig freeFloor later = none := by
  obtain ⟨b, node, trace, front, back, hrun, hsplit, hcommand⟩ := exists_of_turningRun
  refine ⟨b, node, trace, front, back, hrun, hsplit, ?_⟩
  rw [← hcommand]
  refine published_of_run hrun hsplit ?_
  rw [hcommand]
  decide +kernel

/-- The turn is one of `rotate_to`. -/
theorem gotoOdom_within_turning :
    ∃ (b node : Bench ℚ) (trace front back : List (Entry ℚ)),
      (history levelTrig freeFloor).run (.initial none) turningRun = some (b, trace) ∧
      trace = front ++ (node, .tick 1 1) :: back ∧
      Within 0.2 0.8 (node.tick levelTrig freeFloor 1 1).1 := by
  obtain ⟨b, node, trace, front, back, hrun, hsplit, -⟩ := exists_of_turningRun
  have hgiven : turningRun.filterMap Event.command? =
      ((rotateTo levelTrig 1 0.8 0.004 20).run () [⟨0, ⟨0, 0, 0⟩, false⟩]).acts ++
        ((drive levelTrig ⟨0, 0, 0⟩ 1 0.5 0.2 15).run () []).acts ++
        ((rotateTo levelTrig 0 0.8 0.004 20).run () []).acts := by
    decide +kernel
  exact ⟨b, node, trace, front, back, hrun, hsplit,
    gotoOdom_within (by norm_num) hgiven hrun hsplit⟩

end MyDiffbot.Benchmark
