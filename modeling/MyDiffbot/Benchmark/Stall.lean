import MyDiffbot.Benchmark.Gate
import MyDiffbot.Incremental.Streak
import Mathlib.Data.List.DropRight
import Mathlib.Tactic.NormNum

/-!
# The watch over the wheels

A tick takes a wheel for stuck if it has been commanded for more than a second and it is where it
was 0.6 s ago. Both wheels at once are a power dropout. One wheel is a fault if it
has been stuck for 1.5 s. The node keeps clocks for this: since when the targets are high, and since
when the ticks find a wheel stuck. What they tell of the whole history of the node is shown here.
-/

namespace MyDiffbot.Benchmark

open Incremental

variable {K : Type*} [Field K] [LinearOrder K]

/-! ## What is seen of the wheels -/

/-- The number of the left or the right wheel. -/
def wheel (left : Bool) : Fin 2 := if left then ⟨0, Nat.zero_lt_two⟩ else ⟨1, Nat.one_lt_two⟩

/-- The targets of the two wheels in a row of `rec['intro']`. -/
def targets (row : List K) : Fin 2 → K := ![row.getD 0 0, row.getD 4 0]

namespace Bench

variable (b : Bench K)

/-- The row that some introspection values give, if their names are known. -/
def introRow? (namesVersion : ℕ) (values : List K) : Option (List K) :=
  match b.introNames namesVersion with
  | none | some [] => none
  | some names => (b.introIdx? namesVersion names).bind fun idx ↦ idx.mapM fun i ↦ values[i]?

/-- Whether `tick` takes a wheel for stuck; `none` without a reading that is old enough. -/
def stuck? (t : K) (k : Fin 2) : Option Bool :=
  match (b.motionHist.filter fun h ↦ 0.6 ≤ t - h.1).getLast?, b.js with
  | some o, some js =>
    some (decide ((∃ since ∈ b.tgtSince k, 1 < t - since) ∧ |js k - o.2 k| < 1e-3))
  | _, _ => none

end Bench

/-- A step of the history: the node that it found, and the event. -/
abbrev Entry (K : Type*) := Bench K × Event K

/-- The target of a wheel: whether it is above 60 mrps. -/
def targetSight? (k : Fin 2) : Entry K → Option (K × Bool)
  | (b, .onIntroValues t namesVersion values) =>
    (b.introRow? namesVersion values).map fun row ↦ (t, decide (60.0 < |targets row k|))
  | _ => none

/-- The positions of the wheel joints. -/
def reading? : Entry K → Option (K × (Fin 2 → K))
  | (_, .onJs t names positions) => (wheelPositions? names positions).map fun js ↦ (t, js)
  | _ => none

/-- What a tick finds of a wheel, unless it has been aborted. -/
def stallSight? (k : Fin 2) : Entry K → Option (K × Bool)
  | (b, .tick t _) => if b.abort.isSome then none else (b.stuck? t k).map fun stuck ↦ (t, stuck)
  | _ => none

def readings (trace : List (Entry K)) : List (K × (Fin 2 → K)) := trace.filterMap reading?

section history

variable [FloorRing K] (trig : Trig K) (fence : Fence K)

/-- The node with its history. -/
def history : Machine (Bench K) (Event K) (Entry K) :=
  (bench trig fence).observe fun b event _ ↦ [(b, event)]

variable {trig fence}

/-- What every step preserves of the node and its history holds at the end of a run, and at every
step of it. -/
theorem history_invariant {invariant : List (Entry K) → Bench K → Prop} {begun b : Bench K}
    {trace : List (Entry K)} {events : List (Event K)}
    (hstep : ∀ {trace b} event, invariant trace b →
      invariant (trace ++ [(b, event)]) (b.step trig fence event).1)
    (hrun : (history trig fence).run begun events = some (b, trace)) (hbegun : invariant [] begun) :
    invariant trace b ∧
      ∀ front entry back, trace = front ++ entry :: back → invariant front entry.1 := by
  refine Machine.history_invariant (fun {_ b event _ _} hbefore hbench ↦ ?_) hrun hbegun
  have hnext := hstep event hbefore
  rwa [Option.some.inj hbench] at hnext

end history

/-- For more than a second every row has shown a high target of the wheel. -/
def Commanded (trace : List (Entry K)) (t : K) (k : Fin 2) : Prop :=
  ∃ since front entry back, trace = front ++ entry :: back ∧
    Begins (targetSight? k) since front entry back ∧ 1 < t - since

/-- The wheel is where the latest of the last 200 readings that is 0.6 s old has shown it. -/
def Still (trace : List (Entry K)) (t : K) (k : Fin 2) : Prop :=
  ∃ old ∈ (((readings trace).rtake 200).filter fun h ↦ 0.6 ≤ t - h.1).getLast?,
    ∃ now ∈ (readings trace).getLast?, |now.2 k - old.2 k| < 1e-3

/-- The wheel is commanded and does not move. -/
def Stuck (trace : List (Entry K)) (t : K) (k : Fin 2) : Prop :=
  Commanded trace t k ∧ Still trace t k

/-! ## One step -/

/-- What the watch keeps of the wheels. -/
structure SameWheels (b next : Bench K) : Prop where
  js : next.js = b.js
  motionHist : next.motionHist = b.motionHist
  tgtSince : next.tgtSince = b.tgtSince
  stallStart : next.stallStart = b.stallStart

namespace SameWheels

variable {b middle next : Bench K}

omit [Field K] [LinearOrder K] in
theorem refl (b : Bench K) : SameWheels b b := ⟨rfl, rfl, rfl, rfl⟩

omit [Field K] [LinearOrder K] in
theorem trans (first : SameWheels b middle) (second : SameWheels middle next) :
    SameWheels b next where
  js := second.js.trans first.js
  motionHist := second.motionHist.trans first.motionHist
  tgtSince := second.tgtSince.trans first.tgtSince
  stallStart := second.stallStart.trans first.stallStart

theorem stuck? (h : SameWheels b next) (t : K) (k : Fin 2) : next.stuck? t k = b.stuck? t k := by
  unfold Bench.stuck?
  rw [h.js, h.motionHist, h.tgtSince]

end SameWheels

/-- The check that trips is not the one of the wheels. -/
def AbortReason.OfWheels : AbortReason K → Prop
  | powerDropout _ | wheelNotMoving _ => True
  | _ => False

namespace Bench

variable (b : Bench K)

theorem checkJointStates_wheels (t : K) :
    SameWheels b (b.checkJointStates t).1 ∧
      ∀ reason ∈ (b.checkJointStates t).2, ¬reason.OfWheels := by
  unfold checkJointStates trip
  split
  · split_ifs
    · exact ⟨⟨rfl, rfl, rfl, rfl⟩, List.forall_mem_singleton.mpr id⟩
    · exact ⟨.refl b, nofun⟩
  · exact ⟨.refl b, nofun⟩

theorem checkGuard_wheels (t v w : K) :
    SameWheels b (b.checkGuard t v w).1 ∧
      ∀ reason ∈ (b.checkGuard t v w).2, ¬reason.OfWheels := by
  unfold checkGuard trip
  split_ifs
  · dsimp only
    split
    · exact ⟨⟨rfl, rfl, rfl, rfl⟩, List.forall_mem_singleton.mpr id⟩
    · split_ifs
      · exact ⟨⟨rfl, rfl, rfl, rfl⟩, List.forall_mem_singleton.mpr id⟩
      · exact ⟨⟨rfl, rfl, rfl, rfl⟩, List.forall_mem_singleton.mpr id⟩
      · exact ⟨⟨rfl, rfl, rfl, rfl⟩, List.forall_mem_singleton.mpr id⟩
      · exact ⟨⟨rfl, rfl, rfl, rfl⟩, List.forall_mem_singleton.mpr id⟩
      · exact ⟨⟨rfl, rfl, rfl, rfl⟩, nofun⟩
  · exact ⟨.refl b, nofun⟩

theorem checkFence_wheels [FloorRing K] (trig : Trig K) (fence : Fence K) :
    SameWheels b (b.checkFence trig fence).1 ∧
      ∀ reason ∈ (b.checkFence trig fence).2, ¬reason.OfWheels := by
  unfold checkFence trip
  split
  · dsimp only
    split_ifs
    · exact ⟨.refl b, nofun⟩
    · exact ⟨⟨rfl, rfl, rfl, rfl⟩, List.forall_mem_singleton.mpr id⟩
  · exact ⟨.refl b, nofun⟩

theorem stallStart_checkStall (t tRun : K) (k : Fin 2) :
    (b.checkStall t tRun).1.stallStart k =
      clocked ((b.stuck? t k).map fun stuck ↦ (t, stuck)) (b.stallStart k) := by
  unfold checkStall stuck?
  cases (b.motionHist.filter fun h ↦ 0.6 ≤ t - h.1).getLast? with
  | none => rfl
  | some o =>
    cases b.js with
    | none => rfl
    | some js =>
      dsimp only [Option.map_some]
      by_cases hstuck : (∃ since ∈ b.tgtSince k, 1 < t - since) ∧ |js k - o.2 k| < 1e-3
      · rw [decide_eq_true hstuck, clocked_true]
        split_ifs <;> simp only [powerDropout, trip, if_pos hstuck]
      · rw [decide_eq_false hstuck, clocked_false]
        split_ifs <;> simp only [powerDropout, trip, if_neg hstuck]

theorem checkStall_keeps (t tRun : K) :
    (b.checkStall t tRun).1.js = b.js ∧ (b.checkStall t tRun).1.motionHist = b.motionHist ∧
      (b.checkStall t tRun).1.tgtSince = b.tgtSince := by
  unfold checkStall
  split
  · dsimp only
    split_ifs <;> exact ⟨rfl, rfl, rfl⟩
  · exact ⟨rfl, rfl, rfl⟩

/-- Both wheels at once are a power dropout. -/
theorem powerDropout_mem_checkStall (t tRun : K) :
    (∃ ctx, .powerDropout ctx ∈ (b.checkStall t tRun).2) ↔ ∀ k, b.stuck? t k = some true := by
  unfold checkStall stuck?
  cases (b.motionHist.filter fun h ↦ 0.6 ≤ t - h.1).getLast? with
  | none => simp
  | some o =>
    cases b.js with
    | none => simp
    | some js =>
      dsimp only
      split_ifs with hall hone
      · simpa [powerDropout, trip] using hall
      · simpa [trip] using hall
      · simpa using hall

variable [IsStrictOrderedRing K]

/-- One wheel is a fault if its clock has been started 1.5 s before. -/
theorem wheelNotMoving_mem_checkStall (t tRun : K) (left : Bool) :
    .wheelNotMoving left ∈ (b.checkStall t tRun).2 ↔
      b.stuck? t (wheel left) = some true ∧ b.stuck? t (wheel !left) = some false ∧
        ∃ start ∈ b.stallStart (wheel left), 1.5 < t - start := by
  unfold checkStall stuck?
  cases (b.motionHist.filter fun h ↦ 0.6 ≤ t - h.1).getLast? with
  | none => simp
  | some o =>
    cases b.js with
    | none => simp
    | some js =>
      dsimp only
      have hnow : ¬(1.5 : K) < t - t := by
        rw [sub_self]
        norm_num
      have hclock : ∀ k, (∃ start ∈ (b.stallStart k).or (some t), 1.5 < t - start) ↔
          ∃ start ∈ b.stallStart k, 1.5 < t - start := by
        intro k
        cases b.stallStart k with
        | none => simpa using hnow
        | some start => rfl
      split_ifs with hall hone
      · refine iff_of_false (by simp [powerDropout, trip]) ?_
        rintro ⟨-, hother, -⟩
        exact of_decide_eq_false (Option.some.inj hother) (hall _)
      · -- Only the wheel that is stuck has a clock, so it is the one whose clock has run out.
        obtain ⟨-, k, start, hstart, hlong⟩ := hone
        have hstuck : (∃ since ∈ b.tgtSince k, 1 < t - since) ∧ |js k - o.2 k| < 1e-3 := by
          by_contra hnot
          rw [if_neg hnot] at hstart
          cases hstart
        rw [if_pos hstuck] at hstart
        have hlasting := (hclock k).mp ⟨start, hstart, hlong⟩
        have hfree : ∀ j, j ≠ k →
            ¬((∃ since ∈ b.tgtSince j, 1 < t - since) ∧ |js j - o.2 j| < 1e-3) := by
          intro j hne hj
          refine hall fun i ↦ ?_
          have hi : i = j ∨ i = k := by omega
          rcases hi with rfl | rfl
          · exact hj
          · exact hstuck
        constructor
        · intro hmem
          obtain rfl := AbortReason.wheelNotMoving.inj (List.mem_singleton.mp hmem)
          by_cases hzero : k = 0
          · subst hzero
            rw [decide_eq_true hstuck]
            exact ⟨congrArg some (decide_eq_true hstuck),
              congrArg some (decide_eq_false (hfree 1 (by decide))), hlasting⟩
          · obtain rfl : k = 1 := by omega
            rw [decide_eq_false (hfree 0 (by decide))]
            exact ⟨congrArg some (decide_eq_true hstuck),
              congrArg some (decide_eq_false (hfree 0 (by decide))), hlasting⟩
        · rintro ⟨hblamed, hother, -⟩
          refine List.mem_singleton.mpr (congrArg AbortReason.wheelNotMoving ?_)
          cases left with
          | true => exact (Option.some.inj hblamed).symm
          | false => exact (Option.some.inj hother).symm
      · refine iff_of_false (List.not_mem_nil) ?_
        rintro ⟨hblamed, -, start, hstart, hlong⟩
        have hstuck := of_decide_eq_true (Option.some.inj hblamed)
        obtain ⟨started, hmem, hlater⟩ := (hclock _).mpr ⟨start, hstart, hlong⟩
        exact hone ⟨⟨_, hstuck⟩, _, started, by rwa [if_pos hstuck], hlater⟩

end Bench

/-! ## One tick -/

section tick

variable [FloorRing K] (trig : Trig K) (fence : Fence K) (b : Bench K)

/-- What a tick does with the wheels, it does in its last check, which sees them as they were. -/
theorem tick_wheels (t tRun : K) (habort : b.abort = none) :
    ∃ checked : Bench K, SameWheels b checked ∧
      (b.tick trig fence t tRun).2.1 = (checked.checkStall t tRun).1 ∧
      ∀ reason : AbortReason K, reason.OfWheels →
        (reason ∈ (b.tick trig fence t tRun).2.2 ↔ reason ∈ (checked.checkStall t tRun).2) := by
  obtain ⟨hfirst, hstale⟩ := b.checkJointStates_wheels t
  set first := b.checkJointStates t
  obtain ⟨hsecond, houtside⟩ := first.1.checkFence_wheels trig fence
  set second := first.1.checkFence trig fence
  obtain ⟨hthird, hblocked⟩ := second.1.checkGuard_wheels t b.cmd.1 b.cmd.2
  set third := second.1.checkGuard t b.cmd.1 b.cmd.2
  have htick : (b.tick trig fence t tRun).2 = ((third.1.checkStall t tRun).1,
      first.2 ++ second.2 ++ third.2 ++ (third.1.checkStall t tRun).2) := by
    unfold Bench.tick
    simp only [habort]
    rfl
  refine ⟨third.1, (hfirst.trans hsecond).trans hthird, by rw [htick], ?_⟩
  intro reason hwheels
  rw [htick]
  simp only [List.mem_append]
  constructor
  · rintro (((hmem | hmem) | hmem) | hmem)
    · exact absurd hwheels (hstale reason hmem)
    · exact absurd hwheels (houtside reason hmem)
    · exact absurd hwheels (hblocked reason hmem)
    · exact hmem
  · exact Or.inr

theorem tick_keeps (t tRun : K) :
    (b.tick trig fence t tRun).2.1.js = b.js ∧
      (b.tick trig fence t tRun).2.1.motionHist = b.motionHist ∧
      (b.tick trig fence t tRun).2.1.tgtSince = b.tgtSince ∧
      ∀ k, (b.tick trig fence t tRun).2.1.stallStart k =
        clocked (stallSight? k (b, .tick t tRun)) (b.stallStart k) := by
  cases habort : b.abort with
  | some reason =>
    have haborted : b.abort.isSome = true := by rw [habort, Option.isSome_some]
    rw [b.tick_of_aborted trig fence t tRun haborted]
    refine ⟨rfl, rfl, rfl, fun k ↦ ?_⟩
    rw [stallSight?, if_pos haborted, clocked_none]
  | none =>
    obtain ⟨checked, hsame, hnext, -⟩ := tick_wheels trig fence b t tRun habort
    obtain ⟨hjs, hhist, htgt⟩ := checked.checkStall_keeps t tRun
    rw [hnext]
    refine ⟨hjs.trans hsame.js, hhist.trans hsame.motionHist, htgt.trans hsame.tgtSince, ?_⟩
    intro k
    have hrunning : ¬b.abort.isSome = true := by rw [habort]; exact Bool.false_ne_true
    rw [checked.stallStart_checkStall, hsame.stuck?, hsame.stallStart, stallSight?,
      if_neg hrunning]

end tick

/-! ## Any step -/

section step

variable (b : Bench K)

/-- The clock of the targets sees each row that is recorded. -/
theorem tgtSince_onIntroValues [IsStrictOrderedRing K] (t : K) (namesVersion : ℕ) (values : List K) (k : Fin 2) :
    (b.onIntroValues t namesVersion values).tgtSince k =
      clocked ((b.introRow? namesVersion values).map fun row ↦ (t, decide (60.0 < |targets row k|)))
        (b.tgtSince k) := by
  unfold Bench.onIntroValues Bench.introRow?
  cases b.introNames namesVersion with
  | none => rfl
  | some names =>
    cases names with
    | nil => rfl
    | cons name names =>
      dsimp only
      cases b.introIdx? namesVersion (name :: names) with
      | none => rfl
      | some idx =>
        dsimp only [Option.bind_some]
        cases idx.mapM fun i ↦ values[i]? with
        | none => rfl
        | some vals =>
          dsimp only [Option.map_some]
          change (if 60 < |targets vals k| then _ else none) = _
          have hsixty : (60.0 : K) = 60 := by norm_num
          rw [hsixty]
          by_cases hhigh : 60 < |targets vals k|
          · rw [if_pos hhigh, decide_eq_true hhigh, clocked_true]
          · rw [if_neg hhigh, decide_eq_false hhigh, clocked_false]

theorem rtake_append_singleton {α : Type*} (n : ℕ) (values : List α) (value : α) :
    (values.rtake n ++ [value]).rtake n = (values ++ [value]).rtake n := by
  cases n with
  | zero => rw [List.rtake_zero, List.rtake_zero]
  | succ n =>
    rw [List.rtake_concat_succ, List.rtake_concat_succ, List.rtake_eq_reverse_take_reverse,
      List.rtake_eq_reverse_take_reverse, List.rtake_eq_reverse_take_reverse, List.reverse_reverse,
      List.take_take, min_eq_left n.le_succ]

/-- The memory of the wheels after some readings: the latest positions, and the last 200. -/
def Remembers (b : Bench K) (seen : List (K × (Fin 2 → K))) : Prop :=
  b.js = seen.getLast?.map Prod.snd ∧ b.motionHist = seen.rtake 200

omit [Field K] [LinearOrder K] in
theorem Remembers.onJs {b : Bench K} {seen : List (K × (Fin 2 → K))} (h : Remembers b seen) (t : K)
    (names : List String) (positions : List K) :
    Remembers (b.onJs t names positions)
      (seen ++ ((wheelPositions? names positions).map fun js ↦ (t, js)).toList) := by
  unfold Bench.onJs
  cases wheelPositions? names positions with
  | none => simpa using h
  | some js =>
    obtain ⟨hjs, hhist⟩ := h
    refine ⟨by simp, ?_⟩
    dsimp only [Option.map_some, Option.toList_some]
    rw [← rtake_append_singleton, ← hhist, List.rtake]
    split_ifs with hmany
    · rfl
    · rw [Nat.sub_eq_zero_of_le (not_lt.mp hmany), List.drop_zero]

/-- What the members of the node tell of its history. -/
structure Watched (trace : List (Entry K)) (b : Bench K) : Prop where
  memory : Remembers b (readings trace)
  tgtSince : ∀ k, b.tgtSince k = streak (targetSight? k) trace
  stallStart : ∀ k, b.stallStart k = streak (stallSight? k) trace

/-- A step that sees nothing of the wheels and leaves them as they were. -/
theorem Watched.skip {trace : List (Entry K)} {b next : Bench K} {entry : Entry K}
    (h : Watched trace b) (hsame : SameWheels b next) (hreading : reading? entry = none)
    (htarget : ∀ k, targetSight? k entry = none) (hstall : ∀ k, stallSight? k entry = none) :
    Watched (trace ++ [entry]) next where
  memory := by
    obtain ⟨hjs, hhist⟩ := h.memory
    have hsame' : readings (trace ++ [entry]) = readings trace := by
      simp [readings, hreading]
    exact ⟨by rw [hsame.js, hjs, hsame'], by rw [hsame.motionHist, hhist, hsame']⟩
  tgtSince k := by
    rw [streak_append_singleton, htarget, clocked_none, hsame.tgtSince, h.tgtSince]
  stallStart k := by
    rw [streak_append_singleton, hstall, clocked_none, hsame.stallStart, h.stallStart]

end step

section run

variable [FloorRing K] [IsStrictOrderedRing K] {trig : Trig K} {fence : Fence K} {b : Bench K}
  {trace : List (Entry K)} {events : List (Event K)}

theorem Watched.step (h : Watched trace b) (event : Event K) :
    Watched (trace ++ [(b, event)]) (b.step trig fence event).1 := by
  cases event with
  | tick t tRun =>
    obtain ⟨hjs, hhist, htgt, hstall⟩ := tick_keeps trig fence b t tRun
    change Watched _ (b.tick trig fence t tRun).2.1
    refine ⟨?_, fun k ↦ ?_, fun k ↦ ?_⟩
    · have hsame : readings (trace ++ [(b, .tick t tRun)]) = readings trace := by
        simp [readings, reading?]
      obtain ⟨hbefore, hbeforeHist⟩ := h.memory
      exact ⟨by rw [hjs, hbefore, hsame], by rw [hhist, hbeforeHist, hsame]⟩
    · rw [streak_append_singleton, htgt, h.tgtSince]
      rfl
    · rw [streak_append_singleton, hstall, h.stallStart]
  | onJs t names positions =>
    obtain ⟨hstall, htgt⟩ : (b.onJs t names positions).stallStart = b.stallStart ∧
        (b.onJs t names positions).tgtSince = b.tgtSince := by
      unfold Bench.onJs
      cases wheelPositions? names positions <;> exact ⟨rfl, rfl⟩
    change Watched _ (b.onJs t names positions)
    refine ⟨?_, fun k ↦ ?_, fun k ↦ ?_⟩
    · have hmore : readings (trace ++ [(b, .onJs t names positions)]) = readings trace ++
          ((wheelPositions? names positions).map fun js ↦ (t, js)).toList := by
        rw [readings, List.filterMap_append]
        cases hread : wheelPositions? names positions <;> simp [readings, reading?, hread]
      rw [hmore]
      exact h.memory.onJs t names positions
    · rw [streak_append_singleton, htgt, h.tgtSince]
      rfl
    · rw [streak_append_singleton, hstall, h.stallStart]
      rfl
  | onIntroValues t namesVersion values =>
    obtain ⟨intro, tgtSince, introRow, hresult⟩ := b.onIntroValues_eq t namesVersion values
    have htgt := tgtSince_onIntroValues b t namesVersion values
    change Watched _ (b.onIntroValues t namesVersion values)
    refine ⟨?_, fun k ↦ ?_, fun k ↦ ?_⟩
    · have hsame : readings (trace ++ [(b, .onIntroValues t namesVersion values)]) =
          readings trace := by
        simp [readings, reading?]
      rw [hresult, hsame]
      exact h.memory
    · rw [streak_append_singleton, htgt, h.tgtSince]
      rfl
    · rw [streak_append_singleton, hresult]
      exact h.stallStart k
  | onTfStatic transforms =>
    obtain ⟨tLidar, hresult⟩ := b.onTfStatic_eq trig transforms
    refine h.skip ?_ rfl (fun _ ↦ rfl) fun _ ↦ rfl
    change SameWheels b (b.onTfStatic trig transforms)
    rw [hresult]
    exact ⟨rfl, rfl, rfl, rfl⟩
  | set v w =>
    refine h.skip ?_ rfl (fun _ ↦ rfl) fun _ ↦ rfl
    dsimp only [Bench.step]
    split_ifs <;> exact ⟨rfl, rfl, rfl, rfl⟩
  | onScan t scan =>
    refine h.skip ?_ rfl (fun _ ↦ rfl) fun _ ↦ rfl
    dsimp only [Bench.step, Bench.onScan]
    cases b.tLidar <;> exact ⟨rfl, rfl, rfl, rfl⟩
  | assign v w | stop | trip reason | onEkf x y orientation | onIntroNames namesVersion names
  | setFence on | setGuard on | anchor truth ekf | start name | finish =>
    exact h.skip ⟨rfl, rfl, rfl, rfl⟩ rfl (fun _ ↦ rfl) fun _ ↦ rfl

omit [FloorRing K] [IsStrictOrderedRing K] in
theorem watched_initial (tArenaOdom : Option (Pose K)) : Watched [] (Bench.initial tArenaOdom) :=
  ⟨⟨rfl, (List.rtake_nil 200).symm⟩, fun _ ↦ rfl, fun _ ↦ rfl⟩

theorem watched_of_run {tArenaOdom : Option (Pose K)}
    (hrun : (history trig fence).run (Bench.initial tArenaOdom) events = some (b, trace)) :
    Watched trace b ∧ ∀ front entry back, trace = front ++ entry :: back → Watched front entry.1 :=
  history_invariant (fun event hbefore ↦ hbefore.step event) hrun (watched_initial tArenaOdom)

end run

/-! ## What trips -/

section trips

variable {b : Bench K} {trace : List (Entry K)}

/-- A tick takes a wheel for stuck if and only if it is. -/
theorem Watched.stuck?_iff (h : Watched trace b) (t : K) (k : Fin 2) :
    b.stuck? t k = some true ↔ Stuck trace t k := by
  have hcommanded : (∃ since ∈ b.tgtSince k, 1 < t - since) ↔ Commanded trace t k := by
    rw [h.tgtSince]
    constructor
    · rintro ⟨since, hclock, hlong⟩
      obtain ⟨front, entry, back, hsplit, hbegins⟩ := streak_eq_some_iff.mp hclock
      exact ⟨since, front, entry, back, hsplit, hbegins, hlong⟩
    · rintro ⟨since, front, entry, back, hsplit, hbegins, hlong⟩
      exact ⟨since, streak_eq_some_iff.mpr ⟨front, entry, back, hsplit, hbegins⟩, hlong⟩
  obtain ⟨hjs, hhist⟩ := h.memory
  unfold Bench.stuck? Stuck Still
  rw [← hcommanded, hjs, hhist]
  cases (((readings trace).rtake 200).filter fun h ↦ 0.6 ≤ t - h.1).getLast? with
  | none => simp
  | some old => cases (readings trace).getLast? <;> simp

/-- What is known of one wheel is known of the other. -/
theorem stuck?_eq_some_false {t : K} {k j : Fin 2} (h : b.stuck? t k = some true) :
    b.stuck? t j = some false ↔ b.stuck? t j ≠ some true := by
  have hsome : b.stuck? t j ≠ none := by
    unfold Bench.stuck? at h ⊢
    split at h
    · exact Option.some_ne_none _
    · cases h
  cases hstuck : b.stuck? t j with
  | none => exact absurd hstuck hsome
  | some stuck => cases stuck <;> simp

variable [FloorRing K] [IsStrictOrderedRing K] {trig : Trig K} {fence : Fence K}
  {events : List (Event K)} {tArenaOdom : Option (Pose K)}

/-- A tick trips for a power dropout if and only if nothing has tripped before and both wheels are
commanded and do not move. -/
theorem powerDropout_iff_of_run
    (hrun : (history trig fence).run (Bench.initial tArenaOdom) events = some (b, trace))
    (t tRun : K) :
    (∃ ctx, .powerDropout ctx ∈ (b.tick trig fence t tRun).2.2) ↔
      b.abort = none ∧ ∀ k, Stuck trace t k := by
  obtain ⟨hwatched, -⟩ := watched_of_run hrun
  cases habort : b.abort with
  | some reason =>
    rw [b.tick_of_aborted trig fence t tRun (by rw [habort, Option.isSome_some])]
    exact iff_of_false (fun ⟨_, hmem⟩ ↦ List.not_mem_nil hmem) fun ⟨hnone, _⟩ ↦ nomatch hnone
  | none =>
    obtain ⟨checked, hsame, -, hreasons⟩ := tick_wheels trig fence b t tRun habort
    calc
      _ ↔ ∃ ctx, .powerDropout ctx ∈ (checked.checkStall t tRun).2 :=
        exists_congr fun ctx ↦ hreasons (.powerDropout ctx) trivial
      _ ↔ ∀ k, checked.stuck? t k = some true := checked.powerDropout_mem_checkStall t tRun
      _ ↔ ∀ k, Stuck trace t k :=
        forall_congr' fun k ↦ by rw [hsame.stuck?, hwatched.stuck?_iff]
      _ ↔ _ := (and_iff_right rfl).symm

/-- What the clock of a wheel sees in a tick: whether the wheel is stuck, unless the tick has been
aborted. -/
theorem stallSight?_of_run
    (hrun : (history trig fence).run (Bench.initial tArenaOdom) events = some (b, trace))
    {front back : List (Entry K)} {node : Bench K} {t tRun : K}
    (hsplit : trace = front ++ (node, .tick t tRun) :: back) (k : Fin 2) :
    stallSight? k (node, .tick t tRun) = some (t, true) ↔ node.abort = none ∧ Stuck front t k := by
  have hwatched := (watched_of_run hrun).2 front _ back hsplit
  rw [← hwatched.stuck?_iff, stallSight?]
  cases node.abort with
  | some reason => exact iff_of_false nofun fun ⟨hnone, _⟩ ↦ nomatch hnone
  | none => simp

/-- A tick blames a wheel if and only if nothing has tripped before, this wheel is commanded and does
not move, the other one is not so, and the ticks have found it so for more than 1.5 s. What a tick has
found is told by the steps before it. -/
theorem wheelNotMoving_iff_of_run
    (hrun : (history trig fence).run (Bench.initial tArenaOdom) events = some (b, trace))
    (t tRun : K) (left : Bool) :
    (.wheelNotMoving left ∈ (b.tick trig fence t tRun).2.2 ↔
      b.abort = none ∧ Stuck trace t (wheel left) ∧ ¬Stuck trace t (wheel !left) ∧
        ∃ start front entry back, trace = front ++ entry :: back ∧
          Begins (stallSight? (wheel left)) start front entry back ∧ 1.5 < t - start) ∧
    ∀ front back node time timeRun, trace = front ++ (node, .tick time timeRun) :: back → ∀ k,
      (stallSight? k (node, .tick time timeRun) = some (time, true) ↔
        node.abort = none ∧ Stuck front time k) := by
  refine ⟨?_, fun front back node time timeRun hsplit ↦ stallSight?_of_run hrun hsplit⟩
  obtain ⟨hwatched, -⟩ := watched_of_run hrun
  cases habort : b.abort with
  | some reason =>
    rw [b.tick_of_aborted trig fence t tRun (by rw [habort, Option.isSome_some])]
    exact iff_of_false List.not_mem_nil fun ⟨hnone, _⟩ ↦ nomatch hnone
  | none =>
    obtain ⟨checked, hsame, -, hreasons⟩ := tick_wheels trig fence b t tRun habort
    rw [hreasons (.wheelNotMoving left) trivial, checked.wheelNotMoving_mem_checkStall, hsame.stuck?, hsame.stuck?,
      hsame.stallStart, hwatched.stallStart, and_iff_right rfl, hwatched.stuck?_iff]
    refine and_congr_right fun hstuck ↦ and_congr ?_ ?_
    · rw [stuck?_eq_some_false ((hwatched.stuck?_iff t _).mpr hstuck), ne_eq, hwatched.stuck?_iff]
    · constructor
      · rintro ⟨start, hclock, hlong⟩
        obtain ⟨front, entry, back, hsplit, hbegins⟩ := streak_eq_some_iff.mp hclock
        exact ⟨start, front, entry, back, hsplit, hbegins, hlong⟩
      · rintro ⟨start, front, entry, back, hsplit, hbegins, hlong⟩
        exact ⟨start, streak_eq_some_iff.mpr ⟨front, entry, back, hsplit, hbegins⟩, hlong⟩

end trips

/-! ## Runs -/

/-- The joint states of some positions. -/
def wheelsAt (t left right : ℚ) : Event ℚ :=
  .onJs t ["left_wheel_joint", "right_wheel_joint"] [left, right]

/-- The targets of the wheels are set at once, and a second later they are where they were. -/
def targetsRun (left right : ℚ) : List (Event ℚ) :=
  [.onIntroNames 1 (introNames.map ("My_diffbot." ++ ·)),
    .onIntroValues 0 1 [left, 0, 0, 0, right, 0, 0, 0], wheelsAt 0 0 0, wheelsAt 1 0 0]

theorem powerDropout_iff_of_run_both :
    ∃ b trace, (history levelTrig freeFloor).run (.initial none) (targetsRun 100 (-100)) =
        some (b, trace) ∧ b.abort = none ∧ ∀ k, Stuck trace 1.1 k := by
  have htrips : ((history levelTrig freeFloor).run (.initial none) (targetsRun 100 (-100))).map
      (fun result ↦ (result.1.tick levelTrig freeFloor 1.1 1.1).2.2) =
        some [.powerDropout ⟨"?", 1.1, 0, (0, 0), (100, -100), (0, 0)⟩] := by
    decide +kernel
  obtain ⟨⟨b, trace⟩, hrun, htrace⟩ := Option.map_eq_some_iff.mp htrips
  exact ⟨b, trace, hrun, (powerDropout_iff_of_run hrun 1.1 1.1).mp
    ⟨_, htrace ▸ List.mem_singleton_self _⟩⟩

/-- The left wheel is commanded and stays where it is, while the right one may rest. -/
theorem wheelNotMoving_iff_of_run_left :
    ∃ b trace, (history levelTrig freeFloor).run (.initial none)
        (targetsRun 100 0 ++ [.tick 1.1 1.1, wheelsAt 2.5 0 0]) = some (b, trace) ∧
      Stuck trace 2.7 0 ∧ ¬Stuck trace 2.7 1 ∧
        ∃ start front entry back, trace = front ++ entry :: back ∧
          Begins (stallSight? 0) start front entry back ∧ 1.5 < 2.7 - start := by
  have htrips : ((history levelTrig freeFloor).run (.initial none)
      (targetsRun 100 0 ++ [.tick 1.1 1.1, wheelsAt 2.5 0 0])).map
      (fun result ↦ (result.1.tick levelTrig freeFloor 2.7 2.7).2.2) =
        some [.wheelNotMoving true] := by
    decide +kernel
  obtain ⟨⟨b, trace⟩, hrun, htrace⟩ := Option.map_eq_some_iff.mp htrips
  have hblamed := (wheelNotMoving_iff_of_run hrun 2.7 2.7 true).1.mp
    (htrace ▸ List.mem_singleton_self _)
  exact ⟨b, trace, hrun, hblamed.2⟩

end MyDiffbot.Benchmark
