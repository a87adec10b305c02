import MyDiffbot.Benchmark.Primitives

/-!
# Turning

`rotate_by` counts how far the base has turned from yaws that are known modulo a full turn. If less
than half a turn lies between two of its readings, then it counts the true turn, whatever the base
does, and up to its last reading that is what it was told (`rotateBy_counts`). A base that turns as it
is commanded ends both loops: `rotate_to` within its tolerance, and in time (`rotateTo_reaches`), and
`rotate_by` within twice its own, since it commands once more behind its last reading
(`rotateBy_reaches`).
-/

namespace MyDiffbot.Benchmark

open Real Incremental Numeric Planar

/-! ## Wrapped angles -/

theorem two_pi_halves : π + π ≤ 2 * π := (two_mul π).ge

theorem abs_wrap_le (a : ℝ) : |wrap realTrig a| ≤ π := by
  obtain ⟨hlower, hupper⟩ := wrap_mem_Ico a
  exact abs_le.mpr ⟨hlower, hupper.le⟩

/-- An angle between minus a half turn and a half turn is what it wraps to. -/
theorem wrap_eq_of_modEq {a b : ℝ} (hmem : b ∈ Set.Ico (-π) π) (hmod : b ≡ a [PMOD 2 * π]) :
    wrap realTrig a = b := by
  rw [wrap_eq_toIcoMod, toIcoMod_eq_iff]
  obtain ⟨turns, hturns⟩ := AddCommGroup.modEq_iff_zsmul.mp hmod
  refine ⟨⟨hmem.1, ?_⟩, turns, ?_⟩
  · rw [two_mul, neg_add_cancel_left]
    exact hmem.2
  · rw [hturns, add_sub_cancel]

theorem wrap_congr {a b : ℝ} (h : a ≡ b [PMOD 2 * π]) : wrap realTrig a = wrap realTrig b :=
  wrap_eq_of_modEq (wrap_mem_Ico b) ((wrap_modEq b).trans h.symm)

theorem wrap_of_abs_le {a : ℝ} (h : |a| ≤ 1) : wrap realTrig a = a := by
  obtain ⟨hlower, hupper⟩ := abs_le.mp h
  exact wrap_eq_of_modEq ⟨by linarith [two_le_pi], by linarith [two_le_pi]⟩ AddCommGroup.modEq_rfl

theorem wrap_zero : wrap realTrig 0 = 0 := wrap_of_abs_le (by norm_num)

/-! ## Counting -/

/-- The yaws of some samples. -/
def yaws (samples : List (Sample ℝ)) : List ℝ := samples.map fun s ↦ s.ekf.yaw

/-- What `rotate_by` remembers after some readings. -/
structure Counts (yaw : ℝ) (used : List (Sample ℝ)) (m : Turned ℝ) : Prop where
  done : m.done = turned (wrap realTrig) yaw (yaws used)
  last : m.last = (yaws used).getLastD yaw

section step

variable {ang wmax yaw : ℝ} {used : List (Sample ℝ)} {m next : Turned ℝ} {s : Sample ℝ}
  {act : ℝ × ℝ}

/-- What is left to turn, with the reading of a sample counted. -/
noncomputable def leftBy (ang : ℝ) (m : Turned ℝ) (s : Sample ℝ) : ℝ :=
  ang - (m.done + wrap realTrig (s.ekf.yaw - m.last))

theorem rotateBy_step_ok (h : (rotateBy realTrig ang wmax).step m s = .ok (act, next)) :
    0.004 < |ang - m.done| ∧ act = (0, approach 0.25 wmax 2.5 (leftBy ang m s)) ∧
      next = ⟨m.done + wrap realTrig (s.ekf.yaw - m.last), s.ekf.yaw⟩ := by
  dsimp only [rotateBy] at h
  split_ifs at h with hfar
  obtain ⟨-, rfl, rfl⟩ := setAnd_eq_ok.mp h
  exact ⟨hfar, rfl, rfl⟩

theorem rotateBy_step_of_far (hfar : 0.004 < |ang - m.done|) (hgoes : s.aborted = false) :
    (rotateBy realTrig ang wmax).step m s =
      .ok ((0, approach 0.25 wmax 2.5 (leftBy ang m s)),
        ⟨m.done + wrap realTrig (s.ekf.yaw - m.last), s.ekf.yaw⟩) := by
  dsimp only [rotateBy]
  rw [if_neg (not_not.mpr hfar), setAnd, hgoes]
  rfl

theorem rotateBy_step_of_near (hnear : |ang - m.done| ≤ 0.004) :
    (rotateBy realTrig ang wmax).step m s = .error .reached := by
  dsimp only [rotateBy]
  rw [if_pos (not_lt.mpr hnear)]

theorem rotateBy_step_reached (h : (rotateBy realTrig ang wmax).step m s = .error .reached) :
    |ang - m.done| ≤ 0.004 := by
  dsimp only [rotateBy] at h
  split_ifs at h with hfar
  · exact absurd h (setAnd_ne_error (by decide))
  · exact not_lt.mp hfar

theorem Counts.step (h : Counts yaw used m)
    (hstep : (rotateBy realTrig ang wmax).step m s = .ok (act, next)) :
    Counts yaw (used ++ [s]) next := by
  obtain ⟨-, -, rfl⟩ := rotateBy_step_ok hstep
  have happend : yaws (used ++ [s]) = yaws used ++ [s.ekf.yaw] := List.map_append
  constructor
  · rw [happend, turned_append_singleton, ← h.done, ← h.last]
  · rw [happend, List.getLastD_concat]

end step

/-- If less than half a turn lies between two readings, then `rotate_by` ends when the true turn up
to its last reading is what it was told, whatever the base has done. -/
theorem rotateBy_counts {ang wmax yaw start : ℝ} {samples : List (Sample ℝ)} {angles : List ℝ}
    (hyaw : yaw ≡ start [PMOD 2 * π]) (hshows : Shows (2 * π) (yaws samples) angles)
    (hgradual : Gradual π start angles)
    (hreached : ((rotateBy realTrig ang wmax).run ⟨0, yaw⟩ samples).result = some .reached) :
    ∃ used s rest, samples = used ++ s :: rest ∧
      used.length = ((rotateBy realTrig ang wmax).run ⟨0, yaw⟩ samples).acts.length ∧
      |ang - ((angles.take used.length).getLastD start - start)| ≤ 0.004 := by
  cases samples with
  | nil => cases hreached
  | cons s samples =>
    have hstands : Loop.Stands (rotateBy realTrig ang wmax) (fun used m _ ↦ Counts yaw used m)
        (s :: samples) ((rotateBy realTrig ang wmax).run ⟨0, yaw⟩ (s :: samples)) :=
      Loop.run_invariant (fun hbefore hstep _ ↦ hbefore.step hstep) (Loop.driven_true _ _) ⟨rfl, rfl⟩
    obtain ⟨used, s', rest, hsplit, hlength, hcounts, hend⟩ := hstands.of_result hreached
    have hclose := rotateBy_step_reached hend
    have hused : Shows (2 * π) (yaws used) (angles.take used.length) := by
      rw [hsplit, yaws, List.map_append] at hshows
      have htake := List.forall₂_take used.length hshows
      rwa [List.take_append_of_le_length (by simp), List.take_of_length_le (by simp)] at htake
    have htaken : Gradual π start (angles.take used.length) :=
      List.IsChain.take hgradual (used.length + 1)
    refine ⟨used, s', rest, hsplit, hlength, ?_⟩
    rwa [← turned_eq two_pi_halves wrap_modEq abs_wrap_le hyaw hused htaken, ← hcounts.done]

/-- A base that has turned by a radian when it is looked at. -/
noncomputable def radianSamples : List (Sample ℝ) :=
  [⟨0, ⟨0, 0, 1⟩, false⟩, ⟨0.02, ⟨0, 0, 1⟩, false⟩]

theorem rotateBy_counts_radian :
    ∃ used s rest, radianSamples = used ++ s :: rest ∧ used.length = 1 ∧
      |1 - ((([1, 1] : List ℝ).take used.length).getLastD 0 - 0)| ≤ 0.004 := by
  have hgradual : Gradual π 0 [1, 1] := by
    simp only [Gradual, List.isChain_cons_cons, sub_zero, abs_one, sub_self, abs_zero]
    exact ⟨by linarith [two_le_pi], pi_pos, .singleton _⟩
  have hturn : (0 : ℝ) + wrap realTrig (1 - 0) = 1 := by
    rw [sub_zero, zero_add, wrap_of_abs_le abs_one.le]
  have hfirst := @rotateBy_step_of_far 1 1 ⟨0, 0⟩ ⟨0, ⟨0, 0, 1⟩, false⟩ (by norm_num) rfl
  have hsecond := @rotateBy_step_of_near 1 1 ⟨1, 1⟩ ⟨0.02, ⟨0, 0, 1⟩, false⟩ (by norm_num)
  dsimp only at hfirst
  rw [hturn] at hfirst
  have hrun : (rotateBy realTrig 1 1).run ⟨0, 0⟩ radianSamples =
      ⟨[(0, approach 0.25 1 2.5 (leftBy 1 ⟨0, 0⟩ ⟨0, ⟨0, 0, 1⟩, false⟩))], ⟨1, 1⟩,
        some .reached⟩ := by
    rw [radianSamples, Loop.run_of_ok hfirst, Loop.run_of_error hsecond]
  obtain ⟨used, s, rest, hsplit, hlength, hclose⟩ := @rotateBy_counts 1 1 0 0 radianSamples [1, 1]
    AddCommGroup.modEq_rfl (.cons AddCommGroup.modEq_rfl (.cons AddCommGroup.modEq_rfl .nil))
    hgradual (congrArg Loop.Outcome.result hrun)
  rw [hrun] at hlength
  exact ⟨used, s, rest, hsplit, hlength, hclose⟩

/-! ## Counting afterwards -/

namespace Analyze

/-- The rows of a recording, each with its time, in a window of time. -/
def win {K : Type*} [LinearOrder K] (rows : List (K × K)) (t0 t1 : K) : List (K × K) :=
  rows.filter fun row ↦ t0 ≤ row.1 ∧ row.1 ≤ t1

/-- `unwrapped_turn`, given the `unwrap` of `numpy`; it fails on an empty window. -/
def unwrappedTurn {K : Type*} [Field K] [LinearOrder K] (unwrap : List K → List K)
    (rows : List (K × K)) (t0 t1 : K) : Option K :=
  match unwrap ((win rows t0 t1).map Prod.snd) with
  | [] => none
  | first :: later => some (later.getLastD first - first)

/-- What is known of `unwrap`: it changes the angles by full turns, and leaves no step that is longer
than half a turn. -/
structure Unwraps (unwrap : List ℝ → List ℝ) : Prop where
  shows : ∀ readings, Shows (2 * π) (unwrap readings) readings
  short : ∀ readings, (unwrap readings).IsChain fun reading next ↦ |next - reading| ≤ π

/-- If less than half a turn lies between two readings, then the evaluation measures the true turn,
and what `rotate_by` counts on the same readings. -/
theorem unwrappedTurn_eq {unwrap : List ℝ → List ℝ} (hunwrap : Unwraps unwrap)
    {rows : List (ℝ × ℝ)} {t0 t1 reading start : ℝ} {readings angles : List ℝ}
    (hwin : (win rows t0 t1).map Prod.snd = reading :: readings)
    (hshows : Shows (2 * π) (reading :: readings) (start :: angles))
    (hgradual : Gradual π start angles) :
    unwrappedTurn unwrap rows t0 t1 = some (angles.getLastD start - start) ∧
      turned (wrap realTrig) reading readings = angles.getLastD start - start := by
  obtain ⟨hreading, hreadings⟩ := List.forall₂_cons.mp hshows
  refine ⟨?_, turned_eq two_pi_halves wrap_modEq abs_wrap_le hreading hreadings hgradual⟩
  have hout := hunwrap.shows (reading :: readings)
  have hshort := hunwrap.short (reading :: readings)
  rw [unwrappedTurn, hwin]
  cases hresult : unwrap (reading :: readings) with
  | nil =>
    rw [hresult] at hout
    cases hout
  | cons first later =>
    rw [hresult] at hout hshort
    obtain ⟨hfirst, hlater⟩ := List.forall₂_cons.mp hout
    exact congrArg some
      (getLastD_unwrapped two_pi_halves (hfirst.trans hreading) (Shows.trans hlater hreadings)
        hgradual hshort)

/-- Unwrapping reading by reading, from the last one. -/
noncomputable def unwrapFrom : ℝ → List ℝ → List ℝ
  | _, [] => []
  | last, reading :: readings =>
    let next := last + wrap realTrig (reading - last)
    next :: unwrapFrom next readings

noncomputable def unwrapAll : List ℝ → List ℝ
  | [] => []
  | reading :: readings => reading :: unwrapFrom reading readings

theorem unwrapFrom_shows (last : ℝ) (readings : List ℝ) :
    Shows (2 * π) (unwrapFrom last readings) readings := by
  induction readings generalizing last with
  | nil => exact .nil
  | cons reading readings ih =>
    refine .cons ?_ (ih _)
    have hsame := (wrap_modEq (reading - last)).add_left last
    rwa [add_sub_cancel] at hsame

theorem unwrapFrom_short (last : ℝ) (readings : List ℝ) :
    (last :: unwrapFrom last readings).IsChain fun reading next ↦ |next - reading| ≤ π := by
  induction readings generalizing last with
  | nil => exact .singleton _
  | cons reading readings ih =>
    refine List.isChain_cons_cons.mpr ⟨?_, ih _⟩
    rw [add_sub_cancel_left]
    exact abs_wrap_le _

theorem unwraps_unwrapAll : Unwraps unwrapAll where
  shows readings := by
    cases readings with
    | nil => exact .nil
    | cons reading readings => exact .cons AddCommGroup.modEq_rfl (unwrapFrom_shows _ _)
  short readings := by
    cases readings with
    | nil => exact .nil
    | cons reading readings => exact unwrapFrom_short _ _

/-- Two turns of a third of a circle, of which the second is read as one the other way. -/
theorem unwrappedTurn_eq_wrapped :
    unwrappedTurn unwrapAll [(0, 0), (1, 2 * π / 3), (2, -(2 * π / 3)), (9, 0)] 0 2 =
      some (2 * (2 * π / 3)) := by
  have hwin : (win [(0, 0), (1, 2 * π / 3), (2, -(2 * π / 3)), (9, 0)] (0 : ℝ) 2).map Prod.snd =
      [0, 2 * π / 3, -(2 * π / 3)] := by
    norm_num [win, List.filter_cons]
  have hthird : |2 * π / 3| < π := by
    rw [abs_of_pos (by linarith [pi_pos])]
    linarith [pi_pos]
  have hshows : Shows (2 * π) [0, 2 * π / 3, -(2 * π / 3)] [0, 2 * π / 3, 2 * (2 * π / 3)] := by
    refine .cons AddCommGroup.modEq_rfl (.cons AddCommGroup.modEq_rfl (.cons ?_ .nil))
    refine AddCommGroup.modEq_iff_zsmul.mpr ⟨1, ?_⟩
    rw [one_zsmul]
    ring
  have hgradual : Gradual π 0 [2 * π / 3, 2 * (2 * π / 3)] := by
    refine List.isChain_cons_cons.mpr ⟨?_, List.isChain_cons_cons.mpr ⟨?_, .singleton _⟩⟩
    · rwa [sub_zero]
    · rwa [two_mul (2 * π / 3), add_sub_cancel_right]
  have hturn := (unwrappedTurn_eq unwraps_unwrapAll hwin hshows hgradual).1
  rw [hturn, sub_zero]
  rfl

end Analyze

/-! ## Counting with two reads -/

/-- What an iteration of `t_arc` finds: the clock, and the IMU yaw at its two reads. -/
structure ArcSample (K : Type*) where
  clock : K
  read : K
  kept : K
  aborted : Bool

/-- The loop of `t_arc`, until `tEnd` or a quarter radian before a full turn. The yaw that is counted
and the yaw that is remembered are read one after the other. -/
def arc {K : Type*} [Field K] [LinearOrder K] [FloorRing K] (trig : Trig K) (tEnd : K) :
    Loop (Turned K) (ArcSample K) Unit Ending where
  step m s :=
    if ¬s.clock < tEnd then .error .timedOut
    else if ¬m.done < 2.0 * trig.pi - 0.25 then .error .reached
    else if s.aborted then .error .aborted
    else .ok ((), ⟨m.done + wrap trig (s.read - m.last), s.kept⟩)

/-- The true turns of an iteration: up to its first read, and between its reads. -/
structure ArcTurn where
  toRead : ℝ
  lost : ℝ

/-- The reads show an angle that turns by less than half a turn up to each first read. -/
def ArcShows : ℝ → List (ArcSample ℝ) → List ArcTurn → Prop
  | _, [], turns => turns = []
  | _, _ :: _, [] => False
  | angle, s :: samples, turn :: turns =>
    |turn.toRead| < π ∧ s.read ≡ angle + turn.toRead [PMOD 2 * π] ∧
      s.kept ≡ angle + turn.toRead + turn.lost [PMOD 2 * π] ∧
      ArcShows (angle + turn.toRead + turn.lost) samples turns

/-- How far the base has turned, and how much of it `t_arc` does not count. -/
def arcTurned (turns : List ArcTurn) : ℝ := (turns.map fun turn ↦ turn.toRead + turn.lost).sum

def arcLost (turns : List ArcTurn) : ℝ := (turns.map ArcTurn.lost).sum

theorem arc_step_reached {tEnd : ℝ} {m : Turned ℝ} {s : ArcSample ℝ}
    (h : (arc realTrig tEnd).step m s = .error .reached) : 2 * π - 0.25 ≤ m.done := by
  by_contra hbefore
  have hgoes : m.done < 2.0 * realTrig.pi - 0.25 := by
    rw [realTrig_pi]
    linarith
  dsimp only [arc] at h
  rw [if_neg (not_not.mpr hgoes)] at h
  split_ifs at h <;> cases h

theorem arc_step_ok {tEnd : ℝ} {m next : Turned ℝ} {s : ArcSample ℝ}
    (h : (arc realTrig tEnd).step m s = .ok ((), next)) :
    next = ⟨m.done + wrap realTrig (s.read - m.last), s.kept⟩ := by
  dsimp only [arc] at h
  split_ifs at h
  exact (Prod.mk.inj (Except.ok.inj h)).2.symm

/-- `t_arc` loses what the base turns between its two reads, in every iteration. So it goes on for
that much more than a full turn less a quarter radian, if it is not timed out. -/
theorem arc_counts {tEnd angle : ℝ} {m : Turned ℝ} {samples : List (ArcSample ℝ)}
    {turns : List ArcTurn} (hlast : m.last ≡ angle [PMOD 2 * π])
    (hshows : ArcShows angle samples turns)
    (hreached : ((arc realTrig tEnd).run m samples).result = some .reached) :
    ∃ used rest, turns = used ++ rest ∧
      used.length = ((arc realTrig tEnd).run m samples).acts.length ∧
      2 * π - 0.25 + arcLost used ≤ m.done + arcTurned used := by
  induction samples generalizing m angle turns with
  | nil => cases hreached
  | cons s samples ih =>
    cases turns with
    | nil => exact hshows.elim
    | cons turn turns =>
      obtain ⟨hshort, hread, hkept, hlater⟩ := hshows
      cases hstep : (arc realTrig tEnd).step m s with
      | error ending =>
        rw [Loop.run_of_error hstep] at hreached ⊢
        obtain rfl := Option.some.inj hreached
        refine ⟨[], turn :: turns, rfl, rfl, ?_⟩
        simpa [arcTurned, arcLost] using arc_step_reached hstep
      | ok result =>
        obtain ⟨⟨⟩, next⟩ := result
        rw [Loop.run_of_ok hstep] at hreached ⊢
        obtain rfl := arc_step_ok hstep
        have hturn : wrap realTrig (s.read - m.last) = turn.toRead := by
          refine eq_of_modEq two_pi_halves ((wrap_modEq _).trans ?_) (abs_wrap_le _) hshort
          have hsame := hread.sub hlast
          rwa [add_sub_cancel_left] at hsame
        obtain ⟨used, rest, hsplit, hlength, hbound⟩ := ih hkept hlater hreached
        refine ⟨turn :: used, rest, congrArg (turn :: ·) hsplit, congrArg (· + 1) hlength, ?_⟩
        dsimp only at hbound
        rw [hturn] at hbound
        simp only [arcTurned, arcLost, List.map_cons, List.sum_cons] at hbound ⊢
        linarith

/-- Three quarters of a turn are counted, and of what follows only what comes before the first
read. -/
theorem arc_counts_late :
    ∃ used rest, [⟨π / 2, π / 4⟩, ⟨0, 0⟩] = used ++ rest ∧ used.length = 1 ∧
      2 * π - 0.25 + arcLost used ≤ 3 * (π / 2) + arcTurned used := by
  let samples : List (ArcSample ℝ) :=
    [⟨0, π / 2, π / 2 + π / 4, false⟩, ⟨0, π / 2 + π / 4, π / 2 + π / 4, false⟩]
  have hhalf : |π / 2| < π := by
    rw [abs_of_pos (half_pos pi_pos)]
    exact half_lt_self pi_pos
  have hturn : 3 * (π / 2) + wrap realTrig (π / 2 - 0) = 2 * π := by
    rw [sub_zero, wrap_eq_of_modEq ⟨(abs_lt.mp hhalf).1.le, (abs_lt.mp hhalf).2⟩
      AddCommGroup.modEq_rfl]
    ring
  have hfirst : (arc realTrig 1).step ⟨3 * (π / 2), 0⟩ ⟨0, π / 2, π / 2 + π / 4, false⟩ =
      .ok ((), ⟨2 * π, π / 2 + π / 4⟩) := by
    dsimp only [arc]
    rw [if_neg (by norm_num), if_neg, if_neg Bool.false_ne_true, hturn]
    rw [realTrig_pi, not_not]
    linarith [two_le_pi]
  have hsecond : (arc realTrig 1).step ⟨2 * π, π / 2 + π / 4⟩
      ⟨0, π / 2 + π / 4, π / 2 + π / 4, false⟩ = .error .reached := by
    dsimp only [arc]
    rw [if_neg (by norm_num), if_pos]
    rw [realTrig_pi, not_lt]
    linarith
  have hrun : (arc realTrig 1).run ⟨3 * (π / 2), 0⟩ samples =
      ⟨[()], ⟨2 * π, π / 2 + π / 4⟩, some .reached⟩ := by
    rw [Loop.run_of_ok hfirst, Loop.run_of_error hsecond]
  have hshows : ArcShows 0 samples [⟨π / 2, π / 4⟩, ⟨0, 0⟩] := by
    refine ⟨hhalf, ?_, ?_, ?_, ?_, ?_, rfl⟩
    · rw [zero_add]
    · rw [zero_add]
    · rw [abs_zero]
      exact pi_pos
    · rw [zero_add, add_zero]
    · rw [zero_add, add_zero, add_zero]
  obtain ⟨used, rest, hsplit, hlength, hbound⟩ :=
    arc_counts AddCommGroup.modEq_rfl hshows (congrArg Loop.Outcome.result hrun)
  rw [hrun] at hlength
  exact ⟨used, rest, hsplit, hlength, hbound⟩

/-! ## A base that turns as commanded -/

/-- From one sample to the next, within a period, the base turns as it was commanded. -/
def Turns (period : ℝ) (s : Sample ℝ) (command : ℝ × ℝ) (s' : Sample ℝ) : Prop :=
  0 ≤ s'.clock - s.clock ∧ s'.clock - s.clock ≤ period ∧
    wrap realTrig (s'.ekf.yaw - (s.ekf.yaw + command.2 * (s'.clock - s.clock))) = 0

/-- What is left to turn to `yaw`. -/
noncomputable def leftTo (yaw : ℝ) (s : Sample ℝ) : ℝ := wrap realTrig (yaw - s.ekf.yaw)

section turning

variable {wmax period : ℝ} {s s' first : Sample ℝ}

theorem Turns.modEq {command : ℝ × ℝ} (h : Turns period s command s') :
    s'.ekf.yaw ≡ s.ekf.yaw + command.2 * (s'.clock - s.clock) [PMOD 2 * π] := by
  have hzero := wrap_modEq (s'.ekf.yaw - (s.ekf.yaw + command.2 * (s'.clock - s.clock)))
  rw [h.2.2] at hzero
  exact AddCommGroup.sub_modEq_zero.mp hzero.symm

/-- What is left to turn after one iteration: never past half a turn. -/
theorem leftTo_turns {yaw tol : ℝ} (hwmax : 0.25 ≤ wmax) (hperiod : period ≤ 0.4)
    (htol : period < 8 * tol) (hleft : tol ≤ |leftTo yaw s|)
    (hturns : Turns period s (0, approach 0.25 wmax 2.5 (leftTo yaw s)) s') :
    |leftTo yaw s'| ≤ |leftTo yaw s| - 0.25 * (s'.clock - s.clock) ∨ |leftTo yaw s'| < tol := by
  obtain ⟨htime, hshort, -⟩ := id hturns
  obtain ⟨hlower, hupper⟩ := wrap_mem_Ico (yaw - s.ekf.yaw)
  have hmost : |leftTo yaw s| ≤ π := abs_wrap_le _
  have hstep := @abs_sub_approach ℝ _ _ _ 0.25 wmax 2.5 (leftTo yaw s) _ tol (by norm_num)
    (by linarith) htime (by linarith) (by linarith) hleft
  rw [min_eq_left hwmax] at hstep
  set left := leftTo yaw s - approach 0.25 wmax 2.5 (leftTo yaw s) * (s'.clock - s.clock)
    with hdef
  have hmod : left ≡ yaw - s'.ekf.yaw [PMOD 2 * π] := by
    have hsame := ((wrap_modEq (yaw - s.ekf.yaw)).sub_right
      (approach 0.25 wmax 2.5 (leftTo yaw s) * (s'.clock - s.clock)))
    rw [sub_sub] at hsame
    exact hsame.trans (hturns.modEq.symm.sub_left yaw)
  have hmem : left ∈ Set.Ico (-π) π := by
    have hwithin : |left| ≤ π := by
      rcases hstep with hless | hnear <;> linarith
    refine ⟨(abs_le.mp hwithin).1, lt_of_not_ge fun hhalf ↦ ?_⟩
    -- Only what is half a turn to the other side could be left, and no time has passed then.
    have hfull := hhalf.trans (le_abs_self left)
    rcases hstep with hless | hnear
    · have hzero : s'.clock - s.clock = 0 := by linarith
      rw [hzero, mul_zero, sub_zero] at hdef
      rw [hdef] at hhalf
      exact absurd hupper (not_lt.mpr hhalf)
    · linarith
  have hnext : leftTo yaw s' = left := wrap_eq_of_modEq hmem hmod
  rwa [hnext]

section rotateTo

variable {yaw tol tEnd : ℝ} {samples : List (Sample ℝ)}

theorem rotateTo_step_ok {act : ℝ × ℝ} {next : Unit}
    (h : (rotateTo realTrig yaw wmax tol tEnd).step () s = .ok (act, next)) :
    s.clock < tEnd ∧ tol ≤ |leftTo yaw s| ∧ act = (0, approach 0.25 wmax 2.5 (leftTo yaw s)) := by
  dsimp only [rotateTo] at h
  split_ifs at h with hclock hnear
  obtain ⟨-, rfl, -⟩ := setAnd_eq_ok.mp h
  exact ⟨hclock, not_lt.mp hnear, rfl⟩

theorem rotateTo_step_of_far (hclock : s.clock < tEnd) (hleft : tol ≤ |leftTo yaw s|)
    (hgoes : s.aborted = false) :
    (rotateTo realTrig yaw wmax tol tEnd).step () s =
      .ok ((0, approach 0.25 wmax 2.5 (leftTo yaw s)), ()) := by
  rw [leftTo] at hleft
  dsimp only [rotateTo]
  rw [if_neg (not_not.mpr hclock), if_neg (not_lt.mpr hleft), setAnd, hgoes]
  rfl

theorem rotateTo_step_of_near (hclock : s.clock < tEnd) (hleft : |leftTo yaw s| < tol) :
    (rotateTo realTrig yaw wmax tol tEnd).step () s = .error .reached := by
  rw [leftTo] at hleft
  dsimp only [rotateTo]
  rw [if_neg (not_not.mpr hclock), if_pos hleft]

theorem rotateTo_step_error {ending : Ending}
    (h : (rotateTo realTrig yaw wmax tol tEnd).step () s = .error ending) :
    (ending = .timedOut ∧ tEnd ≤ s.clock) ∨ (ending = .reached ∧ |leftTo yaw s| < tol) ∨
      ending = .aborted := by
  dsimp only [rotateTo] at h
  split_ifs at h with hclock hnear
  · exact .inr (.inl ⟨(Except.error.inj h).symm, hnear⟩)
  · exact .inr (.inr (by_contra fun hother ↦ setAnd_ne_error hother h))
  · exact .inl ⟨(Except.error.inj h).symm, not_lt.mp hclock⟩

/-- A `rotate_to` that ends has found the yaw within its tolerance. -/
theorem rotateTo_reached
    (hreached : ((rotateTo realTrig yaw wmax tol tEnd).run () samples).result = some .reached) :
    ∃ used s rest, samples = used ++ s :: rest ∧
      used.length = ((rotateTo realTrig yaw wmax tol tEnd).run () samples).acts.length ∧
      |leftTo yaw s| < tol := by
  cases samples with
  | nil => cases hreached
  | cons first samples =>
    have hstands : Loop.Stands (rotateTo realTrig yaw wmax tol tEnd) (fun _ _ _ ↦ True)
        (first :: samples) ((rotateTo realTrig yaw wmax tol tEnd).run () (first :: samples)) :=
      Loop.run_invariant (fun _ _ _ ↦ trivial) (Loop.driven_true _ _) trivial
    obtain ⟨used, s, rest, hsplit, hlength, -, hend⟩ := hstands.of_result hreached
    obtain ⟨⟨⟩, -⟩ | ⟨-, hnear⟩ | ⟨⟨⟩⟩ := rotateTo_step_error hend
    exact ⟨used, s, rest, hsplit, hlength, hnear⟩

/-- At each iteration the time that has passed is paid for by what was turned. -/
theorem rotateTo_stands (hwmax : 0.25 ≤ wmax) (hperiod : period ≤ 0.4) (htol : period < 8 * tol)
    (hturns : (rotateTo realTrig yaw wmax tol tEnd).Driven (Turns period) () (first :: samples)) :
    Loop.Stands (rotateTo realTrig yaw wmax tol tEnd) (fun _ _ s ↦
        s.clock + 4 * |leftTo yaw s| ≤ first.clock + 4 * |leftTo yaw first| ∨
          |leftTo yaw s| < tol ∧ s.clock ≤ first.clock + 4 * |leftTo yaw first| + period)
      (first :: samples) ((rotateTo realTrig yaw wmax tol tEnd).run () (first :: samples)) := by
  refine Loop.run_invariant (fun {_ _ s act _ s'} hbefore hstep hanswer ↦ ?_) hturns (.inl le_rfl)
  obtain ⟨-, hleft, rfl⟩ := rotateTo_step_ok hstep
  rcases hbefore with hpaid | ⟨hnear, -⟩
  · obtain ⟨htime, hshort, -⟩ := id hanswer
    rcases leftTo_turns hwmax hperiod htol hleft hanswer with hless | hreach
    · exact .inl (by linarith)
    · have hnonneg := abs_nonneg (leftTo yaw s)
      exact .inr ⟨hreach, by linarith⟩
  · exact absurd hnear (not_lt.mpr hleft)

/-- A `rotate_to` that is not aborted ends within its tolerance, after at most what the turn takes at
the lowest speed, and never times out. -/
theorem rotateTo_reaches (hwmax : 0.25 ≤ wmax) (hpositive : 0 ≤ period) (hperiod : period ≤ 0.4)
    (htol : period < 8 * tol) (hclock : first.clock + 17 ≤ tEnd)
    (hturns : (rotateTo realTrig yaw wmax tol tEnd).Driven (Turns period) () (first :: samples)) :
    ((rotateTo realTrig yaw wmax tol tEnd).run () (first :: samples)).result ≠ some .timedOut ∧
    (((rotateTo realTrig yaw wmax tol tEnd).run () (first :: samples)).result = some .reached →
      ∃ used s rest, first :: samples = used ++ s :: rest ∧
        used.length =
          ((rotateTo realTrig yaw wmax tol tEnd).run () (first :: samples)).acts.length ∧
        |leftTo yaw s| < tol ∧ s.clock ≤ first.clock + 4 * |leftTo yaw first| + period) ∧
    (((rotateTo realTrig yaw wmax tol tEnd).run () (first :: samples)).result = none →
      ∃ used s, first :: samples = used ++ [s] ∧
        s.clock + 4 * |leftTo yaw s| ≤ first.clock + 4 * |leftTo yaw first|) := by
  have hstands := rotateTo_stands hwmax hperiod htol hturns
  have hpassed : ∀ s : Sample ℝ, s.clock + 4 * |leftTo yaw s| ≤
      first.clock + 4 * |leftTo yaw first| ∨ |leftTo yaw s| < tol ∧
        s.clock ≤ first.clock + 4 * |leftTo yaw first| + period →
      s.clock ≤ first.clock + 4 * |leftTo yaw first| + period := by
    rintro s (hpaid | ⟨-, hlate⟩)
    · have hnonneg := abs_nonneg (leftTo yaw s)
      linarith
    · exact hlate
  refine ⟨fun hresult ↦ ?_, fun hresult ↦ ?_, fun hresult ↦ ?_⟩
  · obtain ⟨_, s, _, -, -, hholds, hend⟩ := hstands.of_result hresult
    obtain ⟨-, hlate⟩ | ⟨⟨⟩, -⟩ | ⟨⟨⟩⟩ := rotateTo_step_error hend
    have hmost : |leftTo yaw first| ≤ π := abs_wrap_le _
    linarith [hpassed s hholds, pi_le_four]
  · obtain ⟨used, s, rest, hsplit, hlength, hholds, hend⟩ := hstands.of_result hresult
    obtain ⟨⟨⟩, -⟩ | ⟨-, hnear⟩ | ⟨⟨⟩⟩ := rotateTo_step_error hend
    exact ⟨used, s, rest, hsplit, hlength, hnear, hpassed s hholds⟩
  · obtain ⟨used, s, _, act, hsplit, hholds, hstep⟩ := hstands.of_running hresult
    obtain ⟨-, hleft, -⟩ := rotateTo_step_ok hstep
    exact ⟨used, s, hsplit, hholds.resolve_right fun h ↦ absurd h.1 (not_lt.mpr hleft)⟩

end rotateTo

/-- A turn by a little more than the tolerance, in two looks and a third. -/
noncomputable def smallTurn : List (Sample ℝ) :=
  [⟨0, ⟨0, 0, 0⟩, false⟩, ⟨0.02, ⟨0, 0, 0.005⟩, false⟩, ⟨0.04, ⟨0, 0, 0.01⟩, false⟩]

theorem approach_small : approach 0.25 1 2.5 (0.005 : ℝ) = 0.25 := by
  norm_num [approach, copysign]

theorem rotateTo_reaches_small :
    ∃ used s rest, smallTurn = used ++ s :: rest ∧ used.length = 1 ∧ |leftTo 0.005 s| < 0.004 ∧
      s.clock ≤ 0 + 4 * |leftTo 0.005 ⟨0, ⟨0, 0, 0⟩, false⟩| + 0.03 := by
  have hleft : leftTo 0.005 ⟨0, ⟨0, 0, 0⟩, false⟩ = 0.005 := by
    rw [leftTo, sub_zero, wrap_of_abs_le (by norm_num [abs_of_pos])]
  have hnone : leftTo 0.005 ⟨0.02, ⟨0, 0, 0.005⟩, false⟩ = 0 := by
    rw [leftTo, sub_self, wrap_zero]
  have hfirst := @rotateTo_step_of_far 1 ⟨0, ⟨0, 0, 0⟩, false⟩ 0.005 0.004 20 (by norm_num)
    (by rw [hleft]; norm_num [abs_of_pos]) rfl
  have hsecond := @rotateTo_step_of_near 1 ⟨0.02, ⟨0, 0, 0.005⟩, false⟩ 0.005 0.004 20 (by norm_num)
    (by rw [hnone]; norm_num)
  rw [hleft, approach_small] at hfirst
  have hturns : (rotateTo realTrig 0.005 1 0.004 20).Driven (Turns 0.03) () smallTurn := by
    refine (Loop.driven_of_ok hfirst).mpr ⟨?_, Loop.driven_of_error hsecond⟩
    rintro _ ⟨⟩
    exact ⟨by norm_num, by norm_num, by norm_num [wrap_zero]⟩
  have hrun : (rotateTo realTrig 0.005 1 0.004 20).run () smallTurn =
      ⟨[(0, 0.25)], (), some .reached⟩ := by
    rw [smallTurn, Loop.run_of_ok hfirst, Loop.run_of_error hsecond]
  obtain ⟨used, s, rest, hsplit, hlength, hends⟩ := (rotateTo_reaches (by norm_num) (by norm_num)
    (by norm_num) (by norm_num) (by norm_num) hturns).2.1 (congrArg Loop.Outcome.result hrun)
  exact ⟨used, s, rest, hsplit, hlength.trans (congrArg (fun outcome ↦ outcome.acts.length) hrun),
    hends⟩

section rotateBy

variable {ang : ℝ} {samples : List (Sample ℝ)} {m : Turned ℝ}

/-- What is left to turn after one iteration of `rotate_by`. -/
theorem leftBy_turns (hwmax : 0 ≤ wmax) (hfast : wmax * period ≤ 1)
    (hturns : Turns period s (0, approach 0.25 wmax 2.5 (leftBy ang m s)) s') :
    leftBy ang ⟨m.done + wrap realTrig (s.ekf.yaw - m.last), s.ekf.yaw⟩ s' =
      leftBy ang m s - approach 0.25 wmax 2.5 (leftBy ang m s) * (s'.clock - s.clock) := by
  obtain ⟨htime, hshort, -⟩ := id hturns
  set speed := approach 0.25 wmax 2.5 (leftBy ang m s) with hspeed
  have hmost : |speed * (s'.clock - s.clock)| ≤ 1 := by
    rw [abs_mul, abs_of_nonneg htime]
    exact (mul_le_mul (abs_approach_le (by norm_num) hwmax) hshort htime hwmax).trans hfast
  have hmem : speed * (s'.clock - s.clock) ∈ Set.Ico (-π) π := by
    obtain ⟨hlower, hupper⟩ := abs_le.mp hmost
    exact ⟨by linarith [two_le_pi], by linarith [two_le_pi]⟩
  have hmod : speed * (s'.clock - s.clock) ≡ s'.ekf.yaw - s.ekf.yaw [PMOD 2 * π] := by
    have hsame := hturns.modEq.symm.sub_right s.ekf.yaw
    rwa [add_sub_cancel_left] at hsame
  have hturn : wrap realTrig (s'.ekf.yaw - s.ekf.yaw) = speed * (s'.clock - s.clock) :=
    wrap_eq_of_modEq hmem hmod
  rw [leftBy, hturn, leftBy]
  ring

/-- What `rotate_by` has turned and what time it has taken by some iteration. -/
structure Pays (first : Sample ℝ) (ang period : ℝ) (used : List (Sample ℝ)) (m : Turned ℝ)
    (s : Sample ℝ) : Prop where
  counts : Counts first.ekf.yaw used m
  /-- At most the lowest speed for a period is not in the memory. -/
  uncounted : |leftBy ang m s| ≤ max |ang - m.done| (0.25 * period)
  paid : s.clock + 4 * |leftBy ang m s| ≤ first.clock + 4 * |ang| ∨
    (|leftBy ang m s| < 0.004 ∧ s.clock ≤ first.clock + 4 * |ang| + period) ∨
      (|ang - m.done| ≤ 0.004 ∧ s.clock ≤ first.clock + 4 * |ang| + 2 * period)

theorem Pays.step {used : List (Sample ℝ)} {next : Turned ℝ} {act : ℝ × ℝ} (hwmax : 0.25 ≤ wmax)
    (hfast : wmax * period ≤ 1) (hpositive : 0 ≤ period) (hperiod : period < 0.032)
    (h : Pays first ang period used m s)
    (hstep : (rotateBy realTrig ang wmax).step m s = .ok (act, next))
    (hanswer : Turns period s act s') : Pays first ang period (used ++ [s]) next s' := by
  have hcounts := h.counts.step hstep
  obtain ⟨hfar, rfl, rfl⟩ := rotateBy_step_ok hstep
  obtain ⟨htime, hshort, -⟩ := id hanswer
  have hleft := leftBy_turns (by linarith) hfast hanswer
  have hdone : ang - (m.done + wrap realTrig (s.ekf.yaw - m.last)) = leftBy ang m s := rfl
  have hnonneg := abs_nonneg (leftBy ang m s)
  refine ⟨hcounts, ?_, ?_⟩
  · rw [hleft, hdone]
    have hbound := @abs_sub_approach_le_max ℝ _ _ _ 0.25 wmax 2.5 (leftBy ang m s) _ (by norm_num)
      (by linarith) htime (by linarith)
    exact hbound.trans (max_le_max le_rfl (by linarith))
  · rw [hleft, hdone]
    rcases h.paid with hpaid | ⟨hnear, hlate⟩ | ⟨hend, -⟩
    · by_cases hnear : 0.004 ≤ |leftBy ang m s|
      · have hless := @abs_sub_approach ℝ _ _ _ 0.25 wmax 2.5 (leftBy ang m s) _ 0.004
          (by norm_num) (by linarith) htime (by linarith) (by linarith) hnear
        rw [min_eq_left hwmax] at hless
        rcases hless with hless | hreach
        · exact .inl (by linarith)
        · exact .inr (.inl ⟨hreach, by linarith⟩)
      · exact .inr (.inr ⟨(not_le.mp hnear).le, by linarith⟩)
    · exact .inr (.inr ⟨hnear.le, by linarith⟩)
    · exact absurd hfar (not_lt.mpr hend)

/-- A `rotate_by` that is not aborted ends within twice its tolerance, after at most what the turn
takes at the lowest speed. The yaw is that behind the last command, which the loop has not read. -/
theorem rotateBy_reaches (hwmax : 0.25 ≤ wmax) (hfast : wmax * period ≤ 1)
    (hpositive : 0 ≤ period) (hperiod : period < 0.032)
    (hturns : (rotateBy realTrig ang wmax).Driven (Turns period) ⟨0, first.ekf.yaw⟩
      (first :: samples)) :
    (((rotateBy realTrig ang wmax).run ⟨0, first.ekf.yaw⟩ (first :: samples)).result =
        some .reached →
      ∃ used s rest, first :: samples = used ++ s :: rest ∧
        used.length =
          ((rotateBy realTrig ang wmax).run ⟨0, first.ekf.yaw⟩ (first :: samples)).acts.length ∧
        |ang - turned (wrap realTrig) first.ekf.yaw (yaws (used ++ [s]))| ≤ 0.008 ∧
        s.clock ≤ first.clock + 4 * |ang| + 2 * period) ∧
    (((rotateBy realTrig ang wmax).run ⟨0, first.ekf.yaw⟩ (first :: samples)).result = none →
      ∃ used s, first :: samples = used ++ [s] ∧
        s.clock ≤ first.clock + 4 * |ang| + period) := by
  have hstart : Pays first ang period [] ⟨0, first.ekf.yaw⟩ first := by
    have hleft : leftBy ang ⟨0, first.ekf.yaw⟩ first = ang := by
      rw [leftBy, sub_self, wrap_zero, zero_add, sub_zero]
    refine ⟨⟨rfl, rfl⟩, ?_, .inl ?_⟩
    · rw [hleft, sub_zero]
      exact le_max_left _ _
    · rw [hleft]
  have hstands := Loop.run_invariant
    (fun hbefore hstep hanswer ↦ hbefore.step hwmax hfast hpositive hperiod hstep hanswer)
    hturns hstart
  refine ⟨fun hresult ↦ ?_, fun hresult ↦ ?_⟩
  · obtain ⟨used, s, rest, hsplit, hlength, hpays, hend⟩ := hstands.of_result hresult
    set m := ((rotateBy realTrig ang wmax).run ⟨0, first.ekf.yaw⟩ (first :: samples)).memory
    have hclose := rotateBy_step_reached hend
    have hturned : ang - turned (wrap realTrig) first.ekf.yaw (yaws (used ++ [s])) =
        leftBy ang m s := by
      have happend : yaws (used ++ [s]) = yaws used ++ [s.ekf.yaw] := List.map_append
      rw [happend, turned_append_singleton, ← hpays.counts.done, ← hpays.counts.last, leftBy]
    have hnonneg := abs_nonneg (leftBy ang m s)
    refine ⟨used, s, rest, hsplit, hlength, ?_, ?_⟩
    · rw [hturned]
      exact hpays.uncounted.trans (max_le (by linarith) (by linarith))
    · rcases hpays.paid with hpaid | ⟨-, hlate⟩ | ⟨-, hlate⟩ <;> linarith
  · obtain ⟨used, s, m, _, hsplit, hpays, hstep⟩ := hstands.of_running hresult
    obtain ⟨hfar, -⟩ := rotateBy_step_ok hstep
    have hnonneg := abs_nonneg (leftBy ang m s)
    refine ⟨used, s, hsplit, ?_⟩
    rcases hpays.paid with hpaid | ⟨-, hlate⟩ | ⟨hend, -⟩
    · linarith
    · exact hlate
    · exact absurd hfar (not_lt.mpr hend)

end rotateBy

theorem rotateBy_reaches_small :
    ∃ used s rest, smallTurn = used ++ s :: rest ∧ used.length = 2 ∧
      |0.005 - turned (wrap realTrig) 0 (yaws (used ++ [s]))| ≤ 0.008 ∧
      s.clock ≤ 0 + 4 * |(0.005 : ℝ)| + 2 * 0.03 := by
  have hcounted : (0 : ℝ) + wrap realTrig (0 - 0) = 0 := by rw [sub_zero, wrap_zero, zero_add]
  have hcounts : (0 : ℝ) + wrap realTrig (0.005 - 0) = 0.005 := by
    rw [sub_zero, zero_add, wrap_of_abs_le (by norm_num [abs_of_pos])]
  have hfirst := @rotateBy_step_of_far 0.005 1 ⟨0, 0⟩ ⟨0, ⟨0, 0, 0⟩, false⟩
    (by norm_num [abs_of_pos]) rfl
  have hsecond := @rotateBy_step_of_far 0.005 1 ⟨0, 0⟩ ⟨0.02, ⟨0, 0, 0.005⟩, false⟩
    (by norm_num [abs_of_pos]) rfl
  have hthird := @rotateBy_step_of_near 0.005 1 ⟨0.005, 0.005⟩ ⟨0.04, ⟨0, 0, 0.01⟩, false⟩
    (by norm_num)
  dsimp only [leftBy] at hfirst hsecond
  rw [hcounted, sub_zero, approach_small] at hfirst
  rw [hcounts, sub_self] at hsecond
  have hlowest : approach 0.25 1 2.5 (0 : ℝ) = 0.25 := by norm_num [approach, copysign]
  rw [hlowest] at hsecond
  have hturns : (rotateBy realTrig 0.005 1).Driven (Turns 0.03) ⟨0, 0⟩ smallTurn := by
    refine (Loop.driven_of_ok hfirst).mpr ⟨?_, (Loop.driven_of_ok hsecond).mpr ⟨?_,
      Loop.driven_of_error hthird⟩⟩
    · rintro _ ⟨⟩
      exact ⟨by norm_num, by norm_num, by norm_num [wrap_zero]⟩
    · rintro _ ⟨⟩
      exact ⟨by norm_num, by norm_num, by norm_num [wrap_zero]⟩
  have hrun : (rotateBy realTrig 0.005 1).run ⟨0, 0⟩ smallTurn =
      ⟨[(0, 0.25), (0, 0.25)], ⟨0.005, 0.005⟩, some .reached⟩ := by
    rw [smallTurn, Loop.run_of_ok hfirst, Loop.run_of_ok hsecond, Loop.run_of_error hthird]
  obtain ⟨used, s, rest, hsplit, hlength, hends⟩ := (rotateBy_reaches (by norm_num) (by norm_num)
    (by norm_num) (by norm_num) hturns).1 (congrArg Loop.Outcome.result hrun)
  exact ⟨used, s, rest, hsplit, hlength.trans (congrArg (fun outcome ↦ outcome.acts.length) hrun),
    hends⟩

end turning

end MyDiffbot.Benchmark
