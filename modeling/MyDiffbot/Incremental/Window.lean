import Mathlib.Data.List.Basic
import Mathlib.Data.List.Induction
import Mathlib.Algebra.Order.Ring.Rat
import Mathlib.Tactic.Linarith
import Mathlib.Tactic.Ring
import Mathlib.Tactic.SplitIfs

/-!
# Windows over a stream of stamped frames

An observer looks at a stream now and then. It measures over windows, each from an anchor to the
first frame behind it that is far enough away; a frame that is too far away, or lies before the
anchor, becomes the anchor itself. A look without a new frame long after the last one is stale and
drops the anchor. Whatever is measured after a gap then depends on the frames seen after it only
(`watch_of_stale`).
-/

namespace MyDiffbot.Incremental

variable {φ : Type*}

/-- A look at the stream: the clock, and the latest frame if one is new. -/
structure Look (φ : Type*) where
  now : ℚ
  frame? : Option φ
  deriving DecidableEq

/-- The last look that saw a new frame, or the first one of all. -/
def lastSighting (looks : List (Look φ)) : Option (Look φ) :=
  (looks.filter fun look ↦ look.frame?.isSome).getLast?.or looks.head?

/-- The distances of a window, and the age at which a stream is stale. -/
structure Limits (φ : Type*) where
  stamp : φ → ℚ
  shortest : ℚ
  longest : ℚ
  timeout : ℚ

/-- The anchor of the open window, and the closed windows. -/
structure Progress (φ : Type*) where
  anchor : Option φ
  windows : List (φ × φ)

namespace Limits

variable (limits : Limits φ)

/-- A look without a new frame, too long after the last sighting. -/
def Stale (front : List (Look φ)) (look : Look φ) : Prop :=
  look.frame? = none ∧ ∃ last ∈ lastSighting front, limits.timeout < look.now - last.now

/-- A frame closes the window behind the anchor. -/
def Closes (anchor frame : φ) : Prop :=
  limits.shortest ≤ limits.stamp frame - limits.stamp anchor ∧
    limits.stamp frame - limits.stamp anchor ≤ limits.longest

instance (anchor frame : φ) : Decidable (limits.Closes anchor frame) :=
  inferInstanceAs (Decidable (_ ∧ _))

/-- A frame lies before the anchor or too far behind it. -/
def Restarts (anchor frame : φ) : Prop :=
  limits.stamp frame - limits.stamp anchor < 0 ∨
    limits.longest < limits.stamp frame - limits.stamp anchor

instance (anchor frame : φ) : Decidable (limits.Restarts anchor frame) :=
  inferInstanceAs (Decidable (_ ∨ _))

/-- One more frame. -/
def advance (progress : Progress φ) (frame : φ) : Progress φ :=
  match progress.anchor with
  | none => ⟨some frame, progress.windows⟩
  | some anchor =>
    if limits.Closes anchor frame then ⟨some frame, progress.windows ++ [(anchor, frame)]⟩
    else if limits.Restarts anchor frame then ⟨some frame, progress.windows⟩
    else progress

/-- The progress that some frames make without an anchor before them. -/
def resumed (frames : List φ) : Progress φ := frames.foldl limits.advance ⟨none, []⟩

/-- One more look, given the time of the last sighting. -/
def look (state : Option ℚ × Progress φ) (look : Look φ) : Option ℚ × Progress φ :=
  match look.frame?, state with
  | some frame, (_, progress) => (some look.now, limits.advance progress frame)
  | none, (none, progress) => (some look.now, progress)
  | none, (some last, progress) =>
    (some last, if limits.timeout < look.now - last then ⟨none, []⟩ else progress)

/-- The time of the last sighting and the progress after some looks. -/
def watch (start : Progress φ) (looks : List (Look φ)) : Option ℚ × Progress φ :=
  looks.foldl limits.look (none, start)

end Limits

/-! ## One more frame -/

section advance

variable {limits : Limits φ} {anchor frame : φ} {windows : List (φ × φ)}

theorem Limits.Closes.not_restarts (h : limits.Closes anchor frame)
    (hshortest : 0 ≤ limits.shortest) : ¬limits.Restarts anchor frame :=
  not_or.mpr ⟨not_lt.mpr (hshortest.trans h.1), not_lt.mpr h.2⟩

theorem Limits.advance_of_closes (h : limits.Closes anchor frame) :
    limits.advance ⟨some anchor, windows⟩ frame = ⟨some frame, windows ++ [(anchor, frame)]⟩ :=
  if_pos h

theorem Limits.advance_of_restarts (hopen : ¬limits.Closes anchor frame)
    (h : limits.Restarts anchor frame) :
    limits.advance ⟨some anchor, windows⟩ frame = ⟨some frame, windows⟩ :=
  (if_neg hopen).trans (if_pos h)

theorem Limits.advance_of_between (hopen : ¬limits.Closes anchor frame)
    (h : ¬limits.Restarts anchor frame) :
    limits.advance ⟨some anchor, windows⟩ frame = ⟨some anchor, windows⟩ :=
  (if_neg hopen).trans (if_neg h)

end advance

/-! ## Sightings -/

theorem lastSighting_append_singleton (looks : List (Look φ)) (look : Look φ) :
    lastSighting (looks ++ [look]) =
      if look.frame?.isSome then some look else (lastSighting looks).or (some look) := by
  unfold lastSighting
  rw [List.filter_append, List.getLast?_append, List.head?_append, List.filter_singleton]
  cases look.frame?.isSome with
  | true => rfl
  | false =>
    cases (looks.filter fun look ↦ look.frame?.isSome).getLast? <;> rfl

namespace Limits

variable {limits : Limits φ} {start : Progress φ}

theorem watch_append_singleton (looks : List (Look φ)) (look : Look φ) :
    limits.watch start (looks ++ [look]) = limits.look (limits.watch start looks) look := by
  unfold watch
  rw [List.foldl_append]
  rfl

theorem isSome_look_fst (state : Option ℚ × Progress φ) (look : Look φ) :
    (limits.look state look).1.isSome = true := by
  obtain ⟨sighting, progress⟩ := state
  unfold Limits.look
  cases look.frame? with
  | some frame => rfl
  | none => cases sighting <;> rfl

theorem watch_fst (looks : List (Look φ)) :
    (limits.watch start looks).1 = (lastSighting looks).map Look.now := by
  induction looks using List.reverseRecOn with
  | nil => rfl
  | append_singleton looks look ih =>
    rw [watch_append_singleton, lastSighting_append_singleton]
    unfold Limits.look
    cases hframe : look.frame? with
    | some frame => rfl
    | none =>
      generalize limits.watch start looks = state at ih
      obtain ⟨sighting, progress⟩ := state
      obtain rfl : sighting = _ := ih
      cases lastSighting looks <;> rfl

/-- A stale look drops everything. -/
theorem watch_snd_of_stale {front : List (Look φ)} {look : Look φ} (h : limits.Stale front look) :
    (limits.watch start (front ++ [look])).2 = ⟨none, []⟩ := by
  obtain ⟨hframe, last, hlast, htimeout⟩ := h
  have hsighting : (limits.watch start front).1 = _ := watch_fst front
  rw [Option.mem_def.mp hlast] at hsighting
  rw [watch_append_singleton]
  generalize limits.watch start front = state at hsighting
  obtain ⟨sighting, progress⟩ := state
  obtain rfl : sighting = some last.now := hsighting
  unfold Limits.look
  rw [hframe]
  exact if_pos htimeout

/-- Any other look makes progress with the frame it sees. -/
theorem watch_snd_of_not_stale {front : List (Look φ)} {look : Look φ}
    (h : ¬limits.Stale front look) :
    (limits.watch start (front ++ [look])).2 =
      look.frame?.toList.foldl limits.advance (limits.watch start front).2 := by
  have hsighting : (limits.watch start front).1 = _ := watch_fst front
  rw [watch_append_singleton]
  generalize limits.watch start front = state at hsighting
  obtain ⟨sighting, progress⟩ := state
  obtain rfl : sighting = _ := hsighting
  unfold Limits.look
  cases hframe : look.frame? with
  | some frame => rfl
  | none =>
    cases hlast : lastSighting front with
    | none => rfl
    | some last => exact if_neg fun htimeout ↦ h ⟨hframe, last, hlast, htimeout⟩

theorem watch_snd_append {front later : List (Look φ)}
    (h : ∀ mid look rest, later = mid ++ look :: rest → ¬limits.Stale (front ++ mid) look) :
    (limits.watch start (front ++ later)).2 =
      (later.filterMap Look.frame?).foldl limits.advance (limits.watch start front).2 := by
  induction later using List.reverseRecOn with
  | nil => rw [List.append_nil]; rfl
  | append_singleton later look ih =>
    have hlater : ∀ mid look rest, later = mid ++ look :: rest →
        ¬limits.Stale (front ++ mid) look := by
      intro mid earlier rest hsplit
      refine h mid earlier (rest ++ [look]) ?_
      rw [hsplit, List.append_assoc]
      rfl
    rw [← List.append_assoc, watch_snd_of_not_stale (h later look [] rfl), ih hlater,
      List.filterMap_append, List.foldl_append]
    cases hframe : look.frame? <;> simp [hframe]

/-- After a gap the progress is that of the frames seen since. -/
theorem watch_of_stale {front later : List (Look φ)} {look : Look φ}
    (hstale : limits.Stale front look)
    (hlater : ∀ mid next rest, later = mid ++ next :: rest →
      ¬limits.Stale (front ++ look :: mid) next) :
    (limits.watch start (front ++ look :: later)).2 =
      limits.resumed (later.filterMap Look.frame?) := by
  have hsplit : front ++ look :: later = (front ++ [look]) ++ later := by simp
  rw [hsplit, watch_snd_append, watch_snd_of_stale hstale]
  · rfl
  · intro mid next rest hmid
    have hnext := hlater mid next rest hmid
    simpa using hnext

/-! ## Closed windows -/

theorem windows_advance (progress : Progress φ) (frame : φ) :
    (limits.advance progress frame).windows = progress.windows ++
      (progress.anchor.filter fun anchor ↦ limits.Closes anchor frame).toList.map (·, frame) := by
  unfold advance
  cases progress.anchor with
  | none => simp
  | some anchor =>
    dsimp only
    split_ifs with hcloses hrestarts <;> simp [Option.filter, hcloses]

theorem anchor_advance (progress : Progress φ) (frame : φ) :
    (limits.advance progress frame).anchor = some frame ∨
      (limits.advance progress frame).anchor = progress.anchor := by
  unfold advance
  cases hanchor : progress.anchor with
  | none => exact .inl rfl
  | some anchor =>
    dsimp only
    split_ifs
    · exact .inl rfl
    · exact .inl rfl
    · exact .inr hanchor

/-- The ends of every closed window are frames that were seen, and one closes the window behind the
other. -/
theorem mem_of_mem_windows {frames : List φ} :
    (∀ anchor ∈ (limits.resumed frames).anchor, anchor ∈ frames) ∧
      ∀ window ∈ (limits.resumed frames).windows,
        window.1 ∈ frames ∧ window.2 ∈ frames ∧ limits.Closes window.1 window.2 := by
  induction frames using List.reverseRecOn with
  | nil => exact ⟨fun _ hmem ↦ (by cases hmem), fun _ hmem ↦ absurd hmem List.not_mem_nil⟩
  | append_singleton frames frame ih =>
    obtain ⟨hanchor, hwindows⟩ := ih
    have hstep : limits.resumed (frames ++ [frame]) =
        limits.advance (limits.resumed frames) frame := List.foldl_append
    rw [hstep]
    refine ⟨fun anchor hmem ↦ ?_, fun window hmem ↦ ?_⟩
    · rcases anchor_advance (limits.resumed frames) frame with hnew | hold
      · rw [hnew] at hmem
        simp [Option.mem_some.mp hmem]
      · rw [hold] at hmem
        exact List.mem_append_left _ (hanchor anchor hmem)
    · rw [windows_advance] at hmem
      rcases List.mem_append.mp hmem with hmem | hmem
      · obtain ⟨hfirst, hsecond, hcloses⟩ := hwindows window hmem
        exact ⟨List.mem_append_left _ hfirst, List.mem_append_left _ hsecond, hcloses⟩
      · obtain ⟨anchor, hfilter, rfl⟩ := List.mem_map.mp hmem
        obtain ⟨hmem, hcloses⟩ := Option.filter_eq_some_iff.mp (Option.mem_toList.mp hfilter)
        exact ⟨List.mem_append_left _ (hanchor anchor hmem), by simp, of_decide_eq_true hcloses⟩

/-- No window is closed until a frame is far enough behind the anchor. -/
theorem windows_eq_nil {frames : List φ}
    (h : ∀ front frame back, frames = front ++ frame :: back →
      ∀ anchor ∈ (limits.resumed front).anchor, ¬limits.Closes anchor frame) :
    (limits.resumed frames).windows = [] := by
  induction frames using List.reverseRecOn with
  | nil => rfl
  | append_singleton frames frame ih =>
    have hstep : limits.resumed (frames ++ [frame]) =
        limits.advance (limits.resumed frames) frame := List.foldl_append
    have hframes : (limits.resumed frames).windows = [] := by
      refine ih fun front earlier back hsplit ↦ h front earlier (back ++ [frame]) ?_
      rw [hsplit, List.append_assoc]
      rfl
    rw [hstep, windows_advance, hframes, List.nil_append]
    cases hanchor : (limits.resumed frames).anchor with
    | none => rfl
    | some anchor =>
      have hopen := h frames frame [] rfl anchor hanchor
      simp [Option.filter, hopen]

end Limits

/-! ## Smoothing -/

/-- An exponential moving average that starts at zero. -/
def smooth (alpha : ℚ) (values : List ℚ) : ℚ :=
  values.foldl (fun average value ↦ average + alpha * (value - average)) 0

theorem smooth_append_singleton (alpha : ℚ) (values : List ℚ) (value : ℚ) :
    smooth alpha (values ++ [value]) =
      smooth alpha values + alpha * (value - smooth alpha values) := by
  unfold smooth
  rw [List.foldl_append]
  rfl

/-- The average lies between two of the values and its start. -/
theorem smooth_between {alpha : ℚ} (hnonneg : 0 ≤ alpha) (hle : alpha ≤ 1) (values : List ℚ) :
    (∃ lower ∈ 0 :: values, lower ≤ smooth alpha values) ∧
      ∃ upper ∈ 0 :: values, smooth alpha values ≤ upper := by
  induction values using List.reverseRecOn with
  | nil => exact ⟨⟨0, List.mem_singleton_self 0, le_rfl⟩, 0, List.mem_singleton_self 0, le_rfl⟩
  | append_singleton values value ih =>
    obtain ⟨⟨lower, hlower, hbelow⟩, upper, hupper, habove⟩ := ih
    set average := smooth alpha values
    have hnew : value ∈ 0 :: (values ++ [value]) := by simp
    have hold : ∀ bound ∈ 0 :: values, bound ∈ 0 :: (values ++ [value]) :=
      fun _ hmem ↦ List.mem_append_left [value] hmem
    rw [smooth_append_singleton]
    constructor
    · rcases le_total lower value with hvalue | hvalue
      · exact ⟨lower, hold lower hlower, by nlinarith⟩
      · exact ⟨value, hnew, by nlinarith⟩
    · rcases le_total value upper with hvalue | hvalue
      · exact ⟨upper, hold upper hupper, by nlinarith⟩
      · exact ⟨value, hnew, by nlinarith⟩

/-- On a constant the average comes closer by the same factor every time. -/
theorem smooth_of_constant (alpha : ℚ) {constant : ℚ} {values : List ℚ}
    (h : ∀ value ∈ values, value = constant) :
    smooth alpha values = (1 - (1 - alpha) ^ values.length) * constant := by
  induction values using List.reverseRecOn with
  | nil => rw [List.length_nil, pow_zero, sub_self, zero_mul]; rfl
  | append_singleton values value ih =>
    have hvalue : value = constant := h value (by simp)
    rw [smooth_append_singleton, ih fun value hmem ↦ h value (List.mem_append_left _ hmem), hvalue,
      List.length_append, List.length_singleton, pow_succ]
    ring

end MyDiffbot.Incremental
