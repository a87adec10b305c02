import Mathlib.Data.List.Basic

/-!
# Incremental scanners

A scanner inspects the front of a buffer. It either waits for more input, or emits one event and
removes a nonempty part of the buffer. A structure carries the two conditions that make a scan
independent of how its input was cut: every event removes something, and a decision to emit is not
revised when more input arrives. Draining then commutes with appending (`drain_append`), so that
input may be drained as it arrives.
-/

namespace MyDiffbot.Incremental

/-- A partial view of a buffer's front whose decisions survive further input. -/
structure Scanner (α ε : Type*) where
  /-- `none` waits; `some (event, rest)` emits `event` and leaves `rest` in the buffer. -/
  step : List α → Option (ε × List α)
  step_shrinks : ∀ {buffer event rest}, step buffer = some (event, rest) →
    rest.length < buffer.length
  step_append : ∀ {buffer event rest} (more), step buffer = some (event, rest) →
    step (buffer ++ more) = some (event, rest ++ more)

namespace Scanner

variable {α ε : Type*} (scanner : Scanner α ε)

/-- The scanner has nothing to emit until more input arrives. -/
def Waits (buffer : List α) : Prop := scanner.step buffer = none

/-- At most `fuel` events, in order, and the input they leave. -/
def drainWithin : ℕ → List α → List ε × List α
  | 0, buffer => ([], buffer)
  | fuel + 1, buffer =>
    match scanner.step buffer with
    | none => ([], buffer)
    | some (event, rest) => (event :: (drainWithin fuel rest).1, (drainWithin fuel rest).2)

/-- Every event the buffer holds; its length bounds their number. -/
def drain (buffer : List α) : List ε × List α := scanner.drainWithin buffer.length buffer

/-- A run of the scanner over a fixed buffer, with the events it emits. -/
inductive Emits : List α → List ε → List α → Prop
  | refl (buffer : List α) : Emits buffer [] buffer
  | cons {buffer rest final : List α} {event : ε} {events : List ε} :
      scanner.step buffer = some (event, rest) → Emits rest events final →
      Emits buffer (event :: events) final

namespace Emits

variable {scanner} {buffer middle final : List α} {events later : List ε} {event : ε}

theorem single (h : scanner.step buffer = some (event, final)) :
    scanner.Emits buffer [event] final :=
  .cons h (.refl final)

theorem trans (first : scanner.Emits buffer events middle)
    (second : scanner.Emits middle later final) :
    scanner.Emits buffer (events ++ later) final := by
  induction first with
  | refl => exact second
  | cons hstep _ ih => exact .cons hstep (ih second)

/-- More input leaves the events of a run as they are. -/
theorem append (run : scanner.Emits buffer events final) (more : List α) :
    scanner.Emits (buffer ++ more) events (final ++ more) := by
  induction run with
  | refl buffer => exact .refl _
  | cons hstep _ ih => exact .cons (scanner.step_append more hstep) ih

/-- Events that account for the input they remove account for the whole buffer. -/
theorem spans {span : ε → List α}
    (hspan : ∀ {buffer event rest}, scanner.step buffer = some (event, rest) →
      buffer = span event ++ rest)
    (run : scanner.Emits buffer events final) : buffer = (events.map span).flatten ++ final := by
  induction run with
  | refl => rfl
  | cons hstep _ ih =>
    rw [List.map_cons, List.flatten_cons, List.append_assoc, ← ih]
    exact hspan hstep

end Emits

theorem emits_drainWithin (fuel : ℕ) (buffer : List α) :
    scanner.Emits buffer (scanner.drainWithin fuel buffer).1
      (scanner.drainWithin fuel buffer).2 := by
  induction fuel generalizing buffer with
  | zero => exact .refl _
  | succ fuel ih =>
    unfold drainWithin
    split
    · exact .refl _
    · rename_i event rest hstep
      exact .cons hstep (ih rest)

theorem emits_drain (buffer : List α) :
    scanner.Emits buffer (scanner.drain buffer).1 (scanner.drain buffer).2 :=
  scanner.emits_drainWithin _ buffer

/-- Fuel of at least the buffer's length is never exhausted before the scanner waits. -/
theorem waits_drainWithin {fuel : ℕ} {buffer : List α} (hfuel : buffer.length ≤ fuel) :
    scanner.Waits (scanner.drainWithin fuel buffer).2 := by
  induction fuel generalizing buffer with
  | zero =>
    unfold drainWithin Waits
    cases hstep : scanner.step buffer with
    | none => rfl
    | some pair =>
      have hlt := scanner.step_shrinks hstep
      omega
  | succ fuel ih =>
    unfold drainWithin
    split
    · assumption
    · rename_i event rest hstep
      have hlt := scanner.step_shrinks hstep
      exact ih (by omega)

theorem waits_drain (buffer : List α) : scanner.Waits (scanner.drain buffer).2 :=
  scanner.waits_drainWithin (Nat.le_refl _)

/-- Steps are deterministic, so a run that ends waiting extends every other run. -/
theorem Emits.extends_of_waits {scanner : Scanner α ε} {buffer middle final : List α}
    {events all : List ε} (run : scanner.Emits buffer events middle)
    (full : scanner.Emits buffer all final) (hwaits : scanner.Waits final) :
    ∃ later, all = events ++ later ∧ scanner.Emits middle later final := by
  induction run generalizing all with
  | refl => exact ⟨all, rfl, full⟩
  | cons hstep _ ih =>
    cases full with
    | refl => exact absurd hstep (by rw [hwaits]; simp)
    | cons hstep' rest' =>
      obtain ⟨rfl, rfl⟩ : _ ∧ _ := by simpa only [hstep, Option.some.injEq, Prod.mk.injEq] using hstep'
      obtain ⟨later, rfl, hlater⟩ := ih rest'
      exact ⟨later, rfl, hlater⟩

/-- The drain is the only run that ends waiting. -/
theorem Emits.eq_drain {scanner : Scanner α ε} {buffer final : List α} {events : List ε}
    (run : scanner.Emits buffer events final) (hwaits : scanner.Waits final) :
    scanner.drain buffer = (events, final) := by
  obtain ⟨later, hevents, hlater⟩ :=
    run.extends_of_waits (scanner.emits_drain buffer) (scanner.waits_drain buffer)
  cases hlater with
  | refl => exact Prod.ext (by simpa using hevents) rfl
  | cons hstep _ => exact absurd hstep (by rw [hwaits]; simp)

theorem drain_of_waits {buffer : List α} (hwaits : scanner.Waits buffer) :
    scanner.drain buffer = ([], buffer) :=
  (Emits.refl buffer).eq_drain hwaits

/-- Draining may be resumed at any point a run passes through. -/
theorem Emits.drain {scanner : Scanner α ε} {buffer middle : List α} {events : List ε}
    (run : scanner.Emits buffer events middle) :
    scanner.drain buffer = (events ++ (scanner.drain middle).1, (scanner.drain middle).2) :=
  (run.trans (scanner.emits_drain middle)).eq_drain (scanner.waits_drain middle)

/-- What was drained before more input arrived is kept, and the scan resumes in what was left. -/
theorem drain_append (buffer more : List α) :
    scanner.drain (buffer ++ more) =
      ((scanner.drain buffer).1 ++ (scanner.drain ((scanner.drain buffer).2 ++ more)).1,
        (scanner.drain ((scanner.drain buffer).2 ++ more)).2) :=
  ((scanner.emits_drain buffer).append more).drain

end Scanner

end MyDiffbot.Incremental
