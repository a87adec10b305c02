import Mathlib.Data.List.Basic

/-!
# Machines that run event by event

A machine consumes events, one step each, and a step may be refused. The outputs of a run are
collected in order. Invariants relate the state to the outputs so far, so that one induction serves
statements about the states a run reaches and statements about what it has emitted. `Along` states
that every step of a run is taken in a state where it is allowed.
-/

namespace MyDiffbot.Incremental

structure Machine (σ ε ω : Type*) where
  /-- `none` refuses the event in this state. -/
  step : σ → ε → Option (σ × List ω)

namespace Machine

variable {σ ε ω : Type*} (machine : Machine σ ε ω)

/-- The state after all events and the outputs of their steps; `none` if one was refused. -/
def run : σ → List ε → Option (σ × List ω)
  | s, [] => some (s, [])
  | s, event :: events =>
    match machine.step s event with
    | none => none
    | some (next, outputs) =>
      match run next events with
      | none => none
      | some (final, later) => some (final, outputs ++ later)

/-- Each event of a run is allowed in the state it is taken in. -/
def Along (allowed : σ → ε → Prop) : σ → List ε → Prop
  | _, [] => True
  | s, event :: events =>
    allowed s event ∧
      match machine.step s event with
      | none => True
      | some (next, _) => Along allowed next events

instance decidableAlong {allowed : σ → ε → Prop} [∀ s event, Decidable (allowed s event)] :
    ∀ s events, Decidable (machine.Along allowed s events)
  | _, [] => inferInstanceAs (Decidable True)
  | s, event :: events =>
    have : Decidable (match machine.step s event with
        | none => True
        | some (next, _) => machine.Along allowed next events) :=
      match machine.step s event with
      | none => inferInstanceAs (Decidable True)
      | some (next, _) => decidableAlong next events
    inferInstanceAs (Decidable (_ ∧ _))

variable {machine} {s final : σ} {event : ε} {events later : List ε} {outputs trace : List ω}

theorem run_cons_eq_some :
    machine.run s (event :: events) = some (final, outputs) ↔
      ∃ next first rest, machine.step s event = some (next, first) ∧
        machine.run next events = some (final, rest) ∧ outputs = first ++ rest := by
  rw [run]
  cases hstep : machine.step s event with
  | none => simp
  | some result =>
    obtain ⟨next, first⟩ := result
    cases hrun : machine.run next events with
    | none => simp [hrun]
    | some result =>
      obtain ⟨last, rest⟩ := result
      simp [hrun, eq_comm]

/-- A run may be cut anywhere. -/
theorem run_append_eq_some :
    machine.run s (events ++ later) = some (final, outputs) ↔
      ∃ middle first rest, machine.run s events = some (middle, first) ∧
        machine.run middle later = some (final, rest) ∧ outputs = first ++ rest := by
  induction events generalizing s outputs with
  | nil => simp [run]
  | cons event events ih =>
    rw [List.cons_append, run_cons_eq_some]
    constructor
    · rintro ⟨next, first, rest, hstep, hrun, rfl⟩
      obtain ⟨middle, second, third, hfront, hback, rfl⟩ := ih.mp hrun
      exact ⟨middle, first ++ second, third,
        run_cons_eq_some.mpr ⟨next, first, second, hstep, hfront, rfl⟩, hback,
        (List.append_assoc _ _ _).symm⟩
    · rintro ⟨middle, first, rest, hfront, hback, rfl⟩
      obtain ⟨next, second, third, hstep, hrun, rfl⟩ := run_cons_eq_some.mp hfront
      exact ⟨next, second, third ++ rest, hstep, ih.mpr ⟨middle, third, rest, hrun, hback, rfl⟩,
        List.append_assoc _ _ _⟩

/-- What every allowed step preserves of the state and the outputs so far, a run preserves. -/
theorem run_invariant {allowed : σ → ε → Prop} (invariant : σ → List ω → Prop)
    (hstep : ∀ {s trace event next outputs}, invariant s trace → allowed s event →
      machine.step s event = some (next, outputs) → invariant next (trace ++ outputs))
    (hrun : machine.run s events = some (final, outputs))
    (halong : machine.Along allowed s events) (hstart : invariant s trace) :
    invariant final (trace ++ outputs) := by
  induction events generalizing s trace outputs with
  | nil =>
    obtain ⟨rfl, rfl⟩ := Prod.mk.inj (Option.some.inj hrun)
    rwa [List.append_nil]
  | cons event events ih =>
    obtain ⟨next, first, rest, hfirst, hrest, rfl⟩ := run_cons_eq_some.mp hrun
    obtain ⟨hallowed, hlater⟩ := halong
    rw [hfirst] at hlater
    rw [← List.append_assoc]
    exact ih hrest hlater (hstep hstart hallowed hfirst)

theorem run_invariant_nil {allowed : σ → ε → Prop} (invariant : σ → List ω → Prop)
    (hstep : ∀ {s trace event next outputs}, invariant s trace → allowed s event →
      machine.step s event = some (next, outputs) → invariant next (trace ++ outputs))
    (hrun : machine.run s events = some (final, outputs))
    (halong : machine.Along allowed s events) (hstart : invariant s []) :
    invariant final outputs :=
  run_invariant invariant hstep hrun halong hstart

/-- States that are alike stay alike under the same events and have the same outputs. -/
theorem run_alike {alike : σ → σ → Prop}
    (hstep : ∀ {s t event next outputs}, alike s t → machine.step s event = some (next, outputs) →
      ∃ other, machine.step t event = some (other, outputs) ∧ alike next other)
    {t : σ} (halike : alike s t) (hrun : machine.run s events = some (final, outputs)) :
    ∃ other, machine.run t events = some (other, outputs) ∧ alike final other := by
  induction events generalizing s t outputs with
  | nil =>
    obtain ⟨rfl, rfl⟩ := Prod.mk.inj (Option.some.inj hrun)
    exact ⟨t, rfl, halike⟩
  | cons event events ih =>
    obtain ⟨next, first, rest, hfirst, hrest, rfl⟩ := run_cons_eq_some.mp hrun
    obtain ⟨middle, hmiddle, hnext⟩ := hstep halike hfirst
    obtain ⟨other, hother, hfinal⟩ := ih hnext hrest
    exact ⟨other, run_cons_eq_some.mpr ⟨middle, first, rest, hmiddle, hother, rfl⟩, hfinal⟩

/-- A condition on the events alone. -/
theorem along_of_forall {condition : ε → Prop} {s : σ} {events : List ε}
    (h : ∀ event ∈ events, condition event) :
    machine.Along (fun _ event ↦ condition event) s events := by
  induction events generalizing s with
  | nil => trivial
  | cons event events ih =>
    refine ⟨h event List.mem_cons_self, ?_⟩
    cases machine.step s event with
    | none => trivial
    | some result => exact ih fun later hlater ↦ h later (List.mem_cons_of_mem _ hlater)

theorem along_true (s : σ) (events : List ε) : machine.Along (fun _ _ ↦ True) s events :=
  along_of_forall fun _ _ ↦ trivial

theorem Along.imp {first second : σ → ε → Prop} (himp : ∀ s event, first s event → second s event)
    (h : machine.Along first s events) : machine.Along second s events := by
  induction events generalizing s with
  | nil => trivial
  | cons event events ih =>
    obtain ⟨hevent, hlater⟩ := h
    refine ⟨himp s event hevent, ?_⟩
    cases hstep : machine.step s event with
    | none => trivial
    | some result =>
      rw [hstep] at hlater
      exact ih hlater

theorem Along.and {first second : σ → ε → Prop} (hfirst : machine.Along first s events)
    (hsecond : machine.Along second s events) :
    machine.Along (fun s event ↦ first s event ∧ second s event) s events := by
  induction events generalizing s with
  | nil => trivial
  | cons event events ih =>
    obtain ⟨hfirst, hfirstLater⟩ := hfirst
    obtain ⟨hsecond, hsecondLater⟩ := hsecond
    refine ⟨⟨hfirst, hsecond⟩, ?_⟩
    cases hstep : machine.step s event with
    | none => trivial
    | some result =>
      rw [hstep] at hfirstLater hsecondLater
      exact ih hfirstLater hsecondLater

/-- If a step that is not allowed spoils the outputs for good, then a run whose outputs are good
takes allowed steps only. -/
theorem along_of_good {given allowed : σ → ε → Prop} (invariant : σ → List ω → Prop)
    (good : List ω → Prop)
    (hstep : ∀ {s trace event next outputs}, invariant s trace → given s event ∧ allowed s event →
      machine.step s event = some (next, outputs) → invariant next (trace ++ outputs))
    (hspoils : ∀ {s trace event next outputs later}, invariant s trace → given s event →
      machine.step s event = some (next, outputs) → good (trace ++ (outputs ++ later)) →
        allowed s event)
    (hrun : machine.run s events = some (final, outputs)) (hgiven : machine.Along given s events)
    (hstart : invariant s trace) (hgood : good (trace ++ outputs)) :
    machine.Along allowed s events := by
  induction events generalizing s trace outputs with
  | nil => trivial
  | cons event events ih =>
    obtain ⟨next, first, rest, hfirst, hrest, rfl⟩ := run_cons_eq_some.mp hrun
    obtain ⟨hevent, hlater⟩ := hgiven
    have hallowed := hspoils hstart hevent hfirst hgood
    rw [← List.append_assoc] at hgood
    rw [hfirst] at hlater
    refine ⟨hallowed, ?_⟩
    rw [hfirst]
    exact ih hrest hlater (hstep hstart ⟨hevent, hallowed⟩ hfirst) hgood

/-- The machine that outputs, instead of its outputs, what is observed of each step. -/
def observe {κ : Type*} (machine : Machine σ ε ω) (observation : σ → ε → List ω → List κ) :
    Machine σ ε κ where
  step s event := (machine.step s event).map fun result ↦
    (result.1, observation s event result.2)

theorem observe_step_eq_some {κ : Type*} {observation : σ → ε → List ω → List κ}
    {observed : List κ} :
    (machine.observe observation).step s event = some (final, observed) ↔
      ∃ outputs, machine.step s event = some (final, outputs) ∧
        observed = observation s event outputs := by
  constructor
  · intro hstep
    obtain ⟨⟨next, outputs⟩, hresult, hobserved⟩ := Option.map_eq_some_iff.mp hstep
    obtain ⟨rfl, rfl⟩ := Prod.mk.inj hobserved
    exact ⟨outputs, hresult, rfl⟩
  · rintro ⟨outputs, hstep, rfl⟩
    exact Option.map_eq_some_iff.mpr ⟨(final, outputs), hstep, rfl⟩

end Machine

end MyDiffbot.Incremental
