import MyDiffbot.Incremental.Machine
import MyDiffbot.Incremental.Trace
import Mathlib.Data.List.Basic
import Mathlib.Data.List.Induction

/-!
# Members that hold the latest output

Some outputs of a machine carry values of a kind. A member of the state that holds the latest of
them in every step holds the latest one of the whole run. The outputs may also be the steps
themselves, each with the state it found: the history.
-/

namespace MyDiffbot.Incremental

variable {σ ε ω β : Type*} {machine : Machine σ ε ω} {member : σ → Option β} {value? : ω → Option β}

/-- The latest value in a trace. -/
def latest (value? : ω → Option β) (trace : List ω) : Option β :=
  (trace.filterMap value?).getLast?

theorem latest_append (trace outputs : List ω) :
    latest value? (trace ++ outputs) = (latest value? outputs).or (latest value? trace) := by
  rw [latest, List.filterMap_append, List.getLast?_append]
  rfl

theorem latest_eq_none_iff {trace : List ω} :
    latest value? trace = none ↔ ∀ output ∈ trace, value? output = none := by
  rw [latest, List.getLast?_eq_none_iff, List.filterMap_eq_nil_iff]

theorem latest_append_singleton (trace : List ω) (output : ω) :
    latest value? (trace ++ [output]) = (value? output).or (latest value? trace) := by
  rw [latest_append]
  cases hvalue : value? output <;> simp [latest, hvalue]

theorem latest_eq_some_iff {trace : List ω} {value : β} :
    latest value? trace = some value ↔
      ∃ front output back, trace = front ++ output :: back ∧ value? output = some value ∧
        ∀ later ∈ back, value? later = none := by
  constructor
  · intro hlatest
    induction trace using List.reverseRecOn with
    | nil => cases hlatest
    | append_singleton trace last ih =>
      rw [latest_append_singleton] at hlatest
      cases hvalue : value? last with
      | none =>
        rw [hvalue, Option.none_or] at hlatest
        obtain ⟨front, output, back, rfl, houtput, hback⟩ := ih hlatest
        refine ⟨front, output, back ++ [last], by simp, houtput, ?_⟩
        exact List.forall_mem_append.mpr ⟨hback, List.forall_mem_singleton.mpr hvalue⟩
      | some newest =>
        rw [hvalue, Option.some_or] at hlatest
        exact ⟨trace, last, [], rfl, hvalue.trans hlatest, nofun⟩
  · rintro ⟨front, output, back, rfl, houtput, hback⟩
    rw [← List.singleton_append, ← List.append_assoc, latest_append, latest_append_singleton,
      latest_eq_none_iff.mpr hback, houtput, Option.none_or, Option.some_or]

/-- After a step the member holds the latest value among its outputs, or what it held before. -/
def Machine.Holds (machine : Machine σ ε ω) (member : σ → Option β) (value? : ω → Option β) :
    Prop :=
  ∀ s event next outputs, machine.step s event = some (next, outputs) →
    member next = (latest value? outputs).or (member s)

theorem Machine.Holds.append (h : machine.Holds member value?) {s next : σ} {event : ε}
    {trace outputs : List ω} (hbefore : member s = latest value? trace)
    (hstep : machine.step s event = some (next, outputs)) :
    member next = latest value? (trace ++ outputs) := by
  rw [latest_append, h _ _ _ _ hstep, hbefore]

/-! ## The history of a machine -/

/-- A machine that outputs, instead of its outputs, the states that its events find. -/
def Machine.history (machine : Machine σ ε ω) : Machine σ ε (σ × ε) :=
  machine.observe fun s event _ ↦ [(s, event)]

/-- What every step preserves of a state and its history holds at the end of a run, and at every
step of it. -/
theorem Machine.history_invariant {invariant : List (σ × ε) → σ → Prop} {begun final : σ}
    {trace : List (σ × ε)} {events : List ε}
    (hstep : ∀ {trace s event next outputs}, invariant trace s →
      machine.step s event = some (next, outputs) → invariant (trace ++ [(s, event)]) next)
    (hrun : machine.history.run begun events = some (final, trace)) (hbegun : invariant [] begun) :
    invariant trace final ∧
      ∀ front entry back, trace = front ++ entry :: back → invariant front entry.1 := by
  refine Machine.run_invariant_nil (fun s trace ↦ invariant trace s ∧
    ∀ front entry back, trace = front ++ entry :: back → invariant front entry.1)
    (fun hbefore _ hnext ↦ ?_) hrun (Machine.along_true _ _)
    ⟨hbegun, fun front entry back hsplit ↦ ?_⟩
  · obtain ⟨outputs, hmachine, rfl⟩ := Machine.observe_step_eq_some.mp hnext
    exact ⟨hstep hbefore.1 hmachine, forall_split_append_singleton hbefore.2 hbefore.1⟩
  · cases front <;> cases hsplit

/-- The history is of the events of the run. -/
theorem Machine.events_of_history {begun final : σ} {trace : List (σ × ε)} {events : List ε}
    (hrun : machine.history.run begun events = some (final, trace)) : trace.map Prod.snd = events := by
  induction events generalizing begun trace with
  | nil =>
    obtain ⟨-, rfl⟩ := Prod.mk.inj (Option.some.inj hrun)
    rfl
  | cons event events ih =>
    obtain ⟨next, first, rest, hstep, hrest, rfl⟩ := Machine.run_cons_eq_some.mp hrun
    obtain ⟨-, -, rfl⟩ := Machine.observe_step_eq_some.mp hstep
    rw [List.map_append, ih hrest]
    rfl

end MyDiffbot.Incremental
