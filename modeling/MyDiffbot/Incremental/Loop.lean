import Mathlib.Data.List.Basic

/-!
# Loops in a changing world

A loop reads a sample of its surroundings in each iteration, and either ends with a result or acts
and goes on. What the surroundings answer to an act is a relation between one sample and the next.
If it keeps an invariant of memory and sample, then the invariant holds in every iteration
(`invariant_of_visited`), also in the one that ends the loop, or in the last one that was taken
(`run_invariant`).
-/

namespace MyDiffbot.Incremental

/-- `κ` are the acts and `ρ` the results. -/
structure Loop (μ σ κ ρ : Type*) where
  step : μ → σ → Except ρ (κ × μ)

namespace Loop

variable {μ σ κ ρ : Type*} (loop : Loop μ σ κ ρ)

/-- What a loop has done after some samples; without a result it still runs. -/
structure Outcome (μ κ ρ : Type*) where
  acts : List κ
  memory : μ
  result : Option ρ

def run : μ → List σ → Outcome μ κ ρ
  | m, [] => ⟨[], m, none⟩
  | m, s :: samples =>
    match loop.step m s with
    | .error r => ⟨[], m, some r⟩
    | .ok (act, next) =>
      { acts := act :: (run next samples).acts
        memory := (run next samples).memory
        result := (run next samples).result }

/-- Each sample but the first answers to what was done at the one before. -/
def Driven (answers : σ → κ → σ → Prop) : μ → List σ → Prop
  | _, [] => True
  | m, s :: samples =>
    match loop.step m s with
    | .error _ => True
    | .ok (act, next) => (∀ s' ∈ samples.head?, answers s act s') ∧ Driven answers next samples

variable {loop} {answers : σ → κ → σ → Prop} {m next : μ} {s : σ} {samples : List σ} {act : κ}
  {r : ρ}

theorem run_of_error (h : loop.step m s = .error r) :
    loop.run m (s :: samples) = ⟨[], m, some r⟩ := by
  rw [run, h]

theorem run_of_ok (h : loop.step m s = .ok (act, next)) :
    loop.run m (s :: samples) =
      { loop.run next samples with acts := act :: (loop.run next samples).acts } := by
  rw [run, h]

theorem driven_of_ok (h : loop.step m s = .ok (act, next)) :
    loop.Driven answers m (s :: samples) ↔
      (∀ s' ∈ samples.head?, answers s act s') ∧ loop.Driven answers next samples := by
  rw [Driven, h]

theorem driven_of_error (h : loop.step m s = .error r) : loop.Driven answers m (s :: samples) := by
  rw [Driven, h]
  trivial

/-- Nothing is asked of the surroundings. -/
theorem driven_true (m : μ) (samples : List σ) : loop.Driven (fun _ _ _ ↦ True) m samples := by
  induction samples generalizing m with
  | nil => trivial
  | cons s samples ih =>
    cases h : loop.step m s with
    | error r => exact driven_of_error h
    | ok result => exact (driven_of_ok h).mpr ⟨fun _ _ ↦ trivial, ih _⟩

/-- What holds of every act that an iteration can take holds of all acts of a run. -/
theorem forall_acts {holds : κ → Prop}
    (hstep : ∀ {m s act next}, loop.step m s = .ok (act, next) → holds act) (m : μ)
    (samples : List σ) : ∀ act ∈ (loop.run m samples).acts, holds act := by
  induction samples generalizing m with
  | nil => exact nofun
  | cons s samples ih =>
    cases h : loop.step m s with
    | error r =>
      rw [run_of_error h]
      exact nofun
    | ok result =>
      obtain ⟨act, next⟩ := result
      rw [run_of_ok h]
      exact List.forall_mem_cons.mpr ⟨hstep h, ih next⟩

/-- Where a run stands: in the iteration that ended it, which has as many samples before it as there
were acts, or behind the last one. What `holds` there is about the samples before, the memory and the
sample of that iteration. -/
inductive Stands (loop : Loop μ σ κ ρ) (holds : List σ → μ → σ → Prop) (samples : List σ) :
    Outcome μ κ ρ → Prop
  | ended {acts : List κ} {m : μ} {r : ρ} {s : σ} {used rest : List σ}
      (hsplit : samples = used ++ s :: rest) (hlength : used.length = acts.length)
      (hholds : holds used m s) (hstep : loop.step m s = .error r) :
      Stands loop holds samples ⟨acts, m, some r⟩
  | running {acts : List κ} {m next : μ} {act : κ} {s : σ} {used : List σ}
      (hsplit : samples = used ++ [s]) (hholds : holds used m s)
      (hstep : loop.step m s = .ok (act, next)) : Stands loop holds samples ⟨acts, next, none⟩

/-- The sample behind as many as there were acts. -/
theorem getElem?_of_split {used rest : List σ} {n : ℕ} (hsplit : samples = used ++ s :: rest)
    (hlength : used.length = n) : samples[n]? = some s := by
  rw [hsplit, ← hlength, List.getElem?_append_right (Nat.le_refl _), Nat.sub_self]
  rfl

section stands

variable {holds : List σ → μ → σ → Prop} {outcome : Outcome μ κ ρ}

theorem Stands.of_result (h : Stands loop holds samples outcome) (hresult : outcome.result = some r) :
    ∃ used s rest, samples = used ++ s :: rest ∧ used.length = outcome.acts.length ∧
      holds used outcome.memory s ∧ loop.step outcome.memory s = .error r := by
  cases h with
  | ended hsplit hlength hholds hstep =>
    obtain rfl := Option.some.inj hresult
    exact ⟨_, _, _, hsplit, hlength, hholds, hstep⟩
  | running => cases hresult

theorem Stands.of_running (h : Stands loop holds samples outcome) (hresult : outcome.result = none) :
    ∃ used s m act, samples = used ++ [s] ∧ holds used m s ∧
      loop.step m s = .ok (act, outcome.memory) := by
  cases h with
  | ended => cases hresult
  | running hsplit hholds hstep => exact ⟨_, _, _, _, hsplit, hholds, hstep⟩

end stands

theorem Stands.cons {holds : List σ → μ → σ → Prop} {outcome : Outcome μ κ ρ} (act : κ)
    (h : Stands loop (fun used m s' ↦ holds (s :: used) m s') samples outcome) :
    Stands loop holds (s :: samples) { outcome with acts := act :: outcome.acts } := by
  cases h with
  | ended hsplit hlength hholds hstep =>
    exact .ended (congrArg (s :: ·) hsplit) (congrArg (· + 1) hlength) hholds hstep
  | running hsplit hholds hstep => exact .running (congrArg (s :: ·) hsplit) hholds hstep

/-- An invariant that the answers keep holds wherever a run stands. -/
theorem run_invariant {holds : List σ → μ → σ → Prop}
    (hstep : ∀ {used m s act next s'}, holds used m s → loop.step m s = .ok (act, next) →
      answers s act s' → holds (used ++ [s]) next s')
    (hdriven : loop.Driven answers m (s :: samples)) (hstart : holds [] m s) :
    Stands loop holds (s :: samples) (loop.run m (s :: samples)) := by
  induction samples generalizing m s holds with
  | nil =>
    cases h : loop.step m s with
    | error r =>
      rw [run_of_error h]
      exact .ended rfl rfl hstart h
    | ok result =>
      obtain ⟨act, next⟩ := result
      rw [run_of_ok h]
      exact .running rfl hstart h
  | cons s' samples ih =>
    cases h : loop.step m s with
    | error r =>
      rw [run_of_error h]
      exact .ended rfl rfl hstart h
    | ok result =>
      obtain ⟨act, next⟩ := result
      obtain ⟨hanswer, hrest⟩ := (driven_of_ok h).mp hdriven
      rw [run_of_ok h]
      exact .cons act (ih (fun hholds ↦ hstep hholds) hrest (hstep hstart h (hanswer s' rfl)))

/-- An invariant that the answers keep holds in every iteration of a run. -/
theorem invariant_of_visited {holds : List σ → μ → σ → Prop}
    (hstep : ∀ {used m s act next s'}, holds used m s → loop.step m s = .ok (act, next) →
      answers s act s' → holds (used ++ [s]) next s')
    (hdriven : loop.Driven answers m (s :: samples)) (hstart : holds [] m s) {used rest : List σ}
    {s' : σ} (hsplit : s :: samples = used ++ s' :: rest)
    (hvisited : used.length ≤ (loop.run m (s :: samples)).acts.length) :
    ∃ m', holds used m' s' := by
  induction used generalizing m s samples holds with
  | nil =>
    obtain ⟨rfl, rfl⟩ := List.cons.inj hsplit
    exact ⟨m, hstart⟩
  | cons first used ih =>
    obtain ⟨rfl, rfl⟩ := List.cons.inj hsplit
    cases h : loop.step m s with
    | error r =>
      rw [run_of_error h] at hvisited
      exact absurd hvisited (Nat.not_succ_le_zero _)
    | ok result =>
      obtain ⟨act, next⟩ := result
      obtain ⟨hanswer, hrest⟩ := (driven_of_ok h).mp hdriven
      rw [run_of_ok h] at hvisited
      cases used with
      | nil => exact ⟨next, hstep hstart h (hanswer s' rfl)⟩
      | cons second used =>
        exact @ih _ _ _ (fun used ↦ holds (s :: used)) (fun hholds ↦ hstep hholds) hrest
          (hstep hstart h (hanswer second rfl)) rfl (Nat.le_of_succ_le_succ hvisited)

end Loop

end MyDiffbot.Incremental
