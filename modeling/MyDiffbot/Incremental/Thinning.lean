import Mathlib.Data.List.Basic

/-!
# Thinning

Of the values that have a key in common the first one is kept, in the order of the values. Every
value is represented by a kept one, no two kept ones have a key in common, and thinning again
changes nothing.
-/

namespace MyDiffbot.Incremental

variable {α κ : Type*} [DecidableEq κ] (key : α → κ)

/-- The first value of each key that is not among some keys. -/
def thinFrom : List κ → List α → List α
  | _, [] => []
  | seen, a :: values =>
    if key a ∈ seen then thinFrom seen values else a :: thinFrom (key a :: seen) values

/-- The first value of each key. -/
def thin (values : List α) : List α := thinFrom key [] values

variable {key} {seen : List κ} {values : List α}

theorem thinFrom_sublist (seen : List κ) (values : List α) :
    (thinFrom key seen values).Sublist values := by
  induction values generalizing seen with
  | nil => exact .slnil
  | cons a values ih =>
    rw [thinFrom]
    split_ifs
    · exact (ih seen).cons a
    · exact (ih _).cons_cons a

theorem thin_sublist (values : List α) : (thin key values).Sublist values :=
  thinFrom_sublist [] values

theorem key_not_mem_of_mem_thinFrom {a : α} (h : a ∈ thinFrom key seen values) : key a ∉ seen := by
  induction values generalizing seen with
  | nil => cases h
  | cons b values ih =>
    rw [thinFrom] at h
    split_ifs at h with hseen
    · exact ih h
    · rcases List.mem_cons.mp h with rfl | hlater
      · exact hseen
      · exact fun hmem ↦ ih hlater (List.mem_cons_of_mem _ hmem)

theorem pairwise_thinFrom (seen : List κ) (values : List α) :
    (thinFrom key seen values).Pairwise fun a b ↦ key a ≠ key b := by
  induction values generalizing seen with
  | nil => exact .nil
  | cons a values ih =>
    rw [thinFrom]
    split_ifs
    · exact ih seen
    · refine .cons (fun b hb heq ↦ ?_) (ih _)
      exact key_not_mem_of_mem_thinFrom hb (heq ▸ List.mem_cons_self)

/-- No two kept values have the same key. -/
theorem pairwise_thin (values : List α) :
    (thin key values).Pairwise fun a b ↦ key a ≠ key b := pairwise_thinFrom [] values

theorem exists_mem_thinFrom {a : α} (h : a ∈ values) (hnew : key a ∉ seen) :
    ∃ b ∈ thinFrom key seen values, key b = key a := by
  induction values generalizing seen with
  | nil => cases h
  | cons c values ih =>
    rw [thinFrom]
    split_ifs with hseen
    · rcases List.mem_cons.mp h with rfl | hlater
      · exact absurd hseen hnew
      · exact ih hlater hnew
    · by_cases hsame : key c = key a
      · exact ⟨c, List.mem_cons_self, hsame⟩
      · rcases List.mem_cons.mp h with rfl | hlater
        · exact absurd rfl hsame
        · have hstill : key a ∉ key c :: seen := by
            rw [List.mem_cons, not_or]
            exact ⟨Ne.symm hsame, hnew⟩
          obtain ⟨b, hb, hkey⟩ := ih hlater hstill
          exact ⟨b, List.mem_cons_of_mem _ hb, hkey⟩

/-- Every value is represented by a kept one. -/
theorem exists_mem_thin {a : α} (h : a ∈ values) : ∃ b ∈ thin key values, key b = key a :=
  exists_mem_thinFrom h List.not_mem_nil

theorem thinFrom_eq_self (hpairwise : values.Pairwise fun a b ↦ key a ≠ key b)
    (hnew : ∀ a ∈ values, key a ∉ seen) : thinFrom key seen values = values := by
  induction values generalizing seen with
  | nil => rfl
  | cons a values ih =>
    obtain ⟨hfirst, hrest⟩ := List.pairwise_cons.mp hpairwise
    rw [thinFrom, if_neg (hnew a List.mem_cons_self), ih hrest]
    intro b hb hmem
    rcases List.mem_cons.mp hmem with heq | hseen
    · exact hfirst b hb heq.symm
    · exact hnew b (List.mem_cons_of_mem _ hb) hseen

@[simp]
theorem thin_thin (values : List α) : thin key (thin key values) = thin key values :=
  thinFrom_eq_self (pairwise_thin values) fun _ _ ↦ List.not_mem_nil

end MyDiffbot.Incremental
