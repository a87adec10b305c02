import MyDiffbot.Incremental.Memory
import Mathlib.Data.List.Induction

/-!
# Streaks

A clock is started when a condition is first seen to hold, and it is taken away when the condition is
seen to fail. What does not look at the condition leaves the clock alone. While there is a clock, it
shows when the present streak has begun (`streak_eq_some_iff`).
-/

namespace MyDiffbot.Incremental

variable {σ ε ω τ : Type*}

/-- The clock after an output. A sight is a time, and whether the condition holds then. -/
def clocked (sight? : Option (τ × Bool)) (clock : Option τ) : Option τ :=
  match sight? with
  | none => clock
  | some (t, true) => clock.or (some t)
  | some (_, false) => none

@[simp]
theorem clocked_none (clock : Option τ) : clocked none clock = clock := rfl

@[simp]
theorem clocked_false (t : τ) (clock : Option τ) : clocked (some (t, false)) clock = none := rfl

@[simp]
theorem clocked_true (t : τ) (clock : Option τ) :
    clocked (some (t, true)) clock = clock.or (some t) := rfl

/-- The clock after a trace. -/
def streak (sight? : ω → Option (τ × Bool)) (trace : List ω) : Option τ :=
  trace.foldl (fun clock output ↦ clocked (sight? output) clock) none

section streak

variable {sight? : ω → Option (τ × Bool)} {trace : List ω} {output : ω} {t : τ}

theorem streak_append_singleton (trace : List ω) (output : ω) :
    streak sight? (trace ++ [output]) = clocked (sight? output) (streak sight? trace) :=
  List.foldl_append

/-- An output begins a streak behind a trace in which the condition did not hold at last, and the
streak is not broken by what follows. -/
structure Begins (sight? : ω → Option (τ × Bool)) (t : τ) (front : List ω) (output : ω)
    (back : List ω) : Prop where
  held : sight? output = some (t, true)
  before : ∀ s, latest sight? front ≠ some (s, true)
  unbroken : ∀ later ∈ back, ∀ s, sight? later ≠ some (s, false)

theorem Begins.append_singleton {front back : List ω} {later : ω}
    (h : Begins sight? t front output back) (hholds : ∀ s, sight? later ≠ some (s, false)) :
    Begins sight? t front output (back ++ [later]) where
  held := h.held
  before := h.before
  unbroken := List.forall_mem_append.mpr ⟨h.unbroken, List.forall_mem_singleton.mpr hholds⟩

/-- There is no clock if and only if the condition did not hold when it was last seen. -/
theorem streak_eq_none_iff :
    streak sight? trace = none ↔ ∀ s, latest sight? trace ≠ some (s, true) := by
  induction trace using List.reverseRecOn with
  | nil => exact iff_of_true rfl nofun
  | append_singleton trace output ih =>
    rw [streak_append_singleton, latest_append_singleton]
    cases hsight : sight? output with
    | none => exact ih
    | some sight =>
      obtain ⟨s, holds⟩ := sight
      cases holds with
      | false => simp
      | true => simp

/-- The clock shows `t` if and only if the present streak has begun then. -/
theorem streak_eq_some_iff :
    streak sight? trace = some t ↔
      ∃ front output back, trace = front ++ output :: back ∧ Begins sight? t front output back := by
  induction trace using List.reverseRecOn with
  | nil =>
    refine iff_of_false nofun ?_
    rintro ⟨front, output, back, hsplit, -⟩
    exact List.append_ne_nil_of_right_ne_nil _ (List.cons_ne_nil _ _) hsplit.symm
  | append_singleton trace last ih =>
    rw [streak_append_singleton]
    constructor
    · intro hclock
      have hcontinues : (∀ s, sight? last ≠ some (s, false)) → streak sight? trace = some t →
          ∃ front output back, trace ++ [last] = front ++ output :: back ∧
            Begins sight? t front output back := by
        intro hholds hrunning
        obtain ⟨front, output, back, rfl, hbegins⟩ := ih.mp hrunning
        exact ⟨front, output, back ++ [last], by simp, hbegins.append_singleton hholds⟩
      cases hsight : sight? last with
      | none =>
        rw [hsight, clocked_none] at hclock
        exact hcontinues (by simp [hsight]) hclock
      | some sight =>
        obtain ⟨s, holds⟩ := sight
        rw [hsight] at hclock
        cases holds with
        | false => cases hclock
        | true =>
          rw [clocked_true] at hclock
          cases hbefore : streak sight? trace with
          | none =>
            rw [hbefore] at hclock
            obtain rfl := Option.some.inj hclock
            exact ⟨trace, last, [], rfl, hsight, streak_eq_none_iff.mp hbefore, nofun⟩
          | some since =>
            rw [hbefore] at hclock
            obtain rfl := Option.some.inj hclock
            exact hcontinues (by simp [hsight]) hbefore
    · rintro ⟨front, output, back, hsplit, hbegins⟩
      rcases List.eq_nil_or_concat back with rfl | ⟨back, later, rfl⟩
      · obtain ⟨rfl, hlast⟩ := List.append_inj' hsplit rfl
        obtain rfl := List.singleton_inj.mp hlast
        rw [hbegins.held, clocked_true, streak_eq_none_iff.mpr hbegins.before, Option.none_or]
      · rw [List.concat_eq_append, ← List.cons_append, ← List.append_assoc] at hsplit
        obtain ⟨rfl, hlast⟩ := List.append_inj' hsplit rfl
        obtain rfl := List.singleton_inj.mp hlast
        obtain ⟨hfront, hholds⟩ := List.forall_mem_append.mp
          (List.concat_eq_append ▸ hbegins.unbroken)
        have hrunning : streak sight? (front ++ output :: back) = some t :=
          ih.mpr ⟨front, output, back, rfl, hbegins.held, hbegins.before, hfront⟩
        rw [hrunning]
        cases hsight : sight? last with
        | none => rfl
        | some sight =>
          obtain ⟨s, holds⟩ := sight
          cases holds with
          | false => exact absurd hsight (hholds last (List.mem_singleton_self _) s)
          | true => rfl

end streak

end MyDiffbot.Incremental
