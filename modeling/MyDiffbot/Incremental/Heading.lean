import Mathlib.Data.Sign.Basic
import Mathlib.Algebra.Order.Group.Defs
import Mathlib.Data.List.Basic

/-!
# The heading of a sequence of positions

Which way a sequence of positions went last: the sign of its last difference that is not zero, and
forward as long as there is none. It does not depend on where the positions are counted from. An
observer that remembers the last position and the last heading keeps up with it, but has to be given
a first position.
-/

namespace MyDiffbot.Incremental

variable {α : Type*} [AddCommGroup α] [LinearOrder α]

/-- The differences of neighbouring positions that are not zero. -/
def moves : List α → List α
  | first :: second :: rest =>
    if second = first then moves (second :: rest) else (second - first) :: moves (second :: rest)
  | _ => []

/-- The direction of the last move. -/
def heading (positions : List α) : SignType :=
  (moves positions).getLast?.elim 1 SignType.sign

theorem moves_cons_cons (first second : α) (rest : List α) :
    moves (first :: second :: rest) =
      (if second = first then [] else [second - first]) ++ moves (second :: rest) := by
  rw [moves]
  split_ifs <;> rfl

theorem moves_append_pair (front : List α) (last next : α) :
    moves (front ++ [last, next]) =
      moves (front ++ [last]) ++ if next = last then [] else [next - last] := by
  induction front with
  | nil => exact (moves_cons_cons last next []).trans (List.append_nil _)
  | cons first front ih =>
    cases front with
    | nil =>
      change moves [first, last, next] = moves [first, last] ++ _
      rw [moves_cons_cons, moves_cons_cons first last [], List.append_assoc]
      exact congrArg _ ih
    | cons second front =>
      change moves (first :: second :: (front ++ [last, next])) =
        moves (first :: second :: (front ++ [last])) ++ _
      rw [moves_cons_cons, moves_cons_cons, List.append_assoc]
      exact congrArg _ ih

/-- A new position that differs from the last one sets the heading. -/
theorem heading_append_pair (front : List α) (last next : α) :
    heading (front ++ [last, next]) =
      if next = last then heading (front ++ [last]) else SignType.sign (next - last) := by
  unfold heading
  rw [moves_append_pair]
  split_ifs with hsame
  · rw [List.append_nil]
  · rw [List.getLast?_append, List.getLast?_singleton]
    rfl

theorem heading_singleton (position : α) : heading [position] = 1 := rfl

/-- An observer that starts from some position before the first one is right once there is a move;
until then it goes by the way from there. -/
theorem heading_cons_cons (start first : α) (rest : List α) :
    heading (start :: first :: rest) =
      if moves (first :: rest) = [] then heading [start, first] else heading (first :: rest) := by
  unfold heading
  rw [moves_cons_cons start first rest, moves_cons_cons start first []]
  by_cases hnone : moves (first :: rest) = []
  · rw [if_pos hnone, hnone]
    rfl
  · rw [if_neg hnone]
    obtain ⟨last, hlast⟩ := Option.ne_none_iff_exists'.mp (mt List.getLast?_eq_none_iff.mp hnone)
    rw [List.getLast?_append, hlast]
    rfl

theorem heading_pair [IsOrderedAddMonoid α] (start first : α) :
    heading [start, first] = if first < start then -1 else 1 := by
  have hpair := heading_append_pair [] start first
  simp only [List.nil_append, heading_singleton] at hpair
  rw [hpair]
  rcases lt_trichotomy first start with hlt | rfl | hgt
  · rw [if_neg hlt.ne, if_pos hlt, sign_neg (sub_neg.mpr hlt)]
  · rw [if_pos rfl, if_neg (lt_irrefl _)]
  · rw [if_neg hgt.ne', if_neg hgt.not_gt, sign_pos (sub_pos.mpr hgt)]

/-- Only differences count. -/
theorem moves_map_add (positions : List α) (c : α) :
    moves (positions.map (· + c)) = moves positions := by
  induction positions with
  | nil => rfl
  | cons first rest ih =>
    cases rest with
    | nil => rfl
    | cons second rest =>
      rw [List.map_cons] at ih
      rw [List.map_cons, List.map_cons, moves_cons_cons, moves_cons_cons, ih]
      simp only [add_left_inj, add_sub_add_right_eq_sub]

theorem heading_map_add (positions : List α) (c : α) :
    heading (positions.map (· + c)) = heading positions := by
  rw [heading, moves_map_add, heading]

end MyDiffbot.Incremental
