import Mathlib.Data.List.Pairwise
import Mathlib.Tactic.SplitIfs

/-!
# Spans of a trace

An entry that opens a span lasts until the first later one that bounds it; what opens a span bounds
one as well. A span ends before the next begins (`spans_pairwise`), and no more than one that was
opened has no end (`length_filter_opens_le`).
-/

namespace MyDiffbot.Incremental

variable {α : Type*} (opens bounds : α → Bool)

/-- Each entry that opens a span, with the one that bounds it. -/
def spans : List α → List (α × α)
  | [] => []
  | entry :: later =>
    (if opens entry then ((later.find? bounds).map fun closing ↦ (entry, closing)).toList else []) ++
      spans later

variable {opens bounds} {trace : List α} {first last : α}

theorem mem_spans_cons {entry : α} {later : List α} :
    (first, last) ∈ spans opens bounds (entry :: later) ↔
      (entry = first ∧ opens first = true ∧ later.find? bounds = some last) ∨
        (first, last) ∈ spans opens bounds later := by
  rw [spans, List.mem_append]
  refine or_congr_left ?_
  split_ifs with hopens
  · rw [Option.mem_toList, Option.map_eq_some_iff]
    constructor
    · rintro ⟨closing, hfind, hpair⟩
      obtain ⟨rfl, rfl⟩ := Prod.mk.inj hpair
      exact ⟨rfl, hopens, hfind⟩
    · rintro ⟨rfl, -, hfind⟩
      exact ⟨last, hfind, rfl⟩
  · constructor
    · exact nofun
    · rintro ⟨rfl, hfirst, -⟩
      exact absurd hfirst hopens

/-- A span is a stretch of the trace with no bound inside. -/
theorem mem_spans_iff :
    (first, last) ∈ spans opens bounds trace ↔
      ∃ before between after, trace = before ++ first :: (between ++ last :: after) ∧
        opens first = true ∧ bounds last = true ∧ ∀ entry ∈ between, bounds entry = false := by
  induction trace with
  | nil => simp [spans]
  | cons entry later ih =>
    rw [mem_spans_cons, ih, List.find?_eq_some_iff_append]
    constructor
    · rintro (⟨rfl, hopens, hbounds, between, after, rfl, hbetween⟩ |
        ⟨before, between, after, rfl, hspan⟩)
      · exact ⟨[], between, after, rfl, hopens, hbounds, by simpa using hbetween⟩
      · exact ⟨entry :: before, between, after, rfl, hspan⟩
    · rintro ⟨before, between, after, hsplit, hopens, hbounds, hbetween⟩
      cases before with
      | nil =>
        obtain ⟨rfl, rfl⟩ := List.cons.inj hsplit
        exact .inl ⟨rfl, hopens, hbounds, between, after, rfl, by simpa using hbetween⟩
      | cons head before =>
        obtain ⟨rfl, rfl⟩ := List.cons.inj hsplit
        exact .inr ⟨before, between, after, rfl, hopens, hbounds, hbetween⟩

theorem spans_pairwise {r : α → α → Prop} (hrefl : ∀ entry, r entry entry)
    (hopens : ∀ entry, opens entry → bounds entry) (h : trace.Pairwise r) :
    (spans opens bounds trace).Pairwise fun span next ↦ r span.2 next.1 := by
  induction trace with
  | nil => exact .nil
  | cons entry later ih =>
    obtain ⟨-, hlater⟩ := List.pairwise_cons.mp h
    rw [spans]
    refine List.pairwise_append.mpr ⟨?_, ih hlater, ?_⟩
    · split_ifs
      · cases later.find? bounds <;> simp
      · exact .nil
    · intro span hspan next hnext
      obtain ⟨first, last⟩ := span
      obtain ⟨start, stop⟩ := next
      split_ifs at hspan
      · obtain ⟨closing, hfind, hpair⟩ := Option.map_eq_some_iff.mp (Option.mem_toList.mp hspan)
        obtain ⟨rfl, rfl⟩ := Prod.mk.inj hpair
        obtain ⟨-, between, after, rfl, hbetween⟩ := List.find?_eq_some_iff_append.mp hfind
        obtain ⟨before, inside, rest, hsplit, hstart, -⟩ := mem_spans_iff.mp hnext
        -- The next span begins at a bound, so not between the first one and its end.
        have hmem : start ∈ between ++ closing :: after := by
          rw [hsplit]
          exact List.mem_append_right _ List.mem_cons_self
        rcases List.mem_append.mp hmem with hin | hin
        · have hno := hbetween start hin
          rw [hopens start hstart] at hno
          cases hno
        · have hafter := (List.pairwise_append.mp hlater).2.1
          rcases List.mem_cons.mp hin with rfl | hin
          · exact hrefl _
          · exact (List.pairwise_cons.mp hafter).1 start hin
      · cases hspan

theorem length_filter_opens_le (hopens : ∀ entry, opens entry → bounds entry) :
    (trace.filter opens).length ≤ (spans opens bounds trace).length + 1 := by
  induction trace with
  | nil => exact Nat.zero_le _
  | cons entry later ih =>
    rw [spans, List.length_append, List.filter_cons]
    split_ifs with hentry
    · cases hfind : later.find? bounds with
      | none =>
        have hnone : later.filter opens = [] := by
          refine List.filter_eq_nil_iff.mpr fun next hnext hopen ↦ ?_
          exact List.find?_eq_none.mp hfind next hnext (hopens next hopen)
        rw [hnone]
        simp
      | some closing =>
        simp only [List.length_cons, Option.map_some, Option.toList_some, List.length_nil]
        omega
    · rw [List.length_nil, Nat.zero_add]
      exact ih

end MyDiffbot.Incremental
