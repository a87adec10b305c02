import Mathlib.Data.List.Basic

/-!
# Interleaved streams

Events of several kinds arrive in one sequence. Two sequences carry the same streams if they have
the same subsequence of every kind. If the handlers of different kinds commute, the state after a
sequence depends on its streams only (`SameStreams.foldl_eq`).
-/

namespace MyDiffbot.Incremental

variable {σ ε κ : Type*} {kind : ε → κ}

section streams

variable [DecidableEq κ]

/-- The subsequence of one kind. -/
def stream (kind : ε → κ) (k : κ) (events : List ε) : List ε :=
  events.filter fun event ↦ kind event = k

def SameStreams (kind : ε → κ) (events other : List ε) : Prop :=
  ∀ k, stream kind k events = stream kind k other

theorem stream_cons (k : κ) (event : ε) (events : List ε) :
    stream kind k (event :: events) =
      if kind event = k then event :: stream kind k events else stream kind k events := by
  unfold stream
  rw [List.filter_cons]
  simp only [decide_eq_true_eq]

theorem stream_append (k : κ) (front back : List ε) :
    stream kind k (front ++ back) = stream kind k front ++ stream kind k back :=
  List.filter_append front back

namespace SameStreams

variable {event next : ε} {events other front back : List ε}

/-- Neighbours of different kinds may change places. -/
theorem swap (front back : List ε) (h : kind event ≠ kind next) :
    SameStreams kind (front ++ event :: next :: back) (front ++ next :: event :: back) := by
  intro k
  simp only [stream_append, stream_cons]
  by_cases hevent : kind event = k
  · have hnext : kind next ≠ k := fun hnext ↦ h (hevent.trans hnext.symm)
    simp only [hevent, hnext, if_true, if_false]
  · simp only [hevent, if_false]

/-- The first event of one sequence comes, in the other one, after events of other kinds. -/
theorem exists_eq_append (h : SameStreams kind (event :: events) other) :
    ∃ front back, other = front ++ event :: back ∧
      (∀ earlier ∈ front, kind earlier ≠ kind event) ∧
      SameStreams kind events (front ++ back) := by
  have hown := h (kind event)
  rw [stream_cons, if_pos rfl] at hown
  obtain ⟨front, back, rfl, hfront, -, hback⟩ := List.filter_eq_cons_iff.mp hown.symm
  have hother : ∀ earlier ∈ front, kind earlier ≠ kind event := by
    intro earlier hmem heq
    exact hfront earlier hmem (decide_eq_true heq)
  refine ⟨front, back, rfl, hother, fun k ↦ ?_⟩
  have hstream := h k
  rw [stream_append, stream_cons, stream_cons] at hstream
  rw [stream_append]
  by_cases hk : kind event = k
  · have hnone : stream kind k front = [] := by
      refine List.filter_eq_nil_iff.mpr fun earlier hmem heq ↦ ?_
      exact hother earlier hmem ((of_decide_eq_true heq).trans hk.symm)
    rw [if_pos hk, if_pos hk, hnone] at hstream
    rw [hnone]
    exact (List.cons.inj hstream).2
  · rwa [if_neg hk, if_neg hk] at hstream

end SameStreams

end streams

/-- Events of different kinds are handled in either order with the same result. -/
def Commutes (kind : ε → κ) (step : σ → ε → σ) : Prop :=
  ∀ s first second, kind first ≠ kind second →
    step (step s first) second = step (step s second) first

section foldl

variable {step : σ → ε → σ}

/-- An event may be handled before earlier ones of other kinds. -/
theorem Commutes.foldl_append (h : Commutes kind step) {event : ε} {front : List ε}
    (hfront : ∀ earlier ∈ front, kind earlier ≠ kind event) (back : List ε) (s : σ) :
    (front ++ event :: back).foldl step s = (event :: (front ++ back)).foldl step s := by
  induction front generalizing s with
  | nil => rfl
  | cons earlier front ih =>
    rw [List.cons_append, List.foldl_cons, ih fun later hlater ↦
      hfront later (List.mem_cons_of_mem _ hlater)]
    simp only [List.cons_append, List.foldl_cons]
    rw [h s earlier event (hfront earlier List.mem_cons_self)]

/-- Sequences with the same streams lead to the same state. -/
theorem SameStreams.foldl_eq [DecidableEq κ] {events other : List ε} (h : SameStreams kind events other)
    (hcommutes : Commutes kind step) (s : σ) : events.foldl step s = other.foldl step s := by
  induction events generalizing other s with
  | nil =>
    cases other with
    | nil => rfl
    | cons event other =>
      have hown := h (kind event)
      rw [stream_cons, if_pos rfl] at hown
      cases hown
  | cons event events ih =>
    obtain ⟨front, back, rfl, hfront, hrest⟩ := h.exists_eq_append
    rw [hcommutes.foldl_append hfront, List.foldl_cons, List.foldl_cons, ih hrest]

end foldl

end MyDiffbot.Incremental
