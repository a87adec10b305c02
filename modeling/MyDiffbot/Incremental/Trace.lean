import Mathlib.Algebra.Notation.Defs
import Mathlib.Data.List.Chain

/-!
# Traces

Facts about the lists that runs leave behind: which entry of a trace a component of the state comes
from, when an entry of one kind is answered before an entry of another kind, and what a display
shows that is cleared and updated by the marks of a trace.
-/

namespace MyDiffbot.Incremental

/-! ## Last replacements -/

/-- A component that each message either replaces or keeps is the last replacement in the end. -/
theorem foldl_eq_getLastD {σ μ β : Type*} {step : σ → μ → σ} {replaced : μ → Option β}
    (component : σ → β)
    (hstep : ∀ s message, component (step s message) = (replaced message).getD (component s))
    (messages : List μ) (s : σ) :
    component (messages.foldl step s) = (messages.filterMap replaced).getLastD (component s) := by
  induction messages generalizing s with
  | nil => rfl
  | cons message messages ih =>
    rw [List.foldl_cons, ih, hstep, List.filterMap_cons]
    cases replaced message with
    | none => rfl
    | some value => exact List.getLastD_cons.symm

theorem getLastD_mem {α : Type} {values : List α} (h : values ≠ []) (default : α) :
    values.getLastD default ∈ values := by
  cases values with
  | nil => exact absurd rfl h
  | cons value values =>
    rw [List.getLastD_cons]
    exact List.getLastD_mem_cons

/-- A loop in which one key replaces a component by a value ends with that value, if the key occurs
and has one. -/
theorem foldl_overlay {σ κ β : Type*} [DecidableEq κ] {step : σ → κ → σ} (component : σ → β)
    {target : κ} {value : Option β}
    (hstep : ∀ s key, component (step s key) =
      if key = target then value.getD (component s) else component s)
    (keys : List κ) (s : σ) :
    component (keys.foldl step s) =
      if target ∈ keys then value.getD (component s) else component s := by
  induction keys generalizing s with
  | nil => rfl
  | cons key keys ih =>
    rw [List.foldl_cons, ih, hstep]
    by_cases hkey : key = target
    · subst hkey
      cases value <;> simp
    · simp only [if_neg hkey, List.mem_cons, Ne.symm hkey, false_or]

/-! ## Entries behind others -/

/-- What holds of each entry of a trace behind the ones before it, and of each entry of a
continuation, holds of each entry of both. -/
theorem forall_split_append {α : Type*} {holds : List α → α → Prop} {trace more : List α}
    (h : ∀ front entry back, trace = front ++ entry :: back → holds front entry)
    (hmore : ∀ front entry back, more = front ++ entry :: back → holds (trace ++ front) entry) :
    ∀ front entry back, trace ++ more = front ++ entry :: back → holds front entry := by
  intro front entry back hsplit
  rcases List.append_eq_append_iff.mp hsplit with ⟨middle, rfl, hrest⟩ | ⟨middle, rfl, hrest⟩
  · exact hmore middle entry back hrest
  · cases middle with
    | nil =>
      have hfirst := hmore [] entry back hrest.symm
      rwa [List.append_nil, List.append_nil] at hfirst
    | cons first middle =>
      obtain ⟨rfl, rfl⟩ := List.cons.inj hrest
      exact h front _ middle rfl

/-- An entry that is none of the first ones is the last one. -/
theorem eq_last_of_split {α : Type*} {entries front back : List α} {last entry : α}
    (hsplit : entries ++ [last] = front ++ entry :: back) (hnew : entry ∉ entries) :
    front = entries ∧ entry = last := by
  rcases List.append_eq_append_iff.mp hsplit with ⟨middle, rfl, hrest⟩ | ⟨middle, rfl, hrest⟩
  · obtain ⟨rfl, hlast⟩ | ⟨_, hnil⟩ := List.singleton_eq_append_iff.mp hrest
    · exact ⟨List.append_nil _, (List.cons.inj hlast).1⟩
    · cases hnil
  · cases middle with
    | nil => exact ⟨(List.append_nil front).symm, (List.cons.inj hrest).1⟩
    | cons first middle =>
      obtain ⟨rfl, -⟩ := List.cons.inj hrest
      exact absurd (List.mem_append_right front List.mem_cons_self) hnew

theorem forall_split_append_singleton {α : Type*} {holds : List α → α → Prop} {trace : List α}
    {last : α} (h : ∀ front entry back, trace = front ++ entry :: back → holds front entry)
    (hlast : holds trace last) :
    ∀ front entry back, trace ++ [last] = front ++ entry :: back → holds front entry := by
  refine forall_split_append h fun front entry back hsplit ↦ ?_
  obtain ⟨rfl, hentry⟩ | ⟨_, hnil⟩ := List.singleton_eq_append_iff.mp hsplit
  · obtain ⟨rfl, -⟩ := List.cons.inj hentry
    rwa [List.append_nil]
  · cases hnil

/-! ## Answers -/

section AnsweredBetween

variable {α : Type*}

/-- Some entry stops before one asks. -/
def StopsBefore (stops asks : α → Prop) (trace : List α) : Prop :=
  ∃ front entry back, trace = front ++ entry :: back ∧ stops entry ∧ ∀ earlier ∈ front, ¬asks earlier

theorem StopsBefore.head {stops asks : α → Prop} {entry : α} (hstops : stops entry)
    (trace : List α) : StopsBefore stops asks (entry :: trace) :=
  ⟨[], entry, trace, rfl, hstops, fun _ hmem ↦ absurd hmem List.not_mem_nil⟩

/-- If some entry stops behind one that asks, and none asks in between, then there is an answer
between the one that asks and the first one after it that falls silent, unless another one asks
before that. -/
def AnsweredBetween (asks stops silent answers : α → Prop) (trace : List α) : Prop :=
  ∀ before last between first after, trace = before ++ last :: (between ++ first :: after) →
    asks last → StopsBefore stops asks (between ++ first :: after) → silent first →
    (∀ entry ∈ between, ¬asks entry ∧ ¬silent entry) → ∃ entry ∈ between, answers entry

/-- Where whatever neither asks nor is silent answers, it is enough to look at neighbours. -/
theorem answeredBetween_iff {asks stops silent answers : α → Prop} {trace : List α}
    (hanswers : ∀ entry ∈ trace, ¬asks entry → ¬silent entry → answers entry) :
    AnsweredBetween asks stops silent answers trace ↔
      ∀ before last first after, trace = before ++ last :: first :: after → asks last →
        StopsBefore stops asks (first :: after) → ¬silent first := by
  constructor
  · intro hbetween before last first after htrace hasks hstops hsilent
    obtain ⟨entry, hentry, _⟩ := hbetween before last [] first after htrace hasks hstops hsilent
      fun entry hentry ↦ absurd hentry List.not_mem_nil
    exact absurd hentry List.not_mem_nil
  · intro hneighbours before last between first after htrace hasks hstops hsilent hquiet
    cases between with
    | nil => exact absurd hsilent (hneighbours before last first after htrace hasks hstops)
    | cons entry between =>
      obtain ⟨hnotAsks, hnotSilent⟩ := hquiet entry List.mem_cons_self
      exact ⟨entry, List.mem_cons_self, hanswers entry (by simp [htrace]) hnotAsks hnotSilent⟩

end AnsweredBetween

/-! ## Displays -/

/-- What can happen to a shown value: it is cleared, a new value is received, the last value
received is shown. -/
inductive Mark (α : Type)
  | cleared
  | received (value : α)
  | shown
  deriving DecidableEq

namespace Mark

variable {α : Type}

def value? : Mark α → Option α
  | received value => some value
  | _ => none

/-- The value received last and the value shown, after one more mark. -/
def display [Zero α] (state : α × α) : Mark α → α × α
  | cleared => (state.1, 0)
  | received value => (value, state.2)
  | shown => (state.1, state.1)

/-- The last value received, if any was. -/
def lastReceived (default : α) (trace : List (Mark α)) : α :=
  (trace.filterMap value?).getLastD default

theorem foldl_display_fst [Zero α] (trace : List (Mark α)) (state : α × α) :
    (trace.foldl display state).1 = lastReceived state.1 trace := by
  refine foldl_eq_getLastD Prod.fst (fun state mark ↦ ?_) trace state
  cases mark <;> rfl

/-- Receiving values does not change what is shown. -/
theorem foldl_display_received [Zero α] (values : List α) (state : α × α) :
    (values.map received).foldl display state = (values.getLastD state.1, state.2) := by
  induction values generalizing state with
  | nil => rfl
  | cons value values ih =>
    rw [List.map_cons, List.foldl_cons, ih, List.getLastD_cons]
    rfl

/-- A mark that changes what is shown. -/
def Writes : Mark α → Prop
  | received _ => False
  | _ => True

theorem foldl_display_of_not_writes [Zero α] {trace : List (Mark α)}
    (hwrites : ∀ mark ∈ trace, ¬mark.Writes) (state : α × α) :
    (trace.foldl display state).2 = state.2 := by
  induction trace generalizing state with
  | nil => rfl
  | cons mark trace ih =>
    obtain ⟨hmark, htrace⟩ := List.forall_mem_cons.mp hwrites
    rw [List.foldl_cons, ih htrace]
    cases mark with
    | received value => rfl
    | cleared | shown => exact absurd trivial hmark

/-- A trace has a last mark that changes what is shown, unless it has none. -/
theorem exists_last_writes (trace : List (Mark α)) :
    (∀ mark ∈ trace, ¬mark.Writes) ∨
      ∃ front mark back, trace = front ++ mark :: back ∧ mark.Writes ∧
        ∀ later ∈ back, ¬later.Writes := by
  induction trace with
  | nil => exact .inl fun _ hmem ↦ absurd hmem List.not_mem_nil
  | cons first trace ih =>
    rcases ih with hnone | ⟨front, mark, back, rfl, hmark, hback⟩
    · by_cases hfirst : first.Writes
      · exact .inr ⟨[], first, trace, rfl, hfirst, hnone⟩
      · exact .inl (List.forall_mem_cons.mpr ⟨hfirst, hnone⟩)
    · exact .inr ⟨first :: front, mark, back, rfl, hmark, hback⟩

/-- What is shown after a trace that clears it or shows a value is not zero exactly when the last
such mark shows a value, and the value received last before it is not zero. -/
theorem shown_ne_zero_iff [Zero α] (state : α × α) {trace : List (Mark α)}
    (hcleared : cleared ∈ trace) :
    (trace.foldl display state).2 ≠ 0 ↔
      ∃ front back, trace = front ++ shown :: back ∧ (∀ mark ∈ back, ¬mark.Writes) ∧
        lastReceived state.1 front ≠ 0 := by
  have hlast : ∀ front mark back, (∀ later ∈ back, ¬later.Writes) →
      ((front ++ mark :: back).foldl display state).2 =
        (display (front.foldl display state) mark).2 := by
    intro front mark back hback
    rw [List.foldl_append, List.foldl_cons, foldl_display_of_not_writes hback]
  constructor
  · intro hshown
    rcases exists_last_writes trace with hnone | ⟨front, mark, back, rfl, hmark, hback⟩
    · exact absurd trivial (hnone cleared hcleared)
    · rw [hlast front mark back hback] at hshown
      cases mark with
      | cleared => exact absurd rfl hshown
      | received value => exact absurd hmark id
      | shown =>
        rw [display, foldl_display_fst] at hshown
        exact ⟨front, back, rfl, hback, hshown⟩
  · rintro ⟨front, back, rfl, hback, hreceived⟩
    rw [hlast front shown back hback, display, foldl_display_fst]
    exact hreceived

end Mark

end MyDiffbot.Incremental
