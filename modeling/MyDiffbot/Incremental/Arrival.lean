import MyDiffbot.Incremental.Window
import Mathlib.Data.List.Chain
import Mathlib.Data.List.Forall2

/-!
# Windows in order of arrival

A window over a stream has its ends at two positions. However often anchors are dropped and taken
again between them, the windows of one observer lie one behind the other (`Anchored`).
-/

namespace MyDiffbot.Incremental

variable {φ : Type*} {frames : List φ} {windows : List (φ × φ)} {anchor : φ}

/-- A window goes from one position of a stream to a later one. -/
def Between (frames : List φ) (window : φ × φ) (ends : ℕ × ℕ) : Prop :=
  ends.1 < ends.2 ∧ frames[ends.1]? = some window.1 ∧ frames[ends.2]? = some window.2

/-- No window begins before the previous one has ended. -/
def InOrder (frames : List φ) (windows : List (φ × φ)) : Prop :=
  ∃ ends, List.Forall₂ (Between frames) windows ends ∧
    ends.IsChain fun first second ↦ first.2 ≤ second.1

/-- Windows in order, and an anchor at a position that none of them reaches beyond. -/
def Anchored (frames : List φ) (windows : List (φ × φ)) (anchor : φ) : Prop :=
  ∃ ends position, List.Forall₂ (Between frames) windows ends ∧
    ends.IsChain (fun first second ↦ first.2 ≤ second.1) ∧
    frames[position]? = some anchor ∧ ∀ last ∈ ends.getLast?, last.2 ≤ position

theorem getElem?_append_of_eq_some {position : ℕ} {frame : φ} (h : frames[position]? = some frame)
    (later : List φ) : (frames ++ later)[position]? = some frame := by
  obtain ⟨hlt, _⟩ := List.getElem?_eq_some_iff.mp h
  rw [List.getElem?_append_left hlt, h]

theorem Between.append {window : φ × φ} {ends : ℕ × ℕ} (h : Between frames window ends)
    (later : List φ) : Between (frames ++ later) window ends :=
  ⟨h.1, getElem?_append_of_eq_some h.2.1 later, getElem?_append_of_eq_some h.2.2 later⟩

/-- The ends of the windows are frames of the stream. -/
theorem InOrder.mem {window : φ × φ} (h : InOrder frames windows) (hmem : window ∈ windows) :
    window.1 ∈ frames ∧ window.2 ∈ frames := by
  obtain ⟨ends, hbetween, -⟩ := h
  induction hbetween with
  | nil => cases hmem
  | cons hfirst _ ih =>
    rcases List.mem_cons.mp hmem with rfl | hmem
    · exact ⟨List.mem_of_getElem? hfirst.2.1, List.mem_of_getElem? hfirst.2.2⟩
    · exact ih hmem

namespace Anchored

theorem singleton (frame : φ) : Anchored [frame] [] frame :=
  ⟨[], 0, .nil, .nil, rfl, fun _ hmem ↦ (by cases hmem)⟩

theorem inOrder (h : Anchored frames windows anchor) : InOrder frames windows := by
  obtain ⟨ends, _, hbetween, hchain, _⟩ := h
  exact ⟨ends, hbetween, hchain⟩

/-- A frame that is passed over. -/
theorem keep (h : Anchored frames windows anchor) (frame : φ) :
    Anchored (frames ++ [frame]) windows anchor := by
  obtain ⟨ends, position, hbetween, hchain, hanchor, hlast⟩ := h
  exact ⟨ends, position, hbetween.imp fun _ _ hwindow ↦ hwindow.append _, hchain,
    getElem?_append_of_eq_some hanchor _, hlast⟩

/-- A frame that becomes the anchor. -/
theorem restart (h : Anchored frames windows anchor) (frame : φ) :
    Anchored (frames ++ [frame]) windows frame := by
  obtain ⟨ends, position, hbetween, hchain, hanchor, hlast⟩ := h
  obtain ⟨hlt, _⟩ := List.getElem?_eq_some_iff.mp hanchor
  refine ⟨ends, frames.length, hbetween.imp fun _ _ hwindow ↦ hwindow.append _, hchain,
    List.getElem?_concat_length, fun last hmem ↦ ?_⟩
  exact (hlast last hmem).trans hlt.le

/-- A frame that closes the window behind the anchor. -/
theorem close (h : Anchored frames windows anchor) (frame : φ) :
    Anchored (frames ++ [frame]) (windows ++ [(anchor, frame)]) frame := by
  obtain ⟨ends, position, hbetween, hchain, hanchor, hlast⟩ := h
  obtain ⟨hlt, _⟩ := List.getElem?_eq_some_iff.mp hanchor
  have hnew : Between (frames ++ [frame]) (anchor, frame) (position, frames.length) :=
    ⟨hlt, getElem?_append_of_eq_some hanchor _, List.getElem?_concat_length⟩
  refine ⟨ends ++ [(position, frames.length)], frames.length, ?_, ?_,
    List.getElem?_concat_length, fun last hmem ↦ ?_⟩
  · exact List.rel_append (hbetween.imp fun _ _ hwindow ↦ hwindow.append _)
      (.cons hnew .nil)
  · refine List.isChain_append.mpr ⟨hchain, .singleton _, fun last hmem first hfirst ↦ ?_⟩
    obtain rfl := Option.some.inj hfirst
    exact hlast last hmem
  · rw [List.getLast?_concat] at hmem
    rw [← Option.some.inj hmem]

end Anchored

end MyDiffbot.Incremental
