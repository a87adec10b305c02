import MyDiffbot.Incremental.Machine

/-!
# Conversations

A protocol seen from one side: it has phases, and blocks of words that lead from phase to phase. A
conversation says blocks one after the other. A machine refines the protocol if each of its steps
says a block between phases that its states are in, and every run of it is then a conversation
(`Machine.conversation_of_run`), so that what the blocks guarantee holds of its whole output.
-/

namespace MyDiffbot.Incremental

variable {π ω : Type*}

/-- The words of some blocks, each of which begins in the phase where the one before it ends. -/
inductive Conversation (block : π → List ω → π → Prop) : π → List ω → π → Prop
  | nil (p : π) : Conversation block p [] p
  | snoc {p q r : π} {said words : List ω} :
      Conversation block p said q → block q words r → Conversation block p (said ++ words) r

namespace Conversation

variable {block : π → List ω → π → Prop} {p q : π} {said : List ω}

/-- What every block preserves of the phase and the words so far, a conversation preserves. -/
theorem invariant {holds : π → List ω → Prop}
    (hblock : ∀ {q said words r}, holds q said → block q words r → holds r (said ++ words))
    (h : Conversation block p said q) (hstart : holds p []) : holds q said := by
  induction h with
  | nil => exact hstart
  | snoc _ hlast ih => exact hblock ih hlast

/-- Words that are placed well in their block, or well in what was said before it, are placed well
in a conversation; what is said later must not matter any more. -/
theorem placed_append {placed : List ω → ω → List ω → Prop} {words : List ω}
    (hmore : ∀ {front word back later}, placed front word back →
      placed front word (back ++ later))
    (hsaid : ∀ front word back, said = front ++ word :: back → placed front word back)
    (hwords : ∀ front word back, words = front ++ word :: back →
      placed (said ++ front) word back) :
    ∀ front word back, said ++ words = front ++ word :: back → placed front word back := by
  intro front word back hsplit
  rcases List.append_eq_append_iff.mp hsplit with ⟨middle, rfl, hrest⟩ | ⟨middle, rfl, hrest⟩
  · exact hwords middle word back hrest
  · cases middle with
    | nil =>
      have hfirst := hwords [] word back hrest.symm
      rwa [List.append_nil, List.append_nil] at *
    | cons first middle =>
      obtain ⟨rfl, rfl⟩ := List.cons.inj hrest
      exact hmore (hsaid front _ middle rfl)

end Conversation

/-- A machine whose steps say blocks says a conversation in every run. -/
theorem Machine.conversation_of_run {σ ε : Type*} {machine : Machine σ ε ω}
    {block : π → List ω → π → Prop} (inPhase : σ → π → Prop) {s final : σ} {p : π}
    {events : List ε} {outputs : List ω}
    (hstep : ∀ {s p event next outputs}, inPhase s p →
      machine.step s event = some (next, outputs) → ∃ q, block p outputs q ∧ inPhase next q)
    (hstart : inPhase s p) (hrun : machine.run s events = some (final, outputs)) :
    ∃ q, Conversation block p outputs q ∧ inPhase final q := by
  refine Machine.run_invariant_nil
    (fun s trace ↦ ∃ q, Conversation block p trace q ∧ inPhase s q) ?_ hrun
    (machine.along_true s events) ⟨p, .nil p, hstart⟩
  rintro s trace event next outputs ⟨q, hsaid, hphase⟩ - hnext
  obtain ⟨r, hblock, hlast⟩ := hstep hphase hnext
  exact ⟨r, hsaid.snoc hblock, hlast⟩

end MyDiffbot.Incremental
