import MyDiffbot.Incremental.Trace
import Mathlib.Data.List.Basic
import Mathlib.Data.List.Induction

/-!
# Vectors that are sent when they change

A peer is kept informed of a vector. In each cycle some components are wanted at a value and the
others are left as they are; the vector is sent if that changes it, and the one sent last is
remembered. What the peer was told last is then the latest wanted value of every component
(`Tracks.lastSent_eq`), although only changes are sent.
-/

namespace MyDiffbot.Incremental

variable {ι α β : Type*}

/-- One cycle: the values that were wanted, and the frames that were sent. -/
structure Update (ι α β : Type*) where
  wanted : ι → Option α
  frames : List (ι → β)

/-- The wanted values over those sent last. -/
def overlay (wanted : ι → Option α) (sent : ι → α) : ι → α := fun i ↦ (wanted i).getD (sent i)

/-- The vector sent last: a cycle that sends anything sends its overlay. -/
def lastSent (seed : ι → α) (trace : List (Update ι α β)) : ι → α :=
  trace.foldl (fun sent update ↦
    if update.frames = [] then sent else overlay update.wanted sent) seed

/-- The latest wanted value of a component, if there was one. -/
def latest? (trace : List (Update ι α β)) (i : ι) : Option α :=
  (trace.filterMap fun update ↦ update.wanted i).getLast?

/-- A cycle sends its overlay, encoded, exactly if it differs from the vector sent last. -/
structure Update.Follows (encode : α → β) (sent : ι → α) (update : Update ι α β) : Prop where
  silent : overlay update.wanted sent = sent → update.frames = []
  sends : overlay update.wanted sent ≠ sent →
    update.frames = [encode ∘ overlay update.wanted sent]

/-- Every cycle follows the ones before it. -/
def Tracks (encode : α → β) (seed : ι → α) (trace : List (Update ι α β)) : Prop :=
  ∀ front update back, trace = front ++ update :: back →
    update.Follows encode (lastSent seed front)

theorem overlay_eq_iff {wanted : ι → Option α} {sent : ι → α} :
    overlay wanted sent = sent ↔ ∀ i, ∀ value ∈ wanted i, sent i = value := by
  rw [funext_iff]
  refine forall_congr' fun i ↦ ?_
  unfold overlay
  cases wanted i with
  | none => simp
  | some value => simp [eq_comm]

theorem latest?_append_singleton (trace : List (Update ι α β)) (update : Update ι α β) (i : ι) :
    latest? (trace ++ [update]) i = (update.wanted i).or (latest? trace i) := by
  unfold latest?
  rw [List.filterMap_append, List.getLast?_append, List.filterMap_cons]
  cases update.wanted i <;> rfl

theorem lastSent_append_singleton (seed : ι → α) (trace : List (Update ι α β))
    (update : Update ι α β) :
    lastSent seed (trace ++ [update]) =
      if update.frames = [] then lastSent seed trace
      else overlay update.wanted (lastSent seed trace) := by
  unfold lastSent
  rw [List.foldl_append]
  rfl

/-- Where nothing is sent the overlay is the vector sent last. -/
theorem Update.Follows.lastSent_eq {encode : α → β} {seed : ι → α} {trace : List (Update ι α β)}
    {update : Update ι α β} (h : update.Follows encode (lastSent seed trace)) :
    lastSent seed (trace ++ [update]) = overlay update.wanted (lastSent seed trace) := by
  rw [lastSent_append_singleton]
  split_ifs with hnone
  · by_contra hchange
    rw [h.sends (Ne.symm hchange)] at hnone
    cases hnone
  · rfl

namespace Tracks

variable {encode : α → β} {seed : ι → α} {trace front back : List (Update ι α β)}
  {update : Update ι α β}

theorem nil : Tracks encode seed ([] : List (Update ι α β)) := by
  intro front update back hnil
  cases front <;> cases hnil

theorem append_singleton (h : Tracks encode seed trace)
    (hfollows : update.Follows encode (lastSent seed trace)) :
    Tracks encode seed (trace ++ [update]) :=
  forall_split_append_singleton h hfollows

theorem of_append (h : Tracks encode seed (front ++ back)) : Tracks encode seed front := by
  intro first update rest hsplit
  refine h first update (rest ++ back) ?_
  rw [hsplit, List.append_assoc]
  rfl

/-- The vector sent last has the latest wanted value of every component. -/
theorem lastSent_eq (h : Tracks encode seed trace) (i : ι) :
    lastSent seed trace i = (latest? trace i).getD (seed i) := by
  induction trace using List.reverseRecOn with
  | nil => rfl
  | append_singleton trace update ih =>
    rw [(h trace update [] rfl).lastSent_eq, latest?_append_singleton, overlay, ih h.of_append]
    cases update.wanted i <;> rfl

/-- The last frame is the vector sent last. -/
theorem getLastD_frames (h : Tracks encode seed trace) :
    (trace.flatMap Update.frames).getLastD (encode ∘ seed) = encode ∘ lastSent seed trace := by
  induction trace using List.reverseRecOn with
  | nil => rfl
  | append_singleton trace update ih =>
    have hfollows := h trace update [] rfl
    rw [List.flatMap_append, hfollows.lastSent_eq]
    by_cases hchange : overlay update.wanted (lastSent seed trace) = lastSent seed trace
    · rw [hchange, ← ih h.of_append]
      simp [hfollows.silent hchange]
    · simp [hfollows.sends hchange]

/-- Values that are wanted again are not sent again. -/
theorem frames_eq_nil (h : Tracks encode seed (front ++ update :: back))
    (hrepeats : ∀ i, ∀ value ∈ update.wanted i, (latest? front i).getD (seed i) = value) :
    update.frames = [] := by
  refine (h front update back rfl).silent (overlay_eq_iff.mpr fun i value hvalue ↦ ?_)
  rw [lastSent_eq h.of_append]
  exact hrepeats i value hvalue

theorem frames_ne_nil_iff (h : Tracks encode seed (front ++ update :: back)) :
    update.frames ≠ [] ↔ overlay update.wanted (lastSent seed front) ≠ lastSent seed front := by
  have hfollows := h front update back rfl
  constructor
  · exact fun hframes hsame ↦ hframes (hfollows.silent hsame)
  · intro hchange
    rw [hfollows.sends hchange]
    exact List.cons_ne_nil _ _

end Tracks

end MyDiffbot.Incremental
