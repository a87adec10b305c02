import MyDiffbot.Incremental.Trace

/-!
# Values that are refreshed

A peer that does not answer is shown a value. In each cycle some value is wanted, or none; a wanted
value is sent unless it is the one sent last and that was recently enough. What the peer was sent
last is then, after every cycle that wants a value, that value, sent recently.
-/

namespace MyDiffbot.Incremental

variable {τ β : Type*}

/-- One cycle: its time, the value that is wanted, and the values that are sent. -/
structure Refresh (τ β : Type*) where
  now : τ
  wanted : Option β
  frames : List β
  deriving DecidableEq

/-- The values sent, with the times of their cycles. -/
def sentLog (trace : List (Refresh τ β)) : List (τ × β) :=
  trace.flatMap fun cycle ↦ cycle.frames.map fun value ↦ (cycle.now, value)

/-- A cycle sends the wanted value, if there is one, unless it is the last one of a recent time. -/
structure Refresh.Follows (recent : τ → τ → Prop) (last : Option (τ × β)) (cycle : Refresh τ β) :
    Prop where
  silent : cycle.wanted = none → cycle.frames = []
  answers : ∀ value, cycle.wanted = some value → cycle.frames = [value] ∨
    cycle.frames = [] ∧ ∃ sentAt, last = some (sentAt, value) ∧ recent cycle.now sentAt

/-- Every cycle follows the ones before it. -/
def Refreshes (recent : τ → τ → Prop) (trace : List (Refresh τ β)) : Prop :=
  ∀ front cycle back, trace = front ++ cycle :: back → cycle.Follows recent (sentLog front).getLast?

theorem sentLog_append_singleton (trace : List (Refresh τ β)) (cycle : Refresh τ β) :
    sentLog (trace ++ [cycle]) =
      sentLog trace ++ cycle.frames.map fun value ↦ (cycle.now, value) := by
  rw [sentLog, List.flatMap_append, List.flatMap_singleton]
  rfl

theorem getLast?_sentLog_append_singleton (trace : List (Refresh τ β)) (cycle : Refresh τ β) :
    (sentLog (trace ++ [cycle])).getLast? =
      (cycle.frames.getLast?.map fun value ↦ (cycle.now, value)).or (sentLog trace).getLast? := by
  rw [sentLog_append_singleton, List.getLast?_append, List.getLast?_map]

/-- What was sent was sent in some cycle. -/
theorem exists_of_mem_sentLog {trace : List (Refresh τ β)} {entry : τ × β}
    (hmem : entry ∈ sentLog trace) : ∃ cycle ∈ trace, cycle.now = entry.1 := by
  obtain ⟨cycle, hcycle, hentry⟩ := List.mem_flatMap.mp hmem
  obtain ⟨value, _, rfl⟩ := List.mem_map.mp hentry
  exact ⟨cycle, hcycle, rfl⟩

namespace Refresh.Follows

variable {recent : τ → τ → Prop} {last : Option (τ × β)} {cycle : Refresh τ β}

theorem length_frames_le (h : cycle.Follows recent last) : cycle.frames.length ≤ 1 := by
  cases hwanted : cycle.wanted with
  | none =>
    rw [h.silent hwanted]
    exact Nat.zero_le _
  | some value =>
    rcases h.answers value hwanted with hsent | ⟨hnone, _⟩
    · rw [hsent, List.length_singleton]
    · rw [hnone]
      exact Nat.zero_le _

/-- After a cycle that wants a value, it is the last one and recent. -/
theorem getLast?_sentLog {trace : List (Refresh τ β)} {value : β} (hrefl : ∀ now, recent now now)
    (h : cycle.Follows recent (sentLog trace).getLast?) (hwanted : cycle.wanted = some value) :
    ∃ sentAt, (sentLog (trace ++ [cycle])).getLast? = some (sentAt, value) ∧
      recent cycle.now sentAt := by
  rw [getLast?_sentLog_append_singleton]
  rcases h.answers value hwanted with hsent | ⟨hnone, sentAt, hlast, hrecent⟩
  · rw [hsent]
    exact ⟨cycle.now, rfl, hrefl _⟩
  · rw [hnone, hlast]
    exact ⟨sentAt, rfl, hrecent⟩

end Refresh.Follows

namespace Refreshes

variable {recent : τ → τ → Prop} {trace front back : List (Refresh τ β)} {cycle : Refresh τ β}

theorem nil : Refreshes recent ([] : List (Refresh τ β)) := by
  intro front cycle back hnil
  cases front <;> cases hnil

theorem append_singleton (h : Refreshes recent trace)
    (hfollows : cycle.Follows recent (sentLog trace).getLast?) :
    Refreshes recent (trace ++ [cycle]) :=
  forall_split_append_singleton h hfollows

end Refreshes

end MyDiffbot.Incremental
