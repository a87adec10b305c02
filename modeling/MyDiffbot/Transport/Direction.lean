import MyDiffbot.Incremental.Heading
import MyDiffbot.Transport.Kestrel
import Mathlib.Data.Int.ConditionallyCompleteOrder

/-!
# The direction of the wheels

The firmware reports unsigned wheel speeds; `OnMessageReceived` recovers their signs from the ticks
of neighbouring frames. The first frame has no predecessor and is compared with zero, although the
firmware keeps counting across restarts of the host. A wheel that is first seen at negative ticks is
reported as going backwards until its ticks change.
-/

namespace MyDiffbot.Transport

open Protocol Numeric Incremental

inductive Wheel
  | left
  | right
  deriving DecidableEq, Repr

namespace Wheel

/-- The ticks of a wheel in a frame. -/
def ticks (message : Message) : Wheel → ℤ
  | left => (WheelFeedbackPayload.ofBytes message.payload).leftEncoderTicks
  | right => (WheelFeedbackPayload.ofBytes message.payload).rightEncoderTicks

/-- The magnitude of a wheel's speed in a frame. -/
def mrps (message : Message) : Wheel → ℕ
  | left => (WheelFeedbackPayload.ofBytes message.payload).leftWheelMrps
  | right => (WheelFeedbackPayload.ofBytes message.payload).rightWheelMrps

def encoderTicks (f : Feedback) : Wheel → ℤ
  | left => f.leftEncoderTicks
  | right => f.rightEncoderTicks

def dir (f : Feedback) : Wheel → ℤ
  | left => f.leftWheelDir
  | right => f.rightWheelDir

/-- The signed speed. -/
def fwMrps (f : Feedback) : Wheel → ℤ
  | left => f.leftWheelFwMrps
  | right => f.rightWheelFwMrps

end Wheel

/-- A full-length WHEEL_FEEDBACK frame. -/
def IsWheelFeedback (message : Message) : Prop :=
  message.msgId = MsgId.wheelFeedback ∧ WheelFeedbackPayload.size ≤ message.payload.length

instance (message : Message) : Decidable (IsWheelFeedback message) :=
  inferInstanceAs (Decidable (_ ∧ _))

/-- Some messages reach the hook, each at a time. -/
def Kestrel.receive (received : List (SteadyTime × Message)) (k : Kestrel) : Kestrel :=
  received.foldl (fun k (now, message) ↦ k.onMessageReceived now message) k

/-- The ticks of a wheel in the frames received. -/
def tickLog (wheel : Wheel) (received : List (SteadyTime × Message)) : List ℤ :=
  received.map fun frame ↦ wheel.ticks frame.2

/-! ## One frame -/

/-- A wheel after a frame: the sign of a new difference, else the direction it had. -/
theorem onMessageReceived_wheel {message : Message} (hframe : IsWheelFeedback message)
    (f : Feedback) (wheel : Wheel) :
    wheel.encoderTicks (f.onMessageReceived message) = wheel.ticks message ∧
    wheel.dir (f.onMessageReceived message) =
      Feedback.direction (wheel.ticks message) (wheel.encoderTicks f) (wheel.dir f) ∧
    wheel.fwMrps (f.onMessageReceived message) =
      wheel.dir (f.onMessageReceived message) * wheel.mrps message := by
  obtain ⟨hmsg, hsize⟩ := hframe
  have hdecoded : f.onMessageReceived message =
      f.onWheelFeedback (.ofBytes message.payload) := by
    unfold Feedback.onMessageReceived
    rw [if_pos hmsg, if_neg (not_lt.mpr hsize)]
  rw [hdecoded]
  cases wheel <;> exact ⟨rfl, rfl, rfl⟩

theorem direction_eq_sign (ticks previous : ℤ) (dir : SignType) :
    Feedback.direction ticks previous dir =
      if ticks = previous then (dir : ℤ) else (SignType.sign (ticks - previous) : ℤ) := by
  unfold Feedback.direction
  rcases lt_trichotomy ticks previous with hlt | rfl | hgt
  · rw [if_pos hlt.ne, if_neg hlt.not_gt, if_neg hlt.ne, sign_neg (sub_neg.mpr hlt)]
    rfl
  · rw [if_neg (not_not.mpr rfl), if_pos rfl]
  · rw [if_pos hgt.ne', if_pos hgt, if_neg hgt.ne', sign_pos (sub_pos.mpr hgt)]
    rfl

/-! ## Some frames -/

section frames

variable {k : Kestrel} {received front : List (SteadyTime × Message)} {wheel : Wheel}

theorem receive_concat (frame : SteadyTime × Message) :
    (k.receive (front ++ [frame])).feedback =
      (k.receive front).feedback.onMessageReceived frame.2 := by
  rw [Kestrel.receive, List.foldl_append]
  rfl

/-- A fresh driver compares the first frame with zero. -/
theorem receive_wheel (hfresh : k.feedback = Feedback.initial)
    (hframes : ∀ frame ∈ received, IsWheelFeedback frame.2) (wheel : Wheel) :
    wheel.encoderTicks (k.receive received).feedback = (tickLog wheel received).getLastD 0 ∧
      wheel.dir (k.receive received).feedback = heading (0 :: tickLog wheel received) := by
  induction received using List.reverseRecOn with
  | nil =>
    change wheel.encoderTicks k.feedback = 0 ∧ wheel.dir k.feedback = 1
    rw [hfresh]
    cases wheel <;> exact ⟨rfl, rfl⟩
  | append_singleton front frame ih =>
    obtain ⟨hticks, hdir⟩ := ih fun frame hmem ↦ hframes frame (List.mem_append_left _ hmem)
    obtain ⟨hnewTicks, hnewDir, _⟩ := onMessageReceived_wheel
      (hframes frame (List.mem_append_right _ (List.mem_singleton_self _)))
      (k.receive front).feedback wheel
    have hlog : tickLog wheel (front ++ [frame]) =
        tickLog wheel front ++ [wheel.ticks frame.2] := by
      rw [tickLog, List.map_append]
      rfl
    rw [receive_concat, hnewTicks, hnewDir, hticks, hdir, direction_eq_sign, hlog]
    refine ⟨List.getLastD_concat.symm, ?_⟩
    -- The log ends with the ticks that were remembered.
    obtain ⟨earlier, hearlier⟩ : ∃ earlier, 0 :: tickLog wheel front =
        earlier ++ [(tickLog wheel front).getLastD 0] := by
      cases tickLog wheel front using List.reverseRecOn with
      | nil => exact ⟨[], rfl⟩
      | append_singleton first last _ => exact ⟨0 :: first, by rw [List.getLastD_concat]; rfl⟩
    rw [← List.cons_append, hearlier, List.append_assoc]
    change _ = ((heading (earlier ++ [_, _]) : SignType) : ℤ)
    rw [heading_append_pair]
    split_ifs <;> rfl

/-- The speed reported after a frame. -/
theorem receive_fwMrps (hfresh : k.feedback = Feedback.initial)
    (hframes : ∀ frame ∈ received, IsWheelFeedback frame.2) (wheel : Wheel) {n : ℕ}
    (hn : n < received.length) :
    wheel.fwMrps (k.receive (received.take (n + 1))).feedback =
      heading (0 :: tickLog wheel (received.take (n + 1))) * wheel.mrps received[n].2 := by
  have hframes' : ∀ frame ∈ received.take (n + 1), IsWheelFeedback frame.2 :=
    fun frame hmem ↦ hframes frame (List.mem_of_mem_take hmem)
  rw [← (receive_wheel hfresh hframes' wheel).2, List.take_succ_eq_append_getElem hn]
  obtain ⟨_, _, hspeed⟩ := onMessageReceived_wheel (hframes _ (List.getElem_mem hn))
    (k.receive (received.take n)).feedback wheel
  rw [receive_concat, hspeed]

end frames

/-! ## The direction of motion -/

section motion

variable {k : Kestrel} {received shifted : List (SteadyTime × Message)} {wheel : Wheel}

/-- After each frame a wheel's speed has the direction in which its ticks changed last. -/
def FollowsMotion (wheel : Wheel) (k : Kestrel) (received : List (SteadyTime × Message)) : Prop :=
  ∀ (n : ℕ) (hn : n < received.length),
    wheel.fwMrps (k.receive (received.take (n + 1))).feedback =
      heading (tickLog wheel (received.take (n + 1))) * wheel.mrps received[n].2

/-- The frames before the first change of a wheel's ticks report no speed. -/
def QuietUntilMove (wheel : Wheel) (received : List (SteadyTime × Message)) : Prop :=
  ∀ (n : ℕ) (hn : n < received.length), moves (tickLog wheel (received.take (n + 1))) = [] →
    wheel.mrps received[n].2 = 0

/-- The frames of one sequence with the ticks of a wheel shifted by a constant. -/
structure Shifted (wheel : Wheel) (c : ℤ) (received shifted : List (SteadyTime × Message)) :
    Prop where
  ticks : tickLog wheel shifted = (tickLog wheel received).map (· + c)
  mrps : shifted.map (fun frame ↦ wheel.mrps frame.2) =
    received.map fun frame ↦ wheel.mrps frame.2

/-- Two sequences of frames make the driver report the same speeds. -/
def SameSpeeds (wheel : Wheel) (k : Kestrel) (received shifted : List (SteadyTime × Message)) :
    Prop :=
  ∀ n < received.length, wheel.fwMrps (k.receive (shifted.take (n + 1))).feedback =
    wheel.fwMrps (k.receive (received.take (n + 1))).feedback

theorem Shifted.length_eq {c : ℤ} (h : Shifted wheel c received shifted) :
    shifted.length = received.length := by
  have hlength := congrArg List.length h.ticks
  simpa [tickLog] using hlength

theorem Shifted.take {c : ℤ} (h : Shifted wheel c received shifted) (n : ℕ) :
    tickLog wheel (shifted.take n) = (tickLog wheel (received.take n)).map (· + c) := by
  rw [tickLog, List.map_take, ← tickLog, h.ticks, ← List.map_take, tickLog, ← List.map_take, tickLog]

theorem Shifted.getElem {c : ℤ} (h : Shifted wheel c received shifted) {n : ℕ}
    (hn : n < received.length) (hn' : n < shifted.length) :
    wheel.mrps shifted[n].2 = wheel.mrps received[n].2 := by
  have hmrps := List.getElem_of_eq h.mrps (by rwa [List.length_map] : n < _)
  rwa [List.getElem_map, List.getElem_map] at hmrps

/-- The direction that is reported of a wheel first seen at `first`: until its ticks change, it is the
way there from zero. -/
def reportedDir (first : ℤ) (log : List ℤ) : SignType :=
  if moves log = [] ∧ first < 0 then -1 else heading log

theorem heading_of_still {log : List ℤ} (hstill : moves log = []) : heading log = 1 := by
  rw [heading, hstill]
  rfl

theorem heading_zero_cons (first : ℤ) (rest : List ℤ) :
    heading (0 :: first :: rest) = reportedDir first (first :: rest) := by
  rw [heading_cons_cons, heading_pair, reportedDir]
  by_cases hstill : moves (first :: rest) = []
  · simp only [hstill, heading_of_still hstill, if_true, true_and]
  · simp only [hstill, if_false, false_and]

theorem reportedDir_of_nonneg {first : ℤ} (hfirst : 0 ≤ first) (log : List ℤ) :
    reportedDir first log = heading log :=
  if_neg fun h ↦ absurd h.2 (not_lt.mpr hfirst)

/-- Wheels first seen on the same side of zero are reported alike; those seen on different sides
only if they report no speed until they move. -/
theorem reportedDir_mul_eq_iff (wheel : Wheel) (received : List (SteadyTime × Message))
    (first other : ℤ) :
    (∀ (n : ℕ) (hn : n < received.length),
      (reportedDir first (tickLog wheel (received.take (n + 1))) : ℤ) * wheel.mrps received[n].2 =
        reportedDir other (tickLog wheel (received.take (n + 1))) * wheel.mrps received[n].2) ↔
      (0 ≤ first ↔ 0 ≤ other) ∨ QuietUntilMove wheel received := by
  constructor
  · intro hsame
    by_cases hsides : 0 ≤ first ↔ 0 ≤ other
    · exact .inl hsides
    · refine .inr fun n hn hstill ↦ ?_
      have hspeed := hsame n hn
      unfold reportedDir at hspeed
      rw [heading_of_still hstill] at hspeed
      by_cases hfirst : 0 ≤ first
      · have hother : other < 0 := by omega
        rw [if_neg (by omega), if_pos ⟨hstill, hother⟩, SignType.coe_neg_one, SignType.coe_one]
          at hspeed
        omega
      · have hfirst' : first < 0 := not_le.mp hfirst
        rw [if_pos ⟨hstill, hfirst'⟩, if_neg (by omega), SignType.coe_neg_one, SignType.coe_one]
          at hspeed
        omega
  · rintro (hsides | hquiet) n hn
    · have hsides' : first < 0 ↔ other < 0 := by omega
      simp only [reportedDir, hsides']
    · by_cases hstill : moves (tickLog wheel (received.take (n + 1))) = []
      · rw [hquiet n hn hstill, Nat.cast_zero, mul_zero, mul_zero]
      · rw [reportedDir, reportedDir, if_neg fun h ↦ hstill h.1, if_neg fun h ↦ hstill h.1]

variable {first : SteadyTime × Message} {rest : List (SteadyTime × Message)}

theorem receive_reportedDir (hfresh : k.feedback = Feedback.initial)
    (hframes : ∀ frame ∈ first :: rest, IsWheelFeedback frame.2) (wheel : Wheel) {n : ℕ}
    (hn : n < (first :: rest).length) :
    wheel.fwMrps (k.receive ((first :: rest).take (n + 1))).feedback =
      reportedDir (wheel.ticks first.2) (tickLog wheel ((first :: rest).take (n + 1))) *
        wheel.mrps (first :: rest)[n].2 := by
  rw [receive_fwMrps hfresh hframes wheel hn]
  congr 2
  exact heading_zero_cons _ _

/-- A fresh driver reports the direction of motion of a wheel exactly if the wheel is first seen at
ticks that are not negative, or reports no speed before they change. Accordingly, counting its ticks
from elsewhere changes no speed exactly if its first ticks stay on the same side of zero, or it
reports no speed before they change. -/
theorem followsMotion_iff (hfresh : k.feedback = Feedback.initial)
    (hframes : ∀ frame ∈ first :: rest, IsWheelFeedback frame.2) (wheel : Wheel) :
    (FollowsMotion wheel k (first :: rest) ↔
      0 ≤ wheel.ticks first.2 ∨ QuietUntilMove wheel (first :: rest)) ∧
    ∀ (c : ℤ) (shifted : List (SteadyTime × Message)),
      (∀ frame ∈ shifted, IsWheelFeedback frame.2) → Shifted wheel c (first :: rest) shifted →
        (SameSpeeds wheel k (first :: rest) shifted ↔
          (0 ≤ wheel.ticks first.2 + c ↔ 0 ≤ wheel.ticks first.2) ∨
            QuietUntilMove wheel (first :: rest)) := by
  constructor
  · have hside : (0 ≤ wheel.ticks first.2 ↔ (0 : ℤ) ≤ 0) ↔ 0 ≤ wheel.ticks first.2 := by simp
    rw [← hside, ← reportedDir_mul_eq_iff]
    refine forall_congr' fun n ↦ forall_congr' fun hn ↦ ?_
    rw [receive_reportedDir hfresh hframes wheel hn, reportedDir_of_nonneg le_rfl]
  · intro c shifted hframes' hshifted
    rw [← reportedDir_mul_eq_iff]
    refine forall_congr' fun n ↦ forall_congr' fun hn ↦ ?_
    cases shifted with
    | nil => cases hshifted.length_eq
    | cons first' rest' =>
      have hn' : n < (first' :: rest').length := by rwa [hshifted.length_eq]
      have hfirst : wheel.ticks first'.2 = wheel.ticks first.2 + c :=
        (List.cons.inj hshifted.ticks).1
      have hmrps := hshifted.getElem hn hn'
      rw [receive_reportedDir hfresh hframes wheel hn, receive_reportedDir hfresh hframes' wheel hn',
        hmrps, hfirst, hshifted.take, reportedDir, reportedDir, reportedDir, moves_map_add,
        heading_map_add]

end motion

/-! ## Two frames -/

def wheelFeedbackMessage (leftTicks rightTicks : ℤ) (leftMrps rightMrps : ℕ) : Message :=
  ⟨MsgId.wheelFeedback, bytesOf 8 0 ++ bytesOf 8 leftTicks ++ bytesOf 8 rightTicks ++
    bytesOf 4 leftMrps ++ bytesOf 4 rightMrps⟩

/-- Both wheels drive forward, the left one from where it was switched on, the right one from
behind. -/
def forward : List (SteadyTime × Message) :=
  [(0, wheelFeedbackMessage 0 (-500) 700 700), (1, wheelFeedbackMessage 40 (-460) 700 700)]

theorem isWheelFeedback_forward : ∀ frame ∈ forward, IsWheelFeedback frame.2 := by decide +kernel

theorem followsMotion_forward : FollowsMotion .left Kestrel.initial forward :=
  (followsMotion_iff rfl isWheelFeedback_forward .left).1.mpr (.inl (by decide +kernel))

/-- The first frame of the right wheel is reported as going backwards. -/
theorem not_followsMotion :
    ¬∀ (received : List (SteadyTime × Message)) (wheel : Wheel), received ≠ [] →
      (∀ frame ∈ received, IsWheelFeedback frame.2) →
        FollowsMotion wheel Kestrel.initial received := by
  intro h
  have hfirst := h forward .right (by decide) isWheelFeedback_forward 0 (by decide)
  have hspeed : Wheel.fwMrps (Kestrel.initial.receive (forward.take 1)).feedback .right = -700 := by
    decide +kernel
  have hmotion : (heading (tickLog .right (forward.take 1)) : ℤ) *
      Wheel.mrps (forward.get ⟨0, by decide⟩).2 .right = 700 := by decide +kernel
  exact absurd (hspeed.symm.trans (hfirst.trans hmotion)) (by decide)

end MyDiffbot.Transport
