import MyDiffbot.Transport.Batches
import MyDiffbot.Transport.Kestrel

/-!
# Waiting for an ACK

All frames of a `Read` are parsed before `WaitForAck` looks at the slot, and the slot holds the last
ACK only. A wait therefore sees the last ACK of each batch. An ACK that is followed by another one in
its batch is lost, and the wait may run into its timeout although the ACK has arrived
(`not_answered`).
-/

namespace MyDiffbot.Transport

open Protocol

/-- The acknowledged MSG_ID and the status of an ACK frame. -/
def ack? (message : Message) : Option (Byte × AckStatus) :=
  if message.msgId = MsgId.ack ∧ 10 ≤ message.payload.length then
    some (message.payload.getD 8 0, message.payload.getD 9 0)
  else none

/-- The ACK frames among some effects. -/
def parsedAcks (effects : List Effect) : List (Byte × AckStatus) :=
  (parsedMessages effects).filterMap ack?

theorem parsedAcks_append (first second : List Effect) :
    parsedAcks (first ++ second) = parsedAcks first ++ parsedAcks second := by
  rw [parsedAcks, parsedMessages_append, List.filterMap_append]
  rfl

namespace SerialTransport

/-- The ACK in the slot, if it has not been consumed. -/
def pendingAck (s : SerialTransport) : Option (Byte × AckStatus) :=
  if s.ackReceived then some (s.pendingAckMsgId, s.pendingAckStatus) else none

def pendingAckView : View (Option (Byte × AckStatus)) where
  of := pendingAck
  step pending message := (ack? message).or pending
  of_receive s message := by
    unfold receive interceptAck ack?
    split <;> rfl
  of_rxBuffer _ _ := rfl
  of_crcErrorCount _ _ := rfl

theorem foldl_pendingAck (messages : List Message) (pending : Option (Byte × AckStatus)) :
    messages.foldl pendingAckView.step pending =
      (messages.filterMap ack?).getLast?.or pending := by
  induction messages generalizing pending with
  | nil => rfl
  | cons message messages ih =>
    rw [List.foldl_cons, ih, List.filterMap_cons]
    change (messages.filterMap ack?).getLast?.or ((ack? message).or pending) = _
    cases ack? message with
    | none => rfl
    | some ack =>
      dsimp only
      rw [List.getLast?_cons]
      cases (messages.filterMap ack?).getLast? <;> rfl

/-- What a wait for an ACK makes of the one it finds. -/
def answerTo (expectedMsgId : Byte) (ack : Byte × AckStatus) : Option AckStatus :=
  if ack.1 = expectedMsgId then
    some (if expectedMsgId = MsgId.handshake then AckStatus.ok else ack.2)
  else none

theorem map_takeAck (expectedMsgId : Byte) (s : SerialTransport) :
    (s.takeAck expectedMsgId).map Prod.fst = s.pendingAck.bind (answerTo expectedMsgId) := by
  unfold takeAck pendingAck answerTo
  cases s.ackReceived with
  | false => simp
  | true =>
    by_cases hmsgId : s.pendingAckMsgId = expectedMsgId
    · by_cases hhandshake : expectedMsgId = MsgId.handshake <;> simp [hmsgId, hhandshake]
    · simp [hmsgId]

end SerialTransport

namespace Kestrel

open SerialTransport

/-- After a `Read` the slot holds the last ACK that was parsed, or what it held before. -/
theorem read_pendingAck (poll : Poll) (k : Kestrel) :
    (k.read poll).1.base.pendingAck =
      (parsedAcks (k.read poll).2).getLast?.or k.base.pendingAck := by
  have hview := pendingAckView.read poll.raw k.base
  rw [foldl_pendingAck] at hview
  rw [k.read_eq, parsedAcks, parsedMessages_map_parsed]
  exact hview

/-- The ACK frames of each batch, if all of them are read. -/
def ackBatches : List Poll → Kestrel → List (List (Byte × AckStatus))
  | [], _ => []
  | poll :: polls, k => parsedAcks (k.read poll).2 :: ackBatches polls (k.read poll).1

/-- The status that `WaitForAck` finds; `none` if it returns by its timeout path. -/
def waitResult (expectedMsgId : Byte) : List Poll → Kestrel → Option AckStatus
  | [], _ => none
  | poll :: polls, k =>
    match (k.read poll).1.base.takeAck expectedMsgId with
    | some (status, _) => some status
    | none => waitResult expectedMsgId polls (k.read poll).1

theorem waitForAck_status (expectedMsgId : Byte) (polls : List Poll) (k : Kestrel) :
    (k.waitForAck expectedMsgId polls).1 =
      (k.waitResult expectedMsgId polls).getD AckStatus.timeout := by
  induction polls generalizing k with
  | nil => rfl
  | cons poll polls ih =>
    rw [waitResult]
    cases htake : (k.read poll).1.base.takeAck expectedMsgId with
    | none =>
      rw [waitForAck_of_no_ack polls htake]
      exact ih _
    | some result => rw [waitForAck_of_ack polls htake]; rfl

/-- The ACK frames that the reads of a wait have parsed. -/
def consumedAcks (expectedMsgId : Byte) (polls : List Poll) (k : Kestrel) :
    List (Byte × AckStatus) :=
  parsedAcks (k.waitForAck expectedMsgId polls).2.2

/-- If an expected ACK was parsed, the wait returns the status of one. -/
def Answered (expectedMsgId : Byte) (polls : List Poll) (k : Kestrel) : Prop :=
  ∀ ack ∈ k.consumedAcks expectedMsgId polls, ack.1 = expectedMsgId →
    ∃ found ∈ k.consumedAcks expectedMsgId polls, found.1 = expectedMsgId ∧
      k.waitResult expectedMsgId polls =
        some (if expectedMsgId = MsgId.handshake then AckStatus.ok else found.2)

/-- An expected ACK is the last one of its batch. -/
def SeesLast (expectedMsgId : Byte) (polls : List Poll) (k : Kestrel) : Prop :=
  ∃ acks ∈ k.ackBatches polls, ∃ ack ∈ acks.getLast?, ack.1 = expectedMsgId

/-- An expected ACK is in the slot already, and is not overwritten by the first batch. -/
def SeesStale (expectedMsgId : Byte) (polls : List Poll) (k : Kestrel) : Prop :=
  (k.ackBatches polls).head? = some [] ∧ ∃ ack ∈ k.base.pendingAck, ack.1 = expectedMsgId

/-! ## What a wait can do -/

section wait

variable {expectedMsgId : Byte} {poll : Poll} {k : Kestrel}

theorem ackBatches_cons (poll : Poll) (polls : List Poll) (k : Kestrel) :
    k.ackBatches (poll :: polls) =
      parsedAcks (k.read poll).2 :: (k.read poll).1.ackBatches polls := rfl

/-- A poll that finds an expected ACK in the slot ends the wait. -/
theorem wait_of_ack (polls : List Poll) {ack : Byte × AckStatus}
    (hpending : (k.read poll).1.base.pendingAck = some ack) (hack : ack.1 = expectedMsgId) :
    k.waitResult expectedMsgId (poll :: polls) =
        some (if expectedMsgId = MsgId.handshake then AckStatus.ok else ack.2) ∧
      k.consumedAcks expectedMsgId (poll :: polls) = parsedAcks (k.read poll).2 := by
  have htake := map_takeAck expectedMsgId (k.read poll).1.base
  rw [hpending, Option.bind_some, answerTo, if_pos hack] at htake
  obtain ⟨⟨status, base⟩, hsome, hstatus⟩ := Option.map_eq_some_iff.mp htake
  obtain rfl := hstatus
  rw [waitResult, hsome, consumedAcks, waitForAck_of_ack polls hsome]
  exact ⟨rfl, rfl⟩

/-- After a poll that does not, the wait goes on. -/
theorem wait_of_no_ack (polls : List Poll)
    (hpending : ∀ ack ∈ (k.read poll).1.base.pendingAck, ack.1 ≠ expectedMsgId) :
    k.waitResult expectedMsgId (poll :: polls) =
        (k.read poll).1.waitResult expectedMsgId polls ∧
      k.consumedAcks expectedMsgId (poll :: polls) =
        parsedAcks (k.read poll).2 ++ (k.read poll).1.consumedAcks expectedMsgId polls := by
  have htake := map_takeAck expectedMsgId (k.read poll).1.base
  have hnone : (k.read poll).1.base.pendingAck.bind (answerTo expectedMsgId) = none := by
    cases hslot : (k.read poll).1.base.pendingAck with
    | none => rfl
    | some ack => exact if_neg (hpending ack hslot)
  rw [hnone, Option.map_eq_none_iff] at htake
  rw [waitResult, htake, consumedAcks, waitForAck_of_no_ack polls htake, parsedAcks_append]
  exact ⟨rfl, rfl⟩

/-- Everything a wait can do: time out after all batches, return an ACK that it has parsed, or
return one that was in the slot before. -/
inductive Waits (expectedMsgId : Byte) (polls : List Poll) (k : Kestrel) : Prop
  | timeout (hresult : k.waitResult expectedMsgId polls = none)
      (hconsumed : k.consumedAcks expectedMsgId polls = (k.ackBatches polls).flatten)
      (hlast : ¬k.SeesLast expectedMsgId polls) (hstale : ¬k.SeesStale expectedMsgId polls)
  | answered (ack : Byte × AckStatus) (hack : ack ∈ k.consumedAcks expectedMsgId polls)
      (hmsgId : ack.1 = expectedMsgId)
      (hresult : k.waitResult expectedMsgId polls =
        some (if expectedMsgId = MsgId.handshake then AckStatus.ok else ack.2))
      (hlast : k.SeesLast expectedMsgId polls)
  | stale (hconsumed : k.consumedAcks expectedMsgId polls = [])
      (hstale : k.SeesStale expectedMsgId polls)

theorem waits (expectedMsgId : Byte) (polls : List Poll) (k : Kestrel) :
    Waits expectedMsgId polls k := by
  induction polls generalizing k with
  | nil =>
    refine .timeout rfl rfl ?_ ?_
    · rintro ⟨acks, hacks, _⟩
      exact absurd hacks List.not_mem_nil
    · rintro ⟨hhead, _⟩
      cases hhead
  | cons poll polls ih =>
    have hslot := k.read_pendingAck poll
    by_cases hfound : ∃ ack ∈ (k.read poll).1.base.pendingAck, ack.1 = expectedMsgId
    · obtain ⟨ack, hpending, hmsgId⟩ := hfound
      obtain ⟨hresult, hconsumed⟩ := wait_of_ack polls hpending hmsgId
      rw [Option.mem_def.mp hpending] at hslot
      cases hlast : (parsedAcks (k.read poll).2).getLast? with
      | none =>
        rw [hlast] at hslot
        have hempty := List.getLast?_eq_none_iff.mp hlast
        rw [hempty] at hconsumed
        refine .stale hconsumed ⟨?_, ack, hslot.symm, hmsgId⟩
        rw [ackBatches_cons, hempty]
        rfl
      | some last =>
        rw [hlast] at hslot
        obtain rfl : ack = last := Option.some.inj hslot
        refine .answered ack ?_ hmsgId hresult ⟨_, List.mem_cons_self, ack, hlast, hmsgId⟩
        rw [hconsumed]
        exact List.mem_of_getLast? hlast
    · push Not at hfound
      obtain ⟨hresult, hconsumed⟩ := wait_of_no_ack polls hfound
      have hfirst : ∀ ack ∈ (parsedAcks (k.read poll).2).getLast?, ack.1 ≠ expectedMsgId := by
        intro ack hlast
        refine hfound ack ?_
        rw [hslot, Option.mem_def.mp hlast]
        rfl
      cases ih (k.read poll).1 with
      | timeout hnone hall hlast hstale =>
        refine .timeout (hresult.trans hnone) (by rw [hconsumed, hall]; rfl) ?_ ?_
        · rintro ⟨acks, hacks, ack, hack, hmsgId⟩
          rcases List.mem_cons.mp hacks with rfl | hacks
          · exact hfirst ack hack hmsgId
          · exact hlast ⟨acks, hacks, ack, hack, hmsgId⟩
        · rintro ⟨hhead, ack, hack, hmsgId⟩
          rw [ackBatches_cons, List.head?_cons, Option.some.injEq] at hhead
          rw [hhead] at hslot
          exact hfound ack (hslot.trans hack) hmsgId
      | answered ack hack hmsgId hsome hlast =>
        obtain ⟨acks, hacks, last, hmem⟩ := hlast
        refine .answered ack ?_ hmsgId (hresult.trans hsome)
          ⟨acks, List.mem_cons_of_mem _ hacks, last, hmem⟩
        rw [hconsumed]
        exact List.mem_append_right _ hack
      | stale _ hstale =>
        obtain ⟨_, ack, hack, hmsgId⟩ := hstale
        exact absurd hmsgId (hfound ack hack)

end wait

/-- A wait returns the status that it has found, or its timeout. If it meets expected ACKs, then it
returns the status of one exactly if one of them is the last ACK of its batch, unless the slot already
holds one that the first batch leaves alone. -/
theorem answered_iff (expectedMsgId : Byte) (polls : List Poll) (k : Kestrel) :
    (k.waitForAck expectedMsgId polls).1 =
        (k.waitResult expectedMsgId polls).getD AckStatus.timeout ∧
      (k.Answered expectedMsgId polls ↔
        ((∃ acks ∈ k.ackBatches polls, ∃ ack ∈ acks, ack.1 = expectedMsgId) →
          k.SeesLast expectedMsgId polls ∨ k.SeesStale expectedMsgId polls)) := by
  refine ⟨waitForAck_status expectedMsgId polls k, ?_⟩
  unfold Answered
  cases waits expectedMsgId polls k with
  | timeout hresult hconsumed hlast hstale =>
    rw [hconsumed, hresult]
    constructor
    · rintro hanswered ⟨acks, hacks, ack, hack, hmsgId⟩
      obtain ⟨_, _, _, hsome⟩ := hanswered ack (List.mem_flatten.mpr ⟨acks, hacks, hack⟩) hmsgId
      cases hsome
    · intro hsees ack hack hmsgId
      obtain ⟨acks, hacks, hmem⟩ := List.mem_flatten.mp hack
      exact ((hsees ⟨acks, hacks, ack, hmem, hmsgId⟩).elim hlast hstale).elim
  | answered ack hack hmsgId hresult hlast =>
    exact ⟨fun _ _ ↦ .inl hlast, fun _ _ _ _ ↦ ⟨ack, hack, hmsgId, hresult⟩⟩
  | stale hconsumed hstale =>
    rw [hconsumed]
    exact ⟨fun _ _ ↦ .inr hstale, fun _ ack hack ↦ absurd hack List.not_mem_nil⟩

/-- An ACK frame. -/
def ackFrame (msgId : Byte) (status : AckStatus) : List Byte :=
  buildFrame MsgId.ack (bytesOf 8 0 ++ [msgId, status])

/-- The ACK that is waited for arrives with the ACK of another command behind it. -/
theorem not_answered : ¬∀ expectedMsgId polls (k : Kestrel), k.Answered expectedMsgId polls := by
  intro h
  have hresult : waitResult MsgId.reset
      [⟨ackFrame MsgId.reset AckStatus.ok ++ ackFrame MsgId.deactivate AckStatus.ok, 0⟩]
      ⟨connected, Feedback.initial⟩ = none := by decide +kernel
  have hconsumed : consumedAcks MsgId.reset
      [⟨ackFrame MsgId.reset AckStatus.ok ++ ackFrame MsgId.deactivate AckStatus.ok, 0⟩]
      ⟨connected, Feedback.initial⟩ =
      [(MsgId.reset, AckStatus.ok), (MsgId.deactivate, AckStatus.ok)] := by decide +kernel
  obtain ⟨_, _, _, hsome⟩ := h MsgId.reset
    [⟨ackFrame MsgId.reset AckStatus.ok ++ ackFrame MsgId.deactivate AckStatus.ok, 0⟩]
    ⟨connected, Feedback.initial⟩ (MsgId.reset, AckStatus.ok)
    (by rw [hconsumed]; exact List.mem_cons_self) rfl
  rw [hresult] at hsome
  cases hsome

end Kestrel

end MyDiffbot.Transport
