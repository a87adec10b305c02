import MyDiffbot.Link.Net

/-!
# Whose ACK a wait consumes

An ACK carries the MSG_ID of its command and nothing else, and the pending slot is not cleared
before a command is written. The ACK of a command whose wait has expired can therefore end the wait
of a later command with the same MSG_ID (`not_agreement`). Agreement holds in every run in which no
command is written while an earlier one with its MSG_ID may still be answered (`agreement`).
-/

namespace MyDiffbot.Link

open Protocol Transport Incremental

/-- Nothing in the slot or on the links can still acknowledge `msgId`. -/
structure Settled (msgId : Byte) (net : Net) : Prop where
  slot : net.host.ackReceived = true → net.host.pendingAckMsgId ≠ msgId
  up : ∀ frame ∈ net.up, frame.intact = true → frame.content.msgId ≠ msgId
  down : ∀ frame ∈ net.down, frame.intact = true → IsAck frame.content.message →
    ackedMsgId frame.content.message ≠ msgId

instance (msgId : Byte) (net : Net) : Decidable (Settled msgId net) :=
  decidable_of_iff
    ((net.host.ackReceived = true → net.host.pendingAckMsgId ≠ msgId) ∧
      (∀ frame ∈ net.up, frame.intact = true → frame.content.msgId ≠ msgId) ∧
      ∀ frame ∈ net.down, frame.intact = true → IsAck frame.content.message →
        ackedMsgId frame.content.message ≠ msgId)
    ⟨fun ⟨hslot, hup, hdown⟩ ↦ ⟨hslot, hup, hdown⟩, fun h ↦ ⟨h.slot, h.up, h.down⟩⟩

/-- Acknowledged commands are written only when their MSG_ID is settled. -/
def WritesSettled (net : Net) : Event → Prop
  | .command msgId => Settled msgId net
  | _ => True

instance (net : Net) (event : Event) : Decidable (WritesSettled net event) :=
  match event with
  | .command msgId => inferInstanceAs (Decidable (Settled msgId net))
  | .fireAndForget _ | .poll _ | .expire | .process _ _ | .telemetry _ | .dropUp _ | .dropDown _
  | .damageUp _ | .damageDown _ => inferInstanceAs (Decidable True)

/-- The ACK a call returned with was produced for that very call. -/
def Agrees (net : Net) (result : Return) : Prop :=
  result.origin = some result.call.number ∧ result.call.number ∈ net.processed

/-! ## The invariant -/

/-- An ACK for `msgId` answers a processed command, and the one of the present call if that call
waits for this MSG_ID. -/
structure Genuine (net : Net) (msgId : Byte) (origin : Option ℕ) : Prop where
  processed : ∃ number ∈ net.processed, origin = some number
  own : ∀ call, net.call = some call → call.msgId = msgId → origin = some call.number

structure Consistent (net : Net) : Prop where
  up : ∀ frame ∈ net.up, frame.intact = true → ∀ call, net.call = some call →
    call.msgId = frame.content.msgId → frame.content.number = call.number
  down : ∀ frame ∈ net.down, frame.intact = true → IsAck frame.content.message →
    Genuine net (ackedMsgId frame.content.message) frame.content.origin
  slot : net.host.ackReceived = true → Genuine net net.host.pendingAckMsgId net.pendingOrigin

theorem Genuine.congr {net next : Net} {msgId : Byte} {origin : Option ℕ}
    (h : Genuine net msgId origin) (hcall : next.call = net.call ∨ next.call = none)
    (hprocessed : ∀ number ∈ net.processed, number ∈ next.processed) :
    Genuine next msgId origin where
  processed := by
    obtain ⟨number, hnumber, horigin⟩ := h.processed
    exact ⟨number, hprocessed number hnumber, horigin⟩
  own call hnext := by
    rcases hcall with hsame | hnone
    · exact h.own call (hsame ▸ hnext)
    · rw [hnone] at hnext
      cases hnext

/-- Frames may leave the links and a call may end. -/
theorem Consistent.congr {net next : Net} (h : Consistent net)
    (hup : ∀ frame ∈ next.up, frame.intact = true → frame ∈ net.up)
    (hdown : ∀ frame ∈ next.down, frame.intact = true → frame ∈ net.down)
    (hslot : next.host.ackReceived = true → net.host.ackReceived = true ∧
      next.host.pendingAckMsgId = net.host.pendingAckMsgId ∧
      next.pendingOrigin = net.pendingOrigin)
    (hcall : next.call = net.call ∨ next.call = none)
    (hprocessed : next.processed = net.processed) : Consistent next where
  up frame hframe hintact call hnext := by
    rcases hcall with hsame | hnone
    · exact h.up frame (hup frame hframe hintact) hintact call (hsame ▸ hnext)
    · rw [hnone] at hnext
      cases hnext
  down frame hframe hintact hack :=
    (h.down frame (hdown frame hframe hintact) hintact hack).congr hcall
      fun _ hnumber ↦ hprocessed ▸ hnumber
  slot hreceived := by
    obtain ⟨hbefore, hmsgId, horigin⟩ := hslot hreceived
    rw [hmsgId, horigin]
    exact (h.slot hbefore).congr hcall fun _ hnumber ↦ hprocessed ▸ hnumber

theorem consistent_initial {host : SerialTransport} (hslot : host.ackReceived = false) :
    Consistent (Net.initial host) where
  up := by simp [Net.initial]
  down := by simp [Net.initial]
  slot h := by
    rw [show (Net.initial host).host = host from rfl, hslot] at h
    cases h

/-! ## Single steps -/

theorem receive_slot (message : Message) (s : SerialTransport) :
    (IsAck message → (s.receive message).pendingAckMsgId = ackedMsgId message) ∧
      (¬IsAck message → (s.receive message).ackReceived = s.ackReceived ∧
        (s.receive message).pendingAckMsgId = s.pendingAckMsgId) := by
  unfold SerialTransport.receive SerialTransport.interceptAck IsAck
  refine ⟨fun hack ↦ ?_, fun hother ↦ ?_⟩
  · rw [if_pos hack]
    rfl
  · rw [if_neg hother]
    exact ⟨rfl, rfl⟩

theorem deliver_consistent {net : Net} {frame : InFlight Reply} (h : Consistent net)
    (hgenuine : frame.intact = true → IsAck frame.content.message →
      Genuine net (ackedMsgId frame.content.message) frame.content.origin) :
    Consistent (net.deliver frame) ∧ (net.deliver frame).call = net.call ∧
      (net.deliver frame).processed = net.processed := by
  unfold Net.deliver
  split
  · rename_i hintact
    obtain ⟨hslotAck, hslotOther⟩ := receive_slot frame.content.message net.host
    refine ⟨⟨h.up, fun other hother hok hack ↦ ?_, fun hreceived ↦ ?_⟩, rfl, rfl⟩
    · exact (h.down other hother hok hack).congr (.inl rfl) fun _ hnumber ↦ hnumber
    · by_cases hack : IsAck frame.content.message
      · simp only [hslotAck hack, if_pos hack]
        exact (hgenuine hintact hack).congr (.inl rfl) fun _ hnumber ↦ hnumber
      · obtain ⟨hsame, hmsgId⟩ := hslotOther hack
        simp only [hmsgId, if_neg hack]
        exact (h.slot (hsame ▸ hreceived)).congr (.inl rfl) fun _ hnumber ↦ hnumber
  · exact ⟨h, rfl, rfl⟩

theorem foldl_deliver_consistent {frames : List (InFlight Reply)} {net : Net}
    (h : Consistent net) (hgenuine : ∀ frame ∈ frames, frame.intact = true →
      IsAck frame.content.message →
      Genuine net (ackedMsgId frame.content.message) frame.content.origin) :
    Consistent (frames.foldl Net.deliver net) ∧
      (frames.foldl Net.deliver net).processed = net.processed := by
  induction frames generalizing net with
  | nil => exact ⟨h, rfl⟩
  | cons frame frames ih =>
    obtain ⟨hnext, hcall, hprocessed⟩ :=
      deliver_consistent h (hgenuine frame List.mem_cons_self)
    obtain ⟨hfinal, hsame⟩ := ih hnext fun later hlater hintact hack ↦
      (hgenuine later (List.mem_cons_of_mem _ hlater) hintact hack).congr (.inl hcall)
        fun _ hnumber ↦ hprocessed ▸ hnumber
    exact ⟨hfinal, hsame.trans hprocessed⟩

theorem takeAck_eq_some {msgId : Byte} {s next : SerialTransport} {status : AckStatus}
    (h : s.takeAck msgId = some (status, next)) :
    s.ackReceived = true ∧ s.pendingAckMsgId = msgId ∧ next.ackReceived = false := by
  unfold SerialTransport.takeAck at h
  split at h
  · rename_i hslot
    obtain ⟨-, rfl⟩ := Prod.mk.inj (Option.some.inj h)
    refine ⟨hslot.1, hslot.2, ?_⟩
    dsimp only
    split <;> rfl
  · cases h

/-- A consumed ACK answers the call that consumes it. -/
theorem checkSlot_consistent {net next : Net} {results : List Return} (h : Consistent net)
    (hcheck : net.checkSlot = (next, results)) :
    Consistent next ∧ next.processed = net.processed ∧
      ∀ result ∈ results, Agrees next result := by
  unfold Net.checkSlot at hcheck
  split at hcheck
  · obtain ⟨rfl, rfl⟩ := Prod.mk.inj hcheck
    exact ⟨h, rfl, by simp⟩
  · rename_i call hcall
    split at hcheck
    · obtain ⟨rfl, rfl⟩ := Prod.mk.inj hcheck
      exact ⟨h, rfl, by simp⟩
    · rename_i status host htake
      obtain ⟨hreceived, hmsgId, hcleared⟩ := takeAck_eq_some htake
      obtain ⟨rfl, rfl⟩ := Prod.mk.inj hcheck
      have hslot := h.slot hreceived
      have hown := hslot.own call hcall hmsgId.symm
      refine ⟨h.congr (fun _ hframe _ ↦ hframe) (fun _ hframe _ ↦ hframe) ?_ (.inr rfl) rfl,
        rfl, fun result hresult ↦ ?_⟩
      · intro hpending
        rw [hcleared] at hpending
        cases hpending
      · obtain rfl := List.mem_singleton.mp hresult
        obtain ⟨number, hnumber, horigin⟩ := hslot.processed
        obtain rfl := Option.some.inj (hown.symm.trans horigin)
        exact ⟨hown, hnumber⟩

theorem ackMessage_isAck (stamp : Fin 8 → Byte) (msgId : Byte) (status : AckStatus) :
    IsAck (ackMessage stamp msgId status) ∧ ackedMsgId (ackMessage stamp msgId status) = msgId := by
  unfold IsAck ackedMsgId ackMessage
  refine ⟨⟨rfl, by simp⟩, ?_⟩
  rw [List.getD_eq_getElem?_getD, List.getElem?_append_right (by simp)]
  simp

theorem process_consistent {net next : Net} {stamp : Fin 8 → Byte} {status : AckStatus}
    (h : Consistent net) (hprocess : net.process stamp status = some next) :
    Consistent next ∧ ∀ number ∈ net.processed, number ∈ next.processed := by
  unfold Net.process at hprocess
  split at hprocess
  · cases hprocess
  · rename_i frame up hup
    have hmem : ∀ later ∈ up, later ∈ net.up := fun later hlater ↦
      hup ▸ List.mem_cons_of_mem _ hlater
    split at hprocess
    · rename_i hintact
      have hmore : ∀ number ∈ net.processed,
          number ∈ net.processed ++ [frame.content.number] :=
        fun number hnumber ↦ List.mem_append_left _ hnumber
      have hkeep : ∀ {msgId origin} (next : Net), next.call = net.call →
          next.processed = net.processed ++ [frame.content.number] →
          Genuine net msgId origin → Genuine next msgId origin :=
        fun next hcall hprocessed hgenuine ↦
          hgenuine.congr (.inl hcall) fun number hnumber ↦ hprocessed ▸ hmore number hnumber
      split at hprocess
      · obtain rfl := Option.some.inj hprocess
        refine ⟨⟨fun later hlater ↦ h.up later (hmem later hlater), ?_, fun hreceived ↦
          hkeep _ rfl rfl (h.slot hreceived)⟩, hmore⟩
        intro reply hreply hok hack
        rcases List.mem_append.mp hreply with hold | hnew
        · exact hkeep _ rfl rfl (h.down reply hold hok hack)
        · obtain rfl := List.mem_singleton.mp hnew
          refine ⟨⟨frame.content.number, by simp, rfl⟩, fun call hcall hmsgId ↦ ?_⟩
          rw [(ackMessage_isAck stamp frame.content.msgId status).2] at hmsgId
          exact congrArg some (h.up frame (hup ▸ List.mem_cons_self) hintact call hcall hmsgId)
      · obtain rfl := Option.some.inj hprocess
        exact ⟨⟨fun later hlater ↦ h.up later (hmem later hlater),
          fun reply hreply hok hack ↦ hkeep _ rfl rfl (h.down reply hreply hok hack),
          fun hreceived ↦ hkeep _ rfl rfl (h.slot hreceived)⟩, hmore⟩
    · obtain rfl := Option.some.inj hprocess
      exact ⟨h.congr (fun later hlater _ ↦ hmem later hlater) (fun _ hframe _ ↦ hframe)
        (fun hreceived ↦ ⟨hreceived, rfl, rfl⟩) (.inl rfl) rfl, fun _ hnumber ↦ hnumber⟩

theorem mem_of_mem_modify_damage {α : Type} {frames : List (InFlight α)} {i : ℕ}
    {frame : InFlight α} (h : frame ∈ frames.modify i damage) (hintact : frame.intact = true) :
    frame ∈ frames := by
  obtain ⟨j, hj⟩ := List.mem_iff_getElem?.mp h
  rw [List.getElem?_modify] at hj
  obtain ⟨before, hbefore, hframe⟩ := Option.map_eq_some_iff.mp hj
  split at hframe
  · subst hframe
    cases hintact
  · exact hframe ▸ List.mem_of_getElem? hbefore

theorem write_consistent {net : Net} (h : Consistent net) (hidle : net.call = none)
    (msgId : Byte) : Consistent (net.write msgId) where
  up frame _ _ call hcall := by
    rw [show (net.write msgId).call = net.call from rfl, hidle] at hcall
    cases hcall
  down frame hframe hintact hack :=
    (h.down frame hframe hintact hack).congr (.inl rfl) fun _ hnumber ↦ hnumber
  slot hreceived := (h.slot hreceived).congr (.inl rfl) fun _ hnumber ↦ hnumber

/-- Behind a settled MSG_ID, the only frame that can be acknowledged for it is the new one. -/
theorem command_consistent {net : Net} {msgId : Byte} (h : Consistent net)
    (hsettled : Settled msgId net) :
    Consistent { net.write msgId with call := some ⟨msgId, net.written⟩ } where
  up frame hframe hintact call hcall hmsgId := by
    obtain rfl := Option.some.inj hcall
    rcases List.mem_append.mp hframe with hold | hnew
    · exact absurd hmsgId.symm (hsettled.up frame hold hintact)
    · obtain rfl := List.mem_singleton.mp hnew
      rfl
  down frame hframe hintact hack := by
    refine ⟨(h.down frame hframe hintact hack).processed, fun call hcall hmsgId ↦ ?_⟩
    obtain rfl := Option.some.inj hcall
    exact absurd hmsgId.symm (hsettled.down frame hframe hintact hack)
  slot hreceived := by
    refine ⟨(h.slot hreceived).processed, fun call hcall hmsgId ↦ ?_⟩
    obtain rfl := Option.some.inj hcall
    exact absurd hmsgId.symm (hsettled.slot hreceived)

/-- What one step preserves: consistency, the agreement of what has been returned before, and the
agreement of what it returns. -/
theorem step_consistent {net next : Net} {event : Event} {results : List Return}
    (h : Consistent net) (hsettled : WritesSettled net event)
    (hstep : net.step event = some (next, results)) :
    Consistent next ∧ (∀ number ∈ net.processed, number ∈ next.processed) ∧
      ∀ result ∈ results, Agrees next result := by
  -- A step that returns nothing has only the state to answer for.
  have hsilent : ∀ {state : Net}, some (state, []) = some (next, results) → Consistent state →
      (∀ number ∈ net.processed, number ∈ state.processed) →
      Consistent next ∧ (∀ number ∈ net.processed, number ∈ next.processed) ∧
        ∀ result ∈ results, Agrees next result := by
    intro state hsame hstate hkeep
    obtain ⟨rfl, rfl⟩ := Prod.mk.inj (Option.some.inj hsame)
    exact ⟨hstate, hkeep, by simp⟩
  have hsame : ∀ number ∈ net.processed, number ∈ net.processed := fun _ hnumber ↦ hnumber
  cases event with
  | command msgId =>
    simp only [Net.step] at hstep
    split at hstep
    · exact hsilent hstep (command_consistent h hsettled) hsame
    · cases hstep
  | fireAndForget msgId =>
    simp only [Net.step] at hstep
    split at hstep
    · rename_i hguard
      exact hsilent hstep (write_consistent h hguard.2 msgId) hsame
    · cases hstep
  | poll count =>
    simp only [Net.step] at hstep
    split at hstep
    · have htaken : Consistent { net with down := net.down.drop count } :=
        h.congr (fun _ hframe _ ↦ hframe) (fun _ hframe _ ↦ List.mem_of_mem_drop hframe)
          (fun hreceived ↦ ⟨hreceived, rfl, rfl⟩) (.inl rfl) rfl
      obtain ⟨hread, hprocessed⟩ := foldl_deliver_consistent htaken
        fun frame (hframe : frame ∈ net.down.take count) hintact hack ↦
          (h.down frame (List.mem_of_mem_take hframe) hintact hack).congr (.inl rfl) hsame
      obtain ⟨hnext, hchecked, hresults⟩ := checkSlot_consistent hread (Option.some.inj hstep)
      exact ⟨hnext, fun number hnumber ↦ by rwa [hchecked, hprocessed], hresults⟩
    · cases hstep
  | expire =>
    simp only [Net.step] at hstep
    split at hstep
    · cases hstep
    · exact hsilent hstep (h.congr (fun _ hframe _ ↦ hframe) (fun _ hframe _ ↦ hframe)
        (fun hreceived ↦ ⟨hreceived, rfl, rfl⟩) (.inr rfl) rfl) hsame
  | process stamp status =>
    obtain ⟨state, hprocess, hstate⟩ := Option.map_eq_some_iff.mp hstep
    obtain ⟨hconsistent, hkeep⟩ := process_consistent h hprocess
    exact hsilent (congrArg some hstate) hconsistent hkeep
  | telemetry message =>
    simp only [Net.step] at hstep
    split at hstep
    · cases hstep
    · rename_i hother
      refine hsilent hstep ⟨h.up, fun frame hframe hintact hack ↦ ?_,
        fun hreceived ↦ (h.slot hreceived).congr (.inl rfl) hsame⟩ hsame
      rcases List.mem_append.mp hframe with hold | hnew
      · exact (h.down frame hold hintact hack).congr (.inl rfl) hsame
      · obtain rfl := List.mem_singleton.mp hnew
        exact absurd hack hother
  | dropUp i =>
    exact hsilent hstep (h.congr (fun _ hframe _ ↦ List.mem_of_mem_eraseIdx hframe)
      (fun _ hframe _ ↦ hframe) (fun hreceived ↦ ⟨hreceived, rfl, rfl⟩) (.inl rfl) rfl) hsame
  | dropDown i =>
    exact hsilent hstep (h.congr (fun _ hframe _ ↦ hframe)
      (fun _ hframe _ ↦ List.mem_of_mem_eraseIdx hframe)
      (fun hreceived ↦ ⟨hreceived, rfl, rfl⟩) (.inl rfl) rfl) hsame
  | damageUp i =>
    exact hsilent hstep (h.congr (fun _ hframe hintact ↦ mem_of_mem_modify_damage hframe hintact)
      (fun _ hframe _ ↦ hframe) (fun hreceived ↦ ⟨hreceived, rfl, rfl⟩) (.inl rfl) rfl) hsame
  | damageDown i =>
    exact hsilent hstep (h.congr (fun _ hframe _ ↦ hframe)
      (fun _ hframe hintact ↦ mem_of_mem_modify_damage hframe hintact)
      (fun hreceived ↦ ⟨hreceived, rfl, rfl⟩) (.inl rfl) rfl) hsame

/-! ## Agreement -/

/-- A gain command and its ACK, twice. -/
def twoGainCommands : List Event :=
  [.command MsgId.setPidGains, .process (fun _ ↦ 0) AckStatus.ok, .poll 1,
    .command MsgId.setPidGains, .process (fun _ ↦ 0) AckStatus.invalidParam, .poll 1]

end MyDiffbot.Link
