import MyDiffbot.Incremental.Machine
import MyDiffbot.Transport.AckWait

/-!
# What a reset forgets

`Reset`, which `Shutdown` runs, clears the receive buffer and the counters, but neither the slot of
the pending ACK nor the time of the last heartbeat. After a reconnect the transport answers the same
bytes as any other one with its configuration exactly if it has kept the same of these
(`indistinguishable_iff`): an ACK of the old session can acknowledge a command of the new one.
-/

namespace MyDiffbot.Transport

open Protocol Incremental

/-! ## The transport as a machine -/

/-- The calls of a transport; commands that are only written do not touch it. -/
inductive Op
  | configure (port : String) (baudRate : ℤ) (readTimeoutMs : ℕ)
  | connect (faults : SerialTransport.ConnectFaults)
  | shutdown
  | read (poll : Poll)
  | wait (expectedMsgId : Byte) (polls : List Poll)
  | isHeartbeatHealthy (maxAgeMs : ℕ) (now : SteadyTime)

/-- What a caller observes. -/
inductive Observation
  | connected (result : Bool)
  | dispatched (messages : List Message)
  | acknowledged (status : AckStatus)
  | healthy (answer : Bool)
  deriving DecidableEq

namespace Kestrel

def apply (k : Kestrel) : Op → Kestrel × List Observation
  | .configure port baudRate readTimeoutMs => (k.configure port baudRate readTimeoutMs, [])
  | .connect faults =>
    let (result, k) := k.connect faults
    (k, [.connected result])
  | .shutdown => (k.shutdown, [])
  | .read poll =>
    let (k, effects) := k.read poll
    (k, [.dispatched (parsedMessages effects)])
  | .wait expectedMsgId polls =>
    let (status, k, effects) := k.waitForAck expectedMsgId polls
    (k, [.dispatched (parsedMessages effects), .acknowledged status])
  | .isHeartbeatHealthy maxAgeMs now =>
    (k, [.healthy (k.base.isHeartbeatHealthy maxAgeMs now)])

end Kestrel

def transport : Machine Kestrel Op Observation where
  step k op := some (k.apply op)

/-- The driver after a shutdown and a reconnect. -/
def Kestrel.reconnect (faults : SerialTransport.ConnectFaults) (k : Kestrel) : Kestrel :=
  (k.shutdown.connect faults).2

def Reachable (k : Kestrel) : Prop :=
  ∃ ops observations, transport.run Kestrel.initial ops = some (k, observations)

/-- The members that `Configure` sets. -/
structure Configuration where
  port : String
  baudRate : ℤ
  readTimeoutMs : ℕ
  configured : Bool
  deriving DecidableEq

def SerialTransport.configuration (s : SerialTransport) : Configuration :=
  ⟨s.port, s.baudRate, s.readTimeoutMs, s.configured⟩

/-- After a shutdown and a reconnect, the same calls have the same observations. -/
def Indistinguishable (k other : Kestrel) : Prop :=
  ∀ faults ops final observations,
    transport.run (k.reconnect faults) ops = some (final, observations) →
    ∃ last, transport.run (other.reconnect faults) ops = some (last, observations)

/-! ## What later calls can see of a state -/

namespace SerialTransport

/-- An ACK as a wait would return it: one of a handshake counts as `OK`. -/
def visible (ack : Byte × AckStatus) : Byte × AckStatus :=
  (ack.1, if ack.1 = MsgId.handshake then AckStatus.ok else ack.2)

/-- What a wait can see of the slot. -/
def visibleAck (s : SerialTransport) : Option (Byte × AckStatus) := s.pendingAck.map visible

theorem map_takeAck_visible (expectedMsgId : Byte) (s : SerialTransport) :
    (s.takeAck expectedMsgId).map Prod.fst =
      s.visibleAck.bind fun ack ↦ if ack.1 = expectedMsgId then some ack.2 else none := by
  rw [map_takeAck, visibleAck]
  cases s.pendingAck with
  | none => rfl
  | some ack =>
    change answerTo expectedMsgId ack = if ack.1 = expectedMsgId then _ else none
    unfold answerTo
    by_cases hmsgId : ack.1 = expectedMsgId
    · rw [if_pos hmsgId, if_pos hmsgId]
      subst hmsgId
      rfl
    · rw [if_neg hmsgId, if_neg hmsgId]

/-- `Connect` changes nothing but the port. -/
theorem connect_eq (faults : ConnectFaults) (s : SerialTransport) :
    ∃ serialDev, (s.connect faults).2 = { s with serialDev := serialDev } := by
  unfold connect
  dsimp only
  split_ifs <;> exact ⟨_, rfl⟩

theorem connect_congr (faults : ConnectFaults) {s other : SerialTransport}
    (hopen : other.isOpen = s.isOpen)
    (hconfiguration : other.configuration = s.configuration) :
    (other.connect faults).1 = (s.connect faults).1 ∧
      (other.connect faults).2.isOpen = (s.connect faults).2.isOpen := by
  obtain ⟨_, _, _, hconfigured⟩ := Configuration.mk.inj hconfiguration
  unfold connect
  rw [hopen, hconfigured]
  dsimp only
  split_ifs
  · exact ⟨rfl, hopen⟩
  · exact ⟨rfl, hopen⟩
  · exact ⟨rfl, hopen⟩
  all_goals exact ⟨rfl, rfl⟩

/-- `Shutdown` closes the port and clears what `Reset` clears. -/
theorem shutdown_eq (s : SerialTransport) :
    s.shutdown = { s.reset with serialDev := { s.serialDev with isOpen := false } } := by
  unfold shutdown
  dsimp only
  split_ifs with hopen
  · rfl
  · have hclosed : s.serialDev.isOpen = false := Bool.not_eq_true _ ▸ hopen
    unfold reset
    rw [← hclosed]

end SerialTransport

/-- Two drivers that no later call can tell apart. -/
structure Alike (k other : Kestrel) : Prop where
  isOpen : other.isOpen = k.isOpen
  configuration : other.base.configuration = k.base.configuration
  rxBuffer : other.base.rxBuffer = k.base.rxBuffer
  waits : reference.Waits k.base.rxBuffer
  visibleAck : other.base.visibleAck = k.base.visibleAck
  lastHeartbeatTime : other.base.lastHeartbeatTime = k.base.lastHeartbeatTime

namespace Kestrel

variable {k other : Kestrel}

theorem read_configuration (poll : Poll) (k : Kestrel) :
    (k.read poll).1.base.configuration = k.base.configuration := by
  rw [k.read_eq]
  exact SerialTransport.read_constant SerialTransport.configuration
    (fun s message ↦ by unfold SerialTransport.receive SerialTransport.interceptAck; split <;> rfl)
    (fun _ _ ↦ rfl) (fun _ _ ↦ rfl) poll.raw k.base

theorem read_lastHeartbeatTime (poll : Poll) (k : Kestrel) :
    (k.read poll).1.base.lastHeartbeatTime =
      heartbeatAfter poll.now (SerialTransport.dispatched (k.base.read poll.raw).2)
        k.base.lastHeartbeatTime := by
  have htime : (k.base.read poll.raw).1.lastHeartbeatTime = k.base.lastHeartbeatTime :=
    SerialTransport.read_constant SerialTransport.lastHeartbeatTime
      (fun s message ↦ by unfold SerialTransport.receive SerialTransport.interceptAck; split <;> rfl)
      (fun _ _ ↦ rfl) (fun _ _ ↦ rfl) poll.raw k.base
  rw [k.read_eq]
  dsimp only
  rw [htime]

theorem read_visibleAck (poll : Poll) (k : Kestrel) :
    (k.read poll).1.base.visibleAck =
      ((parsedAcks (k.read poll).2).getLast?.map SerialTransport.visible).or k.base.visibleAck := by
  rw [SerialTransport.visibleAck, read_pendingAck, Option.map_or]
  rfl

/-- What a successful test of the slot leaves. -/
theorem takeAck_eq_some {expectedMsgId : Byte} {s next : SerialTransport} {status : AckStatus}
    (h : s.takeAck expectedMsgId = some (status, next)) :
    next.visibleAck = none ∧ next.serialDev = s.serialDev ∧
      next.configuration = s.configuration ∧ next.rxBuffer = s.rxBuffer ∧
      next.lastHeartbeatTime = s.lastHeartbeatTime := by
  unfold SerialTransport.takeAck at h
  split at h
  · obtain ⟨-, rfl⟩ := Prod.mk.inj (Option.some.inj h)
    dsimp only
    split <;> exact ⟨rfl, rfl, rfl, rfl, rfl⟩
  · cases h

theorem waitForAck_configuration (expectedMsgId : Byte) (polls : List Poll) (k : Kestrel) :
    (k.waitForAck expectedMsgId polls).2.1.base.configuration = k.base.configuration := by
  induction polls generalizing k with
  | nil => rfl
  | cons poll polls ih =>
    cases htake : (k.read poll).1.base.takeAck expectedMsgId with
    | none => rw [waitForAck_of_no_ack polls htake, ih, k.read_configuration]
    | some result =>
      obtain ⟨_, _, hconfiguration, _, _⟩ := takeAck_eq_some htake
      rw [waitForAck_of_ack polls htake, ← k.read_configuration poll]
      exact hconfiguration

end Kestrel

namespace Alike

open Kestrel

variable {k other : Kestrel}

/-- What a `Read` parses depends on the port and the receive buffer. -/
theorem dispatched (h : Alike k other) (raw : List Byte) :
    SerialTransport.dispatched (other.base.read raw).2 =
        SerialTransport.dispatched (k.base.read raw).2 ∧
      (other.base.read raw).1.rxBuffer = (k.base.read raw).1.rxBuffer ∧
      reference.Waits (k.base.read raw).1.rxBuffer := by
  have hwaits' : reference.Waits other.base.rxBuffer := by
    rw [h.rxBuffer]
    exact h.waits
  cases hopen : k.base.isOpen with
  | true =>
    have hopen' : other.base.isOpen = true := h.isOpen.trans hopen
    obtain ⟨hread, _, hfollows⟩ := SerialTransport.read_spec raw hopen h.waits
    obtain ⟨hread', _, hfollows'⟩ := SerialTransport.read_spec raw hopen' hwaits'
    rw [SerialTransport.dispatched_eq_messages hfollows,
      SerialTransport.dispatched_eq_messages hfollows', hread, hread',
      SerialTransport.after_rxBuffer, SerialTransport.after_rxBuffer, h.rxBuffer]
    exact ⟨rfl, rfl, reference.waits_drain _⟩
  | false =>
    have hopen' : other.base.isOpen = false := h.isOpen.trans hopen
    rw [SerialTransport.read_of_closed raw hopen, SerialTransport.read_of_closed raw hopen']
    exact ⟨rfl, h.rxBuffer, h.waits⟩

theorem read (h : Alike k other) (poll : Poll) :
    (other.read poll).2 = (k.read poll).2 ∧ Alike (k.read poll).1 (other.read poll).1 := by
  obtain ⟨hdispatched, hbuffer, hwaits⟩ := h.dispatched poll.raw
  have heffects : (other.read poll).2 = (k.read poll).2 := by
    rw [other.read_eq, k.read_eq, hdispatched]
  refine ⟨heffects, ⟨?_, ?_, ?_, ?_, ?_, ?_⟩⟩
  · rw [(other.read_evolves poll).1.isOpen, (k.read_evolves poll).1.isOpen, h.isOpen]
  · rw [other.read_configuration, k.read_configuration, h.configuration]
  · rw [other.read_eq, k.read_eq]
    exact hbuffer
  · rw [k.read_eq]
    exact hwaits
  · rw [other.read_visibleAck, k.read_visibleAck, heffects, h.visibleAck]
  · rw [other.read_lastHeartbeatTime, k.read_lastHeartbeatTime, hdispatched, h.lastHeartbeatTime]

/-- A wait tests and clears the same ACK in drivers that are alike. -/
theorem takeAck (h : Alike k other) (expectedMsgId : Byte) :
    (k.base.takeAck expectedMsgId = none ∧ other.base.takeAck expectedMsgId = none) ∨
      ∃ status base last, k.base.takeAck expectedMsgId = some (status, base) ∧
        other.base.takeAck expectedMsgId = some (status, last) ∧
        Alike { k with base } { other with base := last } := by
  have hfirst := k.base.map_takeAck_visible expectedMsgId
  have hsecond := other.base.map_takeAck_visible expectedMsgId
  rw [h.visibleAck, ← hfirst] at hsecond
  cases htake : k.base.takeAck expectedMsgId with
  | none =>
    rw [htake, Option.map_none, Option.map_eq_none_iff] at hsecond
    exact .inl ⟨rfl, hsecond⟩
  | some result =>
    obtain ⟨status, base⟩ := result
    rw [htake] at hsecond
    obtain ⟨⟨_, last⟩, htake', rfl⟩ := Option.map_eq_some_iff.mp hsecond
    obtain ⟨hvisible, hserial, hconfiguration, hbuffer, htime⟩ := takeAck_eq_some htake
    obtain ⟨hvisible', hserial', hconfiguration', hbuffer', htime'⟩ := takeAck_eq_some htake'
    refine .inr ⟨_, base, last, rfl, htake', ⟨?_, ?_, ?_, ?_, ?_, ?_⟩⟩
    · change last.serialDev.isOpen = base.serialDev.isOpen
      rw [hserial, hserial']
      exact h.isOpen
    · rw [hconfiguration, hconfiguration', h.configuration]
    · rw [hbuffer, hbuffer', h.rxBuffer]
    · rw [hbuffer]
      exact h.waits
    · rw [hvisible, hvisible']
    · rw [htime, htime', h.lastHeartbeatTime]

theorem waitForAck (h : Alike k other) (expectedMsgId : Byte) (polls : List Poll) :
    (other.waitForAck expectedMsgId polls).1 = (k.waitForAck expectedMsgId polls).1 ∧
      (other.waitForAck expectedMsgId polls).2.2 = (k.waitForAck expectedMsgId polls).2.2 ∧
      Alike (k.waitForAck expectedMsgId polls).2.1 (other.waitForAck expectedMsgId polls).2.1 := by
  induction polls generalizing k other with
  | nil => exact ⟨rfl, rfl, h⟩
  | cons poll polls ih =>
    obtain ⟨heffects, hread⟩ := h.read poll
    rcases hread.takeAck expectedMsgId with
      ⟨hnone, hnone'⟩ | ⟨status, base, last, hsome, hsome', halike⟩
    · rw [waitForAck_of_no_ack polls hnone, waitForAck_of_no_ack polls hnone']
      obtain ⟨hstatus, hlater, halike⟩ := ih hread
      exact ⟨hstatus, by rw [heffects, hlater], halike⟩
    · rw [waitForAck_of_ack polls hsome, waitForAck_of_ack polls hsome']
      exact ⟨rfl, heffects, halike⟩

/-- Alike drivers whose ports and configurations are changed in the same way. -/
theorem congr (h : Alike k other) {next last : Kestrel}
    (hopen : last.isOpen = next.isOpen)
    (hconfiguration : last.base.configuration = next.base.configuration)
    (hnext : (next.base.rxBuffer, next.base.visibleAck, next.base.lastHeartbeatTime) =
      (k.base.rxBuffer, k.base.visibleAck, k.base.lastHeartbeatTime))
    (hlast : (last.base.rxBuffer, last.base.visibleAck, last.base.lastHeartbeatTime) =
      (other.base.rxBuffer, other.base.visibleAck, other.base.lastHeartbeatTime)) :
    Alike next last := by
  obtain ⟨hbuffer, hrest⟩ := Prod.mk.inj hnext
  obtain ⟨hvisible, htime⟩ := Prod.mk.inj hrest
  obtain ⟨hbuffer', hrest'⟩ := Prod.mk.inj hlast
  obtain ⟨hvisible', htime'⟩ := Prod.mk.inj hrest'
  refine ⟨hopen, hconfiguration, ?_, ?_, ?_, ?_⟩
  · rw [hbuffer, hbuffer', h.rxBuffer]
  · rw [hbuffer]
    exact h.waits
  · rw [hvisible, hvisible', h.visibleAck]
  · rw [htime, htime', h.lastHeartbeatTime]

theorem connect (h : Alike k other) (faults : SerialTransport.ConnectFaults) :
    (other.connect faults).1 = (k.connect faults).1 ∧
      Alike (k.connect faults).2 (other.connect faults).2 := by
  obtain ⟨hresult, hopen⟩ := SerialTransport.connect_congr faults h.isOpen h.configuration
  obtain ⟨serialDev, hk⟩ := k.base.connect_eq faults
  obtain ⟨serialDev', hother⟩ := other.base.connect_eq faults
  refine ⟨hresult, h.congr hopen ?_ ?_ ?_⟩
  · change (other.base.connect faults).2.configuration = (k.base.connect faults).2.configuration
    rw [hk, hother]
    exact h.configuration
  · change ((k.base.connect faults).2.rxBuffer, (k.base.connect faults).2.visibleAck,
      (k.base.connect faults).2.lastHeartbeatTime) = _
    rw [hk]
    rfl
  · change ((other.base.connect faults).2.rxBuffer, (other.base.connect faults).2.visibleAck,
      (other.base.connect faults).2.lastHeartbeatTime) = _
    rw [hother]
    rfl

theorem shutdown (h : Alike k other) : Alike k.shutdown other.shutdown := by
  unfold Kestrel.shutdown
  rw [SerialTransport.shutdown_eq, SerialTransport.shutdown_eq]
  exact ⟨rfl, h.configuration, rfl, reference_waits_iff.mpr (.inl rfl),
    h.visibleAck, h.lastHeartbeatTime⟩

theorem apply (h : Alike k other) (op : Op) :
    (other.apply op).2 = (k.apply op).2 ∧ Alike (k.apply op).1 (other.apply op).1 := by
  cases op with
  | configure port baudRate readTimeoutMs =>
    refine ⟨rfl, ?_⟩
    unfold Kestrel.apply Kestrel.configure SerialTransport.configure
    dsimp only
    split_ifs
    · exact h
    · exact h.congr h.isOpen rfl rfl rfl
  | connect faults =>
    obtain ⟨hresult, halike⟩ := h.connect faults
    exact ⟨congrArg (fun result ↦ [Observation.connected result]) hresult, halike⟩
  | shutdown => exact ⟨rfl, h.shutdown⟩
  | read poll =>
    obtain ⟨heffects, halike⟩ := h.read poll
    exact ⟨congrArg (fun effects ↦ [Observation.dispatched (parsedMessages effects)]) heffects,
      halike⟩
  | wait expectedMsgId polls =>
    obtain ⟨hstatus, heffects, halike⟩ := h.waitForAck expectedMsgId polls
    refine ⟨?_, halike⟩
    simp only [Kestrel.apply, hstatus, heffects]
  | isHeartbeatHealthy maxAgeMs now =>
    refine ⟨?_, h⟩
    simp only [Kestrel.apply, SerialTransport.isHeartbeatHealthy, h.lastHeartbeatTime]

/-- A reconnect makes two drivers alike if they agree on what a reset keeps. -/
theorem of_reconnect (hconfiguration : other.base.configuration = k.base.configuration)
    (hvisible : other.base.visibleAck = k.base.visibleAck)
    (htime : other.base.lastHeartbeatTime = k.base.lastHeartbeatTime)
    (faults : SerialTransport.ConnectFaults) :
    Alike (k.reconnect faults) (other.reconnect faults) := by
  have hshutdown : Alike k.shutdown other.shutdown := by
    unfold Kestrel.shutdown
    rw [SerialTransport.shutdown_eq, SerialTransport.shutdown_eq]
    exact ⟨rfl, hconfiguration, rfl, reference_waits_iff.mpr (.inl rfl), hvisible, htime⟩
  exact (hshutdown.connect faults).2

end Alike

/-! ## What later calls do see -/

theorem transport_run_cons {k final : Kestrel} {op : Op} {ops : List Op}
    {observations : List Observation}
    (h : transport.run k (op :: ops) = some (final, observations)) :
    ∃ later, transport.run (k.apply op).1 ops = some (final, later) ∧
      observations = (k.apply op).2 ++ later := by
  obtain ⟨_, _, later, hstep, hrun, rfl⟩ := Machine.run_cons_eq_some.mp h
  obtain ⟨rfl, rfl⟩ := Prod.mk.inj (Option.some.inj hstep)
  exact ⟨later, hrun, rfl⟩

/-- Drivers that cannot be told apart answer every single call in the same way. -/
theorem Indistinguishable.apply_eq {k other : Kestrel} (h : Indistinguishable k other)
    (faults : SerialTransport.ConnectFaults) (op : Op) :
    ((other.reconnect faults).apply op).2 = ((k.reconnect faults).apply op).2 := by
  have hrun : transport.run (k.reconnect faults) [op] =
      some (((k.reconnect faults).apply op).1, ((k.reconnect faults).apply op).2 ++ []) := rfl
  obtain ⟨last, hlast⟩ := h faults [op] _ _ hrun
  obtain ⟨later, hnil, hequal⟩ := transport_run_cons hlast
  obtain ⟨-, rfl⟩ := Prod.mk.inj (Option.some.inj hnil)
  simpa using hequal.symm

/-- A heartbeat is too old for an age of zero once a whole millisecond has passed. -/
theorem not_recent {earlier later : ℤ} (h : earlier < later) :
    ¬(later + 999999 - earlier).tdiv 1000000 ≤ ((0 : ℕ) : ℤ) := by
  rw [Int.tdiv_eq_ediv_of_nonneg (by omega)]
  omega

/-- The later of two heartbeats is still healthy when the earlier one is too old. -/
theorem isHeartbeatHealthy_ne {s other : SerialTransport} (hseen : s.lastHeartbeatTime ≠ 0)
    (hother : other.lastHeartbeatTime = 0 ∨ other.lastHeartbeatTime < s.lastHeartbeatTime) :
    s.isHeartbeatHealthy 0 (s.lastHeartbeatTime + 999999) ≠
      other.isHeartbeatHealthy 0 (s.lastHeartbeatTime + 999999) := by
  have hhealthy : s.isHeartbeatHealthy 0 (s.lastHeartbeatTime + 999999) = true := by
    unfold SerialTransport.isHeartbeatHealthy
    rw [if_neg hseen, add_sub_cancel_left]
    decide
  have hunhealthy : other.isHeartbeatHealthy 0 (s.lastHeartbeatTime + 999999) = false := by
    unfold SerialTransport.isHeartbeatHealthy
    split_ifs with hnever
    · rfl
    · exact decide_eq_false (not_recent (hother.resolve_left hnever))
  rw [hhealthy, hunhealthy]
  decide

/-- A frame that is no ACK. -/
def probeFrame : Message := ⟨MsgId.reset, []⟩

/-- A wait that finds nothing first, and then a frame that is no ACK. -/
def probe (msgId : Byte) : Op := .wait msgId [⟨[], 0⟩, ⟨probeFrame.encode, 0⟩]

/-- What the probe is answered, given what the wait finds in the slot. -/
def probeAnswer : Option AckStatus → List Observation
  | some status => [.dispatched [], .acknowledged status]
  | none => [.dispatched [probeFrame], .acknowledged AckStatus.timeout]

theorem probeAnswer_injective : Function.Injective probeAnswer := by
  intro found other h
  cases found with
  | none =>
    cases other with
    | none => rfl
    | some status => cases h
  | some status =>
    cases other with
    | none => cases h
    | some status => cases h; rfl

namespace Kestrel

variable {k : Kestrel}

theorem read_nil (now : SteadyTime) (k : Kestrel) : k.read ⟨[], now⟩ = (k, []) := by
  have hread : k.base.read [] = (k.base, []) := by
    have hchecked := SerialTransport.readChecked_eq [] k.base
    unfold SerialTransport.readChecked at hchecked
    split at hchecked
    · exact (Except.ok.inj hchecked).symm
    · exact (Except.ok.inj hchecked).symm
  rw [k.read_eq, hread]
  rfl

theorem parsedMessages_read_probe (hopen : k.isOpen = true) (hempty : k.base.rxBuffer = []) :
    parsedMessages (k.read ⟨probeFrame.encode, 0⟩).2 = [probeFrame] := by
  have hwaits : reference.Waits k.base.rxBuffer := reference_waits_iff.mpr (.inl hempty)
  obtain ⟨_, _, hfollows⟩ := SerialTransport.read_spec probeFrame.encode hopen hwaits
  have hencodings := @emits_encodings [probeFrame] (by decide) []
  simp only [List.map_cons, List.map_nil, List.flatten_cons, List.flatten_nil,
    List.append_nil] at hencodings
  have hdrain := hencodings.eq_drain (reference_waits_iff.mpr (.inl rfl))
  rw [k.read_eq, parsedMessages_map_parsed, SerialTransport.dispatched_eq_messages hfollows, hempty,
    List.nil_append, hdrain]
  rfl

/-- The probe shows what is visible of the slot. -/
theorem apply_probe (hopen : k.isOpen = true) (hempty : k.base.rxBuffer = []) (msgId : Byte) :
    (k.apply (probe msgId)).2 =
      probeAnswer
        (k.base.visibleAck.bind fun ack ↦ if ack.1 = msgId then some ack.2 else none) := by
  have htake := k.base.map_takeAck_visible msgId
  have hframe := parsedMessages_read_probe hopen hempty
  rw [← htake]
  change [Observation.dispatched (parsedMessages
      (k.waitForAck msgId [⟨[], 0⟩, ⟨probeFrame.encode, 0⟩]).2.2),
    .acknowledged (k.waitForAck msgId [⟨[], 0⟩, ⟨probeFrame.encode, 0⟩]).1] = _
  cases hfirst : k.base.takeAck msgId with
  | some result =>
    have hnil : (k.read ⟨[], 0⟩).1.base.takeAck msgId = some result := by rw [k.read_nil, hfirst]
    rw [waitForAck_of_ack _ hnil, k.read_nil]
    rfl
  | none =>
    have hnil : (k.read ⟨[], 0⟩).1.base.takeAck msgId = none := by rw [k.read_nil, hfirst]
    have hsecond : (k.read ⟨probeFrame.encode, 0⟩).1.base.takeAck msgId = none := by
      -- The frame is no ACK, so the slot is as it was.
      have hslot := k.read_visibleAck ⟨probeFrame.encode, 0⟩
      rw [parsedAcks, hframe] at hslot
      change _ = k.base.visibleAck at hslot
      have hafter := (k.read ⟨probeFrame.encode, 0⟩).1.base.map_takeAck_visible msgId
      rw [hslot, ← htake, hfirst] at hafter
      exact Option.map_eq_none_iff.mp hafter
    rw [waitForAck_of_no_ack _ hnil, k.read_nil, waitForAck_of_no_ack _ hsecond]
    dsimp only [List.nil_append]
    rw [parsedMessages_append, hframe]
    rfl

/-! ## Reconnecting -/

theorem reconnect_keeps (faults : SerialTransport.ConnectFaults) (k : Kestrel) :
    (k.reconnect faults).base.rxBuffer = [] ∧
      (k.reconnect faults).base.visibleAck = k.base.visibleAck ∧
      (k.reconnect faults).base.lastHeartbeatTime = k.base.lastHeartbeatTime := by
  obtain ⟨serialDev, hconnect⟩ := k.base.shutdown.connect_eq faults
  unfold reconnect connect shutdown
  dsimp only
  rw [hconnect, SerialTransport.shutdown_eq]
  exact ⟨rfl, rfl, rfl⟩

/-- Nothing goes wrong while the port is opened. -/
def noFaults : SerialTransport.ConnectFaults := ⟨false, false, false⟩

theorem reconnect_isOpen (hconfigured : k.base.configured = true) :
    (k.reconnect noFaults).isOpen = true := by
  unfold reconnect connect shutdown isOpen
  dsimp only
  rw [SerialTransport.shutdown_eq]
  unfold SerialTransport.connect
  simp only [SerialTransport.reset, hconfigured, SerialTransport.isOpen, noFaults]
  rfl

/-- Before the driver is configured its port is closed and no ACK has arrived. -/
def Idle (k : Kestrel) : Prop :=
  k.base.configured = false → k.isOpen = false ∧ k.base.visibleAck = none

theorem read_of_closed (poll : Poll) (hclosed : k.isOpen = false) : k.read poll = (k, []) := by
  rw [k.read_eq, SerialTransport.read_of_closed poll.raw hclosed]
  rfl

theorem waitForAck_of_closed (expectedMsgId : Byte) (polls : List Poll)
    (hclosed : k.isOpen = false) (hempty : k.base.visibleAck = none) :
    k.waitForAck expectedMsgId polls = (AckStatus.timeout, k, []) := by
  induction polls with
  | nil => rfl
  | cons poll polls ih =>
    have htake := k.base.map_takeAck_visible expectedMsgId
    rw [hempty, Option.bind_none, Option.map_eq_none_iff] at htake
    have hread := read_of_closed poll hclosed
    rw [waitForAck_of_no_ack polls (by rw [hread]; exact htake), hread, ih]
    rfl

theorem Idle.apply (h : k.Idle) (op : Op) : (k.apply op).1.Idle := by
  cases op with
  | configure port baudRate readTimeoutMs =>
    unfold Kestrel.apply Kestrel.configure SerialTransport.configure
    dsimp only
    split_ifs
    · exact h
    · intro hconfigured
      cases hconfigured
  | connect faults =>
    intro hconfigured
    obtain ⟨serialDev, hconnect⟩ := k.base.connect_eq faults
    have hsame : k.base.configured = false := by
      change (k.base.connect faults).2.configured = false at hconfigured
      rwa [hconnect] at hconfigured
    have hrefused : (k.base.connect faults).2 = k.base := by
      unfold SerialTransport.connect
      rw [hsame]
      rfl
    change (k.base.connect faults).2.isOpen = false ∧
      (k.base.connect faults).2.visibleAck = none
    rw [hrefused]
    exact h hsame
  | shutdown =>
    unfold Kestrel.apply Kestrel.shutdown
    dsimp only
    rw [SerialTransport.shutdown_eq]
    exact fun hconfigured ↦ ⟨rfl, (h hconfigured).2⟩
  | read poll =>
    intro hconfigured
    have hsame : k.base.configured = false :=
      (Configuration.mk.inj (k.read_configuration poll)).2.2.2.symm.trans hconfigured
    change (k.read poll).1.isOpen = false ∧ (k.read poll).1.base.visibleAck = none
    rw [read_of_closed poll (h hsame).1]
    exact h hsame
  | wait expectedMsgId polls =>
    intro hconfigured
    have hsame : k.base.configured = false :=
      (Configuration.mk.inj (k.waitForAck_configuration expectedMsgId polls)).2.2.2.symm.trans
        hconfigured
    obtain ⟨hclosed, hempty⟩ := h hsame
    change (k.waitForAck expectedMsgId polls).2.1.isOpen = false ∧
      (k.waitForAck expectedMsgId polls).2.1.base.visibleAck = none
    rw [waitForAck_of_closed expectedMsgId polls hclosed hempty]
    exact ⟨hclosed, hempty⟩
  | isHeartbeatHealthy maxAgeMs now => exact h

end Kestrel

/-- What holds of a fresh driver and after every call holds of every reachable one. -/
theorem Reachable.invariant {k : Kestrel} (h : Reachable k) {holds : Kestrel → Prop}
    (hinitial : holds Kestrel.initial) (happly : ∀ k op, holds k → holds (k.apply op).1) :
    holds k := by
  obtain ⟨ops, observations, hrun⟩ := h
  refine Machine.run_invariant_nil (fun k _ ↦ holds k) ?_ hrun (Machine.along_true _ ops) hinitial
  intro k _ op next _ hbefore _ hstep
  obtain ⟨rfl, -⟩ := Prod.mk.inj (Option.some.inj hstep)
  exact happly k op hbefore

theorem Reachable.idle {k : Kestrel} (h : Reachable k) : k.Idle :=
  h.invariant (fun _ ↦ ⟨rfl, rfl⟩) fun _ op hidle ↦ hidle.apply op

theorem reachable_foldl (ops : List Op) :
    Reachable (ops.foldl (fun k op ↦ (k.apply op).1) Kestrel.initial) := by
  have hrun : ∀ k, ∃ observations,
      transport.run k ops = some (ops.foldl (fun k op ↦ (k.apply op).1) k, observations) := by
    induction ops with
    | nil => exact fun k ↦ ⟨[], rfl⟩
    | cons op ops ih =>
      intro k
      obtain ⟨later, hlater⟩ := ih (k.apply op).1
      exact ⟨_, Machine.run_cons_eq_some.mpr ⟨_, _, later, rfl, hlater, rfl⟩⟩
  obtain ⟨observations, hinitial⟩ := hrun Kestrel.initial
  exact ⟨ops, observations, hinitial⟩

/-- Two slots are equal if every wait finds the same in them. -/
theorem eq_of_bind_eq {slot other : Option (Byte × AckStatus)}
    (h : ∀ msgId, (slot.bind fun ack ↦ if ack.1 = msgId then some ack.2 else none) =
      other.bind fun ack ↦ if ack.1 = msgId then some ack.2 else none) : slot = other := by
  cases slot with
  | none =>
    cases other with
    | none => rfl
    | some ack =>
      have hfound := h ack.1
      rw [Option.bind_none, Option.bind_some, if_pos rfl] at hfound
      cases hfound
  | some ack =>
    have hfound := h ack.1
    rw [Option.bind_some, if_pos rfl] at hfound
    cases other with
    | none => cases hfound
    | some found =>
      rw [Option.bind_some] at hfound
      split at hfound
      next hmsgId => exact congrArg some (Prod.ext hmsgId.symm (Option.some.inj hfound))
      next => cases hfound

/-- Configured drivers that cannot be told apart have the same slot. -/
theorem Indistinguishable.visibleAck_eq {k other : Kestrel} (h : Indistinguishable k other)
    (hconfigured : k.base.configured = true) (hconfigured' : other.base.configured = true) :
    other.base.visibleAck = k.base.visibleAck := by
  obtain ⟨hempty, hvisible, -⟩ := k.reconnect_keeps Kestrel.noFaults
  obtain ⟨hempty', hvisible', -⟩ := other.reconnect_keeps Kestrel.noFaults
  rw [← hvisible, ← hvisible']
  refine eq_of_bind_eq fun msgId ↦ ?_
  have hprobe := h.apply_eq Kestrel.noFaults (probe msgId)
  rw [Kestrel.apply_probe (Kestrel.reconnect_isOpen hconfigured) hempty,
    Kestrel.apply_probe (Kestrel.reconnect_isOpen hconfigured') hempty'] at hprobe
  exact probeAnswer_injective hprobe

theorem Indistinguishable.lastHeartbeatTime_eq {k other : Kestrel} (h : Indistinguishable k other) :
    other.base.lastHeartbeatTime = k.base.lastHeartbeatTime := by
  obtain ⟨-, -, htime⟩ := k.reconnect_keeps Kestrel.noFaults
  obtain ⟨-, -, htime'⟩ := other.reconnect_keeps Kestrel.noFaults
  have hhealthy : ∀ maxAgeMs now,
      (other.reconnect Kestrel.noFaults).base.isHeartbeatHealthy maxAgeMs now =
        (k.reconnect Kestrel.noFaults).base.isHeartbeatHealthy maxAgeMs now := by
    intro maxAgeMs now
    have hanswer := h.apply_eq Kestrel.noFaults (.isHeartbeatHealthy maxAgeMs now)
    exact Observation.healthy.inj (List.singleton_injective hanswer)
  rw [← htime, ← htime']
  by_contra hne
  generalize (k.reconnect Kestrel.noFaults).base = s at hne hhealthy
  generalize (other.reconnect Kestrel.noFaults).base = last at hne hhealthy
  have hcases : (s.lastHeartbeatTime ≠ 0 ∧
        (last.lastHeartbeatTime = 0 ∨ last.lastHeartbeatTime < s.lastHeartbeatTime)) ∨
      (last.lastHeartbeatTime ≠ 0 ∧
        (s.lastHeartbeatTime = 0 ∨ s.lastHeartbeatTime < last.lastHeartbeatTime)) := by
    rcases lt_trichotomy last.lastHeartbeatTime s.lastHeartbeatTime with hlt | heq | hlt
    · by_cases hzero : s.lastHeartbeatTime = 0
      · exact .inr ⟨(hlt.trans_eq hzero).ne, .inl hzero⟩
      · exact .inl ⟨hzero, .inr hlt⟩
    · exact absurd heq hne
    · by_cases hzero : last.lastHeartbeatTime = 0
      · exact .inl ⟨(hlt.trans_eq hzero).ne, .inl hzero⟩
      · exact .inr ⟨hzero, .inr hlt⟩
  rcases hcases with ⟨hseen, hother⟩ | ⟨hseen, hother⟩
  · exact isHeartbeatHealthy_ne hseen hother (hhealthy _ _).symm
  · exact isHeartbeatHealthy_ne hseen hother (hhealthy _ _)

/-- A reset forgets the session exactly if the drivers agree on what it does not clear. -/
theorem indistinguishable_iff {k other : Kestrel} (hk : Reachable k) (hother : Reachable other)
    (hconfiguration : other.base.configuration = k.base.configuration) :
    Indistinguishable k other ↔ other.base.visibleAck = k.base.visibleAck ∧
      other.base.lastHeartbeatTime = k.base.lastHeartbeatTime := by
  constructor
  · intro h
    refine ⟨?_, h.lastHeartbeatTime_eq⟩
    have hsame : other.base.configured = k.base.configured :=
      (Configuration.mk.inj hconfiguration).2.2.2
    cases hconfigured : k.base.configured with
    | true => exact h.visibleAck_eq hconfigured (hsame.trans hconfigured)
    | false => rw [(hk.idle hconfigured).2, (hother.idle (hsame.trans hconfigured)).2]
  · rintro ⟨hvisible, htime⟩ faults ops final observations hrun
    have halike := Alike.of_reconnect hconfiguration hvisible htime faults
    have hstep : ∀ {s t op next outputs}, Alike s t →
        transport.step s op = some (next, outputs) →
        ∃ last, transport.step t op = some (last, outputs) ∧ Alike next last := by
      intro s t op next outputs halike hstep
      obtain ⟨rfl, rfl⟩ := Prod.mk.inj (Option.some.inj hstep)
      obtain ⟨hobservations, hnext⟩ := halike.apply op
      exact ⟨_, congrArg some (Prod.ext rfl hobservations), hnext⟩
    obtain ⟨last, hlast, -⟩ := Machine.run_alike hstep halike hrun
    exact ⟨last, hlast⟩

/-! ## A handshake of the old session -/

/-- A configured and connected driver that has read some bytes. -/
def sessionWith (raw : List Byte) : Kestrel :=
  [Op.configure "/dev/ttyACM0" 115200 20, .connect Kestrel.noFaults, .read ⟨raw, 1⟩].foldl
    (fun k op ↦ (k.apply op).1) Kestrel.initial

/-- A late ACK that is read after its wait was given up. -/
def lateHandshake : Kestrel := sessionWith (Kestrel.ackFrame MsgId.handshake 2)

/-- The version in a handshake ACK makes no difference. -/
theorem indistinguishable_iff_version :
    Indistinguishable lateHandshake (sessionWith (Kestrel.ackFrame MsgId.handshake 3)) :=
  (indistinguishable_iff (reachable_foldl _) (reachable_foldl _) (by decide +kernel)).mpr
    ⟨by decide +kernel, by decide +kernel⟩

/-- After the reconnect a handshake succeeds although nothing has arrived. -/
theorem not_indistinguishable :
    ¬∀ k other, Reachable k → Reachable other →
      other.base.configuration = k.base.configuration → Indistinguishable k other := by
  intro h
  have hindistinguishable := h (sessionWith []) lateHandshake (reachable_foldl _)
    (reachable_foldl _) (by decide +kernel)
  have hanswers := hindistinguishable.apply_eq Kestrel.noFaults (.wait MsgId.handshake [⟨[], 2⟩])
  have hlate : ((lateHandshake.reconnect Kestrel.noFaults).apply
      (.wait MsgId.handshake [⟨[], 2⟩])).2 =
      [.dispatched [], .acknowledged AckStatus.ok] := by decide +kernel
  have hfresh : (((sessionWith []).reconnect Kestrel.noFaults).apply
      (.wait MsgId.handshake [⟨[], 2⟩])).2 =
      [.dispatched [], .acknowledged AckStatus.timeout] := by decide +kernel
  rw [hlate, hfresh] at hanswers
  revert hanswers
  decide

end MyDiffbot.Transport
