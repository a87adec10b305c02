import MyDiffbot.Transport.Kestrel

/-!
# The bytes an operation reads

A frame of the base may arrive in pieces, and the pieces with different calls: a `Read`, the polls
of a wait for an ACK, the polls of the next one. Each operation is given the bytes that it takes from
the port. Over any of them what is parsed, what is counted and what stays in the buffer are what the
reference parser makes of the buffer and these bytes in one piece, and operations in a row read as
one.
-/

namespace MyDiffbot.Transport.Kestrel

open Protocol Incremental

/-! ## Bytes taken from the port -/

/-- The bytes that `Read` takes. -/
def readBytes (poll : Poll) (k : Kestrel) : List Byte := if k.isOpen then poll.raw else []

/-- The bytes that a wait takes: those of its polls up to the one that completes the ACK. -/
def waitBytes (expectedMsgId : Byte) : List Poll → Kestrel → List Byte
  | [], _ => []
  | poll :: polls, k =>
    k.readBytes poll ++
      if ((k.read poll).1.base.takeAck expectedMsgId).isSome then []
      else waitBytes expectedMsgId polls (k.read poll).1

/-- The bytes that a request takes; nothing is waited for when its command was not written. -/
def requestBytes (command : Command) (exchange : Exchange) (k : Kestrel) : List Byte :=
  if (k.writeCommand exchange.throws command).1 then k.waitBytes command.msgId exchange.polls
  else []

/-! ## What is heard -/

/-- From one driver state to another with some effects, reading some bytes: the messages, the
counters and the buffer are those of the reference parser. -/
structure Hears (k : Kestrel) (stream : List Byte) (effects : List Effect) (next : Kestrel) :
    Prop where
  parsed : parsedMessages effects = messages (reference.drain (k.base.rxBuffer ++ stream)).1
  rxBuffer : next.base.rxBuffer = (reference.drain (k.base.rxBuffer ++ stream)).2
  received : next.base.receivedMessageCount =
    k.base.receivedMessageCount + (parsedMessages effects).length
  rejected : next.base.crcErrorCount =
    k.base.crcErrorCount + rejections (reference.drain (k.base.rxBuffer ++ stream)).1

namespace Hears

variable {k middle next : Kestrel} {stream more : List Byte} {effects later : List Effect}

/-- Whatever was heard, the buffer waits again. -/
theorem waits (h : Hears k stream effects next) : reference.Waits next.base.rxBuffer := by
  rw [h.rxBuffer]
  exact reference.waits_drain _

/-- Effects that are not messages, without a byte read. -/
theorem silent (hwaits : reference.Waits k.base.rxBuffer) (h : parsedMessages effects = []) :
    Hears k [] effects k := by
  have hdrain := reference.drain_of_waits hwaits
  constructor <;> simp [hdrain, h, messages, rejections]

/-- Operations in a row read as one that reads their bytes in one piece. -/
theorem trans (first : Hears k stream effects middle) (second : Hears middle more later next) :
    Hears k (stream ++ more) (effects ++ later) next := by
  have hdrain : reference.drain (k.base.rxBuffer ++ (stream ++ more)) =
      ((reference.drain (k.base.rxBuffer ++ stream)).1 ++
        (reference.drain (middle.base.rxBuffer ++ more)).1,
        (reference.drain (middle.base.rxBuffer ++ more)).2) := by
    rw [← List.append_assoc, reference.drain_append, first.rxBuffer]
  constructor
  · rw [parsedMessages_append, first.parsed, second.parsed, hdrain]
    exact List.filterMap_append.symm
  · rw [hdrain]
    exact second.rxBuffer
  · rw [parsedMessages_append, List.length_append, second.received, first.received, Nat.add_assoc]
  · rw [hdrain, rejections, List.count_append, second.rejected, first.rejected, Nat.add_assoc]
    rfl

/-- The pending ACK is no part of what was heard. -/
theorem congr (h : Hears k stream effects middle)
    (hbuffer : next.base.rxBuffer = middle.base.rxBuffer)
    (hreceived : next.base.receivedMessageCount = middle.base.receivedMessageCount)
    (hrejected : next.base.crcErrorCount = middle.base.crcErrorCount) :
    Hears k stream effects next :=
  ⟨h.parsed, hbuffer.trans h.rxBuffer, hreceived.trans h.received, hrejected.trans h.rejected⟩

end Hears

/-! ## Operations -/

theorem read_hears (poll : Poll) {k : Kestrel} (hwaits : reference.Waits k.base.rxBuffer) :
    Hears k (k.readBytes poll) (k.read poll).2 (k.read poll).1 := by
  unfold readBytes
  rw [k.read_eq]
  cases hopen : k.isOpen with
  | false =>
    rw [SerialTransport.read_of_closed poll.raw hopen]
    exact (Hears.silent hwaits rfl).congr rfl rfl rfl
  | true =>
    obtain ⟨hbase, _, hfollows⟩ := SerialTransport.read_spec poll.raw hopen hwaits
    have hdispatched : SerialTransport.dispatched (k.base.read poll.raw).2 =
        messages (reference.drain (k.base.rxBuffer ++ poll.raw)).1 := hfollows.messages
    obtain ⟨hrejected, hreceived⟩ := SerialTransport.foldl_record_counts k.base
      (reference.drain (k.base.rxBuffer ++ poll.raw)).1
    rw [hdispatched, hbase]
    constructor
    · exact parsedMessages_map_parsed _
    · rfl
    · rw [parsedMessages_map_parsed]
      exact hreceived
    · exact hrejected

/-- Taking the ACK out of its slot changes neither the buffer nor the counters. -/
theorem takeAck_keeps {msgId : Byte} {s next : SerialTransport} {status : AckStatus}
    (h : s.takeAck msgId = some (status, next)) :
    next.rxBuffer = s.rxBuffer ∧ next.receivedMessageCount = s.receivedMessageCount ∧
      next.crcErrorCount = s.crcErrorCount := by
  unfold SerialTransport.takeAck at h
  split at h
  · obtain ⟨-, rfl⟩ := Prod.mk.inj (Option.some.inj h)
    dsimp only
    split <;> exact ⟨rfl, rfl, rfl⟩
  · cases h

theorem waitForAck_hears (expectedMsgId : Byte) (polls : List Poll) {k : Kestrel}
    (hwaits : reference.Waits k.base.rxBuffer) :
    Hears k (k.waitBytes expectedMsgId polls) (k.waitForAck expectedMsgId polls).2.2
      (k.waitForAck expectedMsgId polls).2.1 := by
  induction polls generalizing k with
  | nil => exact .silent hwaits rfl
  | cons poll polls ih =>
    have hread := read_hears poll hwaits
    rw [waitBytes]
    cases htake : (k.read poll).1.base.takeAck expectedMsgId with
    | some result =>
      obtain ⟨status, base⟩ := result
      obtain ⟨hbuffer, hreceived, hrejected⟩ := takeAck_keeps htake
      rw [waitForAck_of_ack polls htake, Option.isSome_some, if_pos rfl, List.append_nil]
      exact hread.congr hbuffer hreceived hrejected
    | none =>
      rw [waitForAck_of_no_ack polls htake, Option.isSome_none, if_neg Bool.false_ne_true]
      exact hread.trans (ih hread.waits)

theorem request_hears (command : Command) (exchange : Exchange) {k : Kestrel}
    (hwaits : reference.Waits k.base.rxBuffer) :
    Hears k (k.requestBytes command exchange) (k.request command exchange).2.2
      (k.request command exchange).2.1 := by
  unfold requestBytes request writeCommand
  cases k.isOpen with
  | false => exact .silent hwaits rfl
  | true =>
    cases exchange.throws with
    | true => exact .silent hwaits rfl
    | false =>
      have hwritten : Hears k [] [.handed command false] k := .silent hwaits rfl
      exact hwritten.trans (waitForAck_hears command.msgId exchange.polls hwaits)

theorem post_hears (command : Command) (throws : Bool) {k : Kestrel}
    (hwaits : reference.Waits k.base.rxBuffer) : Hears k [] (k.post command throws).2 k := by
  unfold post writeCommand
  cases k.isOpen with
  | false => exact .silent hwaits rfl
  | true => exact .silent hwaits rfl

end MyDiffbot.Transport.Kestrel
