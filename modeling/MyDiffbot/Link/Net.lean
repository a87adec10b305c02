import MyDiffbot.Incremental.Machine
import MyDiffbot.Transport.Batches

/-!
# Commands and their ACKs over the two links

The host writes one acknowledged command at a time and polls for its ACK (`WriteCommand`, then
`WaitForAck`), and calls `Read` between commands. The frames travel over two FIFO links that may
delay, drop or damage them; a damaged frame fails its checksum and is not received. The
microcontroller handles the commands it receives in order and answers each acknowledged one with an
ACK frame that carries its MSG_ID.

The host is a `SerialTransport`, with the pending slot as the code has it. What the code does not
have are the numbers of the commands: they record which command an ACK was produced for.
-/

namespace MyDiffbot.Link

open Protocol Transport Incremental

/-- A command frame; `number` counts the commands the host has written before. -/
structure Command where
  msgId : Byte
  number : ℕ
  deriving DecidableEq, Repr

/-- A frame to the host, with the number of the command it answers. -/
structure Reply where
  message : Message
  origin : Option ℕ
  deriving DecidableEq, Repr

structure InFlight (α : Type) where
  content : α
  intact : Bool
  deriving DecidableEq, Repr

/-- The commands whose calls end in `WaitForAck`. -/
def acknowledged : List Byte :=
  [MsgId.handshake, MsgId.setPidGains, MsgId.setCmdTimeout, MsgId.deactivate, MsgId.reset]

structure Net where
  host : SerialTransport
  /-- The command that the ACK in the pending slot answers. -/
  pendingOrigin : Option ℕ
  /-- The command whose call has not returned. -/
  call : Option Command
  written : ℕ
  up : List (InFlight Command)
  down : List (InFlight Reply)
  processed : List ℕ
  deriving DecidableEq, Repr

/-- A call that returned because `WaitForAck` consumed an ACK. -/
structure Return where
  call : Command
  origin : Option ℕ
  status : AckStatus
  deriving DecidableEq, Repr

inductive Event
  /-- An acknowledged command is written and its wait begins. -/
  | command (msgId : Byte)
  /-- A command without an ACK is written. -/
  | fireAndForget (msgId : Byte)
  /-- `Read` finds the first `count` frames; inside a wait the slot is tested afterwards. -/
  | poll (count : ℕ)
  /-- The deadline of the wait has passed. -/
  | expire
  /-- The microcontroller receives the next command frame. -/
  | process (stamp : Fin 8 → Byte) (status : AckStatus)
  | telemetry (message : Message)
  | dropUp (i : ℕ)
  | dropDown (i : ℕ)
  | damageUp (i : ℕ)
  | damageDown (i : ℕ)

/-- The frames that `ExtractFrames` treats as ACKs. -/
def IsAck (message : Message) : Prop := message.msgId = MsgId.ack ∧ 10 ≤ message.payload.length

instance (message : Message) : Decidable (IsAck message) := inferInstanceAs (Decidable (_ ∧ _))

/-- The MSG_ID an ACK frame acknowledges. -/
def ackedMsgId (message : Message) : Byte := message.payload.getD 8 0

/-- `ACKPayload`: eight bytes of timestamp, the acknowledged MSG_ID and the status. -/
def ackMessage (stamp : Fin 8 → Byte) (msgId : Byte) (status : AckStatus) : Message where
  msgId := MsgId.ack
  payload := List.ofFn stamp ++ [msgId, status]

def damage {α : Type} (frame : InFlight α) : InFlight α := { frame with intact := false }

namespace Net

def initial (host : SerialTransport) : Net where
  host := host
  pendingOrigin := none
  call := none
  written := 0
  up := []
  down := []
  processed := []

/-- One frame reaches the parse loop of the host. -/
def deliver (net : Net) (frame : InFlight Reply) : Net :=
  if frame.intact then
    { net with
      host := net.host.receive frame.content.message
      pendingOrigin :=
        if IsAck frame.content.message then frame.content.origin else net.pendingOrigin }
  else net

/-- The test of the slot that follows each `Read` of a wait. -/
def checkSlot (net : Net) : Net × List Return :=
  match net.call with
  | none => (net, [])
  | some call =>
    match net.host.takeAck call.msgId with
    | none => (net, [])
    | some (status, host) =>
      ({ net with host, call := none }, [⟨call, net.pendingOrigin, status⟩])

def write (msgId : Byte) (net : Net) : Net :=
  { net with up := net.up ++ [⟨⟨msgId, net.written⟩, true⟩], written := net.written + 1 }

/-- The microcontroller takes the next frame; `none` if there is none. -/
def process (stamp : Fin 8 → Byte) (status : AckStatus) (net : Net) : Option Net :=
  match net.up with
  | [] => none
  | frame :: up =>
    let net := { net with up }
    if frame.intact then
      let net := { net with processed := net.processed ++ [frame.content.number] }
      if frame.content.msgId ∈ acknowledged then
        some { net with
          down := net.down ++
            [⟨⟨ackMessage stamp frame.content.msgId status, some frame.content.number⟩, true⟩] }
      else some net
    else some net

def step (net : Net) : Event → Option (Net × List Return)
  | .command msgId =>
    if msgId ∈ acknowledged ∧ net.call = none then
      some ({ net.write msgId with call := some ⟨msgId, net.written⟩ }, [])
    else none
  | .fireAndForget msgId =>
    if msgId ∉ acknowledged ∧ net.call = none then some (net.write msgId, []) else none
  | .poll count =>
    if count ≤ net.down.length then
      some (((net.down.take count).foldl deliver { net with down := net.down.drop count }).checkSlot)
    else none
  | .expire => if net.call = none then none else some ({ net with call := none }, [])
  | .process stamp status => (net.process stamp status).map (·, [])
  | .telemetry message =>
    if IsAck message then none
    else some ({ net with down := net.down ++ [⟨⟨message, none⟩, true⟩] }, [])
  | .dropUp i => some ({ net with up := net.up.eraseIdx i }, [])
  | .dropDown i => some ({ net with down := net.down.eraseIdx i }, [])
  | .damageUp i => some ({ net with up := net.up.modify i damage }, [])
  | .damageDown i => some ({ net with down := net.down.modify i damage }, [])

end Net

def network : Machine Net Event Return where
  step := Net.step

/-! ## The host of the model and the transport -/

theorem foldl_deliver_host (frames : List (InFlight Reply)) (net : Net)
    (hintact : ∀ frame ∈ frames, frame.intact = true) :
    (frames.foldl Net.deliver net).host =
      (frames.map fun frame ↦ frame.content.message).foldl (fun s message ↦ s.receive message)
        net.host := by
  induction frames generalizing net with
  | nil => rfl
  | cons frame frames ih =>
    rw [List.foldl_cons, ih _ fun later hlater ↦ hintact later (List.mem_cons_of_mem _ hlater),
      Net.deliver, if_pos (hintact frame List.mem_cons_self)]
    rfl

/-- Delivering intact frames is `Read` of the bytes of these frames. -/
theorem foldl_deliver_eq_read {frames : List (InFlight Reply)} {net : Net}
    (hintact : ∀ frame ∈ frames, frame.intact = true)
    (hpayload : ∀ frame ∈ frames, frame.content.message.payload.length ≤ 255)
    (hopen : net.host.isOpen = true) (hempty : net.host.rxBuffer = []) :
    (frames.foldl Net.deliver net).host =
      (SerialTransport.read
        (frames.map fun frame ↦ frame.content.message.encode).flatten net.host).1 := by
  have hsent : ∀ message ∈ frames.map fun frame ↦ frame.content.message,
      message.payload.length ≤ 255 := by
    intro message hmessage
    obtain ⟨frame, hframe, rfl⟩ := List.mem_map.mp hmessage
    exact hpayload frame hframe
  have hread := SerialTransport.read_encodings hopen hempty hsent
  rw [List.map_map] at hread
  rw [foldl_deliver_host frames net hintact, ← hread]
  rfl

end MyDiffbot.Link
