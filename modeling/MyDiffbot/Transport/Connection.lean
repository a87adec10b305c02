import MyDiffbot.Incremental.Trace
import MyDiffbot.Transport.Serial

/-!
# Connecting

`Connect` opens the port, sets its rate and flushes its buffers; each of the three may throw. It is
done at once if the port is open, although an attempt that failed after opening it has left it so,
and it sets a rate that the library does not list to 57600. Whether a run of calls can be told that
a port is connected which has not been set up is decided by the attempts that opened the port and
the rates they were made at (`neverHalfConfigured_iff`).
-/

namespace MyDiffbot.Transport

open Incremental

inductive ConnectionOp
  | configure (port : String) (baudRate : ℤ) (readTimeoutMs : ℕ)
  | connect (faults : SerialTransport.ConnectFaults)
  | shutdown
  deriving DecidableEq, Repr

namespace SerialTransport

/-- The transport after one call. -/
def perform (s : SerialTransport) : ConnectionOp → SerialTransport
  | .configure port baudRate readTimeoutMs => s.configure port baudRate readTimeoutMs
  | .connect faults => (s.connect faults).2
  | .shutdown => s.shutdown

/-- The transport after some calls. -/
def performAll (ops : List ConnectionOp) : SerialTransport := ops.foldl perform initial

/-- Since the port was opened, it was set to the configured rate itself, not to what the conversion
made of it, and its buffers were flushed. -/
def SetUp (s : SerialTransport) : Prop :=
  s.serialDev.baudRate.map (fun baudRate ↦ (baudRate : ℤ)) = some s.baudRate ∧
    s.serialDev.flushed = true

instance : DecidablePred SetUp := fun _ ↦ inferInstanceAs (Decidable (_ ∧ _))

end SerialTransport

/-- Whenever `Connect` returns true, the port is set up. -/
def NeverHalfConfigured (ops : List ConnectionOp) : Prop :=
  ∀ front faults back, ops = front ++ .connect faults :: back →
    ((SerialTransport.performAll front).connect faults).1 = true →
      ((SerialTransport.performAll front).connect faults).2.SetUp

/-! ## Openings -/

/-- The attempt that opened a port: what it met, and the rate configured then. -/
structure Opening where
  faults : SerialTransport.ConnectFaults
  baudRate : ℤ
  deriving DecidableEq, Repr

/-- What the calls alone tell: the configured rate, and the attempt that opened the port if it is
open. -/
structure PortHistory where
  baudRate : Option ℤ
  opening : Option Opening
  deriving DecidableEq, Repr

namespace PortHistory

def next (history : PortHistory) : ConnectionOp → PortHistory
  | .configure port baudRate _ =>
    if port = "" then history else { history with baudRate := some baudRate }
  | .connect faults =>
    match history.baudRate, history.opening with
    | some baudRate, none =>
      if faults.openThrows then history else { history with opening := some ⟨faults, baudRate⟩ }
    | _, _ => history
  | .shutdown => { history with opening := none }

def ofOps (ops : List ConnectionOp) : PortHistory := ops.foldl next ⟨none, none⟩

end PortHistory

/-- The attempt did all it had to, and set the port to this rate. -/
def Opening.Complete (opening : Opening) (baudRate : ℤ) : Prop :=
  opening.faults.setBaudRateThrows = false ∧ opening.faults.flushThrows = false ∧
    (SerialTransport.convertBaudRate opening.baudRate : ℤ) = baudRate

/-- No `Connect` finds the port open from an attempt that was not complete for the rate configured
then, and none opens it without a fault while a rate is configured that is not listed. -/
def OpeningsComplete (ops : List ConnectionOp) : Prop :=
  ∀ front faults back, ops = front ++ .connect faults :: back →
    ∀ baudRate ∈ (PortHistory.ofOps front).baudRate,
      match (PortHistory.ofOps front).opening with
      | some opening => opening.Complete baudRate
      | none => faults = ⟨false, false, false⟩ →
          (SerialTransport.convertBaudRate baudRate : ℤ) = baudRate

/-! ## The port and its history -/

namespace SerialTransport

/-- The port as an attempt leaves it. -/
def openedPort (opening : Opening) : SerialPort where
  isOpen := true
  baudRate :=
    if opening.faults.setBaudRateThrows then none else some (convertBaudRate opening.baudRate)
  flushed := !opening.faults.setBaudRateThrows && !opening.faults.flushThrows

/-- A transport and the history of its calls. -/
structure Remembers (s : SerialTransport) (history : PortHistory) : Prop where
  configured : s.configured = history.baudRate.isSome
  baudRate : ∀ baudRate ∈ history.baudRate, s.baudRate = baudRate
  isOpen : s.serialDev.isOpen = history.opening.isSome
  serialDev : ∀ opening ∈ history.opening, s.serialDev = openedPort opening

variable {s : SerialTransport} {history : PortHistory} {faults : ConnectFaults}

theorem remembers_initial : Remembers initial ⟨none, none⟩ :=
  ⟨rfl, fun _ hmem ↦ (by cases hmem), rfl, fun _ hmem ↦ (by cases hmem)⟩

/-- An attempt on a closed port leaves it as its faults decide, and returns whether there were
none. -/
theorem connect_of_closed (hconfigured : s.configured = true) (hclosed : s.serialDev.isOpen = false) :
    s.connect faults =
      if faults.openThrows then (false, s)
      else (!faults.setBaudRateThrows && !faults.flushThrows,
        { s with serialDev := openedPort ⟨faults, s.baudRate⟩ }) := by
  unfold connect isOpen openedPort
  obtain ⟨openThrows, setBaudRateThrows, flushThrows⟩ := faults
  rw [hconfigured, hclosed]
  cases openThrows <;> cases setBaudRateThrows <;> cases flushThrows <;> rfl

theorem connect_of_open (hconfigured : s.configured = true) (hopen : s.serialDev.isOpen = true) :
    s.connect faults = (true, s) := by
  unfold connect isOpen
  rw [hconfigured, hopen]
  rfl

theorem connect_of_unconfigured (hconfigured : s.configured = false) :
    s.connect faults = (false, s) := by
  unfold connect
  rw [hconfigured]
  rfl

theorem Remembers.connect (h : Remembers s history) :
    Remembers (s.connect faults).2 (history.next (.connect faults)) := by
  obtain ⟨baudRate, opening⟩ := history
  cases baudRate with
  | none =>
    rw [connect_of_unconfigured h.configured]
    exact h
  | some baudRate =>
    cases opening with
    | some opening =>
      rw [connect_of_open h.configured h.isOpen]
      exact h
    | none =>
      rw [connect_of_closed h.configured h.isOpen, PortHistory.next]
      cases hthrows : faults.openThrows with
      | true => exact h
      | false =>
        refine ⟨h.configured, h.baudRate, rfl, fun opening hmem ↦ ?_⟩
        obtain rfl := Option.some.inj hmem
        rw [← h.baudRate baudRate rfl]
        rfl

theorem Remembers.perform (h : Remembers s history) (op : ConnectionOp) :
    Remembers (s.perform op) (history.next op) := by
  cases op with
  | connect faults => exact h.connect
  | configure port baudRate readTimeoutMs =>
    simp only [SerialTransport.perform, configure, PortHistory.next]
    by_cases hport : port = ""
    · rw [if_pos hport, if_pos hport]
      exact h
    · rw [if_neg hport, if_neg hport]
      exact ⟨rfl, fun _ hmem ↦ Option.some.inj hmem, h.isOpen, h.serialDev⟩
  | shutdown =>
    have hclosed : s.shutdown.serialDev.isOpen = false := by
      unfold shutdown
      dsimp only
      split
      · rfl
      · rename_i hclosed
        exact Bool.not_eq_true _ ▸ hclosed
    have hkeeps : s.shutdown.configured = s.configured ∧ s.shutdown.baudRate = s.baudRate := by
      unfold shutdown reset
      dsimp only
      split <;> exact ⟨rfl, rfl⟩
    exact ⟨hkeeps.1.trans h.configured, fun baudRate hmem ↦ hkeeps.2.trans (h.baudRate baudRate hmem),
      hclosed, fun _ hmem ↦ (by cases hmem)⟩

theorem remembers_performAll (ops : List ConnectionOp) :
    Remembers (performAll ops) (PortHistory.ofOps ops) := by
  induction ops using List.reverseRecOn with
  | nil => exact remembers_initial
  | append_singleton front op ih =>
    rw [performAll, PortHistory.ofOps, List.foldl_append, List.foldl_append]
    exact ih.perform op

/-- A port is set up exactly if the attempt that opened it was complete. -/
theorem Remembers.setUp_iff (h : Remembers s history) {opening : Opening} {baudRate : ℤ}
    (hopening : history.opening = some opening) (hbaudRate : history.baudRate = some baudRate) :
    s.SetUp ↔ opening.Complete baudRate := by
  obtain ⟨⟨openThrows, setBaudRateThrows, flushThrows⟩, openedRate⟩ := opening
  unfold SetUp Opening.Complete
  rw [h.serialDev _ hopening, h.baudRate baudRate hbaudRate]
  cases setBaudRateThrows <;> cases flushThrows <;> simp [openedPort]

/-- On a closed port `Connect` returns true only if nothing went wrong, and has then done everything
exactly if the rate is listed. -/
theorem setUp_of_connect_iff (hconfigured : s.configured = true)
    (hclosed : s.serialDev.isOpen = false) :
    ((s.connect faults).1 = true → (s.connect faults).2.SetUp) ↔
      (faults = ⟨false, false, false⟩ → (convertBaudRate s.baudRate : ℤ) = s.baudRate) := by
  rw [connect_of_closed hconfigured hclosed]
  obtain ⟨openThrows, setBaudRateThrows, flushThrows⟩ := faults
  cases openThrows <;> cases setBaudRateThrows <;> cases flushThrows <;> simp [SetUp, openedPort]

end SerialTransport

/-- In a run of calls every `Connect` that returns true leaves the port set up exactly if none finds
the port open from an attempt that failed behind `Open` or set another rate than the one configured
now, and none opens it at a rate that is not listed. -/
theorem neverHalfConfigured_iff (ops : List ConnectionOp) :
    NeverHalfConfigured ops ↔ OpeningsComplete ops := by
  refine forall_congr' fun front ↦ forall_congr' fun faults ↦ forall_congr' fun back ↦
    imp_congr_right fun _ ↦ ?_
  have hhistory := SerialTransport.remembers_performAll front
  have hconfigured := hhistory.configured
  cases hbaudRate : (PortHistory.ofOps front).baudRate with
  | none =>
    rw [hbaudRate] at hconfigured
    rw [SerialTransport.connect_of_unconfigured hconfigured]
    exact ⟨fun _ _ hmem ↦ (by cases hmem), fun _ htrue ↦ (by cases htrue)⟩
  | some baudRate =>
    rw [hbaudRate] at hconfigured
    have hisOpen := hhistory.isOpen
    simp only [Option.mem_some_iff, forall_eq']
    cases hopening : (PortHistory.ofOps front).opening with
    | none =>
      rw [hopening] at hisOpen
      rw [SerialTransport.setUp_of_connect_iff hconfigured hisOpen,
        hhistory.baudRate baudRate hbaudRate]
    | some opening =>
      rw [hopening] at hisOpen
      rw [SerialTransport.connect_of_open hconfigured hisOpen,
        hhistory.setUp_iff hopening hbaudRate]
      exact ⟨fun hsetUp ↦ hsetUp rfl, fun hcomplete _ ↦ hcomplete⟩

/-- An attempt fails when it sets the rate; the next one has nothing left to fail. -/
theorem not_neverHalfConfigured : ¬∀ ops : List ConnectionOp, NeverHalfConfigured ops := by
  intro h
  have hsetUp := h [.configure "/dev/ttyACM0" 115200 20, .connect ⟨false, true, false⟩,
    .connect ⟨false, false, false⟩] [.configure "/dev/ttyACM0" 115200 20,
      .connect ⟨false, true, false⟩] ⟨false, false, false⟩ [] rfl (by decide)
  exact absurd hsetUp (by decide)

end MyDiffbot.Transport
