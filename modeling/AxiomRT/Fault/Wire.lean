import AxiomRT.Ipc.Endpoint
import AxiomRT.Lib.Bytes

/-!
# Fault events and the fault channel

The fault events of `kernel/src/fault/event.rs` and the notification path of
`kernel/src/fault/wire.rs`: the kernel encodes an event into a message of 30 bytes and sends it on
the fault channel, an ordinary endpoint.
-/

namespace AxiomRT.Fault

open Lib
open Threads (ThreadId)
open Ipc (Endpoint Message)

/-! ## Events -/

/-- The kinds of faults. -/
inductive FaultType
  | illegalSyscall
  | invalidCapability
  | pageFault
  | illegalInstruction
  | watchdogTimeout
  | deadlineMiss
  | ipcViolation
  | kernelInvariantViolation
  deriving DecidableEq, Repr

/-- How bad a fault is. -/
inductive Severity
  | info
  | error
  | critical
  | fatal
  deriving DecidableEq, Repr

/-- `severity as u8`. -/
def Severity.toU8 : Severity → UInt8
  | .info => 0
  | .error => 1
  | .critical => 2
  | .fatal => 3

/-- The severity of each kind of fault. -/
def FaultType.severity : FaultType → Severity
  | .illegalSyscall => .error
  | .invalidCapability => .error
  | .pageFault => .error
  | .illegalInstruction => .error
  | .watchdogTimeout => .critical
  | .deadlineMiss => .error
  | .ipcViolation => .error
  | .kernelInvariantViolation => .fatal

/-- How far the notification of an event has come. -/
inductive EventState
  | created
  | queued
  | delivered
  | acknowledged
  deriving DecidableEq, Repr

/-- The fields `from` and `to` of the source. -/
structure IllegalEventTransition where
  source : EventState
  target : EventState
  deriving DecidableEq, Repr

/-- The fields are private to the source module: an event is built by `new`, and only its state
changes. -/
structure FaultEvent where
  eventId : UInt64
  faultType : FaultType
  severity : Severity
  thread : ThreadId
  pc : UInt64
  detail : UInt64
  state : EventState
  severity_eq : severity = faultType.severity
  deriving DecidableEq, Repr

namespace FaultEvent

/-- A fresh event. -/
def new (eventId : UInt64) (faultType : FaultType) (thread : ThreadId) (pc detail : UInt64) :
    FaultEvent :=
  ⟨eventId, faultType, faultType.severity, thread, pc, detail, .created, rfl⟩

/-- Only the forward chain is legal. -/
def advance (e : FaultEvent) (target : EventState) : Except IllegalEventTransition FaultEvent :=
  match e.state, target with
  | .created, .queued | .queued, .delivered | .delivered, .acknowledged =>
    .ok { e with state := target }
  | s, _ => .error ⟨s, target⟩

end FaultEvent

/-! ## Wire format -/

/-- Thread 0 is reserved for the kernel. -/
abbrev kernelSender : ThreadId := 0

/-- Length of an encoded event. -/
abbrev faultWireBytes : ℕ := 30

/-- The byte of a fault type. -/
def faultTypeToU8 : FaultType → UInt8
  | .illegalSyscall => 0
  | .invalidCapability => 1
  | .pageFault => 2
  | .illegalInstruction => 3
  | .watchdogTimeout => 4
  | .deadlineMiss => 5
  | .ipcViolation => 6
  | .kernelInvariantViolation => 7

/-- The fault type of a byte, if it is one. -/
def faultTypeFromU8 (v : UInt8) : Option FaultType :=
  if v = 0 then some .illegalSyscall
  else if v = 1 then some .invalidCapability
  else if v = 2 then some .pageFault
  else if v = 3 then some .illegalInstruction
  else if v = 4 then some .watchdogTimeout
  else if v = 5 then some .deadlineMiss
  else if v = 6 then some .ipcViolation
  else if v = 7 then some .kernelInvariantViolation
  else none

/-- The bytes of an event: identifier, type, severity, thread, program counter and detail, at the
offsets 0, 8, 9, 10, 14 and 22. -/
def wireBytes (e : FaultEvent) : List UInt8 :=
  toLE 8 e.eventId.toNat ++ ([faultTypeToU8 e.faultType] ++ ([e.severity.toU8] ++
    (toLE 4 e.thread.toNat ++ (toLE 8 e.pc.toNat ++ toLE 8 e.detail.toNat))))

theorem length_wireBytes (e : FaultEvent) : (wireBytes e).length = faultWireBytes := by
  simp [wireBytes]

/-- The `expect` of the source cannot fail: 30 bytes fit into a message. -/
def encode (e : FaultEvent) : Message :=
  .ofBytes kernelSender (wireBytes e) (by rw [length_wireBytes]; decide)

/-- What the supervisor is told of an event. -/
structure FaultReport where
  eventId : UInt64
  faultType : FaultType
  severity : Severity
  thread : ThreadId
  pc : UInt64
  detail : UInt64
  deriving DecidableEq, Repr

/-- The report of an event. -/
def FaultEvent.report (e : FaultEvent) : FaultReport :=
  ⟨e.eventId, e.faultType, e.faultType.severity, e.thread, e.pc, e.detail⟩

/-- A fresh event with the contents of a report. -/
def FaultReport.event (r : FaultReport) : FaultEvent :=
  .new r.eventId r.faultType r.thread r.pc r.detail

/-- Why a message is not a report. -/
inductive DecodeError
  | wrongLength
  | unknownFaultType
  | severityMismatch
  | forgedSender
  deriving DecidableEq, Repr

/-- The report that a message of the kernel carries. The severity on the wire is only compared with
that of the fault type. -/
def decode (msg : Message) : Except DecodeError FaultReport :=
  if msg.header.sender ≠ kernelSender then .error .forgedSender
  else if msg.data.length ≠ faultWireBytes then .error .wrongLength
  else
    match faultTypeFromU8 (msg.data.getD 8 0) with
    | none => .error .unknownFaultType
    | some faultType =>
      if msg.data.getD 9 0 ≠ faultType.severity.toU8 then .error .severityMismatch
      else .ok
        { eventId := .ofNat (ofLE (slice msg.data 0 8))
          faultType := faultType
          severity := faultType.severity
          thread := .ofNat (ofLE (slice msg.data 10 14))
          pc := .ofNat (ofLE (slice msg.data 14 22))
          detail := .ofNat (ofLE (slice msg.data 22 30)) }

/-! ## Notification -/

/-- What became of a notification. -/
inductive NotifyOutcome
  | delivered
  | queued
  | channelFull
  deriving DecidableEq, Repr

/-- The checks that could fail. -/
inductive Panic
  | ipc (p : Ipc.Panic)
  | advance (e : IllegalEventTransition)
  deriving DecidableEq, Repr

/-- Put the event on the fault channel. What a waiting receiver is to be given is in the outcome of
`send`; it is not looked at. -/
def notifySupervisor (channel : Endpoint) (event : FaultEvent) :
    Except Panic (Endpoint × FaultEvent × NotifyOutcome) := do
  let (channel, r) ← (channel.send kernelSender (encode event)).mapError .ipc
  match r with
  | .ok (.delivered _ _) =>
    let event ← (event.advance .queued).mapError .advance
    let event ← (event.advance .delivered).mapError .advance
    .ok (channel, event, .delivered)
  | .ok .blocked =>
    let event ← (event.advance .queued).mapError .advance
    .ok (channel, event, .queued)
  | .error _ => .ok (channel, event, .channelFull)

end AxiomRT.Fault
