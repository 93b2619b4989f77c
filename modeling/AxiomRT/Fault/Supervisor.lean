import AxiomRT.Fault.Wire

/-!
# The supervisor

The policy and the poll step of `userland/supervisor/src/lib.rs`: the supervisor receives on the
fault channel through its capability, decodes what it got and decides.
-/

namespace AxiomRT.Fault

open Threads (ThreadId)
open Caps (CapTable)
open Ipc (Endpoint)

/-- What is to be done about a fault. -/
inductive RecoveryDecision
  | kill
  | restart
  | suspend
  | quarantine
  | escalate
  deriving DecidableEq, Repr

/-- The policy of the supervisor. -/
def decide (report : FaultReport) : RecoveryDecision :=
  match report.faultType, report.severity with
  | .watchdogTimeout, _ => .restart
  | .deadlineMiss, .critical => .restart
  | .deadlineMiss, _ => .escalate
  | .invalidCapability, .critical => .quarantine
  | .invalidCapability, _ => .escalate
  | .illegalSyscall, _ | .pageFault, _ | .illegalInstruction, _ | .ipcViolation, _ => .kill
  | .kernelInvariantViolation, _ => .escalate

/-- Why a poll returns no report. -/
inductive PollError
  | denied
  | nothingPending
  | badReport (e : DecodeError)
  deriving DecidableEq, Repr

/-- Take the next report off the channel and decide on it. -/
def pollFaultChannel (table : CapTable) (capIndex : ℕ) (channel : Endpoint)
    (supervisorTid : ThreadId) :
    Except Ipc.Panic (Endpoint × Except PollError (FaultReport × RecoveryDecision)) := do
  let (channel, r) ← channel.recvChecked table capIndex supervisorTid
  match r with
  | .error (.cap _) | .error .wrongEndpoint => .ok (channel, .error .denied)
  | .error (.ipc _) => .ok (channel, .error .nothingPending)
  | .ok .blocked => .ok (channel, .error .nothingPending)
  | .ok (.received msg _) =>
    match decode msg with
    | .error e => .ok (channel, .error (.badReport e))
    | .ok report => .ok (channel, .ok (report, decide report))

end AxiomRT.Fault
