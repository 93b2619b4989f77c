import AxiomRT.Fault.Supervisor

/-!
# Serial export of monitoring events

`kernel/src/monitor/event.rs` and `kernel/src/monitor/serial.rs`: one event per line, written into a
fixed buffer with room left for a truncation marker.
-/

namespace AxiomRT.Monitor

open AxiomRT.Threads
open AxiomRT.Fault

/-! ## Events -/

/-- What a monitor event reports. -/
inductive MonitorEventType
  | taskStarted
  | taskExited
  | taskFaulted
  | capDenied
  | ipcDenied
  | pageFault
  | deadlineMissed
  | watchdogTimeout
  | recoveryApplied
  deriving DecidableEq, Repr

/-- The wire name. -/
def MonitorEventType.name : MonitorEventType → String
  | .taskStarted => "TASK_STARTED"
  | .taskExited => "TASK_EXITED"
  | .taskFaulted => "TASK_FAULTED"
  | .capDenied => "CAP_DENIED"
  | .ipcDenied => "IPC_DENIED"
  | .pageFault => "PAGE_FAULT"
  | .deadlineMissed => "DEADLINE_MISSED"
  | .watchdogTimeout => "WATCHDOG_TIMEOUT"
  | .recoveryApplied => "RECOVERY_APPLIED"

/-- What the kernel was doing. -/
inductive KernelPhase
  | boot
  | trap
  | syscall
  | sched
  | ipc
  | fault
  | user
  deriving DecidableEq, Repr

/-- The wire name. -/
def KernelPhase.name : KernelPhase → String
  | .boot => "boot"
  | .trap => "trap"
  | .syscall => "syscall"
  | .sched => "sched"
  | .ipc => "ipc"
  | .fault => "fault"
  | .user => "user"

/-- One monitor event. -/
structure MonitorEvent where
  timestamp : UInt64
  task : ThreadId
  eventType : MonitorEventType
  severity : Severity
  phase : KernelPhase
  policyResult : Option RecoveryDecision
  relatedCap : Option UInt32
  relatedSyscall : Option UInt64
  deriving DecidableEq, Repr

/-! ## The line buffer -/

/-- Length of the line buffer. -/
def lineCapacity : ℕ := 192

/-- A rendered line: `bytes` is the part of the buffer that has been written. -/
structure EventLine where
  bytes : ByteArray
  truncated : Bool

/-- `none` is the panic of `expect`. -/
def EventLine.asStr (line : EventLine) : Option String := String.fromUTF8? line.bytes

/-- `core::fmt::Error`. -/
structure FmtError where
  deriving DecidableEq, Repr

/-- A buffer of `capacity` bytes, filled from its front. -/
structure BufWriter where
  capacity : ℕ
  written : ByteArray
  written_le : written.size ≤ capacity
  overflow : Bool

namespace BufWriter

/-- What does not fit is cut off at the end of the buffer. -/
def writeStr (w : BufWriter) (s : String) : BufWriter × Except FmtError Unit :=
  let bytes := s.toByteArray
  let space := w.capacity - w.written.size
  if hfit : space < bytes.size then
    ({ w with
        written := w.written ++ bytes.extract 0 space
        written_le := by
          rw [ByteArray.size_append, ByteArray.size_extract]
          have := w.written_le
          omega
        overflow := true }, .error ⟨⟩)
  else
    ({ w with
        written := w.written ++ bytes
        written_le := by
          rw [ByteArray.size_append]
          have := w.written_le
          omega }, .ok ())

/-- `write!`: the pieces of the format string and its arguments, one after the other, up to the
first error. -/
def write (w : BufWriter) : List String → BufWriter × Except FmtError Unit
  | [] => (w, .ok ())
  | piece :: rest =>
    match w.writeStr piece with
    | (w', .ok ()) => w'.write rest
    | (w', .error e) => (w', .error e)

/-- Writes an optional field, unless an earlier write failed. -/
def writeField (r : BufWriter × Except FmtError Unit) (field : Option (List String)) :
    BufWriter × Except FmtError Unit :=
  match r.2, field with
  | .ok (), some pieces => r.1.write pieces
  | _, _ => r

end BufWriter

/-- The wire name of a severity. -/
def severityName : Severity → String
  | .info => "info"
  | .error => "error"
  | .critical => "critical"
  | .fatal => "fatal"

/-- The wire name of a decision. -/
def policyName : RecoveryDecision → String
  | .kill => "kill"
  | .restart => "restart"
  | .suspend => "suspend"
  | .quarantine => "quarantine"
  | .escalate => "escalate"

/-- What a line that was cut off ends with. -/
def marker : String := " !truncated"

/-- The pieces of the first `write!` of `render`; the three below are those of the optional ones. -/
def basePieces (event : MonitorEvent) : List String :=
  ["EVT type=", event.eventType.name, " ts=", event.timestamp.toNat.repr,
    " task=", event.task.toNat.repr, " sev=", severityName event.severity,
    " phase=", event.phase.name]

/-- The decision, if the event has one. -/
def policyPieces (event : MonitorEvent) : Option (List String) :=
  event.policyResult.map fun policy => [" policy=", policyName policy]

/-- The capability, if the event has one. -/
def capPieces (event : MonitorEvent) : Option (List String) :=
  event.relatedCap.map fun cap => [" cap=", cap.toNat.repr]

/-- The syscall, if the event has one. -/
def syscallPieces (event : MonitorEvent) : Option (List String) :=
  event.relatedSyscall.map fun sys => [" syscall=", sys.toNat.repr]

/-- A line that does not fit ends with the marker, for which room is reserved. -/
def render (event : MonitorEvent) : EventLine :=
  let writable := lineCapacity - marker.utf8ByteSize
  let w : BufWriter := ⟨writable, .empty, Nat.zero_le _, false⟩
  let r := w.write (basePieces event)
  let r := BufWriter.writeField r (policyPieces event)
  let r := BufWriter.writeField r (capPieces event)
  let r := BufWriter.writeField r (syscallPieces event)
  match r.2 with
  | .ok () => ⟨r.1.written, false⟩
  | .error _ => ⟨r.1.written ++ marker.toByteArray, true⟩

end AxiomRT.Monitor
