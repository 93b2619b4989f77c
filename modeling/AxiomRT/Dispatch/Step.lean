import AxiomRT.Dispatch.Ipc
import AxiomRT.Dispatch.Device
import AxiomRT.Dispatch.Service

/-!
# Traps

One trap is one step of the dispatcher. Between two traps the running task executes user code: it
may leave any values in its registers and in its stack page, and nothing else of the state changes.
-/

namespace AxiomRT.Dispatch

/-- The syscalls the dispatcher consumes. -/
inductive Sys
  | yield
  | exit
  | send
  | recv
  | faultAck
  | taskStart
  | conWrite
  | conRead
  | info
  | taskKill
  | taskRestart
  | shutdown
  | deviceInfo
  | mmioRead
  | mmioWrite
  | dmaRead
  | dmaWrite
  | irqRaise
  deriving DecidableEq, Repr

/-- Syscall numbers. -/
def Sys.ofNum (num : Nat) : Option Sys :=
  match num with
  | 1 => some .yield
  | 2 => some .exit
  | 3 => some .send
  | 4 => some .recv
  | 7 => some .faultAck
  | 8 => some .taskStart
  | 9 => some .conWrite
  | 10 => some .conRead
  | 11 => some .info
  | 12 => some .taskKill
  | 13 => some .taskRestart
  | 14 => some .shutdown
  | 15 => some .deviceInfo
  | 16 => some .mmioRead
  | 17 => some .mmioWrite
  | 18 => some .dmaRead
  | 19 => some .dmaWrite
  | 20 => some .irqRaise
  | _ => none

/-- The syscall a trap frame asks for. -/
def TrapFrame.sys (f : TrapFrame) : Option Sys := Sys.ofNum f.a7.toNat

namespace Kernel

/-- The syscalls the dispatcher leaves to the stub layer: `sys_reply` and `sys_cap_query` are not
implemented, every other number is unknown. -/
def stubDispatch (k : Kernel) : Kernel :=
  match k.frame.a7.toNat with
  | 5 => (k.puts [.str "SYSCALL name=", .str "sys_reply",
      .str " status=stub result=ERR_NOT_IMPLEMENTED\n"]).core (·.setA0 errNotImplemented)
  | 6 => (k.puts [.str "SYSCALL name=", .str "sys_cap_query",
      .str " status=stub result=ERR_NOT_IMPLEMENTED\n"]).core (·.setA0 errNotImplemented)
  | _ => (k.puts [.str "SYSCALL name=unknown status=rejected result=ERR_INVALID_SYSCALL\n"]).core
      (·.setA0 errInvalidSyscall)

/-- Handle a syscall. Any syscall is a watchdog check-in. -/
def onSyscall (img : Image) (env : Env) (k : Kernel) : Except Stop Kernel :=
  let k := k.core ({ · with watchdogMiss := 0 })
  match k.frame.sys with
  | some .yield => k.switch img false
  | some .exit => k.switch img true
  | some .send => k.ipcSend img
  | some .recv => k.ipcRecv
  | some .faultAck => .ok k.faultAck
  | some .taskStart => k.sysTaskStart img env
  | some .conWrite => .ok (k.sysConWrite img)
  | some .conRead => .ok (k.sysConRead env)
  | some .info => .ok k.sysInfo
  | some .taskKill => k.sysTaskKill
  | some .taskRestart => k.sysTaskRestart env
  | some .shutdown => k.sysShutdown
  | some .deviceInfo => k.sysDeviceInfo
  | some .mmioRead => k.sysMmioRead env
  | some .mmioWrite => k.sysMmioWrite
  | some .dmaRead => k.sysDmaRead img
  | some .dmaWrite => k.sysDmaWrite img
  | some .irqRaise => k.sysIrqRaise
  | none => .ok k.stubDispatch

/-- Supervisor timer interrupt: count the tick, run the watchdog, and offer a preemption point
unless the watchdog already switched. -/
def onTimerInterrupt (k : Kernel) : Except Stop Kernel := do
  let n := wrappingInc k.timerTicks
  let k := { k with timerTicks := n }
  let k := if n ≤ 3 then k.puts [.str "TIMER tick=", .dec n, .str "\n"] else k
  let (k, faulted) ← k.watchdogTick
  if faulted then .ok k else k.preempt

end Kernel

/-- What brings the kernel in: an `ecall` from user mode, a timer interrupt, or a user exception
(with the reason the trap layer derives from `scause` and `stval`). -/
inductive Trap
  | ecall
  | timer
  | fault (reason : String)
  deriving DecidableEq, Repr

/-- One trap: its kind, the registers and the stack page of the running task at that moment, and
the outside inputs its handler reads. -/
structure Event where
  trap : Trap
  frame : TrapFrame
  page : Nat → UInt8
  env : Env

/-- The state on trap entry: the running task's registers are in the live frame, and its stack page
holds what the task left there. -/
def Core.enter (c : Core) (ev : Event) : Core :=
  { c with
    frame := ev.frame
    mem := Function.update c.mem c.satp fun a =>
      if userDataVa ≤ a ∧ a < userDataEnd then ev.page a else c.mem c.satp a }

/-- The trap layer resumes after the four-byte `ecall`. -/
def Core.advance (c : Core) : Core :=
  { c with frame := { c.frame with sepc := c.frame.sepc + 4 } }

/-- One trap of the running task, from trap entry to the return to user mode. -/
def step (img : Image) (k : Kernel) (ev : Event) : Except Stop Kernel :=
  let k := k.core (·.enter ev)
  match ev.trap with
  | .ecall => (k.core (·.advance)).onSyscall img ev.env
  | .timer => k.onTimerInterrupt
  | .fault reason => k.containFault reason

end AxiomRT.Dispatch
