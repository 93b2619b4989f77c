import AxiomRT.Dispatch.Invariant

/-!
# How a run ends

The dispatcher stops in three ways: it halts idle because no task is left to run, it is shut down,
or it panics. `Halt` lists what the running task did in the trap that left no task to run.
-/

namespace AxiomRT.Dispatch

/-- The trap takes the running task off the CPU; the state is the one in which the next task is
selected. -/
inductive Halt (img : Image) : Core → Trap → Core → Prop
  /-- A send that parks. -/
  | sendPark {c : Core} {e : EpId} {buf len : Nat} (req : SendReq img c e buf len)
      (ep : c.endpoints e = .idle) :
      Halt img c .ecall
        ((c.checkIn.copyFromUser buf len).park e (.senderWaiting c.current len))
  /-- A receive that parks. -/
  | recvPark {c : Core} {e : EpId} {dst cap : Nat} (req : RecvReq c e dst cap)
      (irq : c.irqPendingFor e.val c.current = none) (ep : c.endpoints e = .idle)
      (fits : cap ≤ ipcMsgMax ∧ validUserBuf dst cap = true) :
      Halt img c .ecall (c.checkIn.park e (.receiverWaiting c.current dst cap))
  | exit {c : Core} (sys : c.frame.sys = some .exit) :
      Halt img c .ecall (c.checkIn.setState c.current .killed)
  | killSelf {c : Core} (sys : c.frame.sys = some .taskKill) (ctl : c.Controls)
      (names : c.Names c.current) : Halt img c .ecall (c.checkIn.kill c.current)
  | watchdog {c : Core} (exp : c.expired) : Halt img c .timer c.countMiss.fault
  | fault {c : Core} {reason : String} : Halt img c (.fault reason) c.fault

/-- The dispatcher rests in `k'` after a trap in `k`. -/
structure Rests (k : Kernel) (ev : Event) (k' : Kernel) : Prop where
  /-- The records of tasks and endpoints are consistent. -/
  wf : WellFormed none k'.toCore
  /-- No task is ready or running. -/
  still : ∀ t, (k'.tasks t).state ≠ .ready ∧ (k'.tasks t).state ≠ .running
  /-- Before the trap, no other task was ready. -/
  alone : ∀ t, t ≠ k.current → (k.tasks t).state ≠ .ready
  /-- A fault was reported to nobody: neither supervisor nor logger waited with room for a byte. -/
  unreported : k.faults ev = true → ∀ e, e = Kernel.epFault ∨ e = Kernel.epEvent →
    ∀ tid dst cap, k.endpoints e = .receiverWaiting tid dst cap → cap = 0

/-- The slots of `init_service`, `shell_service`, `app_loader_service` and `driver_manager`. -/
def controllers : List Slot := [0, 4, 6, 12]

/-- How a trap of the OS ends a run. -/
inductive Ending (img : Image) (k : Kernel) (ev : Event) : Stop → Prop
  | idle {k' : Kernel} (act : Halt img (k.toCore.enter ev) ev.trap k'.toCore)
      (rests : Rests k ev k') : Ending img k ev (.idle k')
  | shutdown {k' : Kernel} (ecall : ev.trap = .ecall) (sys : ev.frame.sys = some .shutdown)
      (holder : k.current ∈ controllers) (kept : k'.tasks = k.tasks) :
      Ending img k ev (.shutdown k')

end AxiomRT.Dispatch
