import AxiomRT.Dispatch.Boot

/-!
# Moves: what one trap can do to the core state

`Move` is the abstract transition relation of the dispatcher: it forgets the evidence, the device
registers and the console, and says for each kind of trap which task control blocks, endpoints and
routes change. Every invariant of the dispatcher is proved once on `Move`; that a step of the
dispatcher is a move is `step_move` (`Dispatch/Proofs/MovesProofs.lean`).

A move starts in the state on trap entry (`Core.enter`). The moves that give up the CPU end in
`Core.resume`, the total form of `resumeTask`.
-/

namespace AxiomRT.Dispatch

/-! ## Building blocks -/

/-- The outcome of `PendingMsg.stage`. -/
def PendingMsg.ofKmsg (dst len : Nat) (kmsg : Fin ipcMsgMax → UInt8) : PendingMsg :=
  { dst := dst, len := len, data := fun i => if i.val < len then kmsg i else 0 }

namespace Core

/-- Entry of a syscall: resume after the `ecall`, and the check-in clears the miss counter. -/
def checkIn (c : Core) : Core := { c.advance with watchdogMiss := 0 }

/-- The watchdog counts a tick. -/
def countMiss (c : Core) : Core := { c with watchdogMiss := wrappingInc c.watchdogMiss }

/-- Save the live frame of the running task, which leaves the CPU in state `s`. -/
def saveAs (c : Core) (s : RtState) : Core :=
  c.modTask c.current ({ · with frame := c.frame, state := s })

/-- Wake the task parked on `e`, which first gets `f` applied to its control block. -/
def wake (c : Core) (e : EpId) (t : Slot) (f : Tcb → Tcb) : Core :=
  (c.modTask t fun b => { f b with state := .ready }).epSet e .idle

/-- Park the running task on `e` as `w`. -/
def park (c : Core) (e : EpId) (w : Ep) : Core := (c.epSet e w).saveAs .blocked

/-- Resume `next` and complete its pending delivery. -/
def resume (c : Core) (next : Slot) : Core :=
  match (c.tasks next).pendingIpc with
  | none => c.activate next
  | some pm =>
    ((c.activate next).copyBytesToUser pm.dst (bytesOf pm.data pm.len)).setA0 pm.len

/-- Drop the events the routes hold pending for task `slot`. -/
def irqDrop (c : Core) (slot : Slot) : Core :=
  { c with routes := fun d =>
      if (c.routes d).receiver = slot.val ∧ (c.routes d).pending then ⟨(c.routes d).receiver, false⟩
      else c.routes d }

/-- Notify the receiver parked on `e`, as `notifyEndpoint` does. -/
def notify (c : Core) (e : EpId) (code : UInt8) : Core :=
  match c.endpoints e with
  | .receiverWaiting tid dst cap =>
    if 1 ≤ cap ∧ validUserBuf dst 1 then
      c.wake e tid ({ · with pendingIpc := some (.oneByte dst code) })
    else c.epSet e .idle
  | _ => c

/-- The running task is faulted, up to the selection of the next task. -/
def fault (c : Core) : Core :=
  (((c.setState c.current .faulted).irqDrop c.current).notify Kernel.epFault
    Kernel.faultCodeWatchdog).notify Kernel.epEvent Kernel.faultCodeWatchdog

/-- Task `slot` is killed, up to the selection of the next task. -/
def kill (c : Core) (slot : Slot) : Core :=
  ((c.modTask slot ({ · with state := .killed, pendingIpc := none })).epClearForTask slot).irqDrop
    slot

/-- Task `slot` starts over with frame `f`. -/
def rearm (c : Core) (slot : Slot) (f : TrapFrame) : Core :=
  ((c.modTask slot ({ · with frame := f, pendingIpc := none })).epClearForTask slot).setState slot
    .ready

/-- The watchdog counter passes the window on this tick. -/
def expired (c : Core) : Prop := watchdogWindow < c.watchdogMiss + 1

end Core

/-! ## Requests -/

/-- The running task issues a `sys_send` that resolves to endpoint `e` and passes the length and
buffer checks. -/
structure SendReq (img : Image) (c : Core) (e : EpId) (buf len : Nat) : Prop where
  sys : c.frame.sys = some .send
  resolves : c.capCheck c.current (c.frame.arg 0) rightSend = .ok e.val
  buf_eq : c.frame.arg 1 = buf
  len_eq : c.frame.arg 2 = len
  len_le : len ≤ ipcMsgMax
  readable : inReadableWindow img buf len = true

/-- The running task issues a `sys_recv` that resolves to endpoint `e`. -/
structure RecvReq (c : Core) (e : EpId) (dst cap : Nat) : Prop where
  sys : c.frame.sys = some .recv
  resolves : c.capCheck c.current (c.frame.arg 0) rightRecv = .ok e.val
  dst_eq : c.frame.arg 1 = dst
  cap_eq : c.frame.arg 2 = cap

/-- The buffer `[va, va + cap)` that a call hands to the kernel to be filled. -/
def TrapFrame.buffer (f : TrapFrame) : Option (Nat × Nat) :=
  match f.sys with
  | some .recv | some .info | some .deviceInfo => some (f.arg 1, f.arg 2)
  | some .conRead => some (f.arg 0, f.arg 1)
  | _ => none

/-- What a call that returns to its caller does to user memory. -/
inductive Copies (img : Image) (c c' : Core) : Prop where
  | none (mem : c'.mem = c.mem) (touched : c'.touched = c.touched)
  | reads {va len : Nat} (window : inReadableWindow img va len = true) (mem : c'.mem = c.mem)
      (touched : c'.touched = (c.touch false va len).touched)
  | writes {va cap : Nat} {bytes : List UInt8} (asked : c.frame.buffer = some (va, cap))
      (fits : bytes.length ≤ cap) (window : inStackWindow va bytes.length = true)
      (mem : c'.mem = (c.copyBytesToUser va bytes).mem)
      (touched : c'.touched = (c.copyBytesToUser va bytes).touched)

/-- A receiver parked here, if there is one, has room for `len` bytes. -/
def Ep.hasRoom (len : Nat) : Ep → Bool
  | .receiverWaiting _ _ cap => decide (len ≤ cap)
  | _ => true

/-- The table holds a capability of this type for object `id` with the `required` rights. -/
def CapTable.holds (caps : CapTable) (otype : OType) (id : Nat) (required : UInt16) : Bool :=
  (List.finRange capsPerTask).any fun j =>
    match caps j with
    | some cap => cap.otype == otype && cap.objectId == id && cap.grants required
    | none => false

/-- The running task holds the task-control capability. -/
def Core.Controls (c : Core) : Prop := c.capFind c.current .control rightControl = true

/-- The task named by `a0` is `slot`. -/
def Core.Names (c : Core) (slot : Slot) : Prop := c.frame.arg 0 = slot.val

/-- The task was faulted or killed. -/
def RtState.Dead (s : RtState) : Prop := s = .faulted ∨ s = .killed

/-- The running task issues a call that gives up the CPU for good or for now. -/
def Core.GivesUp (c : Core) : Prop :=
  c.frame.sys = some .yield ∨ c.frame.sys = some .exit ∨
    (c.frame.sys = some .taskKill ∧ c.Controls ∧ c.Names c.current ∧
      (c.tasks c.current).state ≠ .empty)

/-- The trap is a `sys_task_start` or `sys_task_restart` by a control holder that makes `t` start
over. -/
def Renews (table : List ServiceDef) (c : Core) (tr : Trap) (t : Slot) : Prop :=
  tr = .ecall ∧ c.Controls ∧
    ((c.frame.sys = some .taskStart ∧
        (∃ d, table[c.frame.arg 0]? = some d ∧ d.slot = t.val) ∧ (c.tasks t).state.Dead) ∨
      (c.frame.sys = some .taskRestart ∧ c.Names t ∧ t ≠ c.current ∧ (c.tasks t).state ≠ .empty ∧
        (c.tasks t).entryVa ≠ 0))

/-- The trap is a `sys_task_start` by a control holder that fills the empty slot `t`. -/
def Fills (table : List ServiceDef) (c : Core) (tr : Trap) (t : Slot) : Prop :=
  tr = .ecall ∧ c.Controls ∧ c.frame.sys = some .taskStart ∧
    (∃ d, table[c.frame.arg 0]? = some d ∧ d.slot = t.val) ∧ (c.tasks t).state = .empty

/-- A life of `t` begins with this trap: it is started, re-armed or restarted. -/
def Begins (table : List ServiceDef) (c : Core) (tr : Trap) (t : Slot) : Prop :=
  Fills table c tr t ∨ Renews table c tr t

/-- The trap is a `sys_task_kill` of `t` by a holder of the control capability. -/
def Kills (c : Core) (tr : Trap) (t : Slot) : Prop :=
  tr = .ecall ∧ c.frame.sys = some .taskKill ∧ c.Controls ∧ c.Names t

/-- The call ends or begins no life. -/
structure SparesLives (table : List ServiceDef) (c : Core) : Prop where
  kills : ∀ t, Kills c .ecall t → (c.tasks t).state = .empty
  begins : ∀ t, ¬ Begins table c .ecall t

/-! ## The transition relation -/

/-- One trap on the core state; `table` is the installed service table. -/
inductive Move (img : Image) (table : List ServiceDef) : Core → Trap → Core → Prop where
  /-- A syscall that returns to its caller and changes at most the caller's frame and memory. An
  IPC call that ends this way returns a negative code. -/
  | ret {c c' : Core} (tasks : c'.tasks = c.tasks) (current : c'.current = c.current)
      (endpoints : c'.endpoints = c.endpoints) (kmsg : c'.kmsg = c.kmsg)
      (routes : c'.routes = c.routes) (satp : c'.satp = c.satp) (miss : c'.watchdogMiss = 0)
      (mem : ∀ r, r ≠ c.satp → c'.mem r = c.mem r)
      (ipc : c.frame.sys = some .send ∨ c.frame.sys = some .recv → c'.frame.a0 < 0)
      (plain : ¬ c.GivesUp) (copies : Copies img c c') (lives : SparesLives table c) :
      Move img table c .ecall c'
  /-- A send on an endpoint where another sender is parked: refused after the copy. -/
  | sendBusy {c : Core} {e : EpId} {buf len : Nat} {tid : Slot} {plen : Nat}
      (req : SendReq img c e buf len) (ep : c.endpoints e = .senderWaiting tid plen) :
      Move img table c .ecall ((c.checkIn.copyFromUser buf len).setA0 errInvalidArg)
  /-- A send that finds a receiver whose buffer can take the message. -/
  | sendDeliver {c : Core} {e : EpId} {buf len : Nat} {tid : Slot} {dst cap : Nat}
      (req : SendReq img c e buf len) (ep : c.endpoints e = .receiverWaiting tid dst cap)
      (fits : len ≤ cap ∧ validUserBuf dst len = true) :
      Move img table c .ecall
        (((c.checkIn.copyFromUser buf len).wake e tid ({ · with
          pendingIpc := some (.ofKmsg dst len (c.checkIn.copyFromUser buf len).kmsg) })).setA0 len)
  /-- A send that finds a receiver whose buffer is too small: the sender is told it succeeded. -/
  | sendTooBig {c : Core} {e : EpId} {buf len : Nat} {tid : Slot} {dst cap : Nat}
      (req : SendReq img c e buf len) (ep : c.endpoints e = .receiverWaiting tid dst cap)
      (small : ¬ (len ≤ cap ∧ validUserBuf dst len = true)) :
      Move img table c .ecall
        (((c.checkIn.copyFromUser buf len).wake e tid fun t =>
          { t with frame := t.frame.setA0 errMsgTooLarge }).setA0 len)
  /-- A send that parks. -/
  | sendPark {c : Core} {e : EpId} {buf len : Nat} {next : Slot}
      (req : SendReq img c e buf len) (ep : c.endpoints e = .idle)
      (sel : ((c.checkIn.copyFromUser buf len).park e
        (.senderWaiting c.current len)).selectHighest c.current = some next) :
      Move img table c .ecall
        (((c.checkIn.copyFromUser buf len).park e (.senderWaiting c.current len)).resume next)
  /-- A receive that takes the event its route holds pending. -/
  | recvIrq {c : Core} {e : EpId} {dst cap : Nat} {dev : DevId}
      (req : RecvReq c e dst cap) (irq : c.irqPendingFor e.val c.current = some dev)
      (fits : 1 ≤ cap ∧ validUserBuf dst 1 = true) :
      Move img table c .ecall
        (((c.checkIn.irqRouteSet dev ⟨c.current.val, false⟩).copyBytesToUser dst
          [irqEventCode]).setA0 1)
  /-- A receive that takes the message of a parked sender. -/
  | recvTake {c : Core} {e : EpId} {dst cap : Nat} {tid : Slot} {len : Nat}
      (req : RecvReq c e dst cap) (irq : c.irqPendingFor e.val c.current = none)
      (ep : c.endpoints e = .senderWaiting tid len)
      (fits : len ≤ cap ∧ validUserBuf dst len = true) :
      Move img table c .ecall
        (((c.checkIn.copyBytesToUser dst (bytesOf c.kmsg len)).setA0 len).wake e tid
          fun t => { t with frame := t.frame.setA0 len })
  /-- A receive that parks. -/
  | recvPark {c : Core} {e : EpId} {dst cap : Nat} {next : Slot}
      (req : RecvReq c e dst cap) (irq : c.irqPendingFor e.val c.current = none)
      (ep : c.endpoints e = .idle) (fits : cap ≤ ipcMsgMax ∧ validUserBuf dst cap = true)
      (sel : (c.checkIn.park e (.receiverWaiting c.current dst cap)).selectHighest c.current =
        some next) :
      Move img table c .ecall
        ((c.checkIn.park e (.receiverWaiting c.current dst cap)).resume next)
  /-- `sys_yield`. -/
  | yield {c : Core} {next : Slot} (sys : c.frame.sys = some .yield)
      (sel : (c.checkIn.saveAs .ready).selectHighest c.current = some next) :
      Move img table c .ecall ((c.checkIn.saveAs .ready).resume next)
  /-- `sys_exit`. -/
  | exit {c : Core} {next : Slot} (sys : c.frame.sys = some .exit)
      (sel : (c.checkIn.setState c.current .killed).selectHighest c.current = some next) :
      Move img table c .ecall ((c.checkIn.setState c.current .killed).resume next)
  /-- `sys_task_start` of a service whose slot is still empty. -/
  | spawn {c : Core} {slot : Slot} {b : Tcb} {d : ServiceDef} {routes : DevId → IrqRoute}
      (sys : c.frame.sys = some .taskStart) (ctl : c.Controls)
      (entry : table[c.frame.arg 0]? = some d ∧ d.slot = slot.val)
      (vacant : (c.tasks slot).state = .empty)
      (fresh : b.state = .ready ∧ b.pendingIpc = none ∧ b.caps = d.caps)
      (granted : ∀ dev, routes dev =
        ⟨if d.caps.receivesIrq dev then slot.val else (c.routes dev).receiver,
          (c.routes dev).pending⟩)
      (space : ∃ uas, img.buildServiceAddressSpace d.slot d.entry d.stackPhys = some uas ∧
        b.satpRoot = uas.root) :
      Move img table c .ecall
        ({ c.checkIn.setTask slot b with routes := routes }.setA0 slot.val)
  /-- `sys_task_start` of a terminated service. -/
  | rearm {c : Core} {slot : Slot} {d : ServiceDef} {f : TrapFrame}
      (sys : c.frame.sys = some .taskStart) (ctl : c.Controls)
      (entry : table[c.frame.arg 0]? = some d ∧ d.slot = slot.val)
      (dead : (c.tasks slot).state.Dead) :
      Move img table c .ecall ((c.checkIn.rearm slot f).setA0 slot.val)
  /-- `sys_task_restart`. -/
  | restart {c : Core} {slot : Slot} {f : TrapFrame}
      (sys : c.frame.sys = some .taskRestart) (ctl : c.Controls) (names : c.Names slot)
      (other : slot ≠ c.current) (used : (c.tasks slot).state ≠ .empty)
      (started : (c.tasks slot).entryVa ≠ 0) :
      Move img table c .ecall ((c.checkIn.rearm slot f).setA0 0)
  /-- `sys_task_kill` of another task. -/
  | kill {c : Core} {slot : Slot} (sys : c.frame.sys = some .taskKill) (ctl : c.Controls)
      (names : c.Names slot) (other : slot ≠ c.current) (used : (c.tasks slot).state ≠ .empty) :
      Move img table c .ecall ((c.checkIn.kill slot).setA0 0)
  /-- `sys_task_kill` of the caller itself. -/
  | killSelf {c : Core} {next : Slot} (sys : c.frame.sys = some .taskKill) (ctl : c.Controls)
      (names : c.Names c.current) (used : (c.tasks c.current).state ≠ .empty)
      (sel : (c.checkIn.kill c.current).selectHighest c.current = some next) :
      Move img table c .ecall ((c.checkIn.kill c.current).resume next)
  /-- `sys_irq_raise` with a dead or absent receiver. -/
  | irqDead {c : Core} {dev : DevId} (sys : c.frame.sys = some .irqRaise)
      (ctl : c.deviceCapCheck c.current (c.frame.arg 0) devRightDriverControl = .ok dev.val)
      (dead : c.irqLiveReceiver dev = none) :
      Move img table c .ecall
        ((c.checkIn.irqRouteSet dev ⟨(c.routes dev).receiver, false⟩).setA0 errNoSlot)
  /-- `sys_irq_raise` with the registered receiver parked on the route's endpoint. -/
  | irqDeliver {c : Core} {dev : DevId} {tid : Slot} {dst cap : Nat}
      (sys : c.frame.sys = some .irqRaise)
      (ctl : c.deviceCapCheck c.current (c.frame.arg 0) devRightDriverControl = .ok dev.val)
      (live : c.irqLiveReceiver dev = some tid)
      (ep : c.endpoints (devices dev).irqEndpoint = .receiverWaiting tid dst cap)
      (fits : 1 ≤ cap ∧ validUserBuf dst 1 = true) :
      Move img table c .ecall
        ((c.checkIn.wake (devices dev).irqEndpoint tid ({ · with
          pendingIpc := some (.oneByte dst irqEventCode) })).setA0 0)
  /-- `sys_irq_raise` with the registered receiver busy. -/
  | irqHold {c : Core} {dev : DevId} {r : Slot} (sys : c.frame.sys = some .irqRaise)
      (ctl : c.deviceCapCheck c.current (c.frame.arg 0) devRightDriverControl = .ok dev.val)
      (live : c.irqLiveReceiver dev = some r)
      (ep : ∀ tid dst cap, c.endpoints (devices dev).irqEndpoint ≠ .receiverWaiting tid dst cap) :
      Move img table c .ecall
        ((c.checkIn.irqRouteSet dev ⟨(c.routes dev).receiver, true⟩).setA0 irqPending)
  /-- A tick that leaves the running task on the CPU. -/
  | tick {c : Core} (fine : ¬ c.expired)
      (top : ∀ next, c.selectHighest c.current = some next →
        next = c.current ∨ (c.tasks next).prio ≤ (c.tasks c.current).prio) :
      Move img table c .timer c.countMiss
  /-- A tick that preempts the running task. -/
  | preempt {c : Core} {next : Slot} (fine : ¬ c.expired)
      (sel : c.selectHighest c.current = some next) (other : next ≠ c.current)
      (outranked : (c.tasks c.current).prio < (c.tasks next).prio) :
      Move img table c .timer ((c.countMiss.saveAs .ready).resume next)
  /-- A tick on which the watchdog faults the running task. -/
  | watchdog {c : Core} {next : Slot} (exp : c.expired)
      (sel : c.countMiss.fault.selectHighest c.current = some next) :
      Move img table c .timer (c.countMiss.fault.resume next)
  /-- A contained fault of the running task. -/
  | fault {c : Core} {next : Slot} {reason : String}
      (sel : c.fault.selectHighest c.current = some next) :
      Move img table c (.fault reason) (c.fault.resume next)

end AxiomRT.Dispatch
