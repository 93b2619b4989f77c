import AxiomRT.Dispatch.History
import AxiomRT.Fault.Wire
import AxiomRT.Ipc.Rendezvous

/-!
# The dispatcher's endpoints and the host IPC model

`kernel/src/ipc` gives the rendezvous on one endpoint as functions that the host tests run. The
dispatcher implements it on a table of endpoints, with one staging buffer for all of them, with
deliveries that wait until the receiver runs, and with notifications of its own. Here a trap is read
as a call on the host model of an endpoint, together with what the tasks get for an answer.
-/

namespace AxiomRT.Dispatch

open Ipc (Endpoint Message)
open Fault (kernelSender)

/-- The thread of the host model that a task stands for; the kernel has thread 0. -/
def thread (t : Slot) : Threads.ThreadId := UInt32.ofNat (t.val + 1)

/-- The host endpoint `ep` stands where endpoint `e` of the dispatcher stands. A parked sender has
its message there, of the length on record and, provided `intact`, with the bytes that are
staged. -/
def Mirrors (intact : Prop) (c : Core) (e : EpId) (ep : Endpoint) : Prop :=
  match c.endpoints e with
  | .idle => ep.state = .idle ∧ ep.pending = none
  | .senderWaiting t len => ep.state = .senderWaiting (thread t) ∧
      ∃ m, ep.pending = some m ∧ m.header = ⟨thread t, len⟩ ∧
        (intact → bytesOf c.kmsg len = m.data)
  | .receiverWaiting t _ _ => ep.state = .receiverWaiting (thread t) ∧ ep.pending = none

/-! ## Calls -/

/-- The trap faults the running task. -/
def Core.FaultsOn (c : Core) (tr : Trap) : Prop :=
  (tr = .timer ∧ c.expired) ∨ ∃ reason, tr = .fault reason

/-- A channel on which faults are reported. -/
def IsFaultChannel (e : EpId) : Prop := e = Kernel.epFault ∨ e = Kernel.epEvent

/-- The kernel has the byte `code` for whoever waits on `e`: a fault for the supervisor and the
logger, or a device event. -/
def Core.Notifies (c : Core) (tr : Trap) (e : EpId) (code : UInt8) : Prop :=
  (c.FaultsOn tr ∧ IsFaultChannel e ∧ code = Kernel.faultCodeWatchdog) ∨
    (tr = .ecall ∧ c.frame.sys = some .irqRaise ∧ code = irqEventCode ∧
      ∃ dev, c.deviceCapCheck c.current (c.frame.arg 0) devRightDriverControl = .ok dev.val ∧
        (devices dev).irqEndpoint = e)

/-- The trap is this call on endpoint `e`. A user message carries its sender and the bytes of the
buffer. A wait is cancelled when its task is killed or made to start over, or when the kernel has a
notification for it that its buffer cannot take. -/
def Issues (img : Image) (table : List ServiceDef) (c : Core) (tr : Trap) (e : EpId) :
    Ipc.Call → Prop
  | .send s m => m.header.sender = s ∧
      ((tr = .ecall ∧ s = thread c.current ∧
          ∃ buf len, SendReq img c e buf len ∧ m.data = c.seen buf len) ∨
        (s = kernelSender ∧ ∃ code, c.Notifies tr e code ∧ m.data = [code]))
  | .recv s => tr = .ecall ∧ s = thread c.current ∧ ∃ dst cap, RecvReq c e dst cap
  | .cancel s => ∃ t, s = thread t ∧ (Kills c tr t ∨ Renews table c tr t ∨
      (c.FaultsOn tr ∧ IsFaultChannel e ∧
        ∃ dst cap, c.endpoints e = .receiverWaiting t dst cap ∧
          ¬ (1 ≤ cap ∧ validUserBuf dst 1 = true)))

/-! ## Answers -/

/-- Task `t`, which waited with room for `cap` bytes at `dst`, is handed the message. -/
inductive Hands (c' : Core) (t : Slot) (dst cap : Nat) (m : Message) : Prop
  /-- It is staged for the buffer until the task next runs. -/
  | staged {pm : PendingMsg} (fits : m.data.length ≤ cap) (ready : (c'.tasks t).state = .ready)
      (pending : (c'.tasks t).pendingIpc = some pm) (place : pm.dst = dst)
      (bytes : bytesOf pm.data pm.len = m.data)
  /-- The task runs, with the message in the buffer. -/
  | copied (fits : m.data.length ≤ cap) (runs : c'.current = t)
      (result : c'.frame.a0 = m.data.length) (bytes : c'.seen dst m.data.length = m.data)
  /-- The message does not fit, which the task is told instead. -/
  | tooLarge (small : cap < m.data.length) (ready : (c'.tasks t).state = .ready)
      (pending : (c'.tasks t).pendingIpc = none)
      (result : (c'.tasks t).frame.a0 = errMsgTooLarge)

/-- What the call on `e` returns in the host model is what the tasks see. -/
def Answers (intact : Prop) (c c' : Core) (e : EpId) : Ipc.Call → Ipc.Reply → Prop
  | .send _ _, .send (.ok .blocked) => (c'.tasks c.current).state = .blocked
  | .send s _, .send (.ok (.delivered r m)) =>
      (∃ t dst cap, r = thread t ∧ c.endpoints e = .receiverWaiting t dst cap ∧
        Hands c' t dst cap m) ∧
      (s = thread c.current → c'.current = c.current ∧ c'.frame.a0 = m.data.length)
  | .send _ _, .send (.error err) => err = .busy ∧ c'.current = c.current ∧
      c'.frame.a0 = errInvalidArg
  | .recv _, .recv (.ok .blocked) => (c'.tasks c.current).state = .blocked
  | .recv _, .recv (.ok (.received m s)) => c'.current = c.current ∧
      c'.frame.a0 = m.header.len ∧
      (intact → c'.seen (c.frame.arg 1) m.header.len = m.data) ∧
      ∃ t, s = thread t ∧ (c'.tasks t).state = .ready ∧ (c'.tasks t).frame.a0 = m.header.len
  | .recv _, .recv (.error err) => err = .busy ∧ c'.current = c.current ∧ c'.frame.a0 < 0
  | .cancel _, .cancel _ => True
  | _, _ => False

/-- The trap makes no call on endpoint `e`: its record stands, the task waiting there is left alone,
and a send or receive on it was refused, unless a device event was received. -/
structure Spared (img : Image) (c : Core) (tr : Trap) (c' : Core) (e : EpId) : Prop where
  record : c'.endpoints e = c.endpoints e
  waiter : ∀ t, (c.endpoints e).waiter = some t → c'.tasks t = c.tasks t
  send : ∀ buf len, tr = .ecall → SendReq img c e buf len →
    c'.current = c.current ∧ c'.frame.a0 < 0
  recv : ∀ dst cap, tr = .ecall → RecvReq c e dst cap →
    c'.current = c.current ∧ (c'.frame.a0 < 0 ∨ (c.irqPendingFor e.val c.current).isSome = true)

/-- What the trap does on the host endpoint, whose calls are recorded. -/
inductive HostStep (intact : Prop) (img : Image) (table : List ServiceDef) (c : Core) (tr : Trap)
    (c' : Core) (e : EpId) (t : Ipc.Trace) : Ipc.Trace → Prop where
  | quiet (spared : Spared img c tr c' e) : HostStep intact img table c tr c' e t t
  | called {call : Ipc.Call} {reply : Ipc.Reply} {ep : Endpoint}
      (made : t.ep.call call = .ok (ep, reply)) (issued : Issues img table c tr e call)
      (answered : Answers intact c c' e call reply) :
      HostStep intact img table c tr c' e t (t.record ⟨t.ep, call, reply, ep⟩)

end AxiomRT.Dispatch
