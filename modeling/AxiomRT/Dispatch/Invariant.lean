import AxiomRT.Dispatch.Moves

/-!
# The dispatcher invariant

What ties the task control blocks, the endpoints and the pending deliveries together in every state
in which a task runs, and between two tasks, while the dispatcher has none on the CPU.
-/

namespace AxiomRT.Dispatch

/-- Tasks, endpoints and pending deliveries fit together; `run` is the task on the CPU, `none` while
the dispatcher is between two tasks. -/
structure WellFormed (run : Option Slot) (c : Core) : Prop where
  running : ∀ t, (c.tasks t).state = .running ↔ run = some t
  waiter_blocked : ∀ e t, (c.endpoints e).waiter = some t → (c.tasks t).state = .blocked
  waiter_once : ∀ e e' t,
    (c.endpoints e).waiter = some t → (c.endpoints e').waiter = some t → e = e'
  sender_len : ∀ e t len, c.endpoints e = .senderWaiting t len → len ≤ ipcMsgMax
  receiver_buf : ∀ e t dst cap, c.endpoints e = .receiverWaiting t dst cap →
    validUserBuf dst cap = true
  pending_ready : ∀ t pm, (c.tasks t).pendingIpc = some pm →
    (c.tasks t).state = .ready ∧ validUserBuf pm.dst pm.len = true

/-- The invariant of the states in which user code runs. -/
structure Inv (c : Core) : Prop where
  wf : WellFormed (some c.current) c
  space : c.satp = (c.tasks c.current).satpRoot

/-- A trap returns to the task that was running. -/
structure Stay (c c' : Core) : Prop where
  current : c'.current = c.current
  satp : c'.satp = c.satp
  own : c'.tasks c.current = c.tasks c.current
  wf : WellFormed (some c.current) c'

/-- A trap takes the CPU from the running task and gives it to `next`, a most urgent ready task of
the intermediate state `d`. On the way to `d` only blocked tasks and the running one change. -/
structure Switch (c d : Core) (next : Slot) (c' : Core) : Prop where
  wf : WellFormed none d
  kept : ∀ t, t ≠ c.current → (c.tasks t).state ≠ .blocked → d.tasks t = c.tasks t
  ready : (d.tasks next).state = .ready
  top : ∀ t, (d.tasks t).state = .ready → (d.tasks t).prio ≤ (d.tasks next).prio
  resumed : c' = d.resume next

/-- The state of the dispatcher is consistent while a task runs. -/
structure Consistent (k : Kernel) : Prop where
  one_running : ∀ t, (k.tasks t).state = .running ↔ t = k.current
  address_space : k.satp = (k.tasks k.current).satpRoot
  waiter_blocked : ∀ e t, (k.endpoints e).waiter = some t → (k.tasks t).state = .blocked
  waiter_once : ∀ e e' t,
    (k.endpoints e).waiter = some t → (k.endpoints e').waiter = some t → e = e'
  pending : ∀ t pm, (k.tasks t).pendingIpc = some pm →
    (k.tasks t).state = .ready ∧ (∀ e, (k.endpoints e).waiter ≠ some t) ∧
      validUserBuf pm.dst pm.len = true ∧ pm.len ≤ ipcMsgMax

/-! ## Blocked tasks and their records -/

/-- Every blocked task is recorded on an endpoint. -/
def NoLostWaiter (c : Core) : Prop :=
  ∀ t, (c.tasks t).state = .blocked → ∃ e, (c.endpoints e).waiter = some t

/-- Every blocked task is recorded on exactly one endpoint, where a rendezvous, a notification, a
kill or a restart finds it. -/
def BlockedOnce (k : Kernel) : Prop :=
  ∀ t, (k.tasks t).state = .blocked → ∃! e, (k.endpoints e).waiter = some t

/-- The trap faults the running task, so that supervisor and logger are notified. -/
def Kernel.faults (k : Kernel) (ev : Event) : Bool :=
  match ev.trap with
  | .ecall => false
  | .timer => k.watchdogExpired
  | .fault _ => true

/-- When supervisor and logger are notified, whoever is parked on their channels has room for the
notification. -/
def NoticesFit (k : Kernel) (ev : Event) : Prop :=
  k.faults ev = true →
    (k.endpoints Kernel.epFault).hasRoom 1 = true ∧
      (k.endpoints Kernel.epEvent).hasRoom 1 = true

instance (k : Kernel) (ev : Event) : Decidable (NoticesFit k ev) :=
  inferInstanceAs (Decidable (_ → _))

end AxiomRT.Dispatch
