import Mathlib.Data.Nat.Count
import AxiomRT.Dispatch.History

/-!
# Device events along a run

When an event is raised, held pending and delivered, and when the lives of its receiver begin and
end.
-/

namespace AxiomRT.Dispatch

open Lib

variable {img : Image}

/-! ## Raises and lives -/

/-- The trap is a `sys_irq_raise` that resolves to device `dev`. -/
def Raises (c : Core) (tr : Trap) (dev : DevId) : Prop :=
  tr = .ecall ∧ c.frame.sys = some .irqRaise ∧
    c.deviceCapCheck c.current (c.frame.arg 0) devRightDriverControl = .ok dev.val

/-- A life of `t` ends with this trap: it exits, it faults, or it is killed. -/
def Dies (c : Core) (tr : Trap) (t : Slot) : Prop :=
  (t = c.current ∧ ((tr = .ecall ∧ c.frame.sys = some .exit) ∨ (tr = .timer ∧ c.expired) ∨
    ∃ reason, tr = .fault reason)) ∨
  (Kills c tr t ∧ (c.tasks t).state ≠ .empty)

/-- At step `i` an event of `dev` is raised. -/
def RaisesAt (x : Run img) (i : ℕ) (dev : DevId) : Prop :=
  i < x.len ∧ Raises (entry x i) (x.ev i).trap dev

/-- A life of `t` begins or ends with step `i`. -/
def LifeAt (x : Run img) (i : ℕ) (t : Slot) : Prop :=
  BeginsAt x i t ∨ Dies (entry x i) (x.ev i).trap t

/-! ## Deliveries -/

/-- The event of `dev` raised at step `m` is staged for `u`. -/
structure StagesAt (x : Run img) (m : ℕ) (dev : DevId) (u : Slot) : Prop where
  raise : RaisesAt x m dev
  staged : ∃ dst, ((x.st (m + 1)).tasks u).pendingIpc = some (.oneByte dst irqEventCode)
  changed : ((x.st (m + 1)).tasks u).pendingIpc ≠ ((x.st m).tasks u).pendingIpc

/-- The receive of `u` at step `m` takes the event that the route of `dev` holds pending. -/
structure TakesAt (x : Run img) (m : ℕ) (dev : DevId) (u : Slot) : Prop where
  call : CallAt x m u .recv
  before : ((x.st m).routes dev).pending = true
  taken : ((x.st (m + 1)).routes dev).pending = false

/-- The event raised at step `j` is held pending in every state after it up to the one before step
`m`. -/
structure HeldSince (x : Run img) (dev : DevId) (j m : ℕ) : Prop where
  lt : j < m
  raise : RaisesAt x j dev
  pending : ∀ i, j < i → i ≤ m → ((x.st i).routes dev).pending = true

/-- What step `m` delivers to `u` is, or is coalesced with, the event of `dev` raised at step
`j`. -/
def DeliversFrom (x : Run img) (m : ℕ) (dev : DevId) (u : Slot) (j : ℕ) : Prop :=
  (StagesAt x m dev u ∧ j = m) ∨ (TakesAt x m dev u ∧ HeldSince x dev j m)

/-! ## Freshness -/

/-- No event survives its receiver: what is pending for a task, and what is delivered to it, was
raised after every beginning and every end of a life of that task. -/
structure EventsFresh (x : Run img) : Prop where
  pending : ∀ m ≤ x.len, ∀ dev (u : Slot), (x.st m).routes dev = ⟨u.val, true⟩ →
    (∃ j, HeldSince x dev j m) ∧
      ∀ j, HeldSince x dev j m → ∀ i < m, LifeAt x i u → i < j
  delivered : ∀ m dev u j, DeliversFrom x m dev u j → ∀ i ≤ m, LifeAt x i u → i < j

/-- No route holds an event pending for `t`. -/
def Core.AwaitsNone (c : Core) (t : Slot) : Prop :=
  ∀ dev, (c.routes dev).receiver = t.val → (c.routes dev).pending = false

/-- A task that exits, is restarted or re-armed has no event pending, and neither has a device that
a service started for the first time becomes the receiver of. -/
structure LeavesNone (k : Kernel) (ev : Event) : Prop where
  exit : ev.trap = .ecall → (k.toCore.enter ev).frame.sys = some .exit → k.AwaitsNone k.current
  renew : ∀ t, Renews (k.serviceTable.getD []) (k.toCore.enter ev) ev.trap t → k.AwaitsNone t
  fill : ∀ t d, Fills (k.serviceTable.getD []) (k.toCore.enter ev) ev.trap t →
    (k.serviceTable.getD [])[(k.toCore.enter ev).frame.arg 0]? = some d →
    ∀ dev, d.caps.receivesIrq dev = true → (k.routes dev).pending = false

/-! ## The policy -/

/-- The result code that stands for an outcome. -/
def IrqRaiseOutcome.code : IrqRaiseOutcome → Int
  | .delivered => 0
  | .pending => irqPending
  | .dropped => errNoSlot

namespace Core

variable (c : Core) (dev : DevId)

/-- A receiver is registered for the device. -/
def irqRegistered : Bool := decide ((c.routes dev).receiver < maxTasks)

/-- The registered receiver is not empty, faulted or killed. -/
def irqAlive : Bool := (c.irqLiveReceiver dev).isSome

/-- The registered receiver waits to receive on the route's endpoint. -/
def irqWaiting : Bool :=
  match c.endpoints (devices dev).irqEndpoint with
  | .receiverWaiting tid _ _ => tid.val == (c.routes dev).receiver
  | _ => false

/-- The outcome that the policy decides. -/
def irqPolicy : IrqRaiseOutcome :=
  irqRaiseOutcome (c.irqRegistered dev) (c.irqAlive dev) (c.irqWaiting dev)

/-- A task that waits to receive on the route's endpoint, while the registered receiver is alive, is
that receiver and has room for the event. -/
def IrqWaiterFits : Prop :=
  c.irqAlive dev = true → ∀ tid dst cap,
    c.endpoints (devices dev).irqEndpoint = .receiverWaiting tid dst cap →
      tid.val = (c.routes dev).receiver ∧ 1 ≤ cap

end Core

/-- The result of raising an event of `dev` is the one that stands for the outcome of the policy. -/
def IrqRefines (k : Kernel) (dev : DevId) : Prop :=
  ∀ o : IrqRaiseOutcome, (k.irqRaise dev).2 = o.code ↔ k.irqPolicy dev = o

/-! ## Authority and bounds -/

end AxiomRT.Dispatch
