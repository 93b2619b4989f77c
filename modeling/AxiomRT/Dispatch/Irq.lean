import AxiomRT.Dispatch.Primitives

/-!
# Device objects and synthetic IRQ routes

The static device table, the device capability lookup, and the delivery of one-byte device events
to the registered receiver of a route.
-/

namespace AxiomRT.Dispatch

/-! ## The device table -/

/-- One kernel device object. -/
structure DeviceDef where
  name : String
  kind : String
  mmioName : String
  mmioBase : Nat
  mmioSize : Nat
  irqEndpoint : EpId
  irqName : String
  dmaName : String
  dmaSize : Nat

/-- The kernel device table. -/
def devices : DevId → DeviceDef
  | 0 =>
    { name := "block0"
      kind := "block_skeleton"
      mmioName := "virtio_mmio0"
      mmioBase := 0x10001000
      mmioSize := 0x200
      irqEndpoint := 8
      irqName := "driver_irq"
      dmaName := "block0_dma"
      dmaSize := 4096 }
  | 1 =>
    { name := "net0"
      kind := "network_synthetic"
      mmioName := "none"
      mmioBase := 0
      mmioSize := 0
      irqEndpoint := 10
      irqName := "net_irq"
      dmaName := "none"
      dmaSize := 0 }

/-- Resolve `capIndex` in task `cur`'s table for a device capability: bounds, occupancy, object
type, device id known, rights, in this order. -/
def Core.deviceCapCheck (c : Core) (cur : Slot) (capIndex : Nat) (required : UInt16) : CapCheck :=
  if h : capIndex < capsPerTask then
    match (c.tasks cur).caps ⟨capIndex, h⟩ with
    | none => .invalidCap
    | some cap =>
      if cap.otype ≠ .device then .wrongType
      else if numDevices ≤ cap.objectId then .invalidCap
      else if !cap.grants required then .insufficientRights
      else .ok cap.objectId
  else .invalidCap

/-- Report a denied device operation. -/
def Kernel.denyDeviceOp (k : Kernel) (cur : Slot) (kind reason : String) : Kernel :=
  (k.ringPush .capDenied cur).puts
    [.str kind, .str " task=", .str (k.tasks cur).name, .str " reason=", .str reason, .str "\n"]

/-- Error code and denial reason of a failed device capability check. -/
def deviceCheckErr : CapCheck → Int × String
  | .invalidCap => (errInvalidCap, "no_valid_capability")
  | .wrongType => (errWrongObjectType, "no_valid_capability")
  | .insufficientRights => (errInsufficientRights, "insufficient_rights")
  | .ok _ => (errInvalidArg, "unexpected")

/-- The common denial path of the device syscalls. -/
def Kernel.denyDevice (k : Kernel) (cur : Slot) (kind : String) (check : CapCheck) : Kernel :=
  (k.denyDeviceOp cur kind (deviceCheckErr check).2).core (·.setA0 (deviceCheckErr check).1)

/-! ## Grants -/

/-- A capability for device `dev` with the right to receive its events. -/
def Cap.receivesIrq (c : Cap) (dev : DevId) : Bool :=
  c.otype == .device && c.objectId == dev.val && c.rights &&& devRightIrqReceive != 0

/-- Some capability of the table gives the right to receive the events of `dev`. -/
def CapTable.receivesIrq (caps : CapTable) (dev : DevId) : Bool :=
  (List.finRange capsPerTask).any fun i => (caps i).any (·.receivesIrq dev)

/-- The grant carried by one capability slot of a starting task: register the IRQ receiver and log
the MMIO and DMA grants. -/
def Kernel.announceGrant (slot : Slot) (k : Kernel) (i : Fin capsPerTask) : Kernel :=
  match (k.tasks slot).caps i with
  | none => k
  | some c =>
    if c.otype ≠ .device then k
    else if h : c.objectId < numDevices then
      let dev : DevId := ⟨c.objectId, h⟩
      let d := devices dev
      let name := (k.tasks slot).name
      let k := if c.rights &&& devRightIrqReceive ≠ 0
        then k.core fun co => co.irqRouteSet dev ⟨slot.val, (co.routes dev).pending⟩ else k
      let k := if c.rights &&& (devRightMmioRead ||| devRightMmioWrite) ≠ 0
        then k.puts [.str "MMIO grant task=", .str name, .str " device=", .str d.name,
          .str " region=", .str d.mmioName, .str "\n"] else k
      if c.rights &&& (devRightDmaRead ||| devRightDmaWrite) ≠ 0
        then k.puts [.str "DMA grant task=", .str name, .str " buffer=", .str d.dmaName,
          .str " size=", .dec d.dmaSize, .str "\n"] else k
    else k

/-- Apply and log the device grants a starting task was minted, slot by slot. -/
def Kernel.announceDeviceGrants (k : Kernel) (slot : Slot) : Kernel :=
  (List.finRange capsPerTask).foldl (Kernel.announceGrant slot) k

/-! ## IRQ events -/

/-- The one-byte device event delivered to a driver. -/
abbrev irqEventCode : UInt8 := 0x10

/-- Result of `sys_irq_raise`: event held pending. -/
abbrev irqPending : Int := 1

/-- A one-byte message, the rest of the payload zero. -/
def PendingMsg.oneByte (dst : Nat) (code : UInt8) : PendingMsg :=
  { dst := dst, len := 1, data := Function.update (fun _ => 0) 0 code }

/-- The evidence of a delivered event. -/
def Kernel.emitIrqDelivered (k : Kernel) (receiver source : String) : Kernel :=
  k.puts [.str "IRQ delivered to=", .str receiver, .str " source=", .str source, .str "\n"]

/-- The registered receiver of a route, if one is registered and alive. -/
def Core.irqLiveReceiver (c : Core) (dev : DevId) : Option Slot :=
  if h : (c.routes dev).receiver < maxTasks then
    let r : Slot := ⟨(c.routes dev).receiver, h⟩
    match (c.tasks r).state with
    | .faulted | .killed | .empty => none
    | .ready | .running | .blocked => some r
  else none

/-- Raise the synthetic IRQ of device `dev`: deliver now if the registered receiver is blocked on
the route's endpoint, hold the event pending if it is alive but busy, drop it if it is dead. -/
def Kernel.irqRaise (k : Kernel) (dev : DevId) : Kernel × Int :=
  let d := devices dev
  let route := k.routes dev
  match k.irqLiveReceiver dev with
  | none =>
    ((k.core (·.irqRouteSet dev ⟨route.receiver, false⟩)).puts
      [.str "IRQ_DROPPED reason=driver_not_ready\n"], errNoSlot)
  | some r =>
    match k.endpoints d.irqEndpoint with
    | .receiverWaiting tid dst cap =>
      if tid = r ∧ 1 ≤ cap ∧ validUserBuf dst 1 then
        ((k.core fun c => (c.modTask tid fun t =>
            { t with pendingIpc := some (.oneByte dst irqEventCode), state := .ready }).epSet
              d.irqEndpoint .idle).emitIrqDelivered (k.tasks tid).name d.name, 0)
      else (k.puts [.str "IRQ_DROPPED reason=unauthorized_receiver\n"], errNoSlot)
    | _ => (k.core (·.irqRouteSet dev ⟨route.receiver, true⟩), irqPending)

/-- Outcome of raising a device IRQ. -/
inductive IrqRaiseOutcome
  | delivered
  | pending
  | dropped
  deriving DecidableEq, Repr

/-- Decision rule for raising a device IRQ, as the host tests have it. -/
def irqRaiseOutcome (receiverRegistered receiverAlive receiverWaiting : Bool) : IrqRaiseOutcome :=
  if !receiverRegistered || !receiverAlive then .dropped
  else if receiverWaiting then .delivered
  else .pending

/-- The device whose route ends at endpoint `epId` and holds an event pending for task `cur`. -/
def Core.irqPendingFor (c : Core) (epId : Nat) (cur : Slot) : Option DevId :=
  (List.finRange numDevices).find? fun i =>
    (devices i).irqEndpoint.val == epId && (c.routes i).pending && (c.routes i).receiver == cur.val

/-- Drop the event one route holds pending for task `slot`. -/
def Kernel.irqDropRoute (slot : Slot) (k : Kernel) (i : DevId) : Kernel :=
  let route := k.routes i
  if route.receiver = slot.val ∧ route.pending then
    (k.core (·.irqRouteSet i ⟨route.receiver, false⟩)).puts
      [.str "IRQ_DROPPED reason=driver_not_ready\n"]
  else k

/-- Drop policy on driver death: a pending event of a dead driver is dropped, never queued across a
restart. -/
def Kernel.irqDropForTask (k : Kernel) (slot : Slot) : Kernel :=
  (List.finRange numDevices).foldl (Kernel.irqDropRoute slot) k

/-- `sys_irq_raise`: `a0` = device capability index. Requires `driver_control`. -/
def Kernel.sysIrqRaise (k : Kernel) : Except Stop Kernel :=
  let cur := k.current
  match k.deviceCapCheck cur (k.frame.arg 0) devRightDriverControl with
  | .ok id => do
    let dev ← devIndex id
    let (k, v) := k.irqRaise dev
    .ok (k.core (·.setA0 v))
  | other => .ok (k.denyDevice cur "IRQ_DENIED" other)

end AxiomRT.Dispatch
