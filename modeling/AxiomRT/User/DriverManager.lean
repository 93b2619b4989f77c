import AxiomRT.User.NetDriver

/-!
# The driver manager

Driver lifecycle policy: the manager tracks the state of the block driver and of the network driver,
answers the driver lines of the shell and the lifecycle requests of the network service, and finds
out about a dead driver by raising its synthetic interrupt.
-/

namespace AxiomRT.User

open Lib

/-- The system calls of the manager: those of the services, and two that only it makes. -/
inductive ManagerCall
  | sys (c : Call)
  | yield
  | irqRaise (cap : ℕ)
  deriving DecidableEq, Repr

/-- What a call of the manager is answered with. -/
@[reducible] def ManagerCall.Answer : ManagerCall → Type
  | .sys c => c.Answer
  | _ => Int

/-- A program of the manager. -/
abbrev ManagerProg (α : Type) : Type := Prog ManagerCall ManagerCall.Answer α

/-- A program that makes calls of the services only. -/
def liftUser {α : Type} : UserProg α → ManagerProg α
  | .ret a => .ret a
  | .call c next => .call (.sys c) fun r => liftUser (next r)

/-- What the manager believes of a driver: 0, 1 and 2 in the source. -/
inductive DriverState
  | stopped
  | running
  | faulted
  deriving DecidableEq, Repr

/-- What the manager knows of the block driver and of the network driver. -/
structure ManagerState where
  st : DriverState
  netSt : DriverState
  deriving DecidableEq, Repr

/-- Task slot of the block driver. -/
abbrev slotBlockDriver : UInt64 := 13

/-- Task slot of the network driver. -/
abbrev slotNetDriver : UInt64 := 14

/-- One bounded reply over the driver-manager channel. -/
def dmReply (msg : List UInt8) : ManagerProg Unit := liftUser (reply msg)

/-- Write a text to the console. -/
def dmPut (s : String) : ManagerProg Unit := liftUser (uput s)

/-- `drivers`: the state lines on the console, the short reply over IPC. -/
def dmList (st netSt : DriverState) : ManagerProg Unit := do
  match st with
  | .running => dmPut "driver name=block_driver_service state=running kind=block_skeleton\n"
  | .faulted => dmPut "driver name=block_driver_service state=faulted kind=block_skeleton\n"
  | .stopped => dmPut "driver name=block_driver_service state=stopped kind=block_skeleton\n"
  match netSt with
  | .running => dmPut "driver name=net_driver_service state=running kind=network_synthetic\n"
  | .faulted => dmPut "driver name=net_driver_service state=faulted kind=network_synthetic\n"
  | .stopped => dmPut "driver name=net_driver_service state=stopped kind=network_synthetic\n"
  match st with
  | .running => dmReply (umsg "block_driver_service running")
  | .faulted => dmReply (umsg "block_driver_service faulted")
  | .stopped => dmReply (umsg "block_driver_service stopped")

/-- `driver info block`: a running driver answers for itself, any other from the tracked state. -/
def dmInfo (st : DriverState) : ManagerProg Unit :=
  match st with
  | .running => do
    let sent ← liftUser (sysSend 1 (umsg "STATUS"))
    if sent < 0 then dmReply (umsg "kind=block_skeleton state=stopped")
    else
      let answer ← liftUser (sysRecv 1 64)
      match answer.received with
      | some text => dmReply text
      | none => dmReply (umsg "kind=block_skeleton state=stopped")
  | .faulted => dmReply (umsg "kind=block_skeleton state=faulted")
  | .stopped => dmReply (umsg "kind=block_skeleton state=stopped")

/-- The bounded liveness probe: true as soon as a raise is dropped, which means a dead driver. -/
def dmProbe (cap : ℕ) : (rounds : ℕ) → ManagerProg Bool
  | 0 => .ret false
  | rounds + 1 =>
    .call .yield fun _ => .call (.irqRaise cap) fun (r : Int) =>
      if r < 0 then .ret true else dmProbe cap rounds

/-- `NET_MGR_FAULT`: inject a fault into the network driver and wait for its death. -/
def dmNetFault (m : ManagerState) : ManagerProg ManagerState := do
  if m.netSt ≠ .running then
    dmReply (umsg "ERR driver_down")
    return m
  let sent ← liftUser (sysSend 5 (umsg "DRV_FAULT"))
  if sent < 0 then
    dmReply (umsg "ERR driver_down")
    return m
  if ← dmProbe 6 16 then
    dmPut "DRIVER_MANAGER observed=fault driver=net_driver_service\n"
    dmPut "NET_DRIVER state=faulted\n"
    dmReply (umsg "OK network fault contained")
    return { m with netSt := .faulted }
  dmReply (umsg "ERR unsupported")
  return m

/-- `NET_MGR_RESTART`. -/
def dmNetRestart (m : ManagerState) : ManagerProg ManagerState := do
  let restarted ← liftUser (sysTaskRestart slotNetDriver)
  if restarted < 0 then
    dmReply (umsg "ERR unsupported")
    return m
  dmPut "NET_DRIVER restarted=net_driver_service\n"
  .call (.irqRaise 6) fun (_ : Int) => do
    dmReply (umsg "OK restarted")
    return { m with netSt := .running }

/-- `driver restart block`. -/
def dmRestart (m : ManagerState) : ManagerProg ManagerState := do
  let restarted ← liftUser (sysTaskRestart slotBlockDriver)
  if restarted < 0 then
    dmReply (umsg "error: cannot restart")
    return m
  dmPut "DRIVER restarted=block_driver_service\n"
  .call (.irqRaise 4) fun (_ : Int) => do
    dmReply (umsg "restarted")
    return { m with st := .running }

/-- `driver fault block`: a driver believed dead is never sent to. -/
def dmFault (m : ManagerState) : ManagerProg ManagerState := do
  if m.st ≠ .running then
    dmReply (umsg "driver not running")
    return m
  let sent ← liftUser (sysSend 1 (umsg "FAULT"))
  if sent < 0 then
    dmReply (umsg "driver not running")
    return m
  if ← dmProbe 4 16 then
    dmPut "DRIVER_MANAGER observed=fault driver=block_driver_service\n"
    dmReply (umsg "faulted (contained)")
    return { m with st := .faulted }
  dmReply (umsg "fault requested")
  return m

/-- One iteration of `driver_manager_body`: answer one received line. -/
def driverManagerHandle (m : ManagerState) (cmd : List UInt8) : ManagerProg ManagerState :=
  if eqs cmd (umsg "NET_MGR_FAULT") then dmNetFault m
  else if eqs cmd (umsg "NET_MGR_RESTART") then dmNetRestart m
  else if eqs cmd (umsg "drivers") then do
    dmList m.st m.netSt
    return m
  else if eqs cmd (umsg "driver info block") then do
    dmInfo m.st
    return m
  else if eqs cmd (umsg "driver restart block") then dmRestart m
  else if eqs cmd (umsg "driver fault block") then dmFault m
  else do
    dmReply (umsg "unknown driver command")
    return m

end AxiomRT.User
