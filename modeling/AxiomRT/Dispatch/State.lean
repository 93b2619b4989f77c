import Mathlib.Algebra.Ring.Int.Defs
import Mathlib.Algebra.Ring.Nat
import Mathlib.Data.Fintype.Basic

/-!
# Dispatcher state

The statics of `kernel/src/arch/riscv64/dispatch.rs` as one record, together with the machine state
the dispatcher works on: the live trap frame, the active address space and the user memory. The
dispatcher runs on a single hart and is never re-entered, so every trap is one step on this record.

`Core` holds what scheduling and IPC read and write; `Kernel` adds the evidence (serial output,
event ring, counters), the device-side state and the boot-frozen service table.
-/

namespace AxiomRT.Dispatch

/-! ## Constants -/

/-- Maximum on-target tasks. -/
abbrev maxTasks : Nat := 16

/-- Capability slots per task. -/
abbrev capsPerTask : Nat := 9

/-- Bounded message size. -/
abbrev ipcMsgMax : Nat := 128

/-- Number of endpoints. -/
abbrev numEndpoints : Nat := 12

/-- Length of the kernel event ring. -/
abbrev ringLen : Nat := 32

/-- Entries of the kernel device table. -/
abbrev numDevices : Nat := 2

/-- User data window: the stack page of every task. -/
abbrev userDataVa : Nat := 0x200000

/-- End of the user data window. -/
abbrev userDataEnd : Nat := 0x201000

/-- Virtual base of the linker-gathered user region. -/
abbrev userCodeVa : Nat := 0x10000

/-- Ticks that a task may run without a syscall. -/
abbrev watchdogWindow : Nat := 4

/-- A task slot: index into `TASKS`. -/
abbrev Slot : Type := Fin maxTasks

/-- An endpoint id that is in range of `ENDPOINTS`. -/
abbrev EpId : Type := Fin numEndpoints

/-- A device id that is in range of `DEVICES`. -/
abbrev DevId : Type := Fin numDevices

-- No array is empty, so that a numeral is an index.
instance neZero_maxTasks : NeZero maxTasks := ⟨by decide⟩
instance neZero_capsPerTask : NeZero capsPerTask := ⟨by decide⟩
instance neZero_ipcMsgMax : NeZero ipcMsgMax := ⟨by decide⟩
instance neZero_numEndpoints : NeZero numEndpoints := ⟨by decide⟩
instance neZero_ringLen : NeZero ringLen := ⟨by decide⟩
instance neZero_numDevices : NeZero numDevices := ⟨by decide⟩
instance neZero_numRegs : NeZero 31 := ⟨by decide⟩
instance neZero_numArgs : NeZero 4 := ⟨by decide⟩

/-! Result codes returned in `a0`. -/

/-- There is no such syscall. -/
abbrev errInvalidSyscall : Int := -1

/-- The index is out of range, or its slot is empty. -/
abbrev errInvalidCap : Int := -2

/-- The capability lacks a right. -/
abbrev errInsufficientRights : Int := -3

/-- The capability is for another kind of object. -/
abbrev errWrongObjectType : Int := -4

/-- An argument is out of range, or the endpoint is taken. -/
abbrev errInvalidArg : Int := -5

/-- The message does not fit. -/
abbrev errMsgTooLarge : Int := -6

/-- The task to be started is there already, or no live receiver takes the event. -/
abbrev errNoSlot : Int := -7

/-- The syscall has no implementation. -/
abbrev errNotImplemented : Int := -9

/-- `fetch_add` on a 64-bit counter wraps around. -/
def wrappingInc (n : Nat) : Nat := (n + 1) % 2 ^ 64

/-- `u64::checked_add`. -/
def checkedAdd (a b : Nat) : Option Nat := if a + b < 2 ^ 64 then some (a + b) else none

/-! ## Trap frame -/

/-- Saved register state: `regs i` holds general register `x(i+1)`. -/
structure TrapFrame where
  regs : Fin 31 → UInt64
  sepc : UInt64
  sstatus : UInt64
  deriving DecidableEq

namespace TrapFrame

/-- Syscall number register. -/
def a7 (f : TrapFrame) : UInt64 := f.regs 16

/-- The argument registers `a0` to `a3`, read as `usize`. -/
def arg (f : TrapFrame) (i : Fin 4) : Nat := (f.regs ⟨9 + i.val, by omega⟩).toNat

/-- Store a signed result in `a0`. -/
def setA0 (f : TrapFrame) (value : Int) : TrapFrame :=
  { f with regs := Function.update f.regs 9 (UInt64.ofInt value) }

/-- `a0` as the signed result user code reads back. -/
def a0 (f : TrapFrame) : Int := (f.regs 9).toBitVec.toInt

/-- Initial context of a fresh user task: entry in `sepc`, stack in `x2`, `SPIE` set. -/
def newUser (entry userSp : UInt64) : TrapFrame :=
  { regs := Function.update (fun _ => 0) 1 userSp
    sepc := entry
    sstatus := 0x20 }

/-- `newUser` with the `sstatus` the dispatcher installs: the live value, `SPP` clear, `SPIE`
set. -/
def initial (entry userSp sstatus : UInt64) : TrapFrame :=
  { newUser entry userSp with sstatus := (sstatus &&& ~~~0x100) ||| 0x20 }

end TrapFrame

/-! ## Capabilities -/

/-- Object types of on-target capabilities. -/
inductive OType
  | endpoint
  | console
  | control
  | info
  | device
  deriving DecidableEq, Repr

/-- The right to send on an endpoint, and to write to the console. -/
abbrev rightSend : UInt16 := 0x8

/-- The right to receive on an endpoint, and to read from the console. -/
abbrev rightRecv : UInt16 := 0x10

/-- The right to control tasks: to start, kill and restart them, and to stop the system. -/
abbrev rightControl : UInt16 := 0x80

/-- The right to ask for the properties of a device. -/
abbrev devRightInfo : UInt16 := 0x1

/-- The right to read the registers of a device. -/
abbrev devRightMmioRead : UInt16 := 0x2

/-- The right to write the registers of a device. -/
abbrev devRightMmioWrite : UInt16 := 0x4

/-- The right to read the bounce page of a device. -/
abbrev devRightDmaRead : UInt16 := 0x8

/-- The right to write the bounce page of a device. -/
abbrev devRightDmaWrite : UInt16 := 0x10

/-- The right to receive the events of a device. -/
abbrev devRightIrqReceive : UInt16 := 0x20

/-- The right to raise the event of a device. -/
abbrev devRightDriverControl : UInt16 := 0x40

/-- The right to act as the driver of a network device. -/
abbrev devRightNetworkDriver : UInt16 := 0x80

/-- On-target capability. -/
structure Cap where
  otype : OType
  objectId : Nat
  rights : UInt16
  deriving DecidableEq, Repr

/-- The capability carries every right in `required`. -/
def Cap.grants (c : Cap) (required : UInt16) : Bool := c.rights &&& required == required

/-- A capability for an endpoint. -/
def capEndpoint (objectId : Nat) (rights : UInt16) : Cap := ⟨.endpoint, objectId, rights⟩

/-- A capability for the console. -/
def capConsole (rights : UInt16) : Cap := ⟨.console, 0, rights⟩

/-- The capability to control tasks. -/
def capControl : Cap := ⟨.control, 0, rightControl⟩

/-- The capability to look at the kernel state. -/
def capInfo : Cap := ⟨.info, 0, rightRecv⟩

/-- A capability for a device. -/
def capDevice (objectId : Nat) (rights : UInt16) : Cap := ⟨.device, objectId, rights⟩

/-- A task's capability table; user code holds only indexes into it. -/
abbrev CapTable : Type := Fin capsPerTask → Option Cap

/-- The table without a capability. -/
def noCaps : CapTable := fun _ => none

/-- Outcome of a capability lookup; on success the id of the object it names. -/
inductive CapCheck
  | ok (id : Nat)
  | invalidCap
  | wrongType
  | insufficientRights
  deriving DecidableEq, Repr

/-! ## Task control blocks -/

/-- A deferred message delivery: destination address and embedded payload. -/
structure PendingMsg where
  dst : Nat
  len : Nat
  data : Fin ipcMsgMax → UInt8
  deriving DecidableEq

/-- On-target run state of a task. -/
inductive RtState
  | empty
  | ready
  | running
  | blocked
  | faulted
  | killed
  deriving DecidableEq, Repr

/-- A task control block. -/
structure Tcb where
  state : RtState
  prio : UInt8
  satpRoot : UInt64
  frame : TrapFrame
  pendingIpc : Option PendingMsg
  caps : CapTable
  name : String
  entryVa : UInt64
  stackTopVa : UInt64
  deriving DecidableEq

/-- A slot that is not in use. -/
def emptyTcb : Tcb :=
  { state := .empty
    prio := 0
    satpRoot := 0
    frame := ⟨fun _ => 0, 0, 0⟩
    pendingIpc := none
    caps := noCaps
    name := ""
    entryVa := 0
    stackTopVa := 0 }

/-! ## Endpoints and IRQ routes -/

/-- Endpoint state: one in-flight rendezvous per endpoint. -/
inductive Ep
  | idle
  | senderWaiting (tid : Slot) (len : Nat)
  | receiverWaiting (tid : Slot) (dst cap : Nat)
  deriving DecidableEq, Repr

/-- The task parked on an endpoint, if any. -/
def Ep.waiter : Ep → Option Slot
  | .idle => none
  | .senderWaiting tid _ => some tid
  | .receiverWaiting tid _ _ => some tid

/-- One synthetic IRQ route: the registered receiver (`maxTasks` when there is none yet) and the
coalesced pending bit. -/
structure IrqRoute where
  receiver : Nat
  pending : Bool
  deriving DecidableEq, Repr

/-! ## Evidence -/

/-- Kinds of the entries in the kernel event ring. -/
inductive EvKind
  | started
  | exited
  | fault
  | capDenied
  | recovery
  | killed
  | restarted
  deriving DecidableEq, Repr

/-- One call to a serial output routine: `put_str`, `put_byte`, `put_dec` or `put_hex`. -/
inductive Tx
  | str (s : String)
  | byte (b : UInt8)
  | dec (v : Nat)
  | hex (v : Nat)
  deriving DecidableEq, Repr

/-- One volatile access the device syscalls perform on the bus. -/
structure BusAccess where
  write : Bool
  addr : Nat
  width : Nat
  value : Nat
  deriving DecidableEq, Repr

/-- One byte of user memory the kernel reads or writes, and the root of the address space that is
active then. -/
structure UserAccess where
  write : Bool
  root : UInt64
  va : Nat
  deriving DecidableEq, Repr

/-! ## The service table -/

/-- One entry of the boot-frozen service table. -/
structure ServiceDef where
  name : String
  entry : UInt64
  stackPhys : UInt64
  prio : UInt8
  slot : Nat
  caps : CapTable
  deriving DecidableEq

/-! ## The kernel state -/

/-- What scheduling and IPC work on. `frame` is the live trap frame, `satp` the root of the active
address space, and `mem root va` the user byte at `va` in the address space with that root;
`touched` lists the user bytes the kernel has read and written so far. -/
structure Core where
  tasks : Slot → Tcb
  current : Slot
  watchdogMiss : Nat
  endpoints : EpId → Ep
  kmsg : Fin ipcMsgMax → UInt8
  routes : DevId → IrqRoute
  frame : TrapFrame
  satp : UInt64
  mem : UInt64 → Nat → UInt8
  touched : List UserAccess

/-- The whole dispatcher state. -/
structure Kernel extends Core where
  serviceTable : Option (List ServiceDef)
  uart : List Tx
  ring : Fin ringLen → EvKind × Slot
  ringHead : Nat
  ticks : Nat
  timerTicks : Nat
  delivered : Nat
  dma : Nat → UInt8
  bus : List BusAccess

/-- Why the kernel does not return to user mode: it halted idle, it was shut down, or an operation
panicked (an index or a slice out of range, a failed `expect`). -/
inductive Stop
  | idle (k : Kernel)
  | shutdown (k : Kernel)
  | panicked

/-- The built user address space of a task. -/
structure UserAddressSpace where
  root : UInt64
  entryVa : UInt64
  stackTopVa : UInt64

/-- What the linked image and `paging_hw` provide: the extent and contents of the user region, the
address-space builder (`none` where one of its `expect`s fails), the addresses `os_boot` takes, and
whether the `os_boot` feature is on. -/
structure Image where
  userTextStart : Nat
  userRodataEnd : Nat
  regionBytes : Nat → UInt8
  buildServiceAddressSpace : Nat → UInt64 → UInt64 → Option UserAddressSpace
  bodyAddr : Fin 16 → UInt64
  osStacks : UInt64
  dmaBase : Nat
  osBootFeature : Bool

/-- Inputs from outside the kernel that a trap handler reads: the `sstatus` register, the bytes the
serial port hands out before it runs dry, and the value a device register holds. -/
structure Env where
  sstatus : UInt64
  rx : List UInt8
  mmio : Nat → Nat → Nat

end AxiomRT.Dispatch
