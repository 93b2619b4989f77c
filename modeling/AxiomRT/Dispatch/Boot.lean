import AxiomRT.Dispatch.Step

/-!
# Boot

The boot-time operations of the dispatcher, `start`, and the service table of the OS boot flow.

The demos and the OS boot flow differ only in the boot-time operations they perform before `start`:
they register tasks, mint capabilities and install a service table. `bootWith` covers all of them;
`osBoot` is the OS boot flow.
-/

namespace AxiomRT.Dispatch

/-- The statics before boot. -/
def initial (img : Image) : Kernel :=
  { tasks := fun _ => emptyTcb
    current := 0
    watchdogMiss := 0
    endpoints := fun _ => .idle
    kmsg := fun _ => 0
    routes := fun _ => ⟨maxTasks, false⟩
    frame := ⟨fun _ => 0, 0, 0⟩
    satp := 0
    mem := fun _ a => if userDataVa ≤ a ∧ a < userDataEnd then 0 else img.regionBytes a
    touched := []
    serviceTable := none
    uart := []
    ring := fun _ => (.started, 0)
    ringHead := 0
    ticks := 0
    timerTicks := 0
    delivered := 0
    dma := fun _ => 0
    bus := [] }

/-- A boot-time operation. -/
inductive BootOp
  | registerTask (sstatus : UInt64) (idx : Slot) (name : String) (prio : UInt8)
      (root entryVa spVa : UInt64)
  | setEndpointCap (idx : Slot) (slot : Fin capsPerTask) (objectId : Nat) (rights : UInt16)
  | setBootCap (idx : Slot) (cap : Cap)
  | setServiceTable (table : List ServiceDef)
  | puts (out : List Tx)

namespace Kernel

/-- Mint a capability into slot `slot` of task `idx`. -/
def setCap (k : Kernel) (idx : Slot) (slot : Fin capsPerTask) (cap : Cap) : Kernel :=
  k.core fun c => c.modTask idx fun t => { t with caps := Function.update t.caps slot (some cap) }

/-- The state after one operation of the boot code. -/
def bootOp (k : Kernel) : BootOp → Kernel
  | .registerTask sstatus idx name prio root entryVa spVa =>
    k.registerTask sstatus idx name prio root entryVa spVa
  | .setEndpointCap idx slot objectId rights => k.setCap idx slot (capEndpoint objectId rights)
  | .setBootCap idx cap => k.setCap idx 0 cap
  | .setServiceTable table => { k with serviceTable := some table }
  | .puts out => k.puts out

/-- Start dispatching from task 0. -/
def start (k : Kernel) : Kernel :=
  k.core fun c =>
    { c.setState 0 .running with
      current := 0
      satp := (c.tasks 0).satpRoot
      frame := (c.tasks 0).frame }

end Kernel

/-- The state in which a boot sequence enters user mode. -/
def bootWith (img : Image) (ops : List BootOp) : Kernel :=
  (ops.foldl Kernel.bootOp (initial img)).start

/-- The states in which the dispatcher can start. -/
def Booted (img : Image) (k : Kernel) : Prop := ∃ ops, k = bootWith img ops

/-! ## The OS boot flow -/

/-- Shell to `app_loader`: requests and replies. -/
abbrev epApp : Nat := 0

/-- The lines from the console to the shell. -/
abbrev epLine : Nat := 1

/-- The fault channel. -/
abbrev epFaultId : Nat := 2

/-- The event channel. -/
abbrev epEventId : Nat := 3

/-- Requests to `fs_service` and its replies. -/
abbrev epFs : Nat := 4

/-- The storage channel. -/
abbrev epStor : Nat := 5

/-- Shell to `driver_manager`. -/
abbrev epDrv : Nat := 6

/-- The commands for `block_driver_service`. -/
abbrev epBlk : Nat := 7

/-- The interrupt events of the block device. -/
abbrev epIrq : Nat := 8

/-- The commands for `net_driver_service`. -/
abbrev epNetDrv : Nat := 9

/-- The interrupt events of the network device. -/
abbrev epNetIrq : Nat := 10

/-- Shell to `net_service`. -/
abbrev epNet : Nat := 11

/-- The right to read files. The rights from here on are declarative: the kernel checks the
transport rights only. -/
abbrev capRightFsRead : UInt16 := 0x20

/-- The right to list directories. -/
abbrev capRightFsList : UInt16 := 0x40

/-- The right to ask for the properties of the storage. -/
abbrev capRightStorageInfo : UInt16 := 0x100

/-- The right to read blocks. -/
abbrev capRightStorageRead : UInt16 := 0x200

/-- The right to ask for the state of the network. -/
abbrev capRightNetStatus : UInt16 := 0x400

/-- The right to send packets. -/
abbrev capRightNetTx : UInt16 := 0x800

/-- The right to receive packets. -/
abbrev capRightNetRx : UInt16 := 0x1000

/-- The right to control the network driver. -/
abbrev capRightNetControl : UInt16 := 0x2000

/-- A capability table whose first entries are the given capabilities. -/
def capTable (caps : List Cap) : CapTable := fun i => caps[i.val]?

/-- Name, priority and capabilities of the table entries; entry `i` occupies slot `i + 1`. -/
def serviceGrants : List (String × UInt8 × List Cap) :=
  [("supervisor_service", 6, [capEndpoint epFaultId (rightRecv ||| rightControl)]),
   ("logger_service", 5, [capEndpoint epEventId rightRecv]),
   ("console_service", 1, [capEndpoint epLine rightSend, capConsole (rightRecv ||| rightSend)]),
   ("shell_service", 3,
    [capEndpoint epLine rightRecv, capConsole rightSend, capInfo, capControl,
     capEndpoint epApp (rightSend ||| rightRecv),
     capEndpoint epFs (rightSend ||| rightRecv ||| capRightFsRead ||| capRightFsList),
     capEndpoint epStor (rightSend ||| rightRecv ||| capRightStorageInfo ||| capRightStorageRead),
     capEndpoint epDrv (rightSend ||| rightRecv),
     capEndpoint epNet (rightSend ||| rightRecv ||| capRightNetStatus ||| capRightNetTx |||
       capRightNetRx ||| capRightNetControl)]),
   ("faulty_task", 4, []),
   ("app_loader_service", 2,
    [capEndpoint epApp (rightRecv ||| rightSend), capControl,
     capEndpoint epFs (rightSend ||| rightRecv ||| capRightFsRead), capConsole rightSend, capInfo]),
   ("hello", 2, [capConsole rightSend]),
   ("fault_demo", 2, []),
   ("counter", 2, [capConsole rightSend]),
   ("fs_service", 2,
    [capEndpoint epFs (rightRecv ||| rightSend),
     capEndpoint epStor (rightSend ||| rightRecv ||| capRightStorageRead)]),
   ("storage_service", 2, [capEndpoint epStor (rightRecv ||| rightSend)]),
   ("driver_manager", 2,
    [capEndpoint epDrv (rightRecv ||| rightSend), capEndpoint epBlk (rightSend ||| rightRecv),
     capControl, capConsole rightSend, capDevice 0 devRightDriverControl,
     capEndpoint epNetDrv (rightSend ||| rightRecv), capDevice 1 devRightDriverControl]),
   ("block_driver_service", 2,
    [capEndpoint epBlk (rightRecv ||| rightSend),
     capDevice 0 (devRightInfo ||| devRightMmioRead ||| devRightDmaRead ||| devRightDmaWrite |||
       devRightIrqReceive),
     capEndpoint epIrq rightRecv]),
   ("net_driver_service", 2,
    [capEndpoint epNetDrv (rightRecv ||| rightSend),
     capDevice 1 (devRightInfo ||| devRightIrqReceive ||| devRightNetworkDriver),
     capEndpoint epNetIrq rightRecv, capConsole rightSend]),
   ("net_service", 2,
    [capEndpoint epNet (rightRecv ||| rightSend ||| capRightNetStatus ||| capRightNetTx |||
       capRightNetRx ||| capRightNetControl),
     capEndpoint epNetDrv (rightSend ||| rightRecv), capEndpoint epDrv (rightSend ||| rightRecv),
     capConsole rightSend])]

/-- Physical base of the `i`-th boot stack page. -/
def Image.stackPhys (img : Image) (i : Nat) : UInt64 := img.osStacks + UInt64.ofNat (4096 * i)

/-- The service table `os_boot` installs. -/
def serviceTable (img : Image) : List ServiceDef :=
  serviceGrants.zipIdx.map fun ((name, prio, caps), i) =>
    { name := name
      entry := img.bodyAddr (Fin.ofNat 16 (i + 1))
      stackPhys := img.stackPhys (i + 1)
      prio := prio
      slot := i + 1
      caps := capTable caps }

/-- Boot-time announcement of the device table. -/
def registerDevicesText : List Tx :=
  (List.finRange numDevices).flatMap fun i =>
    let d := devices i
    [.str "DEVICE registered=", .str d.name, .str " kind=", .str d.kind, .str "\n",
      .str "IRQ registered source=", .str d.name, .str " endpoint=", .str d.irqName, .str "\n"]

/-- The boot-time operations of the OS boot flow, given the address space built for
`init_service`. -/
def osBootOps (img : Image) (sstatus : UInt64) (uas : UserAddressSpace) : List BootOp :=
  [.setServiceTable (serviceTable img), .puts registerDevicesText,
    .registerTask sstatus 0 "init_service" 7 uas.root uas.entryVa uas.stackTopVa,
    .setBootCap 0 capControl, .puts [.str "TASK_STARTED task=init_service\n"]]

/-- The states in which the OS boot flow enters `init_service`. -/
def OsBooted (img : Image) (k : Kernel) : Prop :=
  ∃ sstatus uas, img.buildServiceAddressSpace 0 (img.bodyAddr 0) (img.stackPhys 0) = some uas ∧
    k = bootWith img (osBootOps img sstatus uas)

end AxiomRT.Dispatch
