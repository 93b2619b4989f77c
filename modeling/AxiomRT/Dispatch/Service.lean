import AxiomRT.Dispatch.Sched

/-!
# Task control

Starting a service from the boot-frozen table, killing and restarting a task, and shutdown. All of
it requires the task-control capability.
-/

namespace AxiomRT.Dispatch

/-- The control block `register_task` installs: ready, with its initial frame and no
capabilities. -/
def registeredTcb (sstatus : UInt64) (name : String) (prio : UInt8) (root entryVa spVa : UInt64) :
    Tcb :=
  { state := .ready
    prio := prio
    satpRoot := root
    frame := .initial entryVa spVa sstatus
    pendingIpc := none
    caps := noCaps
    name := name
    entryVa := entryVa
    stackTopVa := spVa }

namespace Kernel

/-- Register a task in slot `idx`. -/
def registerTask (k : Kernel) (sstatus : UInt64) (idx : Slot) (name : String) (prio : UInt8)
    (root entryVa spVa : UInt64) : Kernel :=
  k.core (·.setTask idx (registeredTcb sstatus name prio root entryVa spVa))

/-- Give a terminated or restarted task its initial frame back: no pending delivery, no wait state
of its previous life, ready. -/
def rearm (k : Kernel) (env : Env) (slot : Slot) : Kernel :=
  (k.core fun c => c.modTask slot fun t =>
    { t with frame := .initial t.entryVa t.stackTopVa env.sstatus, pendingIpc := none }).core
    fun c => (c.epClearForTask slot).setState slot .ready

/-- Start service `index` from the table; the result is its slot or an error code. -/
def startService (img : Image) (env : Env) (k : Kernel) (index : Nat) :
    Except Stop (Kernel × Int) :=
  match k.serviceTable with
  | none => .ok (k, errInvalidArg)
  | some table =>
    match table[index]? with
    | none => .ok (k, errInvalidArg)
    | some d => do
      let slot ← taskIndex d.slot
      match (k.tasks slot).state with
      | .empty =>
        match img.buildServiceAddressSpace d.slot d.entry d.stackPhys with
        | none => .error .panicked
        | some uas =>
          let k := k.registerTask env.sstatus slot d.name d.prio uas.root uas.entryVa uas.stackTopVa
          let k := k.core fun c => c.modTask slot ({ · with caps := d.caps })
          let k := k.announceDeviceGrants slot
          .ok (((k.ringPush .started slot).emit "SERVICE started=" d.name), slot.val)
      | .killed | .faulted =>
        let k := k.rearm env slot
        .ok (((k.ringPush .started slot).emit "SERVICE started=" d.name), slot.val)
      | .ready | .running | .blocked => .ok (k, errNoSlot)

/-- `sys_task_start`: `a0` = service-table index. -/
def sysTaskStart (img : Image) (env : Env) (k : Kernel) : Except Stop Kernel :=
  let cur := k.current
  if !k.capFind cur .control rightControl then .ok (k.denyAuthority cur "no_control_capability")
  else do
    let (k, v) ← k.startService img env (k.frame.arg 0)
    .ok (k.core (·.setA0 v))

/-- `sys_task_kill`: `a0` = slot. Killing yourself schedules away like `sys_exit`. -/
def sysTaskKill (k : Kernel) : Except Stop Kernel :=
  let cur := k.current
  if !k.capFind cur .control rightControl then .ok (k.denyAuthority cur "no_control_capability")
  else if h : k.frame.arg 0 < maxTasks then
    let slot : Slot := ⟨k.frame.arg 0, h⟩
    if (k.tasks slot).state = .empty then .ok (k.core (·.setA0 errInvalidArg))
    else
      let k := k.core fun c =>
        (c.modTask slot ({ · with state := .killed, pendingIpc := none })).epClearForTask slot
      let k := k.irqDropForTask slot
      let k := k.ringPush .killed slot
      let k := k.emit "TASK_KILLED task=" (k.tasks slot).name
      if slot = cur then k.dispatchNext cur idleHaltText
      else .ok (k.core (·.setA0 0))
  else .ok (k.core (·.setA0 errInvalidArg))

/-- `sys_task_restart`: `a0` = slot; a task cannot restart itself. -/
def sysTaskRestart (env : Env) (k : Kernel) : Except Stop Kernel :=
  let cur := k.current
  if !k.capFind cur .control rightControl then .ok (k.denyAuthority cur "no_control_capability")
  else if h : k.frame.arg 0 < maxTasks then
    let slot : Slot := ⟨k.frame.arg 0, h⟩
    if slot = cur ∨ (k.tasks slot).state = .empty ∨ (k.tasks slot).entryVa = 0 then
      .ok (k.core (·.setA0 errInvalidArg))
    else
      let k := k.rearm env slot
      let k := (k.ringPush .restarted slot).emit "TASK_RESTARTED task=" (k.tasks slot).name
      .ok (k.core (·.setA0 0))
  else .ok (k.core (·.setA0 errInvalidArg))

/-- `sys_shutdown`: does not return. -/
def sysShutdown (k : Kernel) : Except Stop Kernel :=
  let cur := k.current
  if !k.capFind cur .control rightControl then .ok (k.denyAuthority cur "no_control_capability")
  else .error (.shutdown (k.puts [.str "SHUTDOWN controlled=true by=", .str k.curName, .str "\n"]))

end Kernel

end AxiomRT.Dispatch
