import AxiomRT.Dispatch.Irq

/-!
# Scheduling core

Every scheduling decision ends in `resumeTask`, which also completes a deferred IPC delivery now
that the target address space is active.
-/

namespace AxiomRT.Dispatch

/-- Mark `next` running, make its address space active, load its saved frame and take its pending
delivery. -/
def Core.activate (c : Core) (next : Slot) : Core :=
  let t := c.tasks next
  { c.setTask next { t with state := .running, pendingIpc := none } with
    current := next
    watchdogMiss := 0
    satp := t.satpRoot
    frame := t.frame }

namespace Kernel

/-- Resume `next` and complete any deferred delivery. -/
def resumeTask (k : Kernel) (next : Slot) : Except Stop Kernel :=
  let pending := (k.tasks next).pendingIpc
  let k := k.core (·.activate next)
  match pending with
  | none => .ok k
  | some pm => do
    let k := { k with delivered := wrappingInc k.delivered }
    let bytes ← sliceTo pm.data pm.len
    .ok ((k.core fun c => (c.copyBytesToUser pm.dst bytes).setA0 pm.len).puts
      [.str "IPC delivered bytes=", .dec pm.len, .str "\n"])

/-- The common tail of the paths that give up the CPU: run the selected task, or report `idle` and
halt. -/
def dispatchNext (k : Kernel) (cur : Slot) (idle : List Tx) : Except Stop Kernel :=
  match k.selectHighest cur with
  | some next => (k.emit "SCHED selected=" (k.tasks next).name).resumeTask next
  | none => .error (.idle (k.puts idle))

/-- What is printed when the last task has exited. -/
def idleHaltText : List Tx :=
  [.str "SCHED idle=all_tasks_done\n", .str "KERNEL alive=true\n",
    .str "phase=multitask-demo-complete\n"]

/-- Cooperative yield (`exiting = false`) or exit. -/
def switch (img : Image) (k : Kernel) (exiting : Bool) : Except Stop Kernel :=
  let cur := k.current
  let name := k.curName
  let quiet := img.osBootFeature && !exiting
  let k :=
    if exiting then
      ((((k.emit "SYSCALL name=sys_exit task=" name).core (·.setState cur .killed)).emit
        "TASK_EXITED task=" name).ringPush .exited cur)
    else k.core fun c => c.modTask cur ({ · with frame := c.frame, state := .ready })
  match k.selectHighest cur with
  | some next =>
    let k :=
      if quiet && next == cur then k
      else
        let k := if exiting then k else k.emit "SYSCALL name=sys_yield task=" name
        k.emit "SCHED selected=" (k.tasks next).name
    k.resumeTask next
  | none => .error (.idle (k.puts idleHaltText))

/-- Block the running task and switch away. -/
def blockAndSwitch (k : Kernel) : Except Stop Kernel :=
  let cur := k.current
  let k := k.core fun c => c.modTask cur ({ · with frame := c.frame, state := .blocked })
  k.dispatchNext cur [.str "SCHED idle=all_blocked\n", .str "KERNEL alive=true\n"]

/-- Timer preemption: preempt only if out-ranked. -/
def preempt (k : Kernel) : Except Stop Kernel :=
  let cur := k.current
  match k.selectHighest cur with
  | none => .ok k
  | some next =>
    if next = cur ∨ (k.tasks next).prio ≤ (k.tasks cur).prio then .ok k
    else
      let k := k.puts [.str "SCHED preempt=", .str (k.tasks cur).name, .str " selected=",
        .str (k.tasks next).name, .str "\n"]
      let k := k.core fun c => c.modTask cur ({ · with frame := c.frame, state := .ready })
      k.resumeTask next

/-! ## Fault containment -/

/-- Fault channel and event channel. -/
abbrev epFault : EpId := 2

/-- The event channel. -/
abbrev epEvent : EpId := 3

/-- Fault descriptor code delivered to the supervisor and the logger. -/
abbrev faultCodeWatchdog : UInt8 := 4

/-- Deliver a one-byte notification to the task parked as receiver on endpoint `e`. The endpoint is
reset even when the parked buffer cannot take the byte; then nothing is staged. -/
def notifyEndpoint (k : Kernel) (e : EpId) (code : UInt8) : Kernel × Option Slot :=
  match k.endpoints e with
  | .receiverWaiting tid dst cap =>
    let k := if 1 ≤ cap ∧ validUserBuf dst 1 then
        k.core fun c => c.modTask tid ({ · with
          pendingIpc := some (.oneByte dst code), state := .ready })
      else k
    (k.core (·.epSet e .idle), some tid)
  | _ => (k, none)

/-- Notify the supervisor and the logger that `faultedName` was contained. -/
def notifySupervisorAndLogger (k : Kernel) (faultedName : String) : Kernel :=
  let (k, sup) := k.notifyEndpoint epFault faultCodeWatchdog
  let k := if sup.isSome
    then k.emit "IPC delivered fault_event to=supervisor_task from=" faultedName else k
  let (k, log) := k.notifyEndpoint epEvent faultCodeWatchdog
  if log.isSome
    then k.puts [.str "LOGGER event=TASK_FAULTED task=", .str faultedName, .str "\n"] else k

/-- The common tail of the fault paths: the running task is faulted, its pending device events are
dropped, supervisor and logger are notified, and the next ready task runs. -/
def faultCurrent (k : Kernel) : Except Stop Kernel :=
  let cur := k.current
  let name := k.curName
  let k := k.core (·.setState cur .faulted)
  let k := k.irqDropForTask cur
  let k := k.notifySupervisorAndLogger name
  k.dispatchNext cur [.str "SCHED idle=no_ready_task\n", .str "KERNEL alive=true\n"]

/-- The miss counter passes the window on this tick. -/
def watchdogExpired (k : Kernel) : Bool := watchdogWindow < k.watchdogMiss + 1

/-- Watchdog tick; the flag says whether it faulted the running task. -/
def watchdogTick (k : Kernel) : Except Stop (Kernel × Bool) :=
  let expired := k.watchdogExpired
  let k := { k with ticks := wrappingInc k.ticks, watchdogMiss := wrappingInc k.watchdogMiss }
  if !expired then .ok (k, false)
  else do
    let k := k.ringPush .fault k.current
    let k := k.emit "FAULT type=WatchdogTimeout task=" k.curName
    let k := k.puts
      [.str "CONTAIN scope=user reason=watchdog_timeout action=faulted kernel=alive\n"]
    let k ← k.faultCurrent
    .ok (k, true)

/-- Contain a synchronous user fault of the running task. -/
def containFault (k : Kernel) (reason : String) : Except Stop Kernel :=
  let k := k.ringPush .fault k.current
  let k := k.emit "FAULT type=PageFault task=" k.curName
  let k := k.puts [.str "CONTAIN scope=user reason=", .str reason,
    .str " action=faulted kernel=alive\n"]
  k.faultCurrent

end Kernel

end AxiomRT.Dispatch
