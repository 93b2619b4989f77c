import AxiomRT.Axiomctl.Events

/-!
# The task table of the studio

`studio/src/main.rs`: the Tasks panel is one fold over the events of a log. Next to it stands what
the panel is documented to show, the last state that the events report for each started task.
-/

namespace AxiomRT.Studio

open AxiomRT.Axiomctl

/-- The value of the first field with the key. -/
def field (ev : Event) (k : String) : Option String :=
  (ev.fields.find? fun f => f.1 == k).map Prod.snd

/-- Only the first entry of the name is written. -/
def setState (tasks : List (String × String)) (name state : String) : List (String × String) :=
  match tasks with
  | [] => []
  | (n, s) :: tasks =>
    if n = name then (n, state) :: tasks else (n, s) :: setState tasks name state

/-- The two variables that the loop of `derive_tasks` carries. -/
structure TaskTable where
  tasks : List (String × String)
  lastFaulted : Option String
  deriving DecidableEq, Repr

/-- One turn of the loop over the events. -/
def taskEvent (table : TaskTable) (ev : Event) : TaskTable :=
  match ev.kind with
  | "TASK_STARTED" =>
    match field ev "task" with
    | some t => { table with tasks := table.tasks ++ [(t, "running")] }
    | none => table
  | "TASK_EXITED" =>
    match field ev "task" with
    | some t => { table with tasks := setState table.tasks t "exited" }
    | none => table
  | "FAULT" | "TASK_FAULTED" =>
    match field ev "task" with
    | some t => { tasks := setState table.tasks t "faulted", lastFaulted := some t }
    | none => table
  | "RECOVERY_APPLIED" =>
    -- The event names no task: the recovery is put down to the task that faulted last.
    match field ev "policy", table.lastFaulted with
    | some policy, some t =>
      if policy = "Kill" then { table with tasks := setState table.tasks t "killed" } else table
    | _, _ => table
  | _ => table

/-- The tasks that the events tell of, with their states. -/
def deriveTasks (evs : List Event) : List (String × String) :=
  (evs.foldl taskEvent ⟨[], none⟩).tasks

/-! ## What the events report -/

/-- The task that the event says was started. -/
def startedTask (ev : Event) : Option String :=
  if ev.kind = "TASK_STARTED" then field ev "task" else none

/-- The task that the event says has faulted. -/
def faultedTask (ev : Event) : Option String :=
  if ev.kind = "FAULT" ∨ ev.kind = "TASK_FAULTED" then field ev "task" else none

/-- The task of the last fault event in the list. -/
def mostRecentlyFaulted (evs : List Event) : Option String :=
  (evs.filterMap faultedTask).getLast?

/-- The task that an event concerns and the state it gives the task, where `faulted` is the most
recently faulted task. -/
def report (faulted : Option String) (ev : Event) : Option (String × String) :=
  match ev.kind with
  | "TASK_STARTED" => (field ev "task").map fun t => (t, "running")
  | "TASK_EXITED" => (field ev "task").map fun t => (t, "exited")
  | "FAULT" | "TASK_FAULTED" => (field ev "task").map fun t => (t, "faulted")
  | "RECOVERY_APPLIED" =>
    if field ev "policy" = some "Kill" then faulted.map fun t => (t, "killed") else none
  | _ => none

/-- The last event that concerns the task gives it this state. -/
def LastState (evs : List Event) (t s : String) : Prop :=
  ∃ before ev after, evs = before ++ ev :: after ∧
    report (mostRecentlyFaulted before) ev = some (t, s) ∧
    ∀ mid ev' rest, after = mid ++ ev' :: rest →
      ∀ s', report (mostRecentlyFaulted (before ++ ev :: mid)) ev' ≠ some (t, s')

/-- The table has one entry for each started task, no other entries, and in each entry the last
state of the task. -/
structure ShowsLastStates (evs : List Event) (tasks : List (String × String)) : Prop where
  once : ∀ t ∈ evs.filterMap startedTask, (tasks.map Prod.fst).count t = 1
  started : ∀ e ∈ tasks, e.1 ∈ evs.filterMap startedTask
  last : ∀ e ∈ tasks, LastState evs e.1 e.2

end AxiomRT.Studio
