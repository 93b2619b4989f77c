import Mathlib.Data.List.Infix
import Mathlib.Logic.Function.Basic
import Mathlib.Tactic.Common

/-!
# The background jobs of the studio

`studio/src/main.rs`: a request starts a job on a thread of its own, which streams the output of a
child process into the state that all threads share under one lock. Here every critical section is
one step, and the threads take their steps in any order.

Next to it stands the job server that the studio is meant to be: one job at a time, its lines as
they come, and the result of the last run of each job.
-/

namespace AxiomRT.Studio

/-- How a job is doing. -/
inductive JobStatus
  | idle
  | running
  | ok
  | failed
  deriving DecidableEq, Repr

/-- The names that `handle` passes to `api_start`. -/
inductive JobName
  | demo
  | verify
  | kit
  deriving DecidableEq, Repr

/-- A job as the studio shows it. -/
structure Job where
  status : Option JobStatus
  log : String
  deriving DecidableEq, Repr

/-- The shared state, without the tool versions, which never change. -/
structure State where
  busy : Option JobName
  demo : Job
  verify : Job
  kit : Job
  deriving DecidableEq, Repr

namespace State

/-- No job has been started. -/
def initial : State := ⟨none, ⟨none, ""⟩, ⟨none, ""⟩, ⟨none, ""⟩⟩

/-- Reading through `job_mut`. -/
def job (st : State) : JobName → Job
  | .demo => st.demo
  | .verify => st.verify
  | .kit => st.kit

/-- Writing through `job_mut`. -/
def setJob (st : State) (which : JobName) (j : Job) : State :=
  match which with
  | .demo => { st with demo := j }
  | .verify => { st with verify := j }
  | .kit => { st with kit := j }

end State

/-! ## The critical sections -/

/-- `api_start`: `none` is the answer 409. -/
def apiStart (st : State) (which : JobName) : Option State :=
  if st.busy.isSome then none
  else some ({ st with busy := some which }.setJob which ⟨some .running, ""⟩)

/-- One line of the child. -/
def pushLine (st : State) (which : JobName) (line : String) : State :=
  st.setJob which { st.job which with log := (st.job which).log ++ line ++ "\n" }

/-- `str::contains`. -/
def hasText (text pattern : String) : Bool := decide (pattern.toList <:+: text.toList)

/-- The demo has succeeded if its log shows the boot and a recovery; QEMU is always stopped by the
timeout. -/
def demoPassed (log : String) : Bool :=
  hasText log "AxiomRT kernel booted" && hasText log "RECOVERY_APPLIED"

/-- The verdict on a child that has exited. -/
def judge (st : State) (which : JobName) (statusOk : Bool) : Bool :=
  match which with
  | .demo => demoPassed st.demo.log
  | .verify | .kit => statusOk

/-- Record the result and let go of the studio. -/
def finish (st : State) (which : JobName) (ok : Bool) : State :=
  { st.setJob which { st.job which with status := some (if ok then .ok else .failed) } with
    busy := none }

/-! ## The threads -/

/-- Where a thread stands in `run_job`. -/
inductive Point
  /-- `api_start` has let go of the lock; the child is not there yet. -/
  | starting
  /-- In the loop over the lines of the child. -/
  | reading
  | exited (statusOk : Bool)
  | decided (ok : Bool)
  deriving DecidableEq, Repr

/-- A thread that runs `run_job`. -/
structure JobThread where
  which : JobName
  point : Point
  deriving DecidableEq, Repr

/-- What the outside can see of the jobs. -/
inductive JobEvent
  | posted (which : JobName) (started : Bool)
  | line (which : JobName) (text : String)
  | finished (which : JobName) (ok : Bool)
  deriving DecidableEq, Repr

/-- One step of a thread on the shared state; a thread that ends is gone. -/
inductive ThreadStep (st : State) (which : JobName) :
    Point → Option JobEvent → State → Option JobThread → Prop
  | spawned : ThreadStep st which .starting none st (some ⟨which, .reading⟩)
  /-- The shell cannot be started. -/
  | noChild : ThreadStep st which .starting none st (some ⟨which, .decided false⟩)
  | line (text : String) : ThreadStep st which .reading (some (.line which text))
      (pushLine st which text) (some ⟨which, .reading⟩)
  /-- The output ends, or a line of it cannot be read; the child is waited for. -/
  | closed (statusOk : Bool) :
      ThreadStep st which .reading none st (some ⟨which, .exited statusOk⟩)
  | judged (statusOk : Bool) : ThreadStep st which (.exited statusOk) none st
      (some ⟨which, .decided (judge st which statusOk)⟩)
  | finished (ok : Bool) :
      ThreadStep st which (.decided ok) (some (.finished which ok)) (finish st which ok) none

/-- The shared state, and the threads that have not ended. -/
structure Jobs where
  shared : State
  threads : List JobThread

/-- One step of the studio: a request, or any thread. -/
inductive JobsStep : Jobs → Option JobEvent → Jobs → Prop
  | started {s : Jobs} {st : State} {which : JobName}
      (accepted : apiStart s.shared which = some st) :
      JobsStep s (some (.posted which true)) ⟨st, s.threads ++ [⟨which, .starting⟩]⟩
  | refused {s : Jobs} {which : JobName} (conflict : apiStart s.shared which = none) :
      JobsStep s (some (.posted which false)) s
  | thread {st st' : State} {before after : List JobThread} {t : JobThread} {ev : Option JobEvent}
      {t' : Option JobThread} (acts : ThreadStep st t.which t.point ev st' t') :
      JobsStep ⟨st, before ++ t :: after⟩ ev ⟨st', before ++ t'.toList ++ after⟩

/-- The events of a run, the last one first. -/
inductive JobsRun : List JobEvent → Jobs → Prop
  | start : JobsRun [] ⟨.initial, []⟩
  | silent {history : List JobEvent} {s s' : Jobs} (h : JobsRun history s)
      (step : JobsStep s none s') : JobsRun history s'
  | visible {history : List JobEvent} {s s' : Jobs} {ev : JobEvent} (h : JobsRun history s)
      (step : JobsStep s (some ev) s') : JobsRun (ev :: history) s'

/-! ## The job server -/

/-- The job that runs, with its lines so far. -/
structure JobRun where
  which : JobName
  lines : List String

/-- What a job printed, and how it ended. -/
structure JobResult where
  lines : List String
  ok : Bool

/-- One job at a time, and the last result of each. -/
structure JobServer where
  current : Option JobRun
  last : JobName → Option JobResult

/-- The log of these lines. -/
def logText (lines : List String) : String := lines.foldl (fun log line => log ++ line ++ "\n") ""

namespace JobServer

/-- No job has been started. -/
def initial : JobServer := ⟨none, fun _ => none⟩

/-- What the server shows of a job that does not run. -/
def settled (a : JobServer) (which : JobName) : Job :=
  match a.last which with
  | none => ⟨none, ""⟩
  | some r => ⟨some (if r.ok then .ok else .failed), logText r.lines⟩

/-- What the server shows of a job. -/
def shows (a : JobServer) (which : JobName) : Job :=
  match a.current with
  | some r => if r.which = which then ⟨some .running, logText r.lines⟩ else a.settled which
  | none => a.settled which

/-- The state that the server shows. -/
def view (a : JobServer) : State :=
  ⟨a.current.map JobRun.which, a.shows .demo, a.shows .verify, a.shows .kit⟩

end JobServer

/-- A job is started only while none runs; its lines are its own; its result is that of the child,
and for the demo what its log shows. -/
inductive ServerStep : JobServer → JobEvent → JobServer → Prop
  | started {a : JobServer} {which : JobName} (free : a.current = none) :
      ServerStep a (.posted which true) { a with current := some ⟨which, []⟩ }
  | refused {a : JobServer} {which : JobName} {r : JobRun} (busy : a.current = some r) :
      ServerStep a (.posted which false) a
  | line {a : JobServer} {r : JobRun} (runs : a.current = some r) (text : String) :
      ServerStep a (.line r.which text)
        { a with current := some { r with lines := r.lines ++ [text] } }
  | finished {a : JobServer} {r : JobRun} {ok : Bool} (runs : a.current = some r)
      (demo : r.which = .demo → ok = demoPassed (logText r.lines)) :
      ServerStep a (.finished r.which ok)
        ⟨none, Function.update a.last r.which (some ⟨r.lines, ok⟩)⟩

/-- The runs of the server, with their events, the latest first. -/
inductive ServerRun : List JobEvent → JobServer → Prop
  | start : ServerRun [] .initial
  | step {history : List JobEvent} {a a' : JobServer} {ev : JobEvent} (h : ServerRun history a)
      (step : ServerStep a ev a') : ServerRun (ev :: history) a'

/-- The threads of the studio amount to the job server. -/
structure OneAtATime (history : List JobEvent) : Prop where
  /-- What the studio can show after these events is what the server shows. -/
  same : ∀ st, (∃ threads, JobsRun history ⟨st, threads⟩) ↔ ∃ a, ServerRun history a ∧ a.view = st
  /-- There is a job thread exactly while the studio is busy, and never a second one. -/
  alone : ∀ s, JobsRun history s → s.threads.length = if s.shared.busy.isSome then 1 else 0

end AxiomRT.Studio
