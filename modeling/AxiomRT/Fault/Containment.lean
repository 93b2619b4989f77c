import AxiomRT.Fault.Wire
import AxiomRT.Sched.Proofs.SchedulerProofs

/-!
# Fault containment

The handling policy of `kernel/src/fault/mod.rs`, and the threads of the kernel together with its
scheduler: what `Thread::transition`, `fault::handle` and the calls on the scheduler do to them, in
any order.
-/

namespace AxiomRT.Fault

open Threads (Thread ThreadId ThreadState)
open Sched (FixedPriorityScheduler Priority)
open Lib (Execution)

/-! ## Handling a fault -/

/-- Where a fault occurred. -/
inductive FaultScope
  | user (thread : Thread)
  | kernel
  deriving DecidableEq, Repr

/-- A fault is contained in its thread, or the kernel stops. -/
inductive FaultOutcome
  | contained (event : FaultEvent)
  | kernelPanic (event : FaultEvent)
  deriving DecidableEq, Repr

/-- The source mutates the thread of the scope; here the scope it leaves is returned too. -/
def handle (eventId : UInt64) (faultType : FaultType) (scope : FaultScope) (pc detail : UInt64) :
    FaultOutcome × FaultScope :=
  match scope with
  | .kernel => (.kernelPanic (.new eventId .kernelInvariantViolation 0 pc detail), .kernel)
  | .user thread =>
    let event := FaultEvent.new eventId faultType thread.id pc detail
    if faultType = .kernelInvariantViolation then (.kernelPanic event, .user thread)
    else
      match thread.transition .faulted with
      | .ok thread' => (.contained event, .user thread')
      | .error _ => (.kernelPanic event, .user thread)

/-! ## Threads and their scheduler -/

/-- Any number of threads, each under its own identifier, and the scheduler that serves them. -/
structure System where
  threads : ThreadId → Option Thread
  scheduler : FixedPriorityScheduler
  id_eq : ∀ {tid thread}, threads tid = some thread → thread.id = tid

/-- What can be done to the threads and their scheduler. -/
inductive Action
  | transition (tid : ThreadId) (target : ThreadState)
  | handleUser (eventId : UInt64) (faultType : FaultType) (tid : ThreadId) (pc detail : UInt64)
  | handleKernel (eventId : UInt64) (faultType : FaultType) (pc detail : UInt64)
  | markReady (tid : ThreadId) (prio : Priority)
  | markNotReady (tid : ThreadId)
  | selectNext
  deriving DecidableEq

/-- A call on a thread needs the thread. -/
structure NoThread where
  tid : ThreadId
  deriving DecidableEq, Repr

namespace System

/-- The state of a thread, if there is one. -/
def stateOf (s : System) (tid : ThreadId) : Option ThreadState := (s.threads tid).map Thread.state

/-- The predicate handed to `select_next`. -/
def isReady (s : System) (tid : ThreadId) : Bool := s.stateOf tid = some .ready

/-- Stores a thread under its identifier. -/
def set (s : System) (thread : Thread) : System where
  threads := Function.update s.threads thread.id (some thread)
  scheduler := s.scheduler
  id_eq := by
    intro tid t h
    by_cases htid : tid = thread.id
    · rw [htid, Function.update_self] at h
      rw [htid, Option.some.inj h]
    · rw [Function.update_of_ne htid] at h
      exact s.id_eq h

/-- A fault in kernel code touches no thread. After a panic the kernel would halt; the run may go on
here, so that what is proved of every run does not rest on it. -/
def step (s : System) : Action → Except NoThread System
  | .transition tid target =>
    match s.threads tid with
    | none => .error ⟨tid⟩
    | some thread =>
      match thread.transition target with
      | .ok thread' => .ok (s.set thread')
      | .error _ => .ok s
  | .handleUser eventId faultType tid pc detail =>
    match s.threads tid with
    | none => .error ⟨tid⟩
    | some thread =>
      match (handle eventId faultType (.user thread) pc detail).2 with
      | .user thread' => .ok (s.set thread')
      | .kernel => .ok s
  | .handleKernel _ _ _ _ => .ok s
  | .markReady tid prio => .ok { s with scheduler := (s.scheduler.markReady tid prio).1 }
  | .markNotReady tid => .ok { s with scheduler := (s.scheduler.markNotReady tid).1 }
  | .selectNext => .ok { s with scheduler := (s.scheduler.selectNext s.isReady).1 }

/-- The thread `select_next` returns in this state, if any. -/
def selected (s : System) : Option ThreadId :=
  (s.scheduler.selectNext s.isReady).2.map Prod.fst

/-- Threads as `Thread::new` makes them, and a new scheduler. -/
def Initial (s : System) : Prop :=
  (∀ tid thread, s.threads tid = some thread → thread = .new tid thread.addressSpace) ∧
    s.scheduler = .new

/-- The action moves the thread from suspended back to ready. -/
def Resumes (s : System) (action : Action) (tid : ThreadId) : Prop :=
  s.stateOf tid = some .suspended ∧ action = .transition tid .ready

end System

/-- Some state up to step `i` had the thread faulted. -/
def FaultedBy {init : System → Prop} (x : Execution System.step init) (tid : ThreadId) (i : ℕ) :
    Prop :=
  ∃ j ≤ i, (x.st j).stateOf tid = some .faulted

/-- From the time a thread is faulted, it is neither selected nor running. -/
def NeverExecutesAgain {init : System → Prop} (x : Execution System.step init) (tid : ThreadId) :
    Prop :=
  ∀ i ≤ x.len, FaultedBy x tid i →
    (x.st i).stateOf tid ≠ some .running ∧
      (i < x.len → x.ev i = .selectNext → (x.st i).selected ≠ some tid)

end AxiomRT.Fault
