import AxiomRT.Lib.Execution
import AxiomRT.Sched.Proofs.QueueProofs

/-!
# The fixed-priority scheduler

`kernel/src/sched/mod.rs`, and sequences of calls on one scheduler.
-/

namespace AxiomRT.Sched

open AxiomRT.Threads
open AxiomRT.Lib

/-- The scheduler: the queue of the threads that may run. -/
structure FixedPriorityScheduler where
  ready : ReadyQueue

/-- A call on the scheduler. -/
inductive Call
  | markReady (tid : ThreadId) (prio : Priority)
  | markNotReady (tid : ThreadId)
  | selectNext (isReady : ThreadId → Bool)

/-- What a call returns. -/
inductive Reply
  | marked (result : Except QueueError Unit)
  | removed (present : Bool)
  | selected (next : Option (ThreadId × Priority))

namespace FixedPriorityScheduler

/-- The scheduler without a thread. -/
def new : FixedPriorityScheduler := ⟨.new⟩

/-- Queue a thread that can run. -/
def markReady (s : FixedPriorityScheduler) (tid : ThreadId) (prio : Priority) :
    FixedPriorityScheduler × Except QueueError Unit :=
  let (ready, reply) := s.ready.enqueue tid prio
  (⟨ready⟩, reply)

/-- Forget a thread that cannot run. -/
def markNotReady (s : FixedPriorityScheduler) (tid : ThreadId) : FixedPriorityScheduler × Bool :=
  let (ready, present) := s.ready.remove tid
  (⟨ready⟩, present)

/-- Entries that fail `isReady` are dropped, not returned. -/
def selectNext (s : FixedPriorityScheduler) (isReady : ThreadId → Bool) :
    FixedPriorityScheduler × Option (ThreadId × Priority) :=
  match _hpop : s.ready.popHighest with
  | (ready, some (tid, prio)) =>
    if isReady tid then (⟨ready⟩, some (tid, prio)) else selectNext ⟨ready⟩ isReady
  | (ready, none) => (⟨ready⟩, none)
termination_by (order s.ready.lists).length
decreasing_by exact ReadyQueue.length_popHighest_lt ‹_›

/-- The scheduler after a call, and what it returned. -/
def step (s : FixedPriorityScheduler) : Call → FixedPriorityScheduler × Reply
  | .markReady tid prio => (s.markReady tid prio).map id .marked
  | .markNotReady tid => (s.markNotReady tid).map id .removed
  | .selectNext isReady => (s.selectNext isReady).map id .selected

end FixedPriorityScheduler

/-- The same calls on the abstract scheduler. -/
def FifoLists.step (l : FifoLists ThreadId priorityLevels) :
    Call → FifoLists ThreadId priorityLevels × Reply
  | .markReady tid prio => (l.markReady queueCapacity tid prio).map id .marked
  | .markNotReady tid => (l.markNotReady tid).map id .removed
  | .selectNext isReady => (l.selectNext isReady).map id .selected

end AxiomRT.Sched
