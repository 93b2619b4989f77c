import AxiomRT.Sched.Scheduler

/-!
# The scheduler is eight FIFO lists

The rings of the scheduler behave as the lists they hold: every sequence of calls gets the answers
of the abstract scheduler and leaves its lists.
-/

namespace AxiomRT.Sched

open AxiomRT.Threads
open AxiomRT.Lib

namespace FixedPriorityScheduler

/-- The rings hold the lists. -/
def Holds (s : FixedPriorityScheduler) (l : FifoLists ThreadId priorityLevels) : Prop :=
  s.ready.lists = l.queue

theorem holds_new : new.Holds FifoLists.empty := rfl

theorem markReady_holds {s : FixedPriorityScheduler} {l : FifoLists ThreadId priorityLevels}
    (h : s.Holds l) (tid : ThreadId) (prio : Priority) :
    (s.markReady tid prio).2 = (l.markReady queueCapacity tid prio).2 ∧
      (s.markReady tid prio).1.Holds (l.markReady queueCapacity tid prio).1 := by
  have hcontains : s.ready.contains tid = true ↔ l.Queued tid := by
    rw [ReadyQueue.contains_iff, h]
    rfl
  rw [markReady, ReadyQueue.enqueue, FifoLists.markReady]
  by_cases hqueued : l.Queued tid
  · rw [if_pos (hcontains.2 hqueued), dif_pos hqueued]
    exact ⟨rfl, h⟩
  · rw [if_neg (hcontains.not.2 hqueued), dif_neg hqueued]
    have hlist : (s.ready.levels prio).toList = l.queue prio := congrFun h prio
    by_cases hfull : (l.queue prio).length = queueCapacity
    · rw [if_pos hfull, Fifo.pushBack_full (hlist ▸ hfull)]
      refine ⟨rfl, ?_⟩
      show (s.ready.set prio (s.ready.levels prio)).lists = l.queue
      rw [ReadyQueue.set_self, h]
    · obtain ⟨f, hpush, hf⟩ := Fifo.pushBack_ok (hlist ▸ hfull) tid
      rw [if_neg hfull, hpush]
      refine ⟨rfl, ?_⟩
      show (s.ready.set prio f).lists = Function.update l.queue prio (l.queue prio ++ [tid])
      rw [ReadyQueue.lists_set, hf, hlist, h]

theorem markNotReady_holds {s : FixedPriorityScheduler} {l : FifoLists ThreadId priorityLevels}
    (h : s.Holds l) (tid : ThreadId) :
    (s.markNotReady tid).2 = (l.markNotReady tid).2 ∧
      (s.markNotReady tid).1.Holds (l.markNotReady tid).1 := by
  have hunique : ∀ p p', tid ∈ s.ready.lists p → tid ∈ s.ready.lists p' → p = p' := by
    rw [h]
    exact fun p p' => l.unique p p' tid
  obtain ⟨hreply, hlists⟩ := s.ready.remove_spec hunique
  rw [h] at hreply hlists
  refine ⟨?_, hlists⟩
  show (s.ready.remove tid).2 = decide (l.Queued tid)
  rw [Bool.eq_iff_iff, decide_eq_true_iff]
  exact hreply

/-- The discard loop returns the first entry in the order of service that is ready, and leaves what
stands behind it. -/
theorem selectNext_spec (s : FixedPriorityScheduler) (isReady : ThreadId → Bool) :
    (s.selectNext isReady).2 = (order s.ready.lists).find? (fun e => isReady e.1) ∧
      order (s.selectNext isReady).1.ready.lists =
        FifoLists.after isReady (order s.ready.lists) := by
  fun_induction selectNext s isReady with
  | case1 s ready tid prio hpop hready =>
    obtain ⟨rest, hall, hrest⟩ := ReadyQueue.popHighest_some hpop
    rw [hall, hrest]
    simp [FifoLists.after, hready]
  | case2 s ready tid prio hpop hready ih =>
    obtain ⟨rest, hall, hrest⟩ := ReadyQueue.popHighest_some hpop
    rw [hrest] at ih
    rw [hall]
    simpa [FifoLists.after, hready] using ih
  | case3 s ready hpop =>
    obtain ⟨hall, hrest⟩ := ReadyQueue.popHighest_none hpop
    rw [hall, hrest]
    exact ⟨rfl, rfl⟩

theorem selectNext_holds {s : FixedPriorityScheduler} {l : FifoLists ThreadId priorityLevels}
    (h : s.Holds l) (isReady : ThreadId → Bool) :
    (s.selectNext isReady).2 = (l.selectNext isReady).2 ∧
      (s.selectNext isReady).1.Holds (l.selectNext isReady).1 := by
  obtain ⟨hreply, horder⟩ := s.selectNext_spec isReady
  rw [h] at hreply horder
  refine ⟨hreply, funext fun p => ?_⟩
  show (s.selectNext isReady).1.ready.lists p = level (FifoLists.after isReady (order l.queue)) p
  rw [← horder, level_order]

/-- One call: the same answer, and the rings still hold the lists. -/
theorem step_holds (s : FixedPriorityScheduler) (l : FifoLists ThreadId priorityLevels) (c : Call)
    (h : s.Holds l) : (s.step c).2 = (l.step c).2 ∧ (s.step c).1.Holds (l.step c).1 := by
  cases c with
  | markReady tid prio =>
    obtain ⟨hreply, hholds⟩ := markReady_holds h tid prio
    exact ⟨congrArg Reply.marked hreply, hholds⟩
  | markNotReady tid =>
    obtain ⟨hreply, hholds⟩ := markNotReady_holds h tid
    exact ⟨congrArg Reply.removed hreply, hholds⟩
  | selectNext isReady =>
    obtain ⟨hreply, hholds⟩ := selectNext_holds h isReady
    exact ⟨congrArg Reply.selected hreply, hholds⟩

/-- Whatever is called on a new scheduler, it answers as eight FIFO lists in which a thread occurs
at most once overall, and its rings hold those lists. -/
theorem runCalls_fifoLists (calls : List Call) :
    (runCalls step new calls).2 = (runCalls FifoLists.step .empty calls).2 ∧
      (runCalls step new calls).1.ready.lists = (runCalls FifoLists.step .empty calls).1.queue :=
  runCalls_refines step_holds calls holds_new

end FixedPriorityScheduler

end AxiomRT.Sched
