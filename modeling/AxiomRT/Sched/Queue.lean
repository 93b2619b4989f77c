import AxiomRT.Lib.Ring
import AxiomRT.Threads.State

/-!
# The ready queue

`kernel/src/sched/priority.rs` and `kernel/src/sched/queue.rs`: one ring of thread ids for each
priority level. Each function returns the queue it leaves behind, also when it fails.
-/

namespace AxiomRT.Sched

open AxiomRT.Threads
open AxiomRT.Lib

/-- Number of priorities. -/
def priorityLevels : ℕ := 8

/-- A validated priority; the higher value is scheduled first. -/
abbrev Priority : Type := Fin priorityLevels

/-- The priority of a level, if there is one. -/
def Priority.new (level : UInt8) : Option Priority :=
  if h : level.toNat < priorityLevels then some ⟨level.toNat, h⟩ else none

/-- Every level of the queue is a priority, so the `expect` in `pop_highest` does not fail. -/
theorem Priority.new_level (p : Priority) : Priority.new (UInt8.ofNat p) = some p := by
  revert p
  decide

/-- Cells of the ring of one level. -/
def queueCapacity : ℕ := 16

instance : NeZero queueCapacity := ⟨by decide⟩

/-- Why a thread is not queued. -/
inductive QueueError
  | full
  | alreadyQueued
  deriving DecidableEq, Repr

/-! ## One ring -/

/-- Fixed-capacity ring of thread ids: the `len` cells from `head` on are in use. -/
structure Fifo where
  slots : Fin queueCapacity → Option ThreadId
  head : Fin queueCapacity
  len : ℕ
  len_le : len ≤ queueCapacity
  occupied : ∀ c ∈ ringWindow slots head len, c.isSome

namespace Fifo

/-- The ring without a thread. -/
def new : Fifo where
  slots := fun _ => none
  head := 0
  len := 0
  len_le := Nat.zero_le _
  occupied := by simp [ringWindow]

/-- The cells in use, the oldest first. -/
def cells (f : Fifo) : List (Option ThreadId) := ringWindow f.slots f.head f.len

@[simp] theorem length_cells (f : Fifo) : f.cells.length = f.len := length_ringWindow ..

/-- Append a thread behind the youngest one. -/
def pushBack (f : Fifo) (tid : ThreadId) : Fifo × Except QueueError Unit :=
  if hfull : f.len = queueCapacity then (f, .error .full)
  else
    have hroom : f.len < queueCapacity := Nat.lt_of_le_of_ne f.len_le hfull
    ({ slots := Function.update f.slots (ringIndex queueCapacity f.head f.len) (some tid)
       head := f.head
       len := f.len + 1
       len_le := hroom
       occupied := by
         rw [ringWindow_push _ _ hroom]
         intro c hc
         rcases List.mem_append.1 hc with hc | hc
         · exact f.occupied c hc
         · rw [List.mem_singleton.1 hc]
           rfl }, .ok ())

/-- Take the oldest thread off. -/
def popFront (f : Fifo) : Fifo × Option ThreadId :=
  if hempty : f.len = 0 then (f, none)
  else
    have hlen : f.len - 1 < queueCapacity := by
      have := f.len_le
      omega
    let tid := f.slots f.head
    ({ slots := Function.update f.slots f.head none
       head := ringIndex queueCapacity f.head 1
       len := f.len - 1
       len_le := Nat.le_of_lt hlen
       occupied := by
         intro c hc
         rw [ringWindow_pop _ _ hlen] at hc
         apply f.occupied
         rw [← Nat.sub_one_add_one hempty, ringWindow_succ]
         exact List.mem_cons_of_mem _ hc }, tid)

/-- The thread is in one of the cells in use. -/
def contains (f : Fifo) (tid : ThreadId) : Bool :=
  (List.range f.len).any fun i => f.slots (ringIndex queueCapacity f.head i) == some tid

/-- One turn of the loop in `remove`: the first cell that holds the thread is left out, every other
one is kept. -/
def keep (tid : ThreadId) (acc : Bool × List (Option ThreadId)) (slot : Option ThreadId) :
    Bool × List (Option ThreadId) :=
  if slot = some tid ∧ acc.1 = false then (true, acc.2) else (acc.1, acc.2 ++ [slot])

/-- The loop of `remove`: `found`, and the first `kept_len` cells of `kept`. -/
def scan (f : Fifo) (tid : ThreadId) : Bool × List (Option ThreadId) :=
  (List.range f.len).foldl
    (fun acc i => keep tid acc (f.slots (ringIndex queueCapacity f.head i))) (false, [])

theorem foldl_keep (tid : ThreadId) (cells : List (Option ThreadId)) (found : Bool)
    (kept : List (Option ThreadId)) :
    cells.foldl (keep tid) (found, kept) =
      if found then (true, kept ++ cells)
      else (decide (some tid ∈ cells), kept ++ cells.erase (some tid)) := by
  induction cells generalizing found kept with
  | nil => cases found <;> simp
  | cons slot cells ih =>
    rw [List.foldl_cons, keep]
    cases found with
    | true => simp [ih]
    | false =>
      by_cases hslot : slot = some tid
      · simp [hslot, ih]
      · simp [hslot, ih, Ne.symm hslot]

/-- The loop of `remove` erases the first occurrence of the thread. -/
theorem scan_eq (f : Fifo) (tid : ThreadId) :
    f.scan tid = (decide (some tid ∈ f.cells), f.cells.erase (some tid)) := by
  have hcells : f.scan tid = f.cells.foldl (keep tid) (false, []) := by
    rw [cells, ringWindow, List.foldl_map]
    rfl
  rw [hcells, foldl_keep]
  simp

theorem length_scan_le (f : Fifo) (tid : ThreadId) : (f.scan tid).2.length ≤ queueCapacity := by
  rw [scan_eq]
  calc (f.cells.erase (some tid)).length ≤ f.cells.length := List.length_erase_le
    _ = f.len := f.length_cells
    _ ≤ queueCapacity := f.len_le

/-- Removes a thread and keeps the order of the others; the ring changes only when it was found. -/
def remove (f : Fifo) (tid : ThreadId) : Fifo × Bool :=
  if (f.scan tid).1 then
    ({ slots := fun i => (f.scan tid).2.getD i none
       head := 0
       len := (f.scan tid).2.length
       len_le := f.length_scan_le tid
       occupied := by
         rw [Fin.val_zero, ringWindow_stored _ (f.length_scan_le tid), scan_eq]
         exact fun c hc => f.occupied c (List.mem_of_mem_erase hc) }, true)
  else (f, false)

end Fifo

/-! ## The queue -/

/-- The ready queues of all the levels. -/
structure ReadyQueue where
  levels : Priority → Fifo

namespace ReadyQueue

/-- All levels are empty. -/
def new : ReadyQueue := ⟨fun _ => .new⟩

/-- `0..PRIORITY_LEVELS`, in the order the scans go up. -/
def ascending : List Priority := List.finRange priorityLevels

/-- `(0..PRIORITY_LEVELS).rev()`. -/
def descending : List Priority := ascending.reverse

/-- Overwrite the ring of one level. -/
def set (q : ReadyQueue) (level : Priority) (f : Fifo) : ReadyQueue :=
  ⟨Function.update q.levels level f⟩

/-- The thread is queued at some level. -/
def contains (q : ReadyQueue) (tid : ThreadId) : Bool :=
  ascending.any fun level => (q.levels level).contains tid

/-- Queue a thread, which must not be queued at any level. -/
def enqueue (q : ReadyQueue) (tid : ThreadId) (prio : Priority) :
    ReadyQueue × Except QueueError Unit :=
  if q.contains tid then (q, .error .alreadyQueued)
  else
    let (f, reply) := (q.levels prio).pushBack tid
    (q.set prio f, reply)

/-- The loop of `pop_highest` over the levels still to be tried. -/
def popFirst (q : ReadyQueue) : List Priority → ReadyQueue × Option (ThreadId × Priority)
  | [] => (q, none)
  | level :: rest =>
    match (q.levels level).popFront with
    | (f, some tid) => (q.set level f, some (tid, level))
    | (f, none) => (q.set level f).popFirst rest

/-- The oldest thread of the highest level that has one. -/
def popHighest (q : ReadyQueue) : ReadyQueue × Option (ThreadId × Priority) := q.popFirst descending

/-- `any` over the levels stops at the first one the thread was removed from. -/
def removeFirst (q : ReadyQueue) (tid : ThreadId) : List Priority → ReadyQueue × Bool
  | [] => (q, false)
  | level :: rest =>
    match (q.levels level).remove tid with
    | (f, true) => (q.set level f, true)
    | (f, false) => (q.set level f).removeFirst tid rest

/-- Take a thread out of the queue, whatever its level. -/
def remove (q : ReadyQueue) (tid : ThreadId) : ReadyQueue × Bool := q.removeFirst tid ascending

end ReadyQueue

end AxiomRT.Sched
