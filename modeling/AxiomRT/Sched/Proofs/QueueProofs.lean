import Mathlib.Data.List.ReduceOption
import AxiomRT.Sched.FifoLists

/-!
# The ready queue holds lists

What each function of the ready queue does to the lists its rings hold: the thread ids between head
and tail, whatever the wrap-around history was.
-/

namespace AxiomRT.Sched

open AxiomRT.Threads
open AxiomRT.Lib

/-! ## One ring -/

namespace Fifo

/-- The threads in the ring, the oldest first. -/
def toList (f : Fifo) : List ThreadId := f.cells.reduceOption

theorem cells_eq (f : Fifo) : f.cells = f.toList.map some := by
  have h : ∀ l : List (Option ThreadId), (∀ c ∈ l, c.isSome) → l = l.reduceOption.map some := by
    intro l hl
    induction l with
    | nil => rfl
    | cons c l ih =>
      obtain ⟨tid, rfl⟩ := Option.isSome_iff_exists.1 (hl c List.mem_cons_self)
      rw [List.reduceOption_cons_of_some, List.map_cons,
        ← ih fun c' hc' => hl c' (List.mem_cons_of_mem _ hc')]
  exact h f.cells f.occupied

/-- A ring whose cells are these threads holds these threads. -/
theorem toList_of_cells {f : Fifo} {l : List ThreadId} (h : f.cells = l.map some) :
    f.toList = l := by
  rw [cells_eq] at h
  exact List.map_injective_iff.2 (Option.some_injective _) h

theorem length_toList (f : Fifo) : f.toList.length = f.len := by
  rw [← f.length_cells, cells_eq, List.length_map]

theorem mem_cells (f : Fifo) (tid : ThreadId) : some tid ∈ f.cells ↔ tid ∈ f.toList := by
  rw [cells_eq, List.mem_map_of_injective (Option.some_injective _)]

theorem pushBack_full {f : Fifo} (h : f.toList.length = queueCapacity) (tid : ThreadId) :
    f.pushBack tid = (f, .error .full) := by
  rw [length_toList] at h
  rw [pushBack, dif_pos h]

theorem pushBack_ok {f : Fifo} (h : f.toList.length ≠ queueCapacity) (tid : ThreadId) :
    ∃ f', f.pushBack tid = (f', .ok ()) ∧ f'.toList = f.toList ++ [tid] := by
  rw [length_toList] at h
  rw [pushBack, dif_neg h]
  refine ⟨_, rfl, toList_of_cells ?_⟩
  have hroom : f.len < queueCapacity := Nat.lt_of_le_of_ne f.len_le h
  rw [cells, ringWindow_push _ _ hroom, List.map_append, ← cells_eq]
  rfl

theorem popFront_nil {f : Fifo} (h : f.toList = []) : f.popFront = (f, none) := by
  have hlen : f.len = 0 := by
    rw [← length_toList, h]
    rfl
  rw [popFront, dif_pos hlen]

theorem popFront_cons {f : Fifo} {tid : ThreadId} {rest : List ThreadId}
    (h : f.toList = tid :: rest) : ∃ f', f.popFront = (f', some tid) ∧ f'.toList = rest := by
  have hlen : f.len = rest.length + 1 := by
    rw [← length_toList, h]
    rfl
  have hcells : f.cells = f.slots f.head ::
      ringWindow f.slots (ringIndex queueCapacity f.head 1) rest.length := by
    rw [cells, hlen, ringWindow_succ]
  rw [cells_eq, h, List.map_cons, List.cons.injEq] at hcells
  obtain ⟨hfirst, hothers⟩ := hcells
  have hroom : f.len - 1 < queueCapacity := by
    have := f.len_le
    omega
  rw [popFront, dif_neg (by omega)]
  refine ⟨_, Prod.ext rfl hfirst.symm, toList_of_cells ?_⟩
  rw [cells, ringWindow_pop _ _ hroom, hothers, hlen, Nat.add_sub_cancel]

theorem contains_iff (f : Fifo) (tid : ThreadId) : f.contains tid = true ↔ tid ∈ f.toList := by
  have hany : f.contains tid = f.cells.any (· == some tid) := by
    rw [cells, ringWindow, List.any_map]
    rfl
  rw [hany, List.any_beq', List.contains_iff_mem, mem_cells]

theorem remove_of_mem {f : Fifo} {tid : ThreadId} (h : tid ∈ f.toList) :
    ∃ f', f.remove tid = (f', true) ∧ f'.toList = f.toList.erase tid := by
  have hfound : (f.scan tid).1 = true := by
    rw [scan_eq]
    exact decide_eq_true ((f.mem_cells tid).2 h)
  rw [remove, if_pos hfound]
  refine ⟨_, rfl, toList_of_cells ?_⟩
  rw [cells, Fin.val_zero, ringWindow_stored _ (f.length_scan_le tid), scan_eq, cells_eq,
    List.map_erase (Option.some_injective _)]

theorem remove_of_notMem {f : Fifo} {tid : ThreadId} (h : tid ∉ f.toList) :
    f.remove tid = (f, false) := by
  have hfound : ¬ (f.scan tid).1 = true := by
    rw [scan_eq, decide_eq_true_iff, mem_cells]
    exact h
  rw [remove, if_neg hfound]

end Fifo

/-! ## All levels -/

namespace ReadyQueue

/-- The threads of each level. -/
def lists (q : ReadyQueue) (p : Priority) : List ThreadId := (q.levels p).toList

@[simp] theorem lists_set (q : ReadyQueue) (p : Priority) (f : Fifo) :
    (q.set p f).lists = Function.update q.lists p f.toList := by
  funext p'
  by_cases h : p' = p
  · subst h
    simp [lists, set]
  · simp [lists, set, h]

theorem set_self (q : ReadyQueue) (p : Priority) : q.set p (q.levels p) = q := by
  rw [set, Function.update_eq_self]

theorem contains_iff (q : ReadyQueue) (tid : ThreadId) :
    q.contains tid = true ↔ ∃ p, tid ∈ q.lists p := by
  simp [contains, ascending, Fifo.contains_iff, lists]

theorem popFirst_of_empty {q : ReadyQueue} {p : Priority} (h : q.lists p = [])
    (ps : List Priority) : q.popFirst (p :: ps) = q.popFirst ps := by
  have hpop := Fifo.popFront_nil h
  simp only [popFirst, hpop, set_self]

theorem popFirst_of_cons {q : ReadyQueue} {p : Priority} {tid : ThreadId} {rest : List ThreadId}
    (h : q.lists p = tid :: rest) (ps : List Priority) :
    ∃ f, f.toList = rest ∧ q.popFirst (p :: ps) = (q.set p f, some (tid, p)) := by
  obtain ⟨f, hpop, hf⟩ := Fifo.popFront_cons h
  refine ⟨f, hf, ?_⟩
  simp only [popFirst, hpop]

theorem lists_popFirst_of_notMem (q : ReadyQueue) {p : Priority} {ps : List Priority}
    (hp : p ∉ ps) : (q.popFirst ps).1.lists p = q.lists p := by
  induction ps generalizing q with
  | nil => rfl
  | cons p' ps ih =>
    obtain ⟨hne, hps⟩ := not_or.1 (List.mem_cons.not.1 hp)
    cases hlist : q.lists p' with
    | nil =>
      rw [popFirst_of_empty hlist]
      exact ih q hps
    | cons tid rest =>
      obtain ⟨f, -, hpop⟩ := popFirst_of_cons hlist ps
      rw [hpop, lists_set, Function.update_of_ne hne]

/-- The scan of `pop_highest` takes the first entry in the order of service. -/
theorem popFirst_spec (q : ReadyQueue) {ps : List Priority} (hps : ps.Nodup) :
    (q.popFirst ps).2 = (orderOn ps q.lists).head? ∧
      orderOn ps (q.popFirst ps).1.lists = (orderOn ps q.lists).tail := by
  induction ps generalizing q with
  | nil => exact ⟨rfl, rfl⟩
  | cons p ps ih =>
    obtain ⟨hnot, hps⟩ := List.nodup_cons.1 hps
    cases hlist : q.lists p with
    | nil =>
      obtain ⟨hreply, horder⟩ := ih q hps
      rw [popFirst_of_empty hlist, orderOn_cons, orderOn_cons,
        lists_popFirst_of_notMem q hnot, hlist]
      exact ⟨hreply, horder⟩
    | cons tid rest =>
      obtain ⟨f, hf, hpop⟩ := popFirst_of_cons hlist ps
      have hothers : orderOn ps (Function.update q.lists p f.toList) = orderOn ps q.lists := by
        apply orderOn_congr
        intro p' hp'
        rw [Function.update_of_ne]
        rintro rfl
        exact hnot hp'
      rw [hpop, lists_set, orderOn_cons, orderOn_cons, Function.update_self, hothers, hlist, hf]
      exact ⟨rfl, rfl⟩

theorem popHighest_spec (q : ReadyQueue) :
    q.popHighest.2 = (order q.lists).head? ∧
      order q.popHighest.1.lists = (order q.lists).tail :=
  q.popFirst_spec (List.nodup_reverse.2 (List.nodup_finRange _))

theorem popHighest_some {q q' : ReadyQueue} {e : ThreadId × Priority}
    (h : q.popHighest = (q', some e)) :
    ∃ rest, order q.lists = e :: rest ∧ order q'.lists = rest := by
  obtain ⟨hreply, horder⟩ := q.popHighest_spec
  rw [h] at hreply horder
  cases hall : order q.lists with
  | nil =>
    rw [hall] at hreply
    cases hreply
  | cons e' rest =>
    rw [hall] at hreply horder
    cases hreply
    exact ⟨rest, rfl, horder⟩

theorem popHighest_none {q q' : ReadyQueue} (h : q.popHighest = (q', none)) :
    order q.lists = [] ∧ order q'.lists = [] := by
  obtain ⟨hreply, horder⟩ := q.popHighest_spec
  rw [h] at hreply horder
  have hall : order q.lists = [] := List.head?_eq_none_iff.1 hreply.symm
  rw [hall] at horder
  exact ⟨hall, horder⟩

/-- A pop that returns an entry leaves one entry less. -/
theorem length_popHighest_lt {q q' : ReadyQueue} {e : ThreadId × Priority}
    (h : q.popHighest = (q', some e)) : (order q'.lists).length < (order q.lists).length := by
  obtain ⟨rest, hall, hrest⟩ := popHighest_some h
  rw [hall, hrest, List.length_cons]
  exact Nat.lt_succ_self _

/-- Where a thread is in at most one list, the scan of `remove` takes it out of every list it
looks at. -/
theorem removeFirst_spec (q : ReadyQueue) {tid : ThreadId}
    (hunique : ∀ p p', tid ∈ q.lists p → tid ∈ q.lists p' → p = p') (ps : List Priority) :
    ((q.removeFirst tid ps).2 = true ↔ ∃ p ∈ ps, tid ∈ q.lists p) ∧
      ∀ p, (q.removeFirst tid ps).1.lists p =
        if p ∈ ps then (q.lists p).erase tid else q.lists p := by
  induction ps with
  | nil => simp [removeFirst]
  | cons p ps ih =>
    by_cases hmem : tid ∈ q.lists p
    · obtain ⟨f, hremove, hf⟩ := Fifo.remove_of_mem hmem
      have hstep : q.removeFirst tid (p :: ps) = (q.set p f, true) := by
        simp only [removeFirst, hremove]
      rw [hstep, lists_set, hf]
      refine ⟨by simp [hmem], fun p' => ?_⟩
      by_cases hp : p' = p
      · subst hp
        simp [lists]
      · -- The thread is in no other list, so nothing is erased there.
        have hnot : tid ∉ q.lists p' := fun h => hp (hunique p' p h hmem)
        simp [hp, List.erase_of_not_mem hnot]
    · have hstep : q.removeFirst tid (p :: ps) = q.removeFirst tid ps := by
        simp only [removeFirst, Fifo.remove_of_notMem hmem, set_self]
      obtain ⟨hreply, hlists⟩ := ih
      rw [hstep, hreply]
      refine ⟨by simp [hmem], fun p' => ?_⟩
      rw [hlists p']
      by_cases hp : p' = p
      · subst hp
        simp [List.erase_of_not_mem hmem]
      · simp [hp]

theorem remove_spec (q : ReadyQueue) {tid : ThreadId}
    (hunique : ∀ p p', tid ∈ q.lists p → tid ∈ q.lists p' → p = p') :
    ((q.remove tid).2 = true ↔ ∃ p, tid ∈ q.lists p) ∧
      (q.remove tid).1.lists = fun p => (q.lists p).erase tid := by
  obtain ⟨hreply, hlists⟩ := q.removeFirst_spec hunique ascending
  have hall : ∀ p, p ∈ ascending := List.mem_finRange
  refine ⟨?_, funext fun p => ?_⟩
  · rw [remove, hreply]
    simp [hall]
  · rw [remove, hlists p, if_pos (hall p)]

end ReadyQueue

end AxiomRT.Sched
