import Mathlib.Data.Finset.Card
import AxiomRT.Dispatch.Proofs.WatchdogProofs
import AxiomRT.Lib.Ring

/-!
# Proofs: round-robin among equals

The scan of `select_highest` starts behind the running task and keeps the first maximum it meets.
While the only syscalls are `sys_yield` and no task is faulted, it therefore takes the runnable
tasks of the highest priority in turn; ticks leave the turn as it is.
-/

namespace AxiomRT.Dispatch

open Lib

variable {img : Image} {table : List ServiceDef} {c c' c₀ : Core}

/-- Ready or running. -/
def Core.Runnable (c : Core) (t : Slot) : Prop :=
  (c.tasks t).state = .ready ∨ (c.tasks t).state = .running

instance (c : Core) (t : Slot) : Decidable (c.Runnable t) := inferInstanceAs (Decidable (_ ∨ _))

/-- The runnable tasks of the running task's priority. -/
def Core.peers (c : Core) : Finset Slot :=
  Finset.univ.filter fun t => c.Runnable t ∧ (c.tasks t).prio = (c.tasks c.current).prio

/-- Step `i` is a `sys_yield`. -/
def Yields (x : Run img) (i : ℕ) : Prop :=
  (x.ev i).trap = .ecall ∧ (entry x i).frame.sys = some .yield

instance (x : Run img) (i : ℕ) : Decidable (Yields x i) := inferInstanceAs (Decidable (_ ∧ _))

/-- From step `a` to step `b` the only syscalls are `sys_yield` and no task is faulted. -/
def OnlyYields (x : Run img) (a b : ℕ) : Prop :=
  ∀ i, a ≤ i → i < b → ((x.ev i).trap = .ecall → Yields x i) ∧
    ∀ t, ((x.st (i + 1)).tasks t).state = .faulted → ((x.st i).tasks t).state = .faulted

/-- The tasks resumed by the `sys_yield` calls from step `j` to step `k`, in order. -/
def resumedTasks (x : Run img) (j k : ℕ) : List Slot :=
  ((List.range' j (k - j)).filter (Yields x)).map fun i => (x.st (i + 1)).current

/-- In a stretch of the run with no syscall but `sys_yield` and no fault, that starts with a running
task of the highest priority: no task but its peers runs, and as many consecutive `sys_yield` calls
as it has peers resume each of them exactly once. -/
def RoundRobin (x : Run img) : Prop :=
  ∀ a b, b ≤ x.len → OnlyYields x a b → TopRuns (x.st a).toCore →
    (∀ i, a ≤ i → i < b → (x.st (i + 1)).current ∈ (x.st a).peers) ∧
    ∀ j k, a ≤ j → j ≤ k → k ≤ b → (resumedTasks x j k).length = (x.st a).peers.card →
      ∀ t, (resumedTasks x j k).count t = if t ∈ (x.st a).peers then 1 else 0

/-! ## The first maximum of the scan -/

namespace Core

/-- A candidate of the highest priority is kept. -/
theorem foldl_selectStep_keep {cur b : Slot} (hle : ∀ t, (c.tasks t).state = .ready →
    (c.tasks t).prio ≤ (c.tasks b).prio) (l : List ℕ) :
    l.foldl (c.selectStep cur) (some b) = some b := by
  induction l with
  | nil => rfl
  | cons s l ih =>
    have hstep : c.selectStep cur (some b) s = some b := by
      simp only [selectStep]
      split_ifs with hr hp
      · rfl
      · exact absurd (hle _ (not_not.1 hr)) (UInt8.not_le.2 hp)
      · rfl
    rw [List.foldl_cons, hstep, ih]

/-- The ready slots of priority `m`. -/
def readyAt (c : Core) (m : UInt8) (t : Slot) : Bool :=
  (c.tasks t).state = .ready ∧ (c.tasks t).prio = m

/-- A slot of the highest priority replaces every lower candidate. -/
theorem selectStep_take {cur : Slot} {s : ℕ} {best : Option Slot}
    (hr : (c.tasks (slotAfter cur s)).state = .ready)
    (hbest : ∀ b ∈ best, (c.tasks b).prio < (c.tasks (slotAfter cur s)).prio) :
    c.selectStep cur best s = some (slotAfter cur s) := by
  cases best with
  | none => simp [selectStep, hr]
  | some b => simp [selectStep, hr, hbest b rfl]

/-- A slot that is not ready or has a lower priority leaves a candidate of a lower priority. -/
theorem selectStep_below {cur : Slot} {s : ℕ} {m : UInt8} {best : Option Slot}
    (hidx : (c.tasks (slotAfter cur s)).state = .ready → (c.tasks (slotAfter cur s)).prio < m)
    (hbest : ∀ b ∈ best, (c.tasks b).prio < m) :
    ∀ b ∈ c.selectStep cur best s, (c.tasks b).prio < m := by
  intro b hb
  simp only [selectStep] at hb
  split_ifs at hb with hr
  · exact hbest b hb
  · have hr' := hidx (not_not.1 hr)
    cases best with
    | none =>
      cases hb
      exact hr'
    | some b₀ =>
      simp only at hb
      split_ifs at hb
      · cases hb
        exact hr'
      · exact hbest b hb

/-- The scan ends with the first ready slot of the highest priority. -/
theorem foldl_selectStep_first {cur : Slot} {m : UInt8}
    (hle : ∀ t, (c.tasks t).state = .ready → (c.tasks t).prio ≤ m) {u : Slot} {us : List Slot}
    (l : List ℕ) : ∀ {best : Option Slot}, (∀ b ∈ best, (c.tasks b).prio < m) →
      (l.map (slotAfter cur)).filter (c.readyAt m) = u :: us →
      l.foldl (c.selectStep cur) best = some u := by
  induction l with
  | nil =>
    intro best _ h
    cases h
  | cons s l ih =>
    intro best hbest h
    rw [List.map_cons, List.filter_cons] at h
    rw [List.foldl_cons]
    by_cases hfirst : c.readyAt m (slotAfter cur s) = true
    · -- The first one replaces every candidate so far and is kept from here on.
      rw [if_pos hfirst, List.cons.injEq] at h
      obtain ⟨hr, hm⟩ := of_decide_eq_true hfirst
      rw [selectStep_take hr (by rw [hm]; exact hbest), h.1,
        foldl_selectStep_keep (by rw [← h.1, hm]; exact hle)]
    · rw [if_neg hfirst] at h
      refine ih (selectStep_below (fun hr => ?_) hbest) h
      exact UInt8.lt_of_le_of_ne (hle _ hr) fun hm => hfirst (decide_eq_true ⟨hr, hm⟩)

/-- `select_highest` takes the first ready slot of the highest priority behind `cur`. -/
theorem selectHighest_first {cur : Slot} {m : UInt8}
    (hle : ∀ t, (c.tasks t).state = .ready → (c.tasks t).prio ≤ m) {u : Slot} {us : List Slot}
    (h : cycle (c.readyAt m) cur = u :: us) : c.selectHighest cur = some u :=
  foldl_selectStep_first hle _ (by simp) h

end Core

/-! ## One step of a stretch -/

/-- `sys_yield` marks its caller ready and resumes the task selected. -/
theorem Move.yield_inv (hm : Move img table c .ecall c') (hsys : c.frame.sys = some .yield) :
    ∃ next, (c.checkIn.saveAs .ready).selectHighest c.current = some next ∧
      c' = (c.checkIn.saveAs .ready).resume next := by
  cases hm with
  | yield sys sel => exact ⟨_, sel, rfl⟩
  | ret tasks current endpoints kmsg routes satp miss mem ipc plain =>
    exact absurd (Or.inl hsys) plain
  | sendBusy req ep => simp [req.sys] at hsys
  | sendDeliver req ep fits => simp [req.sys] at hsys
  | sendTooBig req ep small => simp [req.sys] at hsys
  | sendPark req ep sel => simp [req.sys] at hsys
  | recvIrq req irq fits => simp [req.sys] at hsys
  | recvTake req irq ep fits => simp [req.sys] at hsys
  | recvPark req irq ep fits sel => simp [req.sys] at hsys
  | exit sys sel => simp [sys] at hsys
  | spawn sys ctl entry vacant fresh granted space => simp [sys] at hsys
  | rearm sys ctl entry dead => simp [sys] at hsys
  | restart sys ctl names other used started => simp [sys] at hsys
  | kill sys ctl names other used => simp [sys] at hsys
  | killSelf sys ctl names used sel => simp [sys] at hsys
  | irqDead sys ctl dead => simp [sys] at hsys
  | irqDeliver sys ctl live ep fits => simp [sys] at hsys
  | irqHold sys ctl live ep => simp [sys] at hsys

/-- A trap other than a syscall that faults no task and finds no more urgent ready task leaves the
tasks and the running one as they are. -/
theorem Move.tick_inv {tr : Trap} (hm : Move img table c tr c') (h : Inv c) (htr : tr ≠ .ecall)
    (hfault : ∀ t, (c'.tasks t).state = .faulted → (c.tasks t).state = .faulted)
    (htop : TopRuns c) : c'.tasks = c.tasks ∧ c'.current = c.current := by
  have hnot : (c.tasks c.current).state ≠ .faulted := by simp [htop.1]
  cases hm with
  | tick fine top => exact ⟨rfl, rfl⟩
  | preempt fine sel other outranked =>
    exact absurd (htop.2 _ (Core.selectHighest_ready sel)) (UInt8.not_le.2 outranked)
  | watchdog exp sel => exact absurd (hfault _ (resume_fault h.countMiss sel).2) hnot
  | fault sel => exact absurd (hfault _ (resume_fault h.wf sel).2) hnot
  | _ => exact absurd rfl htr

/-! ## The turn -/

/-- The runnable tasks and the priorities are those of `c₀`, and a peer of its running task runs. -/
structure InTurn (c₀ c : Core) : Prop where
  runnable : ∀ t, c.Runnable t ↔ c₀.Runnable t
  prio : ∀ t, (c.tasks t).prio = (c₀.tasks t).prio
  current : c.current ∈ c₀.peers

theorem Core.mem_peers {t : Slot} :
    t ∈ c.peers ↔ c.Runnable t ∧ (c.tasks t).prio = (c.tasks c.current).prio := by
  simp [Core.peers]

theorem TopRuns.inTurn (h : TopRuns c) : InTurn c c :=
  ⟨fun _ => Iff.rfl, fun _ => rfl, Core.mem_peers.2 ⟨Or.inr h.1, rfl⟩⟩

/-- The running task is the most urgent runnable one. -/
theorem TopRuns.runnable_le (h : TopRuns c) (hinv : Inv c) {t : Slot} (ht : c.Runnable t) :
    (c.tasks t).prio ≤ (c.tasks c.current).prio := by
  rcases ht with ht | ht
  · exact h.2 t ht
  · obtain rfl : c.current = t := Option.some.inj ((hinv.wf.running t).1 ht)
    exact UInt8.le_refl _

theorem InTurn.topRuns (h : InTurn c₀ c) (hinv : Inv c)
    (hmax : ∀ t, c₀.Runnable t → (c₀.tasks t).prio ≤ (c₀.tasks c₀.current).prio) : TopRuns c := by
  refine ⟨(hinv.wf.running _).2 rfl, fun t ht => ?_⟩
  rw [h.prio, h.prio, (Core.mem_peers.1 h.current).2]
  exact hmax t ((h.runnable t).1 (Or.inl ht))

/-- Once the caller of `sys_yield` is marked ready, the ready tasks are the runnable ones. -/
theorem Inv.ready_saveAs (h : Inv c) (t : Slot) :
    ((c.checkIn.saveAs .ready).tasks t).state = .ready ↔ c.Runnable t := by
  by_cases ht : t = c.current
  · subst ht
    have hrun : c.Runnable c.current := Or.inr ((h.wf.running _).2 rfl)
    simp [hrun]
  · have hnot : (c.tasks t).state ≠ .running := fun hr =>
      ht (Option.some.inj ((h.wf.running t).1 hr)).symm
    simp [ht, Core.Runnable, hnot]

theorem Inv.not_running_saveAs (h : Inv c) (t : Slot) :
    ((c.checkIn.saveAs .ready).tasks t).state ≠ .running := by
  intro hr
  by_cases ht : t = c.current
  · subst ht
    simp at hr
  · rw [Core.saveAs_tasks, Core.checkIn_current, Function.update_of_ne ht] at hr
    exact ht (Option.some.inj ((h.wf.running t).1 hr)).symm

theorem prio_saveAs (t : Slot) :
    ((c.checkIn.saveAs .ready).tasks t).prio = (c.tasks t).prio := by
  by_cases ht : t = c.current
  · subst ht
    simp
  · simp [ht]

/-- `sys_yield` resumes the peer that comes up next behind its caller. -/
theorem InTurn.yield {next : Slot} (h : InTurn c₀ c) (hinv : Inv c)
    (hmax : ∀ t, c₀.Runnable t → (c₀.tasks t).prio ≤ (c₀.tasks c₀.current).prio)
    (sel : (c.checkIn.saveAs .ready).selectHighest c.current = some next) :
    ∃ us, cycle (· ∈ c₀.peers) c.current = next :: us := by
  set d := c.checkIn.saveAs .ready with hd
  have hready : ∀ t, (d.tasks t).state = .ready ↔ c₀.Runnable t := fun t =>
    (hinv.ready_saveAs t).trans (h.runnable t)
  have hprio : ∀ t, (d.tasks t).prio = (c₀.tasks t).prio := fun t =>
    (prio_saveAs t).trans (h.prio t)
  have hpeers : d.readyAt (c₀.tasks c₀.current).prio = fun t => decide (t ∈ c₀.peers) := by
    funext t
    rw [Core.readyAt, decide_eq_decide, hready, hprio, Core.mem_peers]
  have hle : ∀ t, (d.tasks t).state = .ready → (d.tasks t).prio ≤ (c₀.tasks c₀.current).prio := by
    intro t ht
    rw [hprio]
    exact hmax t ((hready t).1 ht)
  have hmem : c.current ∈ cycle (· ∈ c₀.peers) c.current := mem_cycle.2 (decide_eq_true h.current)
  obtain ⟨u, us, hcycle⟩ := List.exists_cons_of_ne_nil (List.ne_nil_of_mem hmem)
  rw [← hpeers] at hcycle
  have hfirst := Core.selectHighest_first hle hcycle
  rw [sel, Option.some.injEq] at hfirst
  subst hfirst
  rw [hpeers] at hcycle
  exact ⟨us, hcycle⟩

/-- After `sys_yield` the same tasks are runnable, and the task resumed is a peer. -/
theorem InTurn.resume {next : Slot} (h : InTurn c₀ c) (hinv : Inv c) (hnext : next ∈ c₀.peers) :
    InTurn c₀ ((c.checkIn.saveAs .ready).resume next) := by
  set d := c.checkIn.saveAs .ready with hd
  have hready : ∀ t, (d.tasks t).state = .ready ↔ c₀.Runnable t := fun t =>
    (hinv.ready_saveAs t).trans (h.runnable t)
  refine ⟨fun t => ?_, fun t => ?_, ?_⟩
  · by_cases ht : t = next
    · subst ht
      have hrun : (d.resume t).Runnable t := Or.inr (by simp)
      exact iff_of_true hrun (Core.mem_peers.1 hnext).1
    · have hsame : (d.resume next).Runnable t ↔ d.Runnable t := by
        rw [Core.Runnable, Core.resume_other d ht]
        rfl
      rw [hsame]
      constructor
      · rintro (hr | hr)
        · exact (hready t).1 hr
        · exact absurd hr (hinv.not_running_saveAs t)
      · exact fun hr => Or.inl ((hready t).2 hr)
  · have hsame : ((d.resume next).tasks t).prio = (d.tasks t).prio := by
      by_cases ht : t = next
      · subst ht
        simp
      · rw [Core.resume_other d ht]
    rw [hsame, prio_saveAs, h.prio]
  · rw [Core.resume_current]
    exact hnext

/-! ## Stretches of a run -/

section Stretch

variable {x : Run img} {a b : ℕ}

/-- One step of a stretch: a `sys_yield` passes the CPU to the next peer, any other trap leaves the
CPU where it is. -/
theorem InTurn.step (hb : b ≤ x.len) (hstretch : OnlyYields x a b) (h₀ : TopRuns (x.st a).toCore)
    {i : ℕ} (hai : a ≤ i) (hib : i < b) (h : InTurn (x.st a).toCore (x.st i).toCore) :
    InTurn (x.st a).toCore (x.st (i + 1)).toCore ∧
      (Yields x i → ∃ us, cycle (· ∈ (x.st a).peers) (x.st i).current =
        (x.st (i + 1)).current :: us) ∧
      (¬ Yields x i → (x.st (i + 1)).current = (x.st i).current) := by
  obtain ⟨honly, hfault⟩ := hstretch i hai hib
  have hinv : Inv (entry x i) := (run_inv x i (by omega)).enter (x.ev i)
  have hmax : ∀ t, (x.st a).Runnable t →
      ((x.st a).tasks t).prio ≤ ((x.st a).tasks (x.st a).current).prio := fun t ht =>
    h₀.runnable_le (run_inv x a (by omega)) ht
  have hin : InTurn (x.st a).toCore (entry x i) := ⟨h.runnable, h.prio, h.current⟩
  have hm := step_move (x.step_st i (by omega))
  by_cases hy : Yields x i
  · rw [hy.1] at hm
    obtain ⟨next, sel, hnext⟩ := hm.yield_inv hy.2
    obtain ⟨us, hcycle⟩ := hin.yield hinv hmax sel
    have hpeer : next ∈ (x.st a).peers := by
      have hmem : next ∈ cycle (· ∈ (x.st a).peers) (entry x i).current := by
        rw [hcycle]
        exact List.mem_cons_self
      exact of_decide_eq_true (mem_cycle.1 hmem)
    rw [hnext]
    refine ⟨hin.resume hinv hpeer, fun _ => ⟨us, ?_⟩, fun hn => absurd hy hn⟩
    rw [Core.resume_current]
    exact hcycle
  · have htr : (x.ev i).trap ≠ .ecall := fun htr => hy (honly htr)
    obtain ⟨htasks, hcurrent⟩ := hm.tick_inv hinv htr hfault (hin.topRuns hinv hmax)
    refine ⟨⟨fun t => ?_, fun t => ?_, ?_⟩, fun hn => absurd hn hy, fun _ => hcurrent⟩
    · rw [Core.Runnable, htasks]
      exact hin.runnable t
    · rw [htasks]
      exact hin.prio t
    · rw [hcurrent]
      exact hin.current

theorem inTurn_stretch (hb : b ≤ x.len) (hstretch : OnlyYields x a b)
    (h₀ : TopRuns (x.st a).toCore) {i : ℕ} (hai : a ≤ i) :
    i ≤ b → InTurn (x.st a).toCore (x.st i).toCore := by
  induction i, hai using Nat.le_induction with
  | base => exact fun _ => h₀.inTurn
  | succ i hai ih => exact fun hib => (InTurn.step hb hstretch h₀ hai hib (ih (by omega))).1

theorem resumedTasks_succ (x : Run img) {j k : ℕ} (hjk : j ≤ k) :
    resumedTasks x j (k + 1) =
      resumedTasks x j k ++ if Yields x k then [(x.st (k + 1)).current] else [] := by
  have hrange : List.range' j (k + 1 - j) = List.range' j (k - j) ++ [k] := by
    rw [Nat.succ_sub hjk, List.range'_1_concat, Nat.add_sub_cancel' hjk]
  rw [resumedTasks, hrange, List.filter_append, List.map_append]
  by_cases hy : Yields x k
  · simp [hy, resumedTasks]
  · simp [hy, resumedTasks]

/-- What has been resumed and what then comes up is what came up before and what has been resumed:
the peers run in turn. -/
theorem resumedTasks_cycle (hb : b ≤ x.len) (hstretch : OnlyYields x a b)
    (h₀ : TopRuns (x.st a).toCore) {j : ℕ} (haj : a ≤ j) {k : ℕ} (hjk : j ≤ k) :
    k ≤ b → resumedTasks x j k ++ cycle (· ∈ (x.st a).peers) (x.st k).current =
      cycle (· ∈ (x.st a).peers) (x.st j).current ++ resumedTasks x j k := by
  induction k, hjk using Nat.le_induction with
  | base =>
    intro _
    simp [resumedTasks]
  | succ k hjk ih =>
    intro hkb
    have hturn := inTurn_stretch hb hstretch h₀ (haj.trans hjk) (by omega)
    obtain ⟨-, hyield, hstay⟩ := InTurn.step hb hstretch h₀ (haj.trans hjk) hkb hturn
    rw [resumedTasks_succ x hjk]
    by_cases hy : Yields x k
    · obtain ⟨us, hus⟩ := hyield hy
      rw [if_pos hy, cycle_next hus, ← List.append_assoc (cycle _ _), ← ih (by omega), hus]
      simp
    · rw [if_neg hy, hstay hy, List.append_nil]
      exact ih (by omega)

theorem length_cycle (S : Finset Slot) (t : Slot) : (cycle (· ∈ S) t).length = S.card := by
  have hset : (cycle (· ∈ S) t).toFinset = S := by
    ext u
    rw [List.mem_toFinset, mem_cycle, decide_eq_true_iff]
  rw [← List.toFinset_card_of_nodup (nodup_cycle _ t), hset]

end Stretch

/-- In every run, the most urgent tasks take turns: while they only yield, nobody else runs, and
each of them runs once in every round. -/
theorem run_roundRobin (x : Run img) : RoundRobin x := by
  intro a b hb hstretch h₀
  refine ⟨fun i hai hib => ?_, fun j k haj hjk hkb hlen t => ?_⟩
  · exact (inTurn_stretch hb hstretch h₀ (Nat.le_succ_of_le hai) hib).current
  · have hturns := resumedTasks_cycle hb hstretch h₀ haj hjk hkb
    have hall : resumedTasks x j k = cycle (· ∈ (x.st a).peers) (x.st j).current :=
      (List.append_inj hturns (hlen.trans (length_cycle _ _).symm)).1
    rw [hall, (nodup_cycle _ _).count]
    simp [mem_cycle]

end AxiomRT.Dispatch
