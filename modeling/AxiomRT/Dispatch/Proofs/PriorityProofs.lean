import AxiomRT.Dispatch.Proofs.InvariantProofs

/-!
# Proofs: priority correctness of the scheduling decisions

Every trap at which the dispatcher decides who runs next leaves a most urgent task on the CPU, and
that task was ready when it was selected.
-/

namespace AxiomRT.Dispatch

open Lib

variable {img : Image} {table : List ServiceDef} {c c' d : Core} {next : Slot}

instance (c : Core) : Decidable c.expired := inferInstanceAs (Decidable (_ < _))

/-- The trap is a scheduling decision: a timer interrupt, a contained fault, `sys_yield`,
`sys_exit`, a self-kill, or a `sys_send` or `sys_recv` that blocked its caller. -/
def Decides (c : Core) (tr : Trap) (c' : Core) : Prop :=
  tr ≠ .ecall ∨ c.frame.sys = some .yield ∨ c.frame.sys = some .exit ∨
    (c.frame.sys = some .taskKill ∧ c.Controls ∧ c.Names c.current) ∨
    ((c.frame.sys = some .send ∨ c.frame.sys = some .recv) ∧
      (c'.tasks c.current).state = .blocked)

/-- The task table `select_highest` reads at a scheduling decision. Preemption selects before it
marks the running task ready; every other path selects after the running task left the CPU. -/
def selectionTable (c : Core) : Trap → Slot → Tcb
  | .fault _ => c.fault.tasks
  | .timer => if c.expired then c.countMiss.fault.tasks else c.tasks
  | .ecall =>
    match c.frame.sys with
    | some .yield => (c.checkIn.saveAs .ready).tasks
    | some .exit => (c.checkIn.setState c.current .killed).tasks
    | some .taskKill => (c.checkIn.kill c.current).tasks
    | _ => (c.checkIn.saveAs .blocked).tasks

/-- No ready task is more urgent than the running one. -/
def TopRuns (c : Core) : Prop :=
  (c.tasks c.current).state = .running ∧
    ∀ t, (c.tasks t).state = .ready → (c.tasks t).prio ≤ (c.tasks c.current).prio

/-- Every scheduling decision of the run leaves a most urgent task running, one that was ready when
it was selected or, on a tick without preemption, the one already running. -/
def PriorityCorrect (x : Run img) : Prop :=
  ∀ i, i < x.len → Decides (entry x i) (x.ev i).trap (x.st (i + 1)).toCore →
    TopRuns (x.st (i + 1)).toCore ∧
      ((selectionTable (entry x i) (x.ev i).trap (x.st (i + 1)).current).state = .ready ∨
        ((x.ev i).trap = .timer ∧ (x.st (i + 1)).current = (x.st i).current ∧
          (x.st (i + 1)).tasks = (x.st i).tasks))

theorem Switch.topRuns (h : Switch c d next c') : TopRuns c' := by
  rw [h.resumed]
  have hself : (d.resume next).tasks next =
      { d.tasks next with state := .running, pendingIpc := none } := by simp
  constructor
  · rw [Core.resume_current, hself]
  · intro t ht
    have hne : t ≠ next := by
      rintro rfl
      rw [hself] at ht
      cases ht
    have hother : (d.resume next).tasks t = d.tasks t := by simp [hne]
    rw [hother] at ht ⊢
    rw [Core.resume_current, hself]
    exact h.top t ht

/-- A tick that leaves the running task on the CPU finds no more urgent ready task. -/
theorem Inv.topRuns_tick (h : Inv c)
    (top : ∀ next, c.selectHighest c.current = some next →
      next = c.current ∨ (c.tasks next).prio ≤ (c.tasks c.current).prio) : TopRuns c := by
  refine ⟨(h.wf.running _).mpr rfl, fun t ht => ?_⟩
  have hsome : ∃ b, c.selectHighest c.current = some b := Core.selectHighest_isSome ht
  obtain ⟨b, hb⟩ := hsome
  have hle := Core.selectHighest_top hb ht
  rcases top b hb with rfl | hb'
  · exact hle
  · exact UInt8.le_trans hle hb'

/-- A syscall that returns to its caller is not a scheduling decision. -/
theorem Inv.not_decides (h : Inv c) (hown : c'.tasks c.current = c.tasks c.current)
    (hg : ¬ c.GivesUp) : ¬ Decides c .ecall c' := by
  have hrun : (c.tasks c.current).state = .running := (h.wf.running _).mpr rfl
  rintro (hd | hd | hd | ⟨hk, hctl, hn⟩ | ⟨-, hb⟩)
  · exact hd rfl
  · exact hg (Or.inl hd)
  · exact hg (Or.inr (Or.inl hd))
  · exact hg (Or.inr (Or.inr ⟨hk, hctl, hn, by simp [hrun]⟩))
  · rw [hown, hrun] at hb
    cases hb

/-- What a scheduling decision leaves behind. -/
def Decided (c : Core) (tr : Trap) (c' : Core) : Prop :=
  TopRuns c' ∧ ((selectionTable c tr c'.current).state = .ready ∨
    (tr = .timer ∧ c'.current = c.current ∧ c'.tasks = c.tasks))

theorem Switch.decided {tr : Trap} (h : Switch c d next c') (ht : selectionTable c tr = d.tasks) :
    Decided c tr c' := by
  refine ⟨h.topRuns, Or.inl ?_⟩
  rw [ht, h.resumed, Core.resume_current]
  exact h.ready

theorem Move.decided {tr : Trap} (hm : Move img table c tr c') (h : Inv c)
    (hdec : Decides c tr c') : Decided c tr c' := by
  have hno : ∀ {c₁ : Core}, Decides c .ecall c₁ → c₁.tasks c.current = c.tasks c.current →
      ¬ c.GivesUp → Decided c .ecall c₁ :=
    fun hd hown hg => absurd hd (h.not_decides hown hg)
  cases hm with
  | ret tasks current endpoints kmsg routes satp miss mem ipc plain =>
    exact hno hdec (by rw [tasks]) plain
  | sendBusy req ep => exact hno hdec rfl (by simp [Core.GivesUp, req.sys])
  | sendDeliver req ep fits =>
    have hne := (h.waiter_ne_current (Core.waiter_of_receiver ep)).symm
    exact hno hdec (by simp [hne]) (by simp [Core.GivesUp, req.sys])
  | sendTooBig req ep small =>
    have hne := (h.waiter_ne_current (Core.waiter_of_receiver ep)).symm
    exact hno hdec (by simp [hne]) (by simp [Core.GivesUp, req.sys])
  | sendPark req ep sel =>
    refine (Switch.of_own (c := c) (h.parked_sender req.len_le) (Core.park_tasks ..) sel).decided ?_
    simp only [selectionTable, req.sys]
    rfl
  | recvIrq req irq fits => exact hno hdec rfl (by simp [Core.GivesUp, req.sys])
  | recvTake req irq ep fits =>
    have hne := (h.waiter_ne_current (Core.waiter_of_sender ep)).symm
    exact hno hdec (by simp [hne]) (by simp [Core.GivesUp, req.sys])
  | recvPark req irq ep fits sel =>
    exact (Switch.of_own (c := c) (h.parked_receiver fits.2) (Core.park_tasks ..) sel).decided
      (by simp [selectionTable, req.sys])
  | yield sys sel =>
    exact (Switch.of_own (c := c) (h.checkIn.saveAs (by simp)) (Core.saveAs_tasks ..) sel).decided
      (by simp [selectionTable, sys])
  | exit sys sel =>
    exact (Switch.of_own (c := c) (h.checkIn.retire (by simp)) (Core.setState_tasks ..) sel).decided
      (by simp [selectionTable, sys])
  | @spawn slot b d routes sys ctl entry vacant fresh =>
    have hne : c.current ≠ slot := (h.ne_current (by simp [vacant])).symm
    exact hno hdec (by simp [hne]) (by simp [Core.GivesUp, sys])
  | @rearm slot d f sys ctl entry dead =>
    have hne : c.current ≠ slot :=
      (h.ne_current (by rcases dead with hd | hd <;> simp [hd])).symm
    exact hno hdec (by simp [hne]) (by simp [Core.GivesUp, sys])
  | restart sys ctl names other used started =>
    exact hno hdec (by simp [other.symm]) (by simp [Core.GivesUp, sys])
  | kill sys ctl names other used =>
    refine hno hdec (by simp [other.symm]) ?_
    rintro (hg | hg | ⟨-, -, hn, -⟩)
    · simp [sys] at hg
    · simp [sys] at hg
    · exact other (Fin.ext (names.symm.trans hn))
  | killSelf sys ctl names used sel =>
    exact (Switch.of_own (c := c) h.killed_self (Core.kill_tasks ..) sel).decided
      (by simp [selectionTable, sys])
  | irqDead sys ctl dead => exact hno hdec rfl (by simp [Core.GivesUp, sys])
  | irqDeliver sys ctl live ep fits =>
    have hne := (h.waiter_ne_current (Core.waiter_of_receiver ep)).symm
    exact hno hdec (by simp [hne]) (by simp [Core.GivesUp, sys])
  | irqHold sys ctl live ep => exact hno hdec rfl (by simp [Core.GivesUp, sys])
  | tick fine top => exact ⟨h.topRuns_tick top, Or.inr ⟨rfl, rfl, rfl⟩⟩
  | preempt fine sel other outranked =>
    refine ⟨(h.switch_preempt sel other outranked).topRuns, Or.inl ?_⟩
    rw [Core.resume_current]
    simp only [selectionTable, fine, if_false]
    exact Core.selectHighest_ready sel
  | watchdog exp sel =>
    exact (Switch.of_select (c := c) h.countMiss.fault
      (fun t hne hb => h.countMiss.fault_tasks hb hne) sel).decided (by simp [selectionTable, exp])
  | fault sel =>
    exact (Switch.of_select (c := c) h.wf.fault
      (fun t hne hb => h.wf.fault_tasks hb hne) sel).decided rfl

/-- Every scheduling decision of every run leaves a most urgent task running. -/
theorem run_priorityCorrect (x : Run img) : PriorityCorrect x := by
  intro i hi hdec
  have hinv := run_inv x i (Nat.le_of_lt hi)
  exact (step_move (x.step_st i hi)).decided (hinv.enter (x.ev i)) hdec

end AxiomRT.Dispatch
