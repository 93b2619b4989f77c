import AxiomRT.Dispatch.Proofs.InvariantProofs

/-!
# Proofs: life cycle of a task

A wake-up writes `ready` without looking at the state it overwrites. That a dead task stays dead
rests on the invariant: no endpoint names a task that is not blocked.
-/

namespace AxiomRT.Dispatch

open Lib

variable {img : Image} {table : List ServiceDef} {c c' : Core}

/-! ## Tasks off the CPU -/

/-- The trap is a `sys_task_start` of the service in slot `t`, or a `sys_task_restart` of `t`, by a
holder of the control capability. -/
def Revives (table : List ServiceDef) (c : Core) (tr : Trap) (t : Slot) : Prop :=
  tr = .ecall ∧ c.Controls ∧
    ((c.frame.sys = some .taskStart ∧ ∃ d, table[c.frame.arg 0]? = some d ∧ d.slot = t.val) ∨
      (c.frame.sys = some .taskRestart ∧ c.Names t))

/-- The block `b` is that of a service of the table which starts in slot `t` for the first time. -/
def FreshStart (img : Image) (table : List ServiceDef) (t : Slot) (b : Tcb) : Prop :=
  ∃ d ∈ table, d.slot = t.val ∧ (b.state = .ready ∧ b.pendingIpc = none ∧ b.caps = d.caps) ∧
    ∃ uas, img.buildServiceAddressSpace d.slot d.entry d.stackPhys = some uas ∧
      b.satpRoot = uas.root

/-- A task that is neither running nor blocked, and does not get the CPU, keeps its control block
unless it is killed or made to start over, which both drop what was pending for it, or its slot is
filled. -/
theorem Move.settled {tr : Trap} (hm : Move img table c tr c') (h : Inv c) {t : Slot}
    (hblk : (c.tasks t).state ≠ .blocked) (hne : t ≠ c.current) (hoff : t ≠ c'.current) :
    c'.tasks t = c.tasks t ∨
      ((c'.tasks t).state = .killed ∧ (c'.tasks t).pendingIpc = none ∧
        (c.tasks t).state ≠ .empty ∧ Kills c tr t) ∨
      ((c'.tasks t).state = .ready ∧ (c'.tasks t).pendingIpc = none ∧ Renews table c tr t) ∨
      ((c.tasks t).state = .empty ∧ FreshStart img table t (c'.tasks t) ∧
        c'.tasks = Function.update c.tasks t (c'.tasks t)) := by
  have hswitch : ∀ {d : Core} {next : Slot}, t ≠ (d.resume next).current →
      d.tasks t = c.tasks t → (d.resume next).tasks t = c.tasks t := by
    intro d next hnext hd
    rw [Core.resume_current] at hnext
    rw [Core.resume_tasks, Function.update_of_ne hnext, hd]
  cases hm with
  | ret tasks current endpoints kmsg routes satp miss mem ipc plain => exact Or.inl (by rw [tasks])
  | sendBusy req ep => exact Or.inl rfl
  | sendDeliver req ep fits =>
    have htid := h.wf.ne_waiter (Core.waiter_of_receiver ep) hblk
    exact Or.inl (by simp [htid])
  | sendTooBig req ep small =>
    have htid := h.wf.ne_waiter (Core.waiter_of_receiver ep) hblk
    exact Or.inl (by simp [htid])
  | sendPark req ep sel => exact Or.inl (hswitch hoff (by simp [hne]))
  | recvIrq req irq fits => exact Or.inl rfl
  | recvTake req irq ep fits =>
    have htid := h.wf.ne_waiter (Core.waiter_of_sender ep) hblk
    exact Or.inl (by simp [htid])
  | recvPark req irq ep fits sel => exact Or.inl (hswitch hoff (by simp [hne]))
  | yield sys sel => exact Or.inl (hswitch hoff (by simp [hne]))
  | exit sys sel => exact Or.inl (hswitch hoff (by simp [hne]))
  | @spawn slot b d routes sys ctl entry vacant fresh granted space =>
    by_cases hslot : t = slot
    · subst hslot
      have hb : ({ c.checkIn.setTask t b with routes := routes }.setA0 t.val).tasks t = b := by simp
      rw [hb]
      exact Or.inr (Or.inr (Or.inr ⟨vacant,
        ⟨d, List.mem_of_getElem? entry.1, entry.2, fresh, space⟩, rfl⟩))
    · exact Or.inl (by simp [hslot])
  | @rearm slot d f sys ctl entry dead =>
    by_cases hslot : t = slot
    · subst hslot
      exact Or.inr (Or.inr (Or.inl
        ⟨by simp, by simp, rfl, ctl, Or.inl ⟨sys, ⟨d, entry⟩, dead⟩⟩))
    · exact Or.inl (by simp [hslot])
  | @restart slot f sys ctl names other used started =>
    by_cases hslot : t = slot
    · subst hslot
      exact Or.inr (Or.inr (Or.inl
        ⟨by simp, by simp, rfl, ctl, Or.inr ⟨sys, names, other, used, started⟩⟩))
    · exact Or.inl (by simp [hslot])
  | @kill slot sys ctl names other used =>
    by_cases hslot : t = slot
    · subst hslot
      exact Or.inr (Or.inl ⟨by simp, by simp, used, rfl, sys, ctl, names⟩)
    · exact Or.inl (by simp [hslot])
  | killSelf sys ctl names used sel => exact Or.inl (hswitch hoff (by simp [hne]))
  | irqDead sys ctl dead => exact Or.inl rfl
  | irqDeliver sys ctl live ep fits =>
    have htid := h.wf.ne_waiter (Core.waiter_of_receiver ep) hblk
    exact Or.inl (by simp [htid])
  | irqHold sys ctl live ep => exact Or.inl rfl
  | tick fine top => exact Or.inl rfl
  | preempt fine sel other outranked => exact Or.inl (hswitch hoff (by simp [hne]))
  | watchdog exp sel =>
    exact Or.inl (hswitch hoff (h.countMiss.fault_tasks hblk hne))
  | fault sel => exact Or.inl (hswitch hoff (h.wf.fault_tasks hblk hne))

/-- A task that gets the CPU was selected for it, and unless it was blocked it keeps its control
block up to there. -/
theorem Move.switched {tr : Trap} (hm : Move img table c tr c') (h : Inv c) {t : Slot}
    (hne : t ≠ c.current) (hon : c'.current = t) : ∃ d, Switch c d t c' := by
  rcases hm.stay_or_switch h with hs | ⟨d, next, hs⟩
  · exact absurd (hon.symm.trans hs.current) hne
  · have hnext : next = t := by
      rw [← hon, hs.resumed, Core.resume_current]
    exact ⟨d, hnext ▸ hs⟩

/-- A task that is neither ready nor blocked nor running does not get the CPU. -/
theorem Move.off {tr : Trap} (hm : Move img table c tr c') (h : Inv c) {t : Slot}
    (hne : t ≠ c.current) (hblk : (c.tasks t).state ≠ .blocked)
    (hready : (c.tasks t).state ≠ .ready) : t ≠ c'.current := by
  intro hon
  obtain ⟨d, hs⟩ := hm.switched h hne hon.symm
  have hd := hs.ready
  rw [hs.kept t hne hblk] at hd
  exact hready hd

/-! ## Slots -/

/-- What a task keeps for its whole life: everything but its state, its saved frame and the delivery
pending for it. -/
structure Tcb.SameTask (b b' : Tcb) : Prop where
  prio : b'.prio = b.prio
  satpRoot : b'.satpRoot = b.satpRoot
  caps : b'.caps = b.caps
  name : b'.name = b.name
  entryVa : b'.entryVa = b.entryVa
  stackTopVa : b'.stackTopVa = b.stackTopVa

theorem Tcb.SameTask.refl (b : Tcb) : b.SameTask b := ⟨rfl, rfl, rfl, rfl, rfl, rfl⟩

/-- The slots in use hold the same tasks. -/
structure SameTasks (c c' : Core) : Prop where
  kept : ∀ t, (c.tasks t).state ≠ .empty →
    (c.tasks t).SameTask (c'.tasks t) ∧ (c'.tasks t).state ≠ .empty

namespace SameTasks

variable {d : Core}

theorem of_tasks (ht : c'.tasks = c.tasks) : SameTasks c c' := by
  refine ⟨fun t hused => ?_⟩
  rw [ht]
  exact ⟨.refl _, hused⟩

/-- Writing to one slot a block of the same task. -/
theorem update (h : SameTasks c d) {u : Slot} {b : Tcb}
    (ht : c'.tasks = Function.update d.tasks u b) (hb : (d.tasks u).SameTask b)
    (hstate : b.state ≠ .empty) : SameTasks c c' := by
  refine ⟨fun t hused => ?_⟩
  obtain ⟨hs, hused'⟩ := h.kept t hused
  rw [ht]
  by_cases htu : t = u
  · subst htu
    rw [Function.update_self]
    exact ⟨⟨hb.prio.trans hs.prio, hb.satpRoot.trans hs.satpRoot, hb.caps.trans hs.caps,
      hb.name.trans hs.name, hb.entryVa.trans hs.entryVa, hb.stackTopVa.trans hs.stackTopVa⟩,
      hstate⟩
  · rw [Function.update_of_ne htu]
    exact ⟨hs, hused'⟩

theorem setA0 (h : SameTasks c d) {v : Int} : SameTasks c (d.setA0 v) := ⟨h.kept⟩

theorem setState (h : SameTasks c d) {u : Slot} {s : RtState} (hs : s ≠ .empty) :
    SameTasks c (d.setState u s) :=
  h.update (Core.setState_tasks d u s) ⟨rfl, rfl, rfl, rfl, rfl, rfl⟩ hs

theorem saveAs (h : SameTasks c d) {s : RtState} (hs : s ≠ .empty) :
    SameTasks c (d.saveAs s) :=
  h.update (Core.saveAs_tasks d s) ⟨rfl, rfl, rfl, rfl, rfl, rfl⟩ hs

theorem park (h : SameTasks c d) {e : EpId} {w : Ep} : SameTasks c (d.park e w) :=
  h.update (Core.park_tasks d e w) ⟨rfl, rfl, rfl, rfl, rfl, rfl⟩ (by simp)

theorem wake (h : SameTasks c d) {e : EpId} {u : Slot} {f : Tcb → Tcb}
    (hf : (d.tasks u).SameTask (f (d.tasks u))) : SameTasks c (d.wake e u f) :=
  h.update (Core.wake_tasks d e u f)
    ⟨hf.prio, hf.satpRoot, hf.caps, hf.name, hf.entryVa, hf.stackTopVa⟩ (by simp)

theorem rearm (h : SameTasks c d) {u : Slot} {f : TrapFrame} : SameTasks c (d.rearm u f) :=
  h.update (Core.rearm_tasks d u f) ⟨rfl, rfl, rfl, rfl, rfl, rfl⟩ (by simp)

theorem kill (h : SameTasks c d) {u : Slot} : SameTasks c (d.kill u) :=
  h.update (Core.kill_tasks d u) ⟨rfl, rfl, rfl, rfl, rfl, rfl⟩ (by simp)

theorem resume (h : SameTasks c d) {next : Slot} : SameTasks c (d.resume next) :=
  h.update (Core.resume_tasks d next) ⟨rfl, rfl, rfl, rfl, rfl, rfl⟩ (by simp)

theorem notify (h : SameTasks c d) {e : EpId} {code : UInt8} :
    SameTasks c (d.notify e code) := by
  unfold Core.notify
  cases d.endpoints e with
  | idle => exact h
  | senderWaiting tid len => exact h
  | receiverWaiting tid dst cap =>
    dsimp only
    split_ifs
    · exact h.wake ⟨rfl, rfl, rfl, rfl, rfl, rfl⟩
    · exact ⟨h.kept⟩

theorem fault (h : SameTasks c d) : SameTasks c d.fault := by
  have hdrop : SameTasks c ((d.setState d.current .faulted).irqDrop d.current) :=
    ⟨(h.setState (by simp)).kept⟩
  exact hdrop.notify.notify

end SameTasks

/-- No move changes who a slot in use belongs to, or empties it. -/
theorem Move.sameTasks {tr : Trap} (hm : Move img table c tr c') : SameTasks c c' := by
  have hin : SameTasks c c.checkIn := .of_tasks (by simp)
  have hcopy : ∀ buf len, SameTasks c (c.checkIn.copyFromUser buf len) :=
    fun buf len => .of_tasks (by simp)
  cases hm with
  | ret tasks current endpoints kmsg routes satp miss mem ipc plain => exact .of_tasks tasks
  | sendBusy req ep => exact .of_tasks (by simp)
  | sendDeliver req ep fits => exact .setA0 ((hcopy _ _).wake ⟨rfl, rfl, rfl, rfl, rfl, rfl⟩)
  | sendTooBig req ep small => exact .setA0 ((hcopy _ _).wake ⟨rfl, rfl, rfl, rfl, rfl, rfl⟩)
  | sendPark req ep sel => exact (hcopy _ _).park.resume
  | recvIrq req irq fits => exact .of_tasks (by simp)
  | @recvTake e dst cap tid len req irq ep fits =>
    have hout : SameTasks c
        ((c.checkIn.copyBytesToUser dst (bytesOf c.kmsg len)).setA0 len) := .of_tasks (by simp)
    exact hout.wake ⟨rfl, rfl, rfl, rfl, rfl, rfl⟩
  | recvPark req irq ep fits sel => exact hin.park.resume
  | yield sys sel => exact (hin.saveAs (by simp)).resume
  | exit sys sel => exact (hin.setState (by simp)).resume
  | @spawn slot b d routes sys ctl entry vacant fresh granted space =>
    refine ⟨fun t hused => ?_⟩
    have hslot : t ≠ slot := by
      rintro rfl
      exact hused vacant
    have hkept : ({ c.checkIn.setTask slot b with routes := routes }.setA0 slot.val).tasks t =
        c.tasks t := by simp [hslot]
    rw [hkept]
    exact ⟨.refl _, hused⟩
  | rearm sys ctl entry dead => exact hin.rearm.setA0
  | restart sys ctl names other used started => exact hin.rearm.setA0
  | kill sys ctl names other used => exact hin.kill.setA0
  | killSelf sys ctl names used sel => exact hin.kill.resume
  | irqDead sys ctl dead => exact .of_tasks (by simp)
  | irqDeliver sys ctl live ep fits => exact .setA0 (hin.wake ⟨rfl, rfl, rfl, rfl, rfl, rfl⟩)
  | irqHold sys ctl live ep => exact .of_tasks (by simp)
  | tick fine top => exact .of_tasks (by simp)
  | preempt fine sel other outranked =>
    exact .resume (.saveAs (.of_tasks rfl) (by simp))
  | watchdog exp sel =>
    have hmiss : SameTasks c c.countMiss := .of_tasks rfl
    exact hmiss.fault.resume
  | fault sel =>
    have hself : SameTasks c c := .of_tasks rfl
    exact hself.fault.resume

/-- A slot that is not in use stays so, unless a service starts in it. -/
theorem Move.vacant {tr : Trap} (hm : Move img table c tr c') (h : Inv c) {t : Slot}
    (hv : (c.tasks t).state = .empty) : c'.tasks t = c.tasks t ∨
      (FreshStart img table t (c'.tasks t) ∧
        c'.tasks = Function.update c.tasks t (c'.tasks t)) := by
  have hne : t ≠ c.current := h.ne_current (by simp [hv])
  have hblk : (c.tasks t).state ≠ .blocked := by simp [hv]
  rcases hm.settled h hblk hne (hm.off h hne hblk (by simp [hv])) with
    hsame | ⟨-, -, hused, -⟩ | ⟨-, -, -, -, ⟨-, -, hdead⟩ | ⟨-, -, -, hused, -⟩⟩ | ⟨-, hfresh⟩
  · exact Or.inl hsame
  · exact absurd hv hused
  · rw [hv] at hdead
    rcases hdead with hd | hd <;> cases hd
  · exact absurd hv hused
  · exact Or.inr hfresh

/-! ## New lives -/

theorem Begins.trap {tr : Trap} {t : Slot} (h : Begins table c tr t) : tr = .ecall := by
  rcases h with h | h
  · exact h.1
  · exact h.1

theorem Begins.sys {tr : Trap} {t : Slot} (h : Begins table c tr t) :
    c.frame.sys = some .taskStart ∨ c.frame.sys = some .taskRestart := by
  rcases h with ⟨-, -, hs, -⟩ | ⟨-, -, ⟨hs, -⟩ | ⟨hs, -⟩⟩
  · exact Or.inl hs
  · exact Or.inl hs
  · exact Or.inr hs

theorem Begins.named_start {tr : Trap} {t slot : Slot} {d : ServiceDef}
    (h : Begins table c tr t) (hs : c.frame.sys = some .taskStart)
    (hd : table[c.frame.arg 0]? = some d ∧ d.slot = slot.val) : t = slot := by
  have hnames : ∃ d', table[c.frame.arg 0]? = some d' ∧ d'.slot = t.val := by
    rcases h with ⟨-, -, -, hd', -⟩ | ⟨-, -, ⟨-, hd', -⟩ | ⟨hs', -⟩⟩
    · exact hd'
    · exact hd'
    · rw [hs] at hs'
      cases hs'
  obtain ⟨d', hget, hslot⟩ := hnames
  rw [hd.1] at hget
  cases hget
  exact Fin.ext (hslot.symm.trans hd.2)

theorem Begins.named_restart {tr : Trap} {t slot : Slot} (h : Begins table c tr t)
    (hs : c.frame.sys = some .taskRestart) (hn : c.Names slot) : t = slot := by
  rcases h with ⟨-, -, hs', -⟩ | ⟨-, -, ⟨hs', -⟩ | ⟨-, hn', -⟩⟩
  · rw [hs] at hs'
    cases hs'
  · rw [hs] at hs'
    cases hs'
  · exact Fin.ext (hn'.symm.trans hn)

/-- A task whose life begins is ready, with nothing pending for it. -/
theorem Move.begins {tr : Trap} (hm : Move img table c tr c') {t : Slot}
    (hb : Begins table c tr t) :
    (c'.tasks t).state = .ready ∧ (c'.tasks t).pendingIpc = none := by
  have htr := hb.trap
  have hsys := hb.sys
  cases hm with
  | ret tasks current endpoints kmsg routes satp miss mem ipc plain copies lives =>
    exact absurd hb (lives.begins t)
  | sendBusy req ep => simp [req.sys] at hsys
  | sendDeliver req ep fits => simp [req.sys] at hsys
  | sendTooBig req ep small => simp [req.sys] at hsys
  | sendPark req ep sel => simp [req.sys] at hsys
  | recvIrq req irq fits => simp [req.sys] at hsys
  | recvTake req irq ep fits => simp [req.sys] at hsys
  | recvPark req irq ep fits sel => simp [req.sys] at hsys
  | yield sys sel => simp [sys] at hsys
  | exit sys sel => simp [sys] at hsys
  | spawn sys ctl entry vacant fresh =>
    obtain rfl := hb.named_start sys entry
    have hself : ∀ b : Tcb, Function.update c.tasks t b t = b := fun b => Function.update_self ..
    simp only [Core.setA0_tasks, Core.setTask_tasks, Core.checkIn_tasks, hself]
    exact ⟨fresh.1, fresh.2.1⟩
  | rearm sys ctl entry dead =>
    obtain rfl := hb.named_start sys entry
    simp
  | restart sys ctl names other used started =>
    obtain rfl := hb.named_restart sys names
    simp
  | kill sys ctl names other used => simp [sys] at hsys
  | killSelf sys ctl names used sel => simp [sys] at hsys
  | irqDead sys ctl dead => simp [sys] at hsys
  | irqDeliver sys ctl live ep fits => simp [sys] at hsys
  | irqHold sys ctl live ep => simp [sys] at hsys
  | tick fine top => cases htr
  | preempt fine sel other outranked => cases htr
  | watchdog exp sel => cases htr
  | fault sel => cases htr

/-! ## Dead tasks -/

theorem Renews.revives {tr : Trap} {t : Slot} (h : Renews table c tr t) : Revives table c tr t := by
  obtain ⟨htr, hctl, ⟨hsys, hentry, -⟩ | ⟨hsys, hn, -⟩⟩ := h
  · exact ⟨htr, hctl, Or.inl ⟨hsys, hentry⟩⟩
  · exact ⟨htr, hctl, Or.inr ⟨hsys, hn⟩⟩

/-- What a move does to a dead task. -/
theorem Move.dead {tr : Trap} (hm : Move img table c tr c') (h : Inv c) {t : Slot}
    (hd : (c.tasks t).state.Dead) :
    c'.tasks t = c.tasks t ∨
      ((c'.tasks t).state = .killed ∧ Kills c tr t) ∨
      ((c'.tasks t).state = .ready ∧ Revives table c tr t) := by
  have hblk : (c.tasks t).state ≠ .blocked := by
    rcases hd with hd | hd <;> simp [hd]
  have hne : t ≠ c.current := h.ne_current (by rcases hd with hd | hd <;> simp [hd])
  have hoff := hm.off h hne hblk (by rcases hd with hd | hd <;> simp [hd])
  rcases hm.settled h hblk hne hoff with
    hsame | ⟨hk, -, -, hkills⟩ | ⟨hr, -, hrenews⟩ | ⟨hv, -⟩
  · exact Or.inl hsame
  · exact Or.inr (Or.inl ⟨hk, hkills⟩)
  · exact Or.inr (Or.inr ⟨hr, hrenews.revives⟩)
  · rw [hv] at hd
    rcases hd with hd | hd <;> cases hd

/-- In every run, a task that is faulted or killed keeps its state over a step unless the step is a
kill, a start or a restart of that very task by a holder of the control capability; a kill leaves it
killed, a start or a restart leaves it ready. -/
def DeadStayDead (x : Run img) : Prop :=
  ∀ i, i < x.len → ∀ t, ((x.st i).tasks t).state.Dead →
    ((x.st (i + 1)).tasks t).state = ((x.st i).tasks t).state ∨
    (((x.st (i + 1)).tasks t).state = .killed ∧ Kills (entry x i) (x.ev i).trap t) ∨
    (((x.st (i + 1)).tasks t).state = .ready ∧
      Revives ((x.st i).serviceTable.getD []) (entry x i) (x.ev i).trap t)

/-- In every run, a task that is faulted or killed comes back only when a holder of the control
capability starts or restarts it. -/
theorem run_deadStayDead (x : Run img) : DeadStayDead x := by
  intro i hi t hd
  have hinv := run_inv x i (Nat.le_of_lt hi)
  rcases (step_move (x.step_st i hi)).dead (hinv.enter (x.ev i)) hd with h | h | h
  · exact Or.inl (by rw [h]; rfl)
  · exact Or.inr (Or.inl h)
  · exact Or.inr (Or.inr h)

end AxiomRT.Dispatch
