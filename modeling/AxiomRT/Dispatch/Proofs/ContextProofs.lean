import AxiomRT.Dispatch.Proofs.AuthorityProofs
import AxiomRT.Dispatch.Proofs.HistoryProofs

/-!
# Proofs: the context of a task across switches

The saved frame of a task is written by the calls of its peers as well: a rendezvous completes the
call of the task it wakes, and a deferred delivery patches the frame on resume. All of these write
`a0` only, and only for a task that was parked by an IPC call.
-/

namespace AxiomRT.Dispatch

open Lib

variable {img : Image} {table : List ServiceDef} {c c' d : Core}

/-! ## Frames -/

/-- The two frames agree in every register but `a0`, in `sepc` and in `sstatus`. -/
structure TrapFrame.SameButA0 (f g : TrapFrame) : Prop where
  regs : ∀ i, i ≠ 9 → f.regs i = g.regs i
  sepc : f.sepc = g.sepc
  sstatus : f.sstatus = g.sstatus

namespace TrapFrame.SameButA0

theorem refl (f : TrapFrame) : f.SameButA0 f := ⟨fun _ _ => rfl, rfl, rfl⟩

theorem of_eq {f g : TrapFrame} (h : f = g) : f.SameButA0 g := h ▸ refl f

theorem trans {f g h : TrapFrame} (hfg : f.SameButA0 g) (hgh : g.SameButA0 h) : f.SameButA0 h :=
  ⟨fun i hi => (hfg.regs i hi).trans (hgh.regs i hi), hfg.sepc.trans hgh.sepc,
    hfg.sstatus.trans hgh.sstatus⟩

theorem setA0 (f : TrapFrame) (v : Int) : (f.setA0 v).SameButA0 f :=
  ⟨fun _ hi => Function.update_of_ne hi _ _, rfl, rfl⟩

end TrapFrame.SameButA0

/-- The frame of the running task when it leaves the CPU: an `ecall` is not executed again. -/
def Core.leaving (c : Core) : Trap → TrapFrame
  | .ecall => c.advance.frame
  | .timer => c.frame
  | .fault _ => c.frame

/-! ## Leaving the CPU -/

/-- What becomes of the task that was running when the trap came: it goes on, it is dead, or its
frame is saved and it is ready or, by an IPC call, blocked. -/
inductive Leaves (c : Core) (tr : Trap) (c' : Core) : Prop where
  | stays (own : c'.tasks c.current = c.tasks c.current)
      (sys : ¬ (tr = .ecall ∧ c.frame.sys = some .yield))
  | dies (dead : (c'.tasks c.current).state.Dead)
      (sys : ¬ (tr = .ecall ∧ c.frame.sys = some .yield))
  | ready {d : Core} {next : Slot} (resumed : c' = d.resume next)
      (own : d.tasks c.current = { c.tasks c.current with frame := c.leaving tr, state := .ready })
  | blocked {d : Core} {next : Slot} (resumed : c' = d.resume next)
      (own : d.tasks c.current =
        { c.tasks c.current with frame := c.leaving tr, state := .blocked })
      (sys : ¬ (tr = .ecall ∧ c.frame.sys = some .yield))

/-- A dead task is not the one that is resumed. -/
theorem Leaves.of_dead {tr : Trap} {cur next : Slot} (sel : d.selectHighest cur = some next)
    (dead : (d.tasks c.current).state.Dead) (sys : ¬ (tr = .ecall ∧ c.frame.sys = some .yield)) :
    Leaves c tr (d.resume next) := by
  have hne : next ≠ c.current := Core.selectHighest_ne sel (by rcases dead with h | h <;> simp [h])
  refine .dies ?_ sys
  rw [Core.resume_other _ hne.symm]
  exact dead

theorem Move.leaves {tr : Trap} (hm : Move img table c tr c') (h : Inv c) : Leaves c tr c' := by
  have hother : ∀ {s : Sys}, c.frame.sys = some s → s ≠ .yield →
      ¬ (tr = .ecall ∧ c.frame.sys = some .yield) := by
    rintro s hs hne ⟨-, hy⟩
    rw [hs] at hy
    cases hy
    exact hne rfl
  cases hm with
  | ret tasks current endpoints kmsg routes satp miss mem ipc plain copies =>
    exact .stays (by rw [tasks]) fun hy => plain (Or.inl hy.2)
  | sendBusy req ep => exact .stays rfl (hother req.sys (by simp))
  | sendDeliver req ep fits =>
    have hne := h.waiter_ne_current (Core.waiter_of_receiver ep)
    exact .stays (by simp [hne.symm]) (hother req.sys (by simp))
  | sendTooBig req ep small =>
    have hne := h.waiter_ne_current (Core.waiter_of_receiver ep)
    exact .stays (by simp [hne.symm]) (hother req.sys (by simp))
  | sendPark req ep sel => exact .blocked rfl (by simp; rfl) (hother req.sys (by simp))
  | recvIrq req irq fits => exact .stays rfl (hother req.sys (by simp))
  | recvTake req irq ep fits =>
    have hne := h.waiter_ne_current (Core.waiter_of_sender ep)
    exact .stays (by simp [hne.symm]) (hother req.sys (by simp))
  | recvPark req irq ep fits sel => exact .blocked rfl (by simp; rfl) (hother req.sys (by simp))
  | yield sys sel => exact .ready rfl (by simp; rfl)
  | exit sys sel => exact .of_dead sel (Or.inr (by simp)) (hother sys (by simp))
  | @spawn slot b d routes sys ctl entry vacant fresh granted =>
    have hne : slot ≠ c.current := h.ne_current (by simp [vacant])
    exact .stays (by simp [hne.symm]) (hother sys (by simp))
  | @rearm slot d f sys ctl entry dead =>
    have hne : slot ≠ c.current := h.ne_current (by rcases dead with hd | hd <;> simp [hd])
    exact .stays (by simp [hne.symm]) (hother sys (by simp))
  | restart sys ctl names other used started =>
    exact .stays (by simp [other.symm]) (hother sys (by simp))
  | kill sys ctl names other used => exact .stays (by simp [other.symm]) (hother sys (by simp))
  | killSelf sys ctl names used sel => exact .of_dead sel (Or.inr (by simp)) (hother sys (by simp))
  | irqDead sys ctl dead => exact .stays rfl (hother sys (by simp))
  | irqDeliver sys ctl live ep fits =>
    have hne := h.waiter_ne_current (Core.waiter_of_receiver ep)
    exact .stays (by simp [hne.symm]) (hother sys (by simp))
  | irqHold sys ctl live ep => exact .stays rfl (hother sys (by simp))
  | tick fine top => exact .stays rfl (by simp)
  | preempt fine sel other outranked => exact .ready rfl (by simp; rfl)
  | watchdog exp sel =>
    exact .of_dead sel (Or.inl h.countMiss.fault_current) (by simp)
  | fault sel => exact .of_dead sel (Or.inl h.wf.fault_current) (by simp)

/-- `d` is the state between the two tasks: the frame of the running one is saved, and it waits for
the CPU or a rendezvous in state `s`. -/
def SavedAs (c : Core) (tr : Trap) (s : RtState) (c' : Core) : Prop :=
  ∃ (d : Core) (next : Slot), c' = d.resume next ∧
    d.tasks c.current = { c.tasks c.current with frame := c.leaving tr, state := s }

theorem Leaves.of_yield (hl : Leaves c .ecall c') (hs : c.frame.sys = some .yield) :
    SavedAs c .ecall .ready c' := by
  cases hl with
  | stays own sys => exact absurd ⟨rfl, hs⟩ sys
  | dies dead sys => exact absurd ⟨rfl, hs⟩ sys
  | ready resumed own => exact ⟨_, _, resumed, own⟩
  | blocked resumed own sys => exact absurd ⟨rfl, hs⟩ sys

theorem Core.resume_state (c : Core) (next t : Slot) :
    ((c.resume next).tasks t).state = .running ∨
      ((c.resume next).tasks t).state = (c.tasks t).state := by
  by_cases ht : t = next
  · subst ht
    exact Or.inl (by simp)
  · exact Or.inr (by rw [Core.resume_other c ht])

/-- A task that is off the CPU and not dead has its frame saved. -/
theorem Leaves.of_off {tr : Trap} {s : RtState} (hl : Leaves c tr c') (h : Inv c)
    (hoff : (c'.tasks c.current).state = s) (hrun : s ≠ .running) (hdead : ¬ s.Dead) :
    SavedAs c tr s c' := by
  have hcur : (c.tasks c.current).state = .running := (h.wf.running _).mpr rfl
  cases hl with
  | stays own sys =>
    rw [own, hcur] at hoff
    exact absurd hoff.symm hrun
  | dies dead sys => exact absurd (hoff ▸ dead) hdead
  | @ready d next resumed own =>
    rcases Core.resume_state d next c.current with hr | hr
    · rw [← resumed, hoff] at hr
      exact absurd hr hrun
    · rw [← resumed, hoff, own] at hr
      exact ⟨d, next, resumed, hr ▸ own⟩
  | @blocked d next resumed own sys =>
    rcases Core.resume_state d next c.current with hr | hr
    · rw [← resumed, hoff] at hr
      exact absurd hr hrun
    · rw [← resumed, hoff, own] at hr
      exact ⟨d, next, resumed, hr ▸ own⟩

/-! ## Away from the CPU -/

namespace Core

theorem resume_sameButA0 (c : Core) (t : Slot) :
    (c.resume t).frame.SameButA0 (c.tasks t).frame := by
  unfold resume
  cases (c.tasks t).pendingIpc with
  | none => exact .refl _
  | some pm => exact .setA0 _ _

theorem notify_frame (c : Core) (e : EpId) (code : UInt8) (t : Slot) :
    ((c.notify e code).tasks t).frame = (c.tasks t).frame := by
  unfold notify
  cases c.endpoints e with
  | idle => rfl
  | senderWaiting tid len => rfl
  | receiverWaiting tid dst cap =>
    dsimp only
    split_ifs
    · by_cases ht : t = tid
      · subst ht
        simp
      · simp [ht]
    · rfl

theorem fault_frame (c : Core) (t : Slot) : (c.fault.tasks t).frame = (c.tasks t).frame := by
  unfold fault
  rw [notify_frame, notify_frame, irqDrop_tasks, setState_tasks]
  by_cases ht : t = c.current
  · subst ht
    simp
  · simp [ht]

/-- Waking a task for which `f` writes at most `a0`. -/
theorem wake_sameButA0 (c : Core) (e : EpId) (tid t : Slot) {f : Tcb → Tcb}
    (hf : (f (c.tasks tid)).frame.SameButA0 (c.tasks tid).frame) :
    ((c.wake e tid f).tasks t).frame.SameButA0 (c.tasks t).frame := by
  by_cases ht : t = tid
  · subst ht
    simpa using hf
  · simp [ht, TrapFrame.SameButA0.refl]

end Core

/-- A task that is off the CPU and is not made to start over keeps its saved frame up to `a0`. -/
theorem Move.away {tr : Trap} (hm : Move img table c tr c') {t : Slot} (hne : t ≠ c.current)
    (hemp : (c.tasks t).state ≠ .empty) (hkept : ¬ Renews table c tr t) :
    (c'.tasks t).frame.SameButA0 (c.tasks t).frame := by
  have hresume : ∀ (d : Core) (next : Slot), (d.tasks t).frame = (c.tasks t).frame →
      ((d.resume next).tasks t).frame.SameButA0 (c.tasks t).frame := by
    intro d next hd
    refine .of_eq ?_
    rw [← hd, Core.resume_tasks]
    by_cases hn : t = next
    · subst hn
      simp
    · simp [hn]
  cases hm with
  | ret tasks current endpoints kmsg routes satp miss mem ipc plain copies =>
    rw [tasks]
    exact .refl _
  | sendBusy req ep => exact .refl _
  | sendDeliver req ep fits =>
    rw [Core.setA0_tasks]
    exact Core.wake_sameButA0 _ _ _ _ (.refl _)
  | sendTooBig req ep small =>
    rw [Core.setA0_tasks]
    exact Core.wake_sameButA0 _ _ _ _ (.setA0 _ _)
  | sendPark req ep sel => exact hresume _ _ (by simp [hne])
  | recvIrq req irq fits => exact .refl _
  | recvTake req irq ep fits => exact Core.wake_sameButA0 _ _ _ _ (.setA0 _ _)
  | recvPark req irq ep fits sel => exact hresume _ _ (by simp [hne])
  | yield sys sel => exact hresume _ _ (by simp [hne])
  | exit sys sel => exact hresume _ _ (by simp [hne])
  | @spawn slot b d routes sys ctl entry vacant fresh granted =>
    have hslot : t ≠ slot := by
      rintro rfl
      exact hemp vacant
    exact .of_eq (by simp [hslot])
  | @rearm slot d f sys ctl entry dead =>
    have hslot : t ≠ slot := by
      rintro rfl
      exact hkept ⟨rfl, ctl, Or.inl ⟨sys, ⟨d, entry⟩, dead⟩⟩
    exact .of_eq (by simp [hslot])
  | @restart slot f sys ctl names other used started =>
    have hslot : t ≠ slot := by
      rintro rfl
      exact hkept ⟨rfl, ctl, Or.inr ⟨sys, names, other, used, started⟩⟩
    exact .of_eq (by simp [hslot])
  | @kill slot sys ctl names other used =>
    refine .of_eq ?_
    by_cases hslot : t = slot
    · subst hslot
      simp
    · simp [hslot]
  | killSelf sys ctl names used sel => exact hresume _ _ (by simp [hne])
  | irqDead sys ctl dead => exact .refl _
  | irqDeliver sys ctl live ep fits =>
    rw [Core.setA0_tasks]
    exact Core.wake_sameButA0 _ _ _ _ (.refl _)
  | irqHold sys ctl live ep => exact .refl _
  | tick fine top => exact .refl _
  | preempt fine sel other outranked => exact hresume _ _ (by simp [hne])
  | watchdog exp sel => exact hresume _ _ (Core.fault_frame _ t)
  | fault sel => exact hresume _ _ (Core.fault_frame _ t)

/-! ## Runs -/

variable {x : Run img}

/-- At step `a` task `t` loses the CPU and is to continue later: it yields, a timer interrupt
preempts it, or a `sys_send` or `sys_recv` of its own parks it (`blocking`). -/
inductive Descheduled (x : Run img) (a : ℕ) (t : Slot) : (blocking : Bool) → Prop where
  | yield (call : CallAt x a t .yield) : Descheduled x a t false
  | preempt (lt : a < x.len) (running : (x.st a).current = t) (timer : (x.ev a).trap = .timer)
      (off : ((x.st (a + 1)).tasks t).state = .ready) : Descheduled x a t false
  | block {sys : Sys} (ipc : sys = .send ∨ sys = .recv) (call : CallAt x a t sys)
      (off : ((x.st (a + 1)).tasks t).state = .blocked) : Descheduled x a t true

/-- A task that is descheduled and next resumed, without having been made to start over in between,
continues with the frame it left with; only a call that parked it may return its result in `a0`. -/
def ContextPreserved (x : Run img) : Prop :=
  ∀ t a b blocking, Descheduled x a t blocking → EndsAt x t a b →
    (x.st (b + 1)).frame.SameButA0 ((entry x a).leaving (x.ev a).trap) ∧
      (blocking = false → (x.st (b + 1)).frame = (entry x a).leaving (x.ev a).trap)

theorem Descheduled.lt {t : Slot} {a : ℕ} {blocking : Bool} (h : Descheduled x a t blocking) :
    a < x.len := by
  cases h with
  | yield call => exact call.lt
  | preempt lt running timer off => exact lt
  | block ipc call off => exact call.lt

theorem Descheduled.running {t : Slot} {a : ℕ} {blocking : Bool}
    (h : Descheduled x a t blocking) : (entry x a).current = t := by
  cases h with
  | yield call => exact call.caller
  | preempt lt running timer off => exact running
  | block ipc call off => exact call.caller

theorem Descheduled.savedAs {t : Slot} {a : ℕ} {blocking : Bool} (h : Descheduled x a t blocking) :
    SavedAs (entry x a) (x.ev a).trap (if blocking then .blocked else .ready)
      (x.st (a + 1)).toCore := by
  have hinv := run_entry_inv x (Nat.le_of_lt h.lt)
  have hl := (run_move x h.lt).leaves hinv
  have hrun := h.running
  cases h with
  | yield call =>
    rw [call.trap] at hl ⊢
    exact hl.of_yield call.sys
  | preempt lt running timer off =>
    rw [← hrun] at off
    exact hl.of_off hinv off (by simp) (by simp [RtState.Dead])
  | block ipc call off =>
    rw [← hrun] at off
    exact hl.of_off hinv off (by simp) (by simp [RtState.Dead])

/-- What is on record for the task when it has left the CPU, before the next one is resumed. -/
theorem Descheduled.saved {t : Slot} {a : ℕ} {blocking : Bool} (h : Descheduled x a t blocking) :
    ∃ (d : Core) (next : Slot), (x.st (a + 1)).toCore = d.resume next ∧
      (d.tasks t).frame = (entry x a).leaving (x.ev a).trap ∧ (d.tasks t).pendingIpc = none ∧
      (d.tasks t).state = if blocking then .blocked else .ready := by
  have hinv := run_entry_inv x (Nat.le_of_lt h.lt)
  have hrun := h.running
  obtain ⟨d, next, hres, hown⟩ := h.savedAs
  rw [hrun] at hown
  refine ⟨d, next, hres, by rw [hown], ?_, by rw [hown]⟩
  -- a task that has the CPU has no delivery pending
  have hst : ((entry x a).tasks t).state = .running := (hinv.wf.running t).mpr (by rw [hrun])
  rw [hown]
  cases hp : ((entry x a).tasks t).pendingIpc with
  | none => rfl
  | some pm =>
    have hready := (hinv.wf.pending_ready t pm hp).1
    rw [hst] at hready
    cases hready

/-- A task that is away keeps its saved frame up to `a0`. -/
theorem run_away (x : Run img) {t : Slot} {a b : ℕ} (hb : b ≤ x.len)
    (hemp : ((x.st a).tasks t).state ≠ .empty)
    (haway : ∀ m, a ≤ m → m ≤ b → (x.st m).current ≠ t)
    (hkept : ∀ m, a ≤ m → m < b →
      ¬ Renews ((x.st m).serviceTable.getD []) (entry x m) (x.ev m).trap t) :
    ∀ m, a ≤ m → m ≤ b →
      ((x.st m).tasks t).frame.SameButA0 ((x.st a).tasks t).frame ∧
        ((x.st m).tasks t).state ≠ .empty := by
  intro m ham
  induction m, ham using Nat.le_induction with
  | base => intro _; exact ⟨.refl _, hemp⟩
  | succ m ham ih =>
    intro hmb
    have hm : m < x.len := by omega
    obtain ⟨hframe, hused⟩ := ih (by omega)
    have hstep := (run_move x hm).away (haway m ham (by omega)).symm hused (hkept m ham (by omega))
    have hinv := run_inv x m (Nat.le_of_lt hm)
    exact ⟨hstep.trans hframe, (step_caps (x.step_st m hm) hinv hused).2⟩

/-- The task that gets the CPU by a step continues with its saved frame up to `a0`. -/
theorem run_back (x : Run img) {t : Slot} {b : ℕ} (hb : b < x.len) (haway : (x.st b).current ≠ t)
    (hback : (x.st (b + 1)).current = t) :
    (x.st (b + 1)).frame.SameButA0 ((x.st (b + 1)).tasks t).frame := by
  obtain ⟨d, hs⟩ := (run_move x hb).switched (run_entry_inv x (Nat.le_of_lt hb)) haway.symm hback
  rw [hs.resumed, Core.resume_tasks, Function.update_self]
  exact d.resume_sameButA0 t

/-- A task that yields and is picked again at once. -/
theorem Descheduled.at_once {t : Slot} {a : ℕ} {blocking : Bool} (h : Descheduled x a t blocking)
    (hcur : (x.st (a + 1)).current = t) :
    (x.st (a + 1)).frame = (entry x a).leaving (x.ev a).trap := by
  obtain ⟨d, next, hres, hframe, hpending, -⟩ := h.saved
  have hnext : next = t := by
    rw [← hcur, hres, Core.resume_current]
  subst hnext
  rw [hres, Core.resume_frame hpending, hframe]

/-- A task that is away after the step that descheduled it. -/
theorem Descheduled.off {t : Slot} {a : ℕ} {blocking : Bool} (h : Descheduled x a t blocking)
    (hcur : (x.st (a + 1)).current ≠ t) :
    ((x.st (a + 1)).tasks t).frame = (entry x a).leaving (x.ev a).trap ∧
      ((x.st (a + 1)).tasks t).pendingIpc = none ∧
      ((x.st (a + 1)).tasks t).state = if blocking then .blocked else .ready := by
  obtain ⟨d, next, hres, hsaved⟩ := h.saved
  have hne : t ≠ next := by
    rintro rfl
    exact hcur (by rw [hres, Core.resume_current])
  rw [hres, Core.resume_other d hne]
  exact hsaved

/-- In every run, a task that loses the CPU gets it back with the registers it had, except for the
result of a call that made it wait. -/
theorem run_contextPreserved (x : Run img) : ContextPreserved x := by
  intro t a b blocking hd hends
  rcases Nat.eq_or_lt_of_le hends.le with rfl | hab
  · have hlive := hd.at_once hends.back
    exact ⟨.of_eq hlive, fun _ => hlive⟩
  · have haway : ∀ m, a + 1 ≤ m → m ≤ b → (x.st m).current ≠ t :=
      fun m hm hmb => hends.away m (by omega) hmb
    obtain ⟨hframe, hpending, hstate⟩ := hd.off (haway (a + 1) le_rfl hab)
    rw [← hframe]
    constructor
    · have hused : ((x.st (a + 1)).tasks t).state ≠ .empty := by
        rw [hstate]
        cases blocking <;> simp
      obtain ⟨hlast, hused'⟩ := run_away x (Nat.le_of_lt hends.lt) hused haway
        (fun m hm hmb => hends.kept m (by omega) (by omega)) b hab le_rfl
      have hstep := (run_move x hends.lt).away (haway b hab le_rfl).symm hused'
        (hends.kept b hab le_rfl)
      exact (run_back x hends.lt (haway b hab le_rfl) hends.back).trans (hstep.trans hlast)
    · rintro rfl
      obtain ⟨hsame, hready⟩ := hends.settled le_rfl hab (Or.inl hstate)
      obtain ⟨-, d, hd', hres⟩ :=
        run_resumes x hends.lt (by simp [hready]) (haway b hab le_rfl) hends.back
      rw [hres, Core.resume_frame (by rw [hd', hsame, hpending]), hd', hsame]

end AxiomRT.Dispatch
