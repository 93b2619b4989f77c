import AxiomRT.Dispatch.Proofs.EvidenceProofs
import AxiomRT.Dispatch.Proofs.LifecycleProofs

/-!
# Proofs: authority over endpoints

A task's capability table is fixed when its slot is first filled, and every step that touches an
endpoint is backed by a capability of the boot table, is a fault notification, or retires the task
that was waiting there.
-/

namespace AxiomRT.Dispatch

open Lib

variable {img : Image} {table : List ServiceDef} {c c' d : Core} {run : Option Slot}

/-! ## Capability tables -/

/-- The capability table boot minted for `init_service`. -/
def initCaps : CapTable := Function.update noCaps 0 (some capControl)

/-- The table boot assigns to task `t`: that of its service-table entry, or the single boot
capability of `init_service`. -/
def BootCaps (img : Image) (t : Slot) (caps : CapTable) : Prop :=
  (t = 0 ∧ caps = initCaps) ∨ ∃ d ∈ serviceTable img, d.slot = t.val ∧ caps = d.caps

/-- Boot assigned task `t` a capability of this type for object `id` with the `required` rights. -/
def Entitled (img : Image) (t : Slot) (otype : OType) (id : Nat) (required : UInt16) : Prop :=
  ∃ caps, BootCaps img t caps ∧ caps.holds otype id required = true

theorem CapTable.holds_of {caps : CapTable} {j : Fin capsPerTask} {cap : Cap} {required : UInt16}
    (hcap : caps j = some cap) (hgr : cap.grants required = true) :
    caps.holds cap.otype cap.objectId required = true := by
  simp only [CapTable.holds, List.any_eq_true]
  exact ⟨j, List.mem_finRange j, by simp [hcap, hgr]⟩

/-- A capability that resolves stands in the table, at its index. -/
theorem capCheck_cap {cur : Slot} {idx id : Nat} {required : UInt16}
    (h : c.capCheck cur idx required = .ok id) : ∃ (hidx : idx < capsPerTask) (cap : Cap),
      (c.tasks cur).caps ⟨idx, hidx⟩ = some cap ∧ cap.otype = .endpoint ∧ cap.objectId = id ∧
        cap.grants required = true := by
  simp only [Core.capCheck] at h
  split_ifs at h with hidx
  cases hcap : (c.tasks cur).caps ⟨idx, hidx⟩ with
  | none => simp [hcap] at h
  | some cap =>
    simp only [hcap] at h
    split_ifs at h with hty hgr
    cases h
    exact ⟨hidx, cap, hcap, not_not.mp hty, rfl, by simpa using hgr⟩

/-- A successful endpoint lookup is backed by a capability. -/
theorem capCheck_holds {cur : Slot} {idx id : Nat} {required : UInt16}
    (h : c.capCheck cur idx required = .ok id) :
    (c.tasks cur).caps.holds .endpoint id required = true := by
  obtain ⟨hidx, cap, hcap, hty, rfl, hgr⟩ := capCheck_cap h
  rw [← hty]
  exact CapTable.holds_of hcap hgr

/-- A successful device lookup is backed by a capability. -/
theorem deviceCapCheck_holds {cur : Slot} {idx id : Nat} {required : UInt16}
    (h : c.deviceCapCheck cur idx required = .ok id) :
    (c.tasks cur).caps.holds .device id required = true := by
  simp only [Core.deviceCapCheck] at h
  split_ifs at h with hidx
  cases hcap : (c.tasks cur).caps ⟨idx, hidx⟩ with
  | none => simp [hcap] at h
  | some cap =>
    simp only [hcap] at h
    split_ifs at h with hty hid hgr
    cases h
    rw [← not_not.mp hty]
    exact CapTable.holds_of hcap (by simpa using hgr)

theorem capFind_holds {cur : Slot} {otype : OType} {required : UInt16}
    (h : c.capFind cur otype required = true) :
    ∃ id, (c.tasks cur).caps.holds otype id required = true := by
  simp only [Core.capFind, List.any_eq_true] at h
  obtain ⟨j, -, hj⟩ := h
  cases hcap : (c.tasks cur).caps j with
  | none => simp [hcap] at hj
  | some cap =>
    simp only [hcap, Bool.and_eq_true, beq_iff_eq] at hj
    refine ⟨cap.objectId, ?_⟩
    rw [← hj.1]
    exact CapTable.holds_of hcap hj.2

/-! ## Slots keep their tables -/

/-- Every slot keeps its capability table, and no slot is filled or emptied. -/
def KeepsCaps (c c' : Core) : Prop :=
  ∀ t, (c'.tasks t).caps = (c.tasks t).caps ∧
    ((c'.tasks t).state = .empty ↔ (c.tasks t).state = .empty)

/-- A move keeps every capability table, except that it may fill an empty slot with the table of a
service-table entry. -/
theorem Move.keepsCaps {tr : Trap} (hm : Move img table c tr c') (h : Inv c) :
    KeepsCaps c c' ∨ ∃ slot b, ∃ d ∈ table, d.slot = slot.val ∧ (c.tasks slot).state = .empty ∧
      b.caps = d.caps ∧ c'.tasks = Function.update c.tasks slot b := by
  by_cases hfill : ∃ t, (c.tasks t).state = .empty ∧ c'.tasks t ≠ c.tasks t
  · obtain ⟨t, hv, hne⟩ := hfill
    rcases hm.vacant h hv with hsame | ⟨⟨d, hd, hslot, hfresh, -⟩, htasks⟩
    · exact absurd hsame hne
    · exact Or.inr ⟨t, _, d, hd, hslot, hv, hfresh.2.2, htasks⟩
  · refine Or.inl fun t => ?_
    by_cases hv : (c.tasks t).state = .empty
    · have hsame : c'.tasks t = c.tasks t := by
        by_contra hne
        exact hfill ⟨t, hv, hne⟩
      rw [hsame]
      exact ⟨rfl, Iff.rfl⟩
    · obtain ⟨hs, hused⟩ := hm.sameTasks.kept t hv
      exact ⟨hs.caps, iff_of_false hused hv⟩

/-! ## The OS boot flow -/

/-- The installed table is that of the OS boot flow, and every used slot has the capability table
boot assigns to it. -/
structure OsInv (img : Image) (k : Kernel) : Prop where
  inv : Inv k.toCore
  table : k.serviceTable = some (serviceTable img)
  caps : ∀ t, (k.tasks t).state ≠ .empty → BootCaps img t (k.tasks t).caps

/-- The OS boot flow registers `init_service` only. -/
theorem OsBooted.vacant {k : Kernel} (h : OsBooted img k) {t : Slot} (h0 : t ≠ 0) :
    (k.tasks t).state = .empty := by
  obtain ⟨sstatus, uas, -, rfl⟩ := h
  simp [bootWith, osBootOps, Kernel.start, Kernel.bootOp, Kernel.setCap, Kernel.registerTask,
    Kernel.core, Kernel.puts, Core.setState, Core.modTask, Core.setTask, initial, emptyTcb, h0]

theorem OsBooted.osInv {k : Kernel} (h : OsBooted img k) : OsInv img k := by
  refine ⟨h.booted.started.inv, ?_, ?_⟩
  · obtain ⟨sstatus, uas, -, rfl⟩ := h
    rfl
  · intro t ht
    by_cases h0 : t = 0
    · subst h0
      obtain ⟨sstatus, uas, -, rfl⟩ := h
      exact Or.inl ⟨rfl, rfl⟩
    · exact absurd (h.vacant h0) ht

/-- What a step does to the capability tables. -/
theorem step_osInv {k k' : Kernel} {ev : Event} (hs : step img k ev = .ok k') (h : OsInv img k) :
    OsInv img k' := by
  refine ⟨step_inv hs h.inv, (step_serviceTable hs).trans h.table, ?_⟩
  intro t ht
  have hm := step_move hs
  rw [h.table, Option.getD_some] at hm
  rcases hm.keepsCaps (h.inv.enter ev) with hk | ⟨slot, b, d, hd, hslot, hvac, hb, htasks⟩
  · rw [(hk t).1]
    exact h.caps t fun he => ht ((hk t).2.mpr he)
  · rw [htasks]
    by_cases hts : t = slot
    · subst hts
      rw [Function.update_self, hb]
      exact Or.inr ⟨d, hd, hslot, rfl⟩
    · rw [htasks, Function.update_of_ne hts] at ht
      rw [Function.update_of_ne hts]
      exact h.caps t ht

/-- A slot in use keeps its capability table over a step and stays in use. -/
theorem step_caps {k k' : Kernel} {ev : Event} (hs : step img k ev = .ok k') (h : Inv k.toCore)
    {t : Slot} (ht : (k.tasks t).state ≠ .empty) :
    (k'.tasks t).caps = (k.tasks t).caps ∧ (k'.tasks t).state ≠ .empty := by
  rcases (step_move hs).keepsCaps (h.enter ev) with hk | ⟨slot, b, d, hd, hslot, hvac, hb, htasks⟩
  · exact ⟨(hk t).1, fun he => ht ((hk t).2.mp he)⟩
  · have hts : t ≠ slot := by
      rintro rfl
      exact ht hvac
    rw [htasks, Function.update_of_ne hts]
    exact ⟨rfl, ht⟩

/-! ## Endpoints are touched with a cause -/

/-- Endpoint `e` is left alone: its record stays, and whoever is recorded stays blocked. -/
def Untouched (c c' : Core) (e : EpId) : Prop :=
  c'.endpoints e = c.endpoints e ∧
    ∀ t, (c.endpoints e).waiter = some t → (c'.tasks t).state = .blocked

namespace Untouched

variable {e e₀ : EpId}

theorem of_tasks (h : WellFormed run c) (ht : c'.tasks = c.tasks)
    (he : c'.endpoints e = c.endpoints e) : Untouched c c' e := by
  refine ⟨he, fun t hw => ?_⟩
  rw [ht]
  exact h.waiter_blocked e t hw

theorem trans (h₁ : Untouched c d e) (h₂ : Untouched d c' e) : Untouched c c' e := by
  refine ⟨h₂.1.trans h₁.1, fun t hw => h₂.2 t ?_⟩
  rw [h₁.1]
  exact hw

theorem setA0 (h : Untouched c c' e) (v : Int) : Untouched c (c'.setA0 v) e := h

/-- Overwrite the block of a task that is not recorded on `e`. -/
theorem update (h : WellFormed run c) {t : Slot} {b : Tcb}
    (ht : c'.tasks = Function.update c.tasks t b)
    (he : c'.endpoints e = c.endpoints e) (hw : (c.endpoints e).waiter ≠ some t) :
    Untouched c c' e := by
  refine ⟨he, fun u hu => ?_⟩
  have hne : u ≠ t := by
    rintro rfl
    exact hw hu
  rw [ht, Function.update_of_ne hne]
  exact h.waiter_blocked e u hu

theorem wake (h : WellFormed run c) {t : Slot} {f : Tcb → Tcb} (hne : e ≠ e₀)
    (hw : (c.endpoints e₀).waiter = some t) : Untouched c (c.wake e₀ t f) e := by
  refine update h (Core.wake_tasks c e₀ t f) (Function.update_of_ne hne ..) ?_
  intro hw'
  exact hne (h.waiter_once e e₀ t hw' hw)

theorem park (h : WellFormed (some c.current) c) {w : Ep} (hne : e ≠ e₀) :
    Untouched c (c.park e₀ w) e := by
  have hrun : (c.tasks c.current).state = .running := (h.running _).mpr rfl
  exact update h (Core.park_tasks c e₀ w) (Function.update_of_ne hne ..)
    (h.not_waiting (by simp [hrun]) e)

theorem resume (h : WellFormed run c) {next : Slot} (hr : (c.tasks next).state = .ready) :
    Untouched c (c.resume next) e :=
  update h (Core.resume_tasks c next) (congrFun (Core.resume_endpoints c next) e)
    (h.not_waiting (by simp [hr]) e)

/-- Clear the records of a task that is not recorded on `e`, and overwrite its block. -/
theorem clear (h : WellFormed run c) {slot : Slot} {b : Tcb}
    (ht : c'.tasks = Function.update c.tasks slot b)
    (he : c'.endpoints = (c.epClearForTask slot).endpoints)
    (hw : (c.endpoints e).waiter ≠ some slot) : Untouched c c' e := by
  refine update h ht ?_ hw
  rw [he]
  rcases c.epClearForTask_cases slot e with hsame | ⟨hw', -⟩
  · exact hsame
  · exact absurd hw' hw

theorem notify (h : WellFormed run c) {code : UInt8} (hne : e ≠ e₀) :
    Untouched c (c.notify e₀ code) e := by
  simp only [Core.notify]
  cases hep : c.endpoints e₀ with
  | idle => exact of_tasks h rfl rfl
  | senderWaiting tid len => exact of_tasks h rfl rfl
  | receiverWaiting tid dst cap =>
    simp only
    split_ifs
    · exact wake h hne (Core.waiter_of_receiver hep)
    · exact of_tasks h rfl (Function.update_of_ne hne ..)

theorem fault (h : WellFormed (some c.current) c) (h₂ : e ≠ Kernel.epFault)
    (h₃ : e ≠ Kernel.epEvent) : Untouched c c.fault e := by
  have hrun : (c.tasks c.current).state = .running := (h.running _).mpr rfl
  have hwf : WellFormed none ((c.setState c.current .faulted).irqDrop c.current) :=
    (h.retire (s := .faulted) (by simp)).congr rfl rfl
  have hset : Untouched c ((c.setState c.current .faulted).irqDrop c.current) e :=
    update h (Core.setState_tasks c c.current .faulted) rfl (h.not_waiting (by simp [hrun]) e)
  exact (hset.trans (notify hwf h₂)).trans (notify (hwf.notify _ _) h₃)

end Untouched

/-- Why a trap may touch endpoint `e`: the running task resolved a capability for it, a fault is
reported on it, or a controller retires or revives the task that waits on it. -/
inductive Cause (img : Image) (table : List ServiceDef) (c : Core) (tr : Trap) (e : EpId) :
    Prop where
  | send {buf len : Nat} (ecall : tr = .ecall) (req : SendReq img c e buf len)
  | recv {dst cap : Nat} (ecall : tr = .ecall) (req : RecvReq c e dst cap)
  | notice (faults : (tr = .timer ∧ c.expired) ∨ ∃ reason, tr = .fault reason)
      (channel : e = Kernel.epFault ∨ e = Kernel.epEvent)
  | irq {dev : DevId} (ecall : tr = .ecall) (sys : c.frame.sys = some .irqRaise)
      (ctl : c.deviceCapCheck c.current (c.frame.arg 0) devRightDriverControl = .ok dev.val)
      (route : (devices dev).irqEndpoint = e)
  | control {t : Slot} (waits : (c.endpoints e).waiter = some t) (ctl : c.Controls)
      (acts : Kills c tr t ∨ Revives table c tr t)

/-- A fault is reported on the fault and event channels only. -/
theorem untouched_or_notice {tr : Trap} {next : Slot} (h : WellFormed (some c.current) c) (e : EpId)
    (faults : (tr = .timer ∧ c'.expired) ∨ ∃ reason, tr = .fault reason)
    (hr : (c.fault.tasks next).state = .ready) :
    Untouched c (c.fault.resume next) e ∨ Cause img table c' tr e := by
  by_cases h₂ : e = Kernel.epFault
  · exact Or.inr (.notice faults (Or.inl h₂))
  · by_cases h₃ : e = Kernel.epEvent
    · exact Or.inr (.notice faults (Or.inr h₃))
    · exact Or.inl ((Untouched.fault h h₂ h₃).trans (.resume h.fault hr))

/-- A move leaves an endpoint alone or has a cause to touch it. -/
theorem Move.cause {tr : Trap} (hm : Move img table c tr c') (h : Inv c) (e : EpId) :
    Untouched c c' e ∨ Cause img table c tr e := by
  have hrun : (c.tasks c.current).state = .running := (h.wf.running _).mpr rfl
  have hidle : ∀ next, (c.tasks next).state = .running → (c.endpoints e).waiter ≠ some next :=
    fun next hn => h.wf.not_waiting (by simp [hn]) e
  have hin : Untouched c c.checkIn e := .of_tasks h.wf (by simp) (by simp)
  have hcopy : ∀ buf len, Untouched c (c.checkIn.copyFromUser buf len) e :=
    fun buf len => .of_tasks h.wf (by simp) (by simp)
  cases hm with
  | ret tasks current endpoints kmsg routes satp miss mem ipc plain =>
    exact Or.inl (.of_tasks h.wf tasks (congrFun endpoints e))
  | sendBusy req ep => exact Or.inl (.of_tasks h.wf (by simp) (by simp))
  | @sendDeliver e₀ buf len tid dst cap req ep fits =>
    by_cases he : e = e₀
    · exact Or.inr (.send rfl (he ▸ req))
    · refine Or.inl (Untouched.setA0 ?_ _)
      exact (hcopy buf len).trans (.wake (h.copied buf len) he (Core.waiter_of_receiver ep))
  | @sendTooBig e₀ buf len tid dst cap req ep small =>
    by_cases he : e = e₀
    · exact Or.inr (.send rfl (he ▸ req))
    · refine Or.inl (Untouched.setA0 ?_ _)
      exact (hcopy buf len).trans (.wake (h.copied buf len) he (Core.waiter_of_receiver ep))
  | @sendPark e₀ buf len next req ep sel =>
    by_cases he : e = e₀
    · exact Or.inr (.send rfl (he ▸ req))
    · have hpark : Untouched c
          ((c.checkIn.copyFromUser buf len).park e₀ (.senderWaiting c.current len)) e :=
        (hcopy buf len).trans (.park (h.copied buf len) he)
      exact Or.inl (hpark.trans
        (.resume (h.parked_sender req.len_le) (Core.selectHighest_ready sel)))
  | recvIrq req irq fits => exact Or.inl (.of_tasks h.wf (by simp) (by simp))
  | @recvTake e₀ dst cap tid len req irq ep fits =>
    by_cases he : e = e₀
    · exact Or.inr (.recv rfl (he ▸ req))
    · have hout : WellFormed (some c.current)
          ((c.checkIn.copyBytesToUser dst (bytesOf c.kmsg len)).setA0 len) :=
        h.wf.congr (by simp) (by simp)
      have hsame : Untouched c ((c.checkIn.copyBytesToUser dst (bytesOf c.kmsg len)).setA0 len) e :=
        .of_tasks h.wf (by simp) (by simp)
      exact Or.inl (hsame.trans (.wake hout he (Core.waiter_of_sender ep)))
  | @recvPark e₀ dst cap next req irq ep fits sel =>
    by_cases he : e = e₀
    · exact Or.inr (.recv rfl (he ▸ req))
    · have hpark : Untouched c (c.checkIn.park e₀ (.receiverWaiting c.current dst cap)) e :=
        hin.trans (.park h.checkIn he)
      exact Or.inl (hpark.trans
        (.resume (h.parked_receiver fits.2) (Core.selectHighest_ready sel)))
  | yield sys sel =>
    have hsave : Untouched c (c.checkIn.saveAs .ready) e :=
      .update h.wf (Core.saveAs_tasks c.checkIn .ready) rfl (hidle _ hrun)
    exact Or.inl (hsave.trans (.resume (h.checkIn.saveAs (by simp)) (Core.selectHighest_ready sel)))
  | exit sys sel =>
    have hset : Untouched c (c.checkIn.setState c.current .killed) e :=
      .update h.wf (Core.setState_tasks c.checkIn c.current .killed) rfl (hidle _ hrun)
    exact Or.inl (hset.trans (.resume (h.checkIn.retire (by simp)) (Core.selectHighest_ready sel)))
  | @spawn slot b d routes sys ctl entry vacant fresh =>
    exact Or.inl (.update h.wf (t := slot) (b := b) rfl rfl (h.wf.not_waiting (by simp [vacant]) e))
  | @rearm slot d f sys ctl entry dead =>
    have hnb : (c.tasks slot).state ≠ .blocked := by rcases dead with hd | hd <;> simp [hd]
    exact Or.inl (.clear h.wf (Core.rearm_tasks c.checkIn slot f) rfl (h.wf.not_waiting hnb e))
  | @restart slot f sys ctl names other used started =>
    by_cases hw : (c.endpoints e).waiter = some slot
    · exact Or.inr (.control hw ctl (Or.inr ⟨rfl, ctl, Or.inr ⟨sys, names⟩⟩))
    · exact Or.inl (.clear h.wf (Core.rearm_tasks c.checkIn slot f) rfl hw)
  | @kill slot sys ctl names other used =>
    by_cases hw : (c.endpoints e).waiter = some slot
    · exact Or.inr (.control hw ctl (Or.inl ⟨rfl, sys, ctl, names⟩))
    · exact Or.inl (.clear h.wf (Core.kill_tasks c.checkIn slot) rfl hw)
  | killSelf sys ctl names used sel =>
    have hkill : Untouched c (c.checkIn.kill c.current) e :=
      .clear h.wf (Core.kill_tasks c.checkIn c.current) rfl (hidle _ hrun)
    exact Or.inl (hkill.trans (.resume h.killed_self (Core.selectHighest_ready sel)))
  | irqDead sys ctl dead => exact Or.inl (.of_tasks h.wf (by simp) (by simp))
  | @irqDeliver dev tid dst cap sys ctl live ep fits =>
    by_cases he : e = (devices dev).irqEndpoint
    · exact Or.inr (.irq rfl sys ctl he.symm)
    · refine Or.inl (Untouched.setA0 ?_ _)
      exact hin.trans (.wake h.checkIn he (Core.waiter_of_receiver ep))
  | irqHold sys ctl live ep => exact Or.inl (.of_tasks h.wf (by simp) (by simp))
  | tick fine top => exact Or.inl (.of_tasks h.wf (by simp) (by simp))
  | preempt fine sel other outranked =>
    have hsw := h.switch_preempt sel other outranked
    have hsave : Untouched c (c.countMiss.saveAs .ready) e :=
      .update h.wf (Core.saveAs_tasks c.countMiss .ready) rfl (hidle _ hrun)
    exact Or.inl (hsave.trans (.resume hsw.wf hsw.ready))
  | watchdog exp sel =>
    exact untouched_or_notice h.countMiss e (Or.inl ⟨rfl, exp⟩) (Core.selectHighest_ready sel)
  | fault sel =>
    exact untouched_or_notice h.wf e (Or.inr ⟨_, rfl⟩) (Core.selectHighest_ready sel)

/-! ## Runs of the OS boot flow -/

/-- The step changes the record of endpoint `e`, wakes the task recorded there, or parks a task
there. -/
def Touches (k k' : Kernel) (e : EpId) : Prop :=
  k'.endpoints e ≠ k.endpoints e ∨
    (∃ t, (k.endpoints e).waiter = some t ∧ (k'.tasks t).state ≠ .blocked) ∨
    ∃ t, (k'.endpoints e).waiter = some t ∧ (k.tasks t).state ≠ .blocked

/-- What may touch endpoint `e`, in terms of the capabilities boot assigned to the caller. -/
inductive Authority (img : Image) (c : Core) (tr : Trap) (e : EpId) : Prop where
  | send (ecall : tr = .ecall) (sys : c.frame.sys = some .send)
      (cap : Entitled img c.current .endpoint e.val rightSend)
  | recv (ecall : tr = .ecall) (sys : c.frame.sys = some .recv)
      (cap : Entitled img c.current .endpoint e.val rightRecv)
  | notice (faults : (tr = .timer ∧ c.expired) ∨ ∃ reason, tr = .fault reason)
      (channel : e = Kernel.epFault ∨ e = Kernel.epEvent)
  | irq {dev : DevId} (ecall : tr = .ecall) (sys : c.frame.sys = some .irqRaise)
      (cap : Entitled img c.current .device dev.val devRightDriverControl)
      (route : (devices dev).irqEndpoint = e)
  | control {t : Slot} {id : Nat} (waits : (c.endpoints e).waiter = some t)
      (cap : Entitled img c.current .control id rightControl)
      (acts : Kills c tr t ∨ Revives (serviceTable img) c tr t)

/-- Authority over endpoints is confined to the boot table. -/
structure AuthorityConfined (x : OsRun img) : Prop where
  caps_fixed : ∀ i j t, i ≤ j → j ≤ x.len → ((x.st i).tasks t).state ≠ .empty →
    ((x.st j).tasks t).caps = ((x.st i).tasks t).caps
  caps_boot : ∀ i t, i ≤ x.len → ((x.st i).tasks t).state ≠ .empty →
    BootCaps img t ((x.st i).tasks t).caps
  mediated : ∀ i e, i < x.len → Touches (x.st i) (x.st (i + 1)) e →
    Authority img (entry x i) (x.ev i).trap e

theorem osRun_osInv (x : OsRun img) : x.Always (OsInv img) :=
  x.invariant (fun _ h => h.osInv) fun _ _ _ h hs => step_osInv hs h

theorem Cause.authority {k : Kernel} {ev : Event} {e : EpId} (h : OsInv img k)
    (hc : Cause img (serviceTable img) (k.toCore.enter ev) ev.trap e) :
    Authority img (k.toCore.enter ev) ev.trap e := by
  have hused : (k.tasks k.current).state ≠ .empty := by
    rw [(h.inv.wf.running _).mpr rfl]
    simp
  have hboot := h.caps k.current hused
  cases hc with
  | send ecall req => exact .send ecall req.sys ⟨_, hboot, capCheck_holds req.resolves⟩
  | recv ecall req => exact .recv ecall req.sys ⟨_, hboot, capCheck_holds req.resolves⟩
  | notice faults channel => exact .notice faults channel
  | irq ecall sys ctl route => exact .irq ecall sys ⟨_, hboot, deviceCapCheck_holds ctl⟩ route
  | control waits ctl acts =>
    obtain ⟨id, hid⟩ := capFind_holds ctl
    exact .control waits ⟨_, hboot, hid⟩ acts

/-- In every run of the OS, the capability tables are those of the boot flow and stay as they are,
and whatever touches an endpoint has an authority for it from them, but for the reports of
faults. -/
theorem osRun_authorityConfined (x : OsRun img) : AuthorityConfined x := by
  refine ⟨?_, fun i t hi ht => (osRun_osInv x i hi).caps t ht, ?_⟩
  · intro i j t hij hj ht
    -- along the run from `i` on, the slot stays in use with the table it has at `i`
    suffices ((x.st j).tasks t).caps = ((x.st i).tasks t).caps ∧
        ((x.st j).tasks t).state ≠ .empty from this.1
    induction j, hij using Nat.le_induction with
    | base => exact ⟨rfl, ht⟩
    | succ j hij ih =>
      obtain ⟨hcaps, hused⟩ := ih (by omega)
      have hinv := (osRun_osInv x j (by omega)).inv
      obtain ⟨hcaps', hused'⟩ := step_caps (x.step_st j hj) hinv hused
      exact ⟨hcaps'.trans hcaps, hused'⟩
  · intro i e hi htouch
    have hos := osRun_osInv x i (Nat.le_of_lt hi)
    have hm := step_move (x.step_st i hi)
    rw [hos.table, Option.getD_some] at hm
    rcases hm.cause (hos.inv.enter (x.ev i)) e with hun | hc
    · exfalso
      rcases htouch with he | ⟨t, hw, hs⟩ | ⟨t, hw, hs⟩
      · exact he hun.1
      · exact hs (hun.2 t hw)
      · rw [hun.1] at hw
        exact hs (hos.inv.wf.waiter_blocked e t hw)
    · exact hc.authority hos

end AxiomRT.Dispatch
