import AxiomRT.Dispatch.Invariant
import AxiomRT.Dispatch.Runs
import AxiomRT.Dispatch.Proofs.MovesProofs

/-!
# Proofs: the dispatcher invariant

Each building block of the moves keeps the invariant, and so does every move.
-/

namespace AxiomRT.Dispatch

variable {img : Image} {table : List ServiceDef} {c c' d : Core} {run run' : Option Slot}

/-! ## Endpoint updates -/

namespace Core

theorem waiter_of_sender {e : EpId} {t : Slot} {len : Nat}
    (h : c.endpoints e = .senderWaiting t len) : (c.endpoints e).waiter = some t := by
  rw [h]
  rfl

theorem waiter_of_receiver {e : EpId} {t : Slot} {dst cap : Nat}
    (h : c.endpoints e = .receiverWaiting t dst cap) : (c.endpoints e).waiter = some t := by
  rw [h]
  rfl

/-- Clearing the record of `tid` if it is `slot`. -/
theorem waiter_cleared {tid slot t : Slot} {w : Ep} (hw : w.waiter = some tid) :
    (if tid = slot then Ep.idle else w).waiter = some t ↔ w.waiter = some t ∧ t ≠ slot := by
  rw [hw, Option.some.injEq]
  split_ifs with h
  · exact iff_of_false nofun fun ht => ht.2 (ht.1.symm.trans h)
  · rw [hw, Option.some.injEq]
    exact ⟨fun ht => ⟨ht, ht ▸ h⟩, And.left⟩

/-- After clearing, task `slot` is recorded nowhere and the other waiters stay. -/
theorem waiter_epClearForTask {slot t : Slot} {e : EpId} :
    ((c.epClearForTask slot).endpoints e).waiter = some t ↔
      (c.endpoints e).waiter = some t ∧ t ≠ slot := by
  simp only [epClearForTask]
  cases c.endpoints e with
  | idle => simp [Ep.waiter]
  | senderWaiting tid len => exact waiter_cleared rfl
  | receiverWaiting tid dst cap => exact waiter_cleared rfl

/-- Clearing resets an endpoint or leaves it. -/
theorem epClearForTask_cases (c : Core) (slot : Slot) (e : EpId) :
    (c.epClearForTask slot).endpoints e = c.endpoints e ∨
      ((c.endpoints e).waiter = some slot ∧ (c.epClearForTask slot).endpoints e = .idle) := by
  simp only [epClearForTask]
  cases c.endpoints e with
  | idle => exact Or.inl rfl
  | senderWaiting tid len =>
    by_cases h : tid = slot
    · exact Or.inr ⟨by simp [Ep.waiter, h], by simp [h]⟩
    · exact Or.inl (by simp [h])
  | receiverWaiting tid dst cap =>
    by_cases h : tid = slot
    · exact Or.inr ⟨by simp [Ep.waiter, h], by simp [h]⟩
    · exact Or.inl (by simp [h])

/-- A notification touches no other endpoint. -/
theorem notify_endpoints_ne (c : Core) {e e' : EpId} (code : UInt8) (hne : e' ≠ e) :
    (c.notify e code).endpoints e' = c.endpoints e' := by
  simp only [notify]
  cases c.endpoints e with
  | idle => rfl
  | senderWaiting tid len => rfl
  | receiverWaiting tid dst cap =>
    simp only
    split_ifs
    · exact Function.update_of_ne hne ..
    · exact Function.update_of_ne hne ..

end Core

/-! ## Building blocks -/

namespace WellFormed

/-- Only tasks and endpoints matter. -/
theorem congr (h : WellFormed run c) (ht : c'.tasks = c.tasks) (he : c'.endpoints = c.endpoints) :
    WellFormed run c' := by
  constructor
  · rw [ht]
    exact h.running
  · rw [ht, he]
    exact h.waiter_blocked
  · rw [he]
    exact h.waiter_once
  · rw [he]
    exact h.sender_len
  · rw [he]
    exact h.receiver_buf
  · rw [ht]
    exact h.pending_ready

/-- A task that is not blocked waits nowhere. -/
theorem not_waiting (h : WellFormed run c) {t : Slot} (ht : (c.tasks t).state ≠ .blocked)
    (e : EpId) :
    (c.endpoints e).waiter ≠ some t :=
  fun hw => ht (h.waiter_blocked e t hw)

/-- Overwrite the block of a task that waits nowhere. -/
theorem setTask (h : WellFormed run c) {t : Slot} {b : Tcb}
    (hrun : ∀ u, u ≠ t → (run' = some u ↔ run = some u)) (hb : b.state = .running ↔ run' = some t)
    (hw : ∀ e, (c.endpoints e).waiter ≠ some t)
    (hp : ∀ pm, b.pendingIpc = some pm → b.state = .ready ∧ validUserBuf pm.dst pm.len = true) :
    WellFormed run' (c.setTask t b) := by
  have hself : (c.setTask t b).tasks t = b := Function.update_self ..
  have hother : ∀ u, u ≠ t → (c.setTask t b).tasks u = c.tasks u :=
    fun u hu => Function.update_of_ne hu ..
  constructor
  · intro u
    by_cases hu : u = t
    · subst hu
      rw [hself, hb]
    · rw [hother u hu, h.running, hrun u hu]
  · intro e u hu
    have hne : u ≠ t := by
      rintro rfl
      exact hw e hu
    rw [hother u hne]
    exact h.waiter_blocked e u hu
  · exact h.waiter_once
  · exact h.sender_len
  · exact h.receiver_buf
  · intro u pm hpm
    by_cases hu : u = t
    · subst hu
      rw [hself] at hpm ⊢
      exact hp pm hpm
    · rw [hother u hu] at hpm ⊢
      exact h.pending_ready u pm hpm

/-- Reset some endpoints. -/
theorem reset (h : WellFormed run c) (ht : c'.tasks = c.tasks)
    (he : ∀ e, c'.endpoints e = c.endpoints e ∨ c'.endpoints e = .idle) : WellFormed run c' := by
  have hsub : ∀ e w, c'.endpoints e = w → w ≠ .idle → c.endpoints e = w := by
    intro e w hw hne
    rcases he e with h' | h'
    · rw [← h', hw]
    · exact absurd (hw.symm.trans h') hne
  have hwait : ∀ e t, (c'.endpoints e).waiter = some t → (c.endpoints e).waiter = some t := by
    intro e t hw
    rcases he e with h' | h'
    · rwa [h'] at hw
    · simp [h', Ep.waiter] at hw
  constructor
  · rw [ht]
    exact h.running
  · intro e t hw
    rw [ht]
    exact h.waiter_blocked e t (hwait e t hw)
  · intro e e' t hw hw'
    exact h.waiter_once e e' t (hwait e t hw) (hwait e' t hw')
  · intro e t len hep
    exact h.sender_len e t len (hsub e _ hep (by simp))
  · intro e t dst cap hep
    exact h.receiver_buf e t dst cap (hsub e _ hep (by simp))
  · rw [ht]
    exact h.pending_ready

theorem epIdle (h : WellFormed run c) (e : EpId) : WellFormed run (c.epSet e .idle) := by
  refine h.reset rfl fun e' => ?_
  by_cases he : e' = e
  · subst he
    exact Or.inr (Function.update_self ..)
  · exact Or.inl (Function.update_of_ne he ..)

/-- Once its endpoint is reset, a waiter waits nowhere. -/
theorem unrecorded (h : WellFormed run c) {e : EpId} {t : Slot}
    (hw : (c.endpoints e).waiter = some t) (e' : EpId) :
    ((c.epSet e .idle).endpoints e').waiter ≠ some t := by
  by_cases he : e' = e
  · subst he
    simp [Core.epSet, Ep.waiter]
  · have hep : (c.epSet e .idle).endpoints e' = c.endpoints e' := Function.update_of_ne he ..
    rw [hep]
    intro hw'
    exact he (h.waiter_once e' e t hw' hw)

/-- Wake a waiter. -/
theorem wake (h : WellFormed run c) {e : EpId} {t : Slot} {f : Tcb → Tcb}
    (hw : (c.endpoints e).waiter = some t)
    (hp : ∀ pm, (f (c.tasks t)).pendingIpc = some pm → validUserBuf pm.dst pm.len = true) :
    WellFormed run (c.wake e t f) := by
  have hblocked := h.waiter_blocked e t hw
  have hrun : run ≠ some t := by
    intro hr
    rw [(h.running t).mpr hr] at hblocked
    cases hblocked
  refine (h.epIdle e).setTask (fun u _ => Iff.rfl) ?_ (h.unrecorded hw)
    fun pm hpm => ⟨rfl, hp pm hpm⟩
  simp [hrun]

/-- The running task leaves the CPU in state `s`. -/
theorem leave (h : WellFormed (some c.current) c) {b : Tcb} (hs : b.state ≠ .running)
    (hp : b.pendingIpc = (c.tasks c.current).pendingIpc) :
    WellFormed none (c.setTask c.current b) := by
  have hrunning := (h.running c.current).mpr rfl
  refine h.setTask ?_ ?_ (h.not_waiting (by simp [hrunning])) ?_
  · intro u hu
    simp [Ne.symm hu]
  · simp [hs]
  · intro pm hpm
    have hready := (h.pending_ready c.current pm (hp ▸ hpm)).1
    rw [hrunning] at hready
    cases hready

theorem saveAs (h : WellFormed (some c.current) c) {s : RtState} (hs : s ≠ .running) :
    WellFormed none (c.saveAs s) :=
  h.leave (b := { c.tasks c.current with frame := c.frame, state := s }) hs rfl

theorem retire (h : WellFormed (some c.current) c) {s : RtState} (hs : s ≠ .running) :
    WellFormed none (c.setState c.current s) :=
  h.leave (b := { c.tasks c.current with state := s }) hs rfl

/-- Record a blocked task that waits nowhere on an idle endpoint. -/
theorem record (h : WellFormed run c) {e : EpId} {t : Slot} {w : Ep} (hwait : w.waiter = some t)
    (hb : (c.tasks t).state = .blocked) (hn : ∀ e, (c.endpoints e).waiter ≠ some t)
    (hs : ∀ u len, w = .senderWaiting u len → len ≤ ipcMsgMax)
    (hr : ∀ u dst cap, w = .receiverWaiting u dst cap → validUserBuf dst cap = true) :
    WellFormed run (c.epSet e w) := by
  have hself : (c.epSet e w).endpoints e = w := Function.update_self ..
  have hother : ∀ e', e' ≠ e → (c.epSet e w).endpoints e' = c.endpoints e' :=
    fun e' he => Function.update_of_ne he ..
  have hat : ∀ e' u, ((c.epSet e w).endpoints e').waiter = some u →
      (e' = e ∧ u = t) ∨ (e' ≠ e ∧ u ≠ t ∧ (c.endpoints e').waiter = some u) := by
    intro e' u hu
    by_cases he : e' = e
    · subst he
      rw [hself, hwait] at hu
      exact Or.inl ⟨rfl, (Option.some.inj hu).symm⟩
    · rw [hother e' he] at hu
      refine Or.inr ⟨he, ?_, hu⟩
      rintro rfl
      exact hn e' hu
  constructor
  · exact h.running
  · intro e' u hu
    rcases hat e' u hu with ⟨-, rfl⟩ | ⟨-, -, hu'⟩
    · exact hb
    · exact h.waiter_blocked e' u hu'
  · intro e₁ e₂ u h₁ h₂
    rcases hat e₁ u h₁ with ⟨rfl, rfl⟩ | ⟨-, hne, h₁'⟩
    · rcases hat e₂ u h₂ with ⟨rfl, -⟩ | ⟨-, hne, -⟩
      · rfl
      · exact absurd rfl hne
    · rcases hat e₂ u h₂ with ⟨-, rfl⟩ | ⟨-, -, h₂'⟩
      · exact absurd rfl hne
      · exact h.waiter_once e₁ e₂ u h₁' h₂'
  · intro e' u len hep
    by_cases he : e' = e
    · subst he
      rw [hself] at hep
      exact hs u len hep
    · rw [hother e' he] at hep
      exact h.sender_len e' u len hep
  · intro e' u dst cap hep
    by_cases he : e' = e
    · subst he
      rw [hself] at hep
      exact hr u dst cap hep
    · rw [hother e' he] at hep
      exact h.receiver_buf e' u dst cap hep
  · exact h.pending_ready

/-- Park the running task on an idle endpoint. -/
theorem park (h : WellFormed (some c.current) c) {e : EpId} {w : Ep}
    (hwait : w.waiter = some c.current)
    (hs : ∀ u len, w = .senderWaiting u len → len ≤ ipcMsgMax)
    (hr : ∀ u dst cap, w = .receiverWaiting u dst cap → validUserBuf dst cap = true) :
    WellFormed none (c.park e w) := by
  have hrunning := (h.running c.current).mpr rfl
  have hleave : WellFormed none (c.saveAs .blocked) := h.saveAs (by simp)
  refine hleave.record hwait ?_ (h.not_waiting (by simp [hrunning])) hs hr
  simp [Core.saveAs, Core.modTask, Core.setTask]

/-- Put the selected task on the CPU. -/
theorem activate (h : WellFormed none c) {next : Slot} (hr : (c.tasks next).state = .ready) :
    WellFormed (some next) (c.activate next) := by
  have hset : WellFormed (some next)
      (c.setTask next { c.tasks next with state := .running, pendingIpc := none }) := by
    refine h.setTask ?_ ?_ (h.not_waiting (by simp [hr])) ?_
    · intro u hu
      simp [Ne.symm hu]
    · simp
    · intro pm hpm
      cases hpm
  exact hset.congr rfl rfl

theorem resume (h : WellFormed none c) {next : Slot} (hr : (c.tasks next).state = .ready) :
    WellFormed (some next) (c.resume next) := by
  simp only [Core.resume]
  cases (c.tasks next).pendingIpc with
  | none => exact h.activate hr
  | some pm => exact (h.activate hr).congr rfl rfl

/-- Clear the records of a task and overwrite its block: it is dead or ready, and off the CPU. -/
theorem clearSet (h : WellFormed run c) {slot : Slot} {b : Tcb}
    (hrun : ∀ u, run' = some u ↔ run = some u ∧ u ≠ slot) (hb : b.state ≠ .running)
    (hp : b.pendingIpc = none) : WellFormed run' ((c.epClearForTask slot).setTask slot b) := by
  have hclear : WellFormed run (c.epClearForTask slot) := by
    refine h.reset rfl fun e => ?_
    rcases c.epClearForTask_cases slot e with he | ⟨-, he⟩
    · exact Or.inl he
    · exact Or.inr he
  refine hclear.setTask ?_ ?_ ?_ ?_
  · intro u hu
    simp [hrun u, hu]
  · simp [hrun slot, hb]
  · intro e he
    exact (Core.waiter_epClearForTask.mp he).2 rfl
  · intro pm hpm
    rw [hp] at hpm
    cases hpm

theorem kill (h : WellFormed run c) {slot : Slot}
    (hrun : ∀ u, run' = some u ↔ run = some u ∧ u ≠ slot) : WellFormed run' (c.kill slot) :=
  (h.clearSet (b := { c.tasks slot with state := .killed, pendingIpc := none }) hrun (by simp)
    rfl).congr rfl rfl

theorem rearm (h : WellFormed run c) {slot : Slot} {f : TrapFrame} (hrun : run ≠ some slot) :
    WellFormed run (c.rearm slot f) := by
  have hrun' : ∀ u, run = some u ↔ run = some u ∧ u ≠ slot := by
    intro u
    constructor
    · intro hu
      refine ⟨hu, ?_⟩
      rintro rfl
      exact hrun hu
    · exact And.left
  refine (h.clearSet (b := { c.tasks slot with frame := f, pendingIpc := none, state := .ready })
    hrun' (by simp) rfl).congr (Core.rearm_tasks c slot f) rfl

theorem notify (h : WellFormed run c) (e : EpId) (code : UInt8) :
    WellFormed run (c.notify e code) := by
  simp only [Core.notify]
  cases hep : c.endpoints e with
  | idle => exact h
  | senderWaiting tid len => exact h
  | receiverWaiting tid dst cap =>
    simp only
    split_ifs with hfit
    · refine h.wake (Core.waiter_of_receiver hep) ?_
      intro pm hpm
      cases hpm
      exact hfit.2
    · exact h.epIdle e

theorem fault (h : WellFormed (some c.current) c) : WellFormed none c.fault := by
  have hleave : WellFormed none (c.setState c.current .faulted) := h.retire (by simp)
  have hdrop : WellFormed none ((c.setState c.current .faulted).irqDrop c.current) :=
    hleave.congr rfl rfl
  exact (hdrop.notify _ _).notify _ _

end WellFormed

/-! ## Tasks that no wake-up reaches -/

variable {u : Slot}

/-- A task that is not blocked is not the one an endpoint names. -/
theorem WellFormed.ne_waiter (h : WellFormed run c) {e : EpId} {t : Slot}
    (hw : (c.endpoints e).waiter = some t) (hu : (c.tasks u).state ≠ .blocked) : u ≠ t := by
  rintro rfl
  exact hu (h.waiter_blocked e u hw)

theorem WellFormed.notify_tasks (h : WellFormed run c) {e : EpId} {code : UInt8}
    (hu : (c.tasks u).state ≠ .blocked) : (c.notify e code).tasks u = c.tasks u := by
  simp only [Core.notify]
  cases hep : c.endpoints e with
  | idle => rfl
  | senderWaiting tid len => rfl
  | receiverWaiting tid dst cap =>
    have hne : u ≠ tid := h.ne_waiter (Core.waiter_of_receiver hep) hu
    simp only
    split_ifs
    · exact Function.update_of_ne hne ..
    · rfl

/-- The two notifications of a fault leave a task that is not blocked, the faulted one included. -/
theorem WellFormed.fault_notices (h : WellFormed (some c.current) c)
    (hu : ((c.setState c.current .faulted).tasks u).state ≠ .blocked) :
    c.fault.tasks u = (c.setState c.current .faulted).tasks u := by
  have h₁ : WellFormed none ((c.setState c.current .faulted).irqDrop c.current) :=
    (h.retire (s := .faulted) (by simp)).congr rfl rfl
  have hn₁ : (((c.setState c.current .faulted).irqDrop c.current).notify Kernel.epFault
      Kernel.faultCodeWatchdog).tasks u = (c.setState c.current .faulted).tasks u :=
    h₁.notify_tasks hu
  rw [← hn₁]
  refine (h₁.notify _ _).notify_tasks ?_
  rw [hn₁]
  exact hu

theorem WellFormed.fault_tasks (h : WellFormed (some c.current) c)
    (hu : (c.tasks u).state ≠ .blocked) (hne : u ≠ c.current) : c.fault.tasks u = c.tasks u := by
  have hret : (c.setState c.current .faulted).tasks u = c.tasks u := Function.update_of_ne hne ..
  rw [← hret] at hu ⊢
  exact h.fault_notices hu

/-- The task that is faulted ends up faulted. -/
theorem WellFormed.fault_current (h : WellFormed (some c.current) c) :
    (c.fault.tasks c.current).state = .faulted := by
  have hown : ((c.setState c.current .faulted).tasks c.current).state = .faulted := by simp
  rw [h.fault_notices (by simp)]
  exact hown

/-! ## Moves -/

/-- A waiter is not the running task. -/
theorem Inv.waiter_ne_current (h : Inv c) {e : EpId} {t : Slot}
    (hw : (c.endpoints e).waiter = some t) : t ≠ c.current := by
  rintro rfl
  have hb := h.wf.waiter_blocked e _ hw
  rw [(h.wf.running _).mpr rfl] at hb
  cases hb

/-- A waiter has no delivery pending. -/
theorem WellFormed.waiter_pending {run : Option Slot} (h : WellFormed run c) {e : EpId} {t : Slot}
    (hw : (c.endpoints e).waiter = some t) : (c.tasks t).pendingIpc = none := by
  cases hpm : (c.tasks t).pendingIpc with
  | none => rfl
  | some pm =>
    have hb := h.waiter_blocked e t hw
    rw [(h.pending_ready t pm hpm).1] at hb
    cases hb

/-! ### States inside a handler -/

theorem Inv.checkIn (h : Inv c) : WellFormed (some c.checkIn.current) c.checkIn :=
  h.wf.congr (Core.checkIn_tasks c) (Core.checkIn_endpoints c)

theorem Inv.countMiss (h : Inv c) : WellFormed (some c.countMiss.current) c.countMiss :=
  h.wf.congr (Core.countMiss_tasks c) (Core.countMiss_endpoints c)

theorem Inv.copied (h : Inv c) (buf len : Nat) :
    WellFormed (some (c.checkIn.copyFromUser buf len).current) (c.checkIn.copyFromUser buf len) :=
  h.checkIn.congr (Core.copyFromUser_tasks ..) (Core.copyFromUser_endpoints ..)

theorem Inv.parked_sender (h : Inv c) {e : EpId} {buf len : Nat} (hlen : len ≤ ipcMsgMax) :
    WellFormed none ((c.checkIn.copyFromUser buf len).park e (.senderWaiting c.current len)) := by
  refine (h.copied buf len).park rfl ?_ (by simp)
  rintro u len ⟨⟩
  exact hlen

theorem Inv.parked_receiver (h : Inv c) {e : EpId} {dst cap : Nat}
    (hbuf : validUserBuf dst cap = true) :
    WellFormed none (c.checkIn.park e (.receiverWaiting c.current dst cap)) := by
  refine h.checkIn.park rfl (by simp) ?_
  rintro u dst cap ⟨⟩
  exact hbuf

theorem Inv.killed_self (h : Inv c) : WellFormed none (c.checkIn.kill c.current) := by
  refine h.checkIn.kill ?_
  intro u
  simp only [Core.checkIn_current, Option.some.injEq, reduceCtorEq, false_iff]
  rintro ⟨rfl, hne⟩
  exact hne rfl

/-- A handler that touches no task and no endpoint leaves the running task on the CPU. -/
theorem Inv.stay_same (h : Inv c) (ht : c'.tasks = c.tasks) (he : c'.endpoints = c.endpoints)
    (hcur : c'.current = c.current) (hsatp : c'.satp = c.satp) : Stay c c' :=
  ⟨hcur, hsatp, by rw [ht], h.wf.congr ht he⟩

/-- Waking a waiter leaves the running task on the CPU. -/
theorem Inv.stay_wake (h : Inv c) {c₁ : Core} {e : EpId} {t : Slot} {f : Tcb → Tcb}
    (ht : c₁.tasks = c.tasks) (he : c₁.endpoints = c.endpoints) (hcur : c₁.current = c.current)
    (hsatp : c₁.satp = c.satp) (hw : (c.endpoints e).waiter = some t)
    (hp : ∀ pm, (f (c.tasks t)).pendingIpc = some pm → validUserBuf pm.dst pm.len = true) :
    Stay c (c₁.wake e t f) where
  current := hcur
  satp := hsatp
  own := by
    rw [← ht]
    exact Function.update_of_ne (h.waiter_ne_current hw).symm ..
  wf := by
    have h₁ : WellFormed (some c.current) c₁ := h.wf.congr ht he
    refine h₁.wake (by rw [he]; exact hw) ?_
    rw [ht]
    exact hp

/-- A result for the caller changes neither tasks nor endpoints. -/
theorem Stay.setA0 (h : Stay c c') (v : Int) : Stay c (c'.setA0 v) :=
  ⟨h.current, h.satp, h.own, h.wf.congr rfl rfl⟩

/-- A task in another state than `running` is not the running one. -/
theorem Inv.ne_current (h : Inv c) {t : Slot} (hs : (c.tasks t).state ≠ .running) :
    t ≠ c.current := by
  rintro rfl
  exact hs ((h.wf.running _).mpr rfl)

theorem Inv.stay_rearm (h : Inv c) {slot : Slot} {f : TrapFrame} (hne : slot ≠ c.current) :
    Stay c (c.checkIn.rearm slot f) := by
  exact ⟨rfl, rfl, by simp [hne.symm], h.checkIn.rearm (by simp [hne.symm])⟩

/-- The selection of the scheduler after the running task left the CPU. -/
theorem Switch.of_select (hwf : WellFormed none d) {cur next : Slot}
    (hkept : ∀ t, t ≠ c.current → (c.tasks t).state ≠ .blocked → d.tasks t = c.tasks t)
    (hsel : d.selectHighest cur = some next) : Switch c d next (d.resume next) :=
  ⟨hwf, hkept, Core.selectHighest_ready hsel, fun _ ht => Core.selectHighest_top hsel ht, rfl⟩

/-- The selection after only the block of the running task changed. -/
theorem Switch.of_own (hwf : WellFormed none d) {cur next : Slot} {b : Tcb}
    (ht : d.tasks = Function.update c.tasks c.current b)
    (hsel : d.selectHighest cur = some next) : Switch c d next (d.resume next) := by
  refine .of_select hwf (fun t hne _ => ?_) hsel
  rw [ht, Function.update_of_ne hne]

/-- Preemption by a more urgent task. -/
theorem Inv.switch_preempt (h : Inv c) {next : Slot} (sel : c.selectHighest c.current = some next)
    (other : next ≠ c.current) (outranked : (c.tasks c.current).prio < (c.tasks next).prio) :
    Switch c (c.countMiss.saveAs .ready) next ((c.countMiss.saveAs .ready).resume next) := by
  have hself : (c.countMiss.saveAs .ready).tasks c.current =
      { c.tasks c.current with frame := c.frame, state := .ready } := Function.update_self ..
  have hother : ∀ u, u ≠ c.current → (c.countMiss.saveAs .ready).tasks u = c.tasks u :=
    fun u hu => Function.update_of_ne hu ..
  refine ⟨h.countMiss.saveAs (by simp), fun t hne _ => hother t hne, ?_, ?_, rfl⟩
  · rw [hother next other]
    exact Core.selectHighest_ready sel
  · intro t ht
    rw [hother next other]
    by_cases htc : t = c.current
    · subst htc
      rw [hself]
      exact UInt8.le_of_lt outranked
    · rw [hother t htc] at ht ⊢
      exact Core.selectHighest_top sel ht

/-- Every move either returns to the running task or puts a newly selected one on the CPU. -/
theorem Move.stay_or_switch {tr : Trap} (hm : Move img table c tr c') (h : Inv c) :
    Stay c c' ∨ ∃ d next, Switch c d next c' := by
  cases hm with
  | ret tasks current endpoints kmsg routes satp miss mem ipc plain =>
    exact Or.inl (h.stay_same tasks endpoints current satp)
  | sendBusy req ep => exact Or.inl (h.stay_same (by simp) (by simp) (by simp) (by simp))
  | sendDeliver req ep fits =>
    refine Or.inl (Stay.setA0 ?_ _)
    refine h.stay_wake (by simp) (by simp) (by simp) (by simp) (Core.waiter_of_receiver ep) ?_
    intro pm hpm
    cases hpm
    exact fits.2
  | sendTooBig req ep small =>
    refine Or.inl (Stay.setA0 ?_ _)
    refine h.stay_wake (by simp) (by simp) (by simp) (by simp) (Core.waiter_of_receiver ep) ?_
    intro pm hpm
    exact (h.wf.pending_ready _ pm hpm).2
  | sendPark req ep sel =>
    exact Or.inr ⟨_, _, Switch.of_own (h.parked_sender req.len_le) (Core.park_tasks ..) sel⟩
  | recvIrq req irq fits =>
    exact Or.inl (h.stay_same (by simp) (by simp) (by simp) (by simp))
  | recvTake req irq ep fits =>
    refine Or.inl (h.stay_wake (by simp) (by simp) (by simp) (by simp)
      (Core.waiter_of_sender ep) ?_)
    intro pm hpm
    exact (h.wf.pending_ready _ pm hpm).2
  | recvPark req irq ep fits sel =>
    exact Or.inr ⟨_, _, Switch.of_own (h.parked_receiver fits.2) (Core.park_tasks ..) sel⟩
  | yield sys sel =>
    exact Or.inr ⟨_, _, Switch.of_own (h.checkIn.saveAs (by simp)) (Core.saveAs_tasks ..) sel⟩
  | exit sys sel =>
    exact Or.inr ⟨_, _, Switch.of_own (h.checkIn.retire (by simp)) (Core.setState_tasks ..) sel⟩
  | @spawn slot b d routes sys ctl entry vacant fresh =>
    have hne : slot ≠ c.current := h.ne_current (by simp [vacant])
    have hset : WellFormed (some c.current) (c.checkIn.setTask slot b) := by
      refine h.checkIn.setTask (fun u _ => Iff.rfl) ?_ (h.wf.not_waiting (by simp [vacant])) ?_
      · simp [fresh.1, hne.symm]
      · simp [fresh.2.1]
    refine Or.inl (Stay.setA0 ?_ _)
    exact ⟨rfl, rfl, Function.update_of_ne hne.symm .., hset.congr rfl rfl⟩
  | @rearm slot d f sys ctl entry dead =>
    have hne : slot ≠ c.current := h.ne_current (by rcases dead with hd | hd <;> simp [hd])
    exact Or.inl (Stay.setA0 (h.stay_rearm hne) _)
  | restart sys ctl names other used started => exact Or.inl (Stay.setA0 (h.stay_rearm other) _)
  | @kill slot sys ctl names other used =>
    refine Or.inl (Stay.setA0 ?_ _)
    refine ⟨rfl, rfl, Function.update_of_ne other.symm .., h.checkIn.kill ?_⟩
    intro u
    simp only [Core.checkIn_current, Option.some.injEq, iff_self_and]
    rintro rfl
    exact other.symm
  | killSelf sys ctl names used sel =>
    exact Or.inr ⟨_, _, Switch.of_own h.killed_self (Core.kill_tasks ..) sel⟩
  | irqDead sys ctl dead =>
    exact Or.inl (h.stay_same (by simp) (by simp) (by simp) (by simp))
  | irqDeliver sys ctl live ep fits =>
    refine Or.inl (Stay.setA0 ?_ _)
    refine h.stay_wake (by simp) (by simp) (by simp) (by simp) (Core.waiter_of_receiver ep) ?_
    intro pm hpm
    cases hpm
    exact fits.2
  | irqHold sys ctl live ep =>
    exact Or.inl (h.stay_same (by simp) (by simp) (by simp) (by simp))
  | tick fine top => exact Or.inl (h.stay_same (by simp) (by simp) (by simp) (by simp))
  | preempt fine sel other outranked =>
    exact Or.inr ⟨_, _, h.switch_preempt sel other outranked⟩
  | watchdog exp sel =>
    exact Or.inr ⟨_, _, Switch.of_select h.countMiss.fault
      (fun t hne hb => h.countMiss.fault_tasks hb hne) sel⟩
  | fault sel =>
    exact Or.inr ⟨_, _, Switch.of_select h.wf.fault (fun t hne hb => h.wf.fault_tasks hb hne) sel⟩

/-! ## The invariant along steps -/

namespace Core

theorem resume_satp (c : Core) (next : Slot) : (c.resume next).satp = (c.tasks next).satpRoot := by
  simp only [resume]
  cases (c.tasks next).pendingIpc <;> rfl

end Core

/-- A move keeps the invariant. -/
theorem Move.inv {tr : Trap} (hm : Move img table c tr c') (h : Inv c) : Inv c' := by
  rcases hm.stay_or_switch h with hs | ⟨d, next, hs⟩
  · constructor
    · rw [hs.current]
      exact hs.wf
    · rw [hs.current, hs.satp, hs.own]
      exact h.space
  · rw [hs.resumed]
    constructor
    · rw [Core.resume_current]
      exact hs.wf.resume hs.ready
    · rw [Core.resume_current, Core.resume_satp, Core.resume_tasks, Function.update_self]

/-- User code keeps the invariant. -/
theorem Inv.enter (h : Inv c) (ev : Event) : Inv (c.enter ev) := ⟨h.wf.congr rfl rfl, h.space⟩

/-- A step keeps the invariant. -/
theorem step_inv {k k' : Kernel} {ev : Event} (hs : step img k ev = .ok k') (h : Inv k.toCore) :
    Inv k'.toCore :=
  (step_move hs).inv (h.enter ev)

/-! ## Boot -/

/-- What the boot-time operations leave untouched or fresh. -/
structure PreBoot (k : Kernel) : Prop where
  state : ∀ t, (k.tasks t).state = .empty ∨ (k.tasks t).state = .ready
  pending : ∀ t, (k.tasks t).pendingIpc = none
  idle : ∀ e, k.endpoints e = .idle
  miss : k.watchdogMiss = 0

theorem initial_preBoot (img : Image) : PreBoot (initial img) :=
  ⟨fun _ => Or.inl rfl, fun _ => rfl, fun _ => rfl, rfl⟩

/-- Overwriting a control block before boot with a fresh one, or changing its capabilities. -/
theorem PreBoot.setTask {k : Kernel} (h : PreBoot k) {t : Slot} {b : Tcb}
    (hs : b.state = .empty ∨ b.state = .ready) (hp : b.pendingIpc = none) :
    PreBoot (k.core (·.setTask t b)) := by
  have hself : (k.core (·.setTask t b)).tasks t = b := Function.update_self ..
  have hother : ∀ u, u ≠ t → (k.core (·.setTask t b)).tasks u = k.tasks u :=
    fun u hu => Function.update_of_ne hu ..
  refine ⟨fun u => ?_, fun u => ?_, h.idle, h.miss⟩
  · by_cases hu : u = t
    · subst hu
      rw [hself]
      exact hs
    · rw [hother u hu]
      exact h.state u
  · by_cases hu : u = t
    · subst hu
      rw [hself]
      exact hp
    · rw [hother u hu]
      exact h.pending u

theorem PreBoot.bootOp {k : Kernel} (h : PreBoot k) (op : BootOp) : PreBoot (k.bootOp op) := by
  cases op with
  | registerTask sstatus idx name prio root entryVa spVa => exact h.setTask (Or.inr rfl) rfl
  | setEndpointCap idx slot objectId rights => exact h.setTask (h.state idx) (h.pending idx)
  | setBootCap idx cap => exact h.setTask (h.state idx) (h.pending idx)
  | setServiceTable table => exact ⟨h.state, h.pending, h.idle, h.miss⟩
  | puts out => exact ⟨h.state, h.pending, h.idle, h.miss⟩

theorem preBoot_foldl (img : Image) (ops : List BootOp) :
    PreBoot (ops.foldl Kernel.bootOp (initial img)) := by
  suffices ∀ k, PreBoot k → PreBoot (ops.foldl Kernel.bootOp k) from this _ (initial_preBoot img)
  induction ops with
  | nil => exact fun k h => h
  | cons op ops ih => exact fun k h => ih _ (h.bootOp op)

/-- What no boot-time operation writes is at the start of a run what the statics hold. -/
theorem Booted.keeps {β : Type*} {f : Kernel → β} (hop : ∀ k op, f (k.bootOp op) = f k)
    (hstart : ∀ k, f k.start = f k) {k : Kernel} (h : Booted img k) : f k = f (initial img) := by
  obtain ⟨ops, rfl⟩ := h
  rw [bootWith, hstart]
  generalize initial img = k₀
  induction ops generalizing k₀ with
  | nil => rfl
  | cons op ops ih => rw [List.foldl_cons, ih, hop]

/-- The state in which the dispatcher starts: task 0 runs, every other slot is ready or empty, and
nothing is waiting or pending. -/
structure Started (k : Kernel) : Prop where
  current : k.current = 0
  running : (k.tasks 0).state = .running
  others : ∀ t, t ≠ 0 → (k.tasks t).state = .empty ∨ (k.tasks t).state = .ready
  pending : ∀ t, (k.tasks t).pendingIpc = none
  idle : ∀ e, k.endpoints e = .idle
  miss : k.watchdogMiss = 0
  space : k.satp = (k.tasks 0).satpRoot

theorem Booted.started {k : Kernel} (h : Booted img k) : Started k := by
  obtain ⟨ops, rfl⟩ := h
  have hpre := preBoot_foldl img ops
  generalize hk : ops.foldl Kernel.bootOp (initial img) = k₀ at hpre
  have hboot : bootWith img ops = k₀.start := by rw [bootWith, hk]
  rw [hboot]
  have hself : k₀.start.tasks 0 = { k₀.tasks 0 with state := .running } := by
    simp [Kernel.start, Kernel.core, Core.setState, Core.modTask, Core.setTask]
  have hother : ∀ t, t ≠ 0 → k₀.start.tasks t = k₀.tasks t :=
    fun t ht => Function.update_of_ne ht ..
  refine ⟨rfl, by rw [hself], fun t ht => ?_, fun t => ?_, hpre.idle, hpre.miss, by rw [hself]; rfl⟩
  · rw [hother t ht]
    exact hpre.state t
  · by_cases ht : t = 0
    · rw [ht, hself]
      exact hpre.pending 0
    · rw [hother t ht]
      exact hpre.pending t

/-- The starting state meets the invariant. -/
theorem Started.inv {k : Kernel} (h : Started k) : Inv k.toCore := by
  refine ⟨⟨?_, ?_, ?_, ?_, ?_, ?_⟩, by rw [h.current]; exact h.space⟩
  · intro t
    rw [h.current]
    by_cases ht : t = 0
    · simp [ht, h.running]
    · rcases h.others t ht with hs | hs <;> simp [hs, Ne.symm ht]
  · intro e t hw
    simp [h.idle e, Ep.waiter] at hw
  · intro e e' t hw
    simp [h.idle e, Ep.waiter] at hw
  · intro e t len hep
    simp [h.idle e] at hep
  · intro e t dst cap hep
    simp [h.idle e] at hep
  · intro t pm hpm
    simp [h.pending t] at hpm

/-- Every state of a run meets the invariant. -/
theorem run_inv (x : Run img) : x.Always fun k => Inv k.toCore :=
  x.invariant (fun _ h => h.started.inv) fun _ _ _ h hs => step_inv hs h

/-- The dispatcher state is consistent in every state of every run. -/
theorem run_consistent (x : Run img) : x.Always Consistent := by
  intro i hi
  have h := run_inv x i hi
  refine ⟨?_, h.space, h.wf.waiter_blocked, h.wf.waiter_once, ?_⟩
  · intro t
    rw [h.wf.running, Option.some.injEq, eq_comm]
  · intro t pm hpm
    obtain ⟨hready, hbuf⟩ := h.wf.pending_ready t pm hpm
    exact ⟨hready, h.wf.not_waiting (by simp [hready]), hbuf, (validUserBuf_iff.mp hbuf).1⟩

end AxiomRT.Dispatch
