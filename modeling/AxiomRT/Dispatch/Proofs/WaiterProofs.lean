import AxiomRT.Dispatch.Proofs.InvariantProofs

/-!
# Proofs: blocked tasks and their records

Every path that resets an endpoint also wakes or retires the task it un-registers, except one: a
fault notification resets the endpoint of a receiver that parked with capacity 0 and leaves it
blocked. As long as notifications find room, no blocked task is lost.
-/

namespace AxiomRT.Dispatch

open Lib

variable {img : Image} {table : List ServiceDef} {c c' : Core} {run : Option Slot}

/-! ## Building blocks -/

namespace NoLostWaiter

/-- No task becomes blocked, and the records of the tasks that stay blocked stay. -/
theorem mono (h : NoLostWaiter c)
    (hb : ∀ t, (c'.tasks t).state = .blocked → (c.tasks t).state = .blocked)
    (hw : ∀ e t, (c'.tasks t).state = .blocked → (c.endpoints e).waiter = some t →
      (c'.endpoints e).waiter = some t) : NoLostWaiter c' := by
  intro t ht
  obtain ⟨e, he⟩ := h t (hb t ht)
  exact ⟨e, hw e t ht he⟩

theorem congr (h : NoLostWaiter c) (ht : c'.tasks = c.tasks) (he : c'.endpoints = c.endpoints) :
    NoLostWaiter c' := by
  intro t hb
  rw [ht] at hb
  rw [he]
  exact h t hb

theorem setA0 (h : NoLostWaiter c) (v : Int) : NoLostWaiter (c.setA0 v) :=
  h.congr (Core.setA0_tasks c v) (Core.setA0_endpoints c v)

/-- Overwrite a block with one that is not blocked. -/
theorem setTask (h : NoLostWaiter c) {t : Slot} {b : Tcb} (hb : b.state ≠ .blocked) :
    NoLostWaiter (c.setTask t b) := by
  refine h.mono (fun u hu => ?_) fun e u _ he => he
  by_cases hut : u = t
  · subst hut
    rw [show (c.setTask u b).tasks u = b from Function.update_self ..] at hu
    exact absurd hu hb
  · rwa [show (c.setTask t b).tasks u = c.tasks u from Function.update_of_ne hut ..] at hu

theorem saveAs (h : NoLostWaiter c) {s : RtState} (hs : s ≠ .blocked) :
    NoLostWaiter (c.saveAs s) :=
  h.setTask (b := { c.tasks c.current with frame := c.frame, state := s }) hs

theorem retire (h : NoLostWaiter c) {s : RtState} (hs : s ≠ .blocked) :
    NoLostWaiter (c.setState c.current s) :=
  h.setTask (b := { c.tasks c.current with state := s }) hs

/-- Un-register a task whose block is overwritten with one that is not blocked. -/
theorem release (h : NoLostWaiter c) {t : Slot} {b : Tcb} (hb : b.state ≠ .blocked)
    (hset : c'.tasks = (c.setTask t b).tasks)
    (hw : ∀ e u, u ≠ t → (c.endpoints e).waiter = some u → (c'.endpoints e).waiter = some u) :
    NoLostWaiter c' := by
  have hne : ∀ u, (c'.tasks u).state = .blocked → u ≠ t := by
    rintro u hu rfl
    rw [hset, show (c.setTask u b).tasks u = b from Function.update_self ..] at hu
    exact hb hu
  refine h.mono (fun u hu => ?_) fun e u hu he => hw e u (hne u hu) he
  have hut := hne u hu
  rwa [hset, show (c.setTask t b).tasks u = c.tasks u from Function.update_of_ne hut ..] at hu

theorem wake (h : NoLostWaiter c) {e : EpId} {t : Slot} {f : Tcb → Tcb}
    (hw : (c.endpoints e).waiter = some t) : NoLostWaiter (c.wake e t f) := by
  refine h.release (t := t) (b := { f (c.tasks t) with state := .ready }) (by simp) rfl ?_
  intro e' u hu he'
  have hne : e' ≠ e := by
    rintro rfl
    rw [hw] at he'
    exact hu (Option.some.inj he').symm
  rwa [show (c.wake e t f).endpoints e' = c.endpoints e' from Function.update_of_ne hne ..]

theorem park (h : NoLostWaiter c) {e : EpId} {w : Ep} (hidle : c.endpoints e = .idle)
    (hw : w.waiter = some c.current) : NoLostWaiter (c.park e w) := by
  intro t ht
  by_cases htc : t = c.current
  · subst htc
    refine ⟨e, ?_⟩
    rw [show (c.park e w).endpoints e = w from Function.update_self ..]
    exact hw
  · rw [show (c.park e w).tasks t = c.tasks t from Function.update_of_ne htc ..] at ht
    obtain ⟨e', he'⟩ := h t ht
    have hne : e' ≠ e := by
      rintro rfl
      rw [hidle] at he'
      cases he'
    refine ⟨e', ?_⟩
    rwa [show (c.park e w).endpoints e' = c.endpoints e' from Function.update_of_ne hne ..]

theorem resume (h : NoLostWaiter c) (next : Slot) : NoLostWaiter (c.resume next) := by
  have hact : NoLostWaiter (c.activate next) :=
    (h.setTask (t := next)
      (b := { c.tasks next with state := .running, pendingIpc := none }) (by simp)).congr rfl rfl
  simp only [Core.resume]
  cases (c.tasks next).pendingIpc with
  | none => exact hact
  | some pm => exact hact.congr rfl rfl

theorem kill (h : NoLostWaiter c) (slot : Slot) : NoLostWaiter (c.kill slot) := by
  refine h.release (t := slot) (b := { c.tasks slot with state := .killed, pendingIpc := none })
    (by simp) rfl ?_
  intro e u hu he
  exact Core.waiter_epClearForTask.mpr ⟨he, hu⟩

theorem rearm (h : NoLostWaiter c) (slot : Slot) (f : TrapFrame) :
    NoLostWaiter (c.rearm slot f) := by
  refine h.release (t := slot)
    (b := { c.tasks slot with frame := f, pendingIpc := none, state := .ready }) (by simp) ?_ ?_
  · exact Core.rearm_tasks c slot f
  · intro e u hu he
    exact Core.waiter_epClearForTask.mpr ⟨he, hu⟩

/-- A notification that finds room wakes the task it un-registers. -/
theorem notify (h : NoLostWaiter c) (hwf : WellFormed run c) {e : EpId} (code : UInt8)
    (hroom : (c.endpoints e).hasRoom 1 = true) : NoLostWaiter (c.notify e code) := by
  simp only [Core.notify]
  cases hep : c.endpoints e with
  | idle => exact h
  | senderWaiting tid len => exact h
  | receiverWaiting tid dst cap =>
    have hcap : 1 ≤ cap := by simpa [hep, Ep.hasRoom] using hroom
    have hbuf : validUserBuf dst 1 = true :=
      validUserBuf_mono (hwf.receiver_buf e tid dst cap hep) hcap
    simp only [hcap, hbuf, and_self, if_true]
    exact h.wake (Core.waiter_of_receiver hep)

theorem fault (h : NoLostWaiter c) (hwf : WellFormed (some c.current) c)
    (hfault : (c.endpoints Kernel.epFault).hasRoom 1 = true)
    (hevent : (c.endpoints Kernel.epEvent).hasRoom 1 = true) : NoLostWaiter c.fault := by
  have hwf₁ : WellFormed none ((c.setState c.current .faulted).irqDrop c.current) :=
    (hwf.retire (s := .faulted) (by simp)).congr rfl rfl
  have h₁ : NoLostWaiter ((c.setState c.current .faulted).irqDrop c.current) :=
    (h.retire (s := .faulted) (by simp)).congr rfl rfl
  have h₂ := h₁.notify hwf₁ (e := Kernel.epFault) Kernel.faultCodeWatchdog hfault
  refine h₂.notify (hwf₁.notify _ _) _ ?_
  rw [Core.notify_endpoints_ne _ _ (by decide)]
  exact hevent

end NoLostWaiter

/-! ## Moves and runs -/

/-- At the start no task is blocked. -/
theorem Started.noLostWaiter {k : Kernel} (h : Started k) : NoLostWaiter k.toCore := by
  intro t ht
  by_cases h0 : t = 0
  · rw [h0, h.running] at ht
    cases ht
  · rcases h.others t h0 with hs | hs <;> rw [hs] at ht <;> cases ht

/-- A move loses no waiter, provided the notifications of a fault find room. -/
theorem Move.noLostWaiter {tr : Trap} (hm : Move img table c tr c') (hinv : Inv c)
    (h : NoLostWaiter c)
    (hroom : (tr = .timer ∧ c.expired) ∨ (∃ reason, tr = .fault reason) →
      (c.endpoints Kernel.epFault).hasRoom 1 = true ∧
        (c.endpoints Kernel.epEvent).hasRoom 1 = true) : NoLostWaiter c' := by
  have hin : NoLostWaiter c.checkIn := h.congr (by simp) (by simp)
  have hcopy : ∀ buf len, NoLostWaiter (c.checkIn.copyFromUser buf len) :=
    fun buf len => hin.congr (by simp) (by simp)
  have hcount : NoLostWaiter c.countMiss := h.congr (by simp) (by simp)
  cases hm with
  | ret tasks current endpoints kmsg routes satp miss mem ipc plain => exact h.congr tasks endpoints
  | sendBusy req ep => exact h.congr (by simp) (by simp)
  | @sendDeliver e buf len tid dst cap req ep fits =>
    exact ((hcopy buf len).wake (Core.waiter_of_receiver ep)).setA0 _
  | @sendTooBig e buf len tid dst cap req ep small =>
    exact ((hcopy buf len).wake (Core.waiter_of_receiver ep)).setA0 _
  | @sendPark e buf len next req ep sel =>
    exact ((hcopy buf len).park ep rfl).resume next
  | recvIrq req irq fits => exact h.congr (by simp) (by simp)
  | @recvTake e dst cap tid len req irq ep fits =>
    have hout : NoLostWaiter ((c.checkIn.copyBytesToUser dst (bytesOf c.kmsg len)).setA0 len) :=
      h.congr (by simp) (by simp)
    exact hout.wake (Core.waiter_of_sender ep)
  | recvPark req irq ep fits sel => exact (hin.park ep rfl).resume _
  | yield sys sel => exact (hin.saveAs (by simp)).resume _
  | exit sys sel => exact (hin.retire (by simp)).resume _
  | spawn sys ctl entry vacant fresh => exact (hin.setTask (by simp [fresh.1])).congr rfl rfl
  | rearm sys ctl entry dead => exact (hin.rearm _ _).setA0 _
  | restart sys ctl names other used started => exact (hin.rearm _ _).setA0 _
  | kill sys ctl names other used => exact (hin.kill _).setA0 _
  | killSelf sys ctl names used sel => exact (hin.kill _).resume _
  | irqDead sys ctl dead => exact h.congr (by simp) (by simp)
  | irqDeliver sys ctl live ep fits => exact (hin.wake (Core.waiter_of_receiver ep)).setA0 _
  | irqHold sys ctl live ep => exact h.congr (by simp) (by simp)
  | tick fine top => exact h.congr (by simp) (by simp)
  | preempt fine sel other outranked =>
    exact (hcount.saveAs (by simp)).resume _
  | watchdog exp sel =>
    obtain ⟨hf, he⟩ := hroom (Or.inl ⟨rfl, exp⟩)
    exact (hcount.fault hinv.countMiss hf he).resume _
  | fault sel =>
    obtain ⟨hf, he⟩ := hroom (Or.inr ⟨_, rfl⟩)
    exact (h.fault hinv.wf hf he).resume _

/-- A step loses no waiter, provided the notifications it sends find room. -/
theorem step_noLostWaiter {k k' : Kernel} {ev : Event} (hs : step img k ev = .ok k')
    (hinv : Inv k.toCore) (h : NoLostWaiter k.toCore) (hroom : NoticesFit k ev) :
    NoLostWaiter k'.toCore := by
  refine (step_move hs).noLostWaiter (hinv.enter ev) (h.congr rfl rfl) ?_
  rintro (⟨htr, hexp⟩ | ⟨reason, htr⟩)
  · refine hroom ?_
    simp only [Kernel.faults, htr]
    simpa [Kernel.watchdogExpired, Core.expired, Core.enter] using hexp
  · refine hroom ?_
    simp only [Kernel.faults, htr]

/-- In every run whose fault notifications find room, every blocked task is recorded on exactly one
endpoint. -/
theorem run_blockedOnce (x : Run img) (hroom : x.EveryStep NoticesFit) : x.Always BlockedOnce := by
  have hboth : x.Always fun k => Inv k.toCore ∧ NoLostWaiter k.toCore := by
    refine x.invariant_of ?_ ?_ hroom
    · intro k hk
      exact ⟨hk.started.inv, hk.started.noLostWaiter⟩
    · intro k ev k' h hfit hs
      exact ⟨step_inv hs h.1, step_noLostWaiter hs h.1 h.2 hfit⟩
  intro i hi t ht
  obtain ⟨hinv, hno⟩ := hboth i hi
  obtain ⟨e, he⟩ := hno t ht
  exact ⟨e, he, fun e' he' => hinv.wf.waiter_once e' e t he' he⟩

/-- The supervisor waits for a fault with room for one byte, `faulty_task` faults, and the
supervisor takes the notification. -/
def noticedFault : List Event :=
  [sampleCall 8 0 0 0 0, sampleCall 8 4 0 0 0, sampleCall 2 0 0 0 0,
    sampleCall 4 0 0x200000 1 0, sampleFault]

theorem survives_noticedFault : survives noticedFault = true := rfl

theorem noticedFault_blockedOnce :
    (sampleRun noticedFault survives_noticedFault).EveryStep NoticesFit ∧
      (sampleRun noticedFault survives_noticedFault).Always BlockedOnce := by
  have hfit : (sampleRun noticedFault survives_noticedFault).EveryStep NoticesFit := by
    have h : ∀ i < 5, NoticesFit (sampleState noticedFault i) (noticedFault.getD i sampleTick) := by
      decide
    exact h
  exact ⟨hfit, run_blockedOnce _ hfit⟩

/-- The supervisor parks on the fault channel with capacity 0, and `faulty_task` faults while
`hello` is ready. -/
def unnoticedFault : List Event :=
  [sampleCall 8 0 0 0 0, sampleCall 8 4 0 0 0, sampleCall 8 6 0 0 0, sampleCall 2 0 0 0 0,
    sampleCall 4 0 0x200000 0 0, sampleFault]

theorem survives_unnoticedFault : survives unnoticedFault = true := rfl

/-- A receiver that parked with capacity 0 is un-registered by the notification and stays
blocked. -/
theorem unnoticedFault_lost : ¬ ∀ x : Run sampleImage, x.Always BlockedOnce := by
  intro h
  have hblocked : ((sampleState unnoticedFault 6).tasks 1).state = .blocked := by decide
  have hnowhere : ∀ e, ((sampleState unnoticedFault 6).endpoints e).waiter ≠ some 1 := by
    decide
  obtain ⟨e, he, -⟩ :=
    h (sampleRun unnoticedFault survives_unnoticedFault) 6 (Nat.le_refl 6) 1 hblocked
  exact hnowhere e he

end AxiomRT.Dispatch
