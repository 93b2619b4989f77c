import AxiomRT.Dispatch.History
import AxiomRT.Dispatch.Proofs.AtomicityProofs
import AxiomRT.Dispatch.Proofs.LifecycleProofs

/-!
# Proofs: the rendezvous of a send and a receive

How a move changes one endpoint and the staging buffer, and what the moves of `sys_send` and
`sys_recv` do to the two tasks that meet.
-/

namespace AxiomRT.Dispatch

open Lib

variable {img : Image} {table : List ServiceDef} {c c' d : Core}

/-! ## Frame lemmas -/

namespace Core

@[simp] theorem irqRouteSet_kmsg (c : Core) (d : DevId) (r : IrqRoute) :
    (c.irqRouteSet d r).kmsg = c.kmsg := rfl

@[simp] theorem wake_kmsg (c : Core) (e : EpId) (t : Slot) (f : Tcb → Tcb) :
    (c.wake e t f).kmsg = c.kmsg := rfl

theorem resume_kmsg (c : Core) (next : Slot) : (c.resume next).kmsg = c.kmsg := by
  unfold resume
  cases (c.tasks next).pendingIpc <;> rfl

theorem notify_kmsg (c : Core) (e : EpId) (code : UInt8) : (c.notify e code).kmsg = c.kmsg := by
  unfold notify
  cases c.endpoints e with
  | idle => rfl
  | senderWaiting tid len => rfl
  | receiverWaiting tid dst cap =>
    dsimp only
    split_ifs <;> rfl

theorem fault_kmsg (c : Core) : c.fault.kmsg = c.kmsg := by
  unfold fault
  rw [notify_kmsg, notify_kmsg]
  rfl

/-- A notification un-registers a receiver or leaves the endpoint. -/
theorem notify_endpoints_cases (c : Core) (e₀ e : EpId) (code : UInt8) :
    (c.notify e₀ code).endpoints e = c.endpoints e ∨
      ((∃ tid dst cap, c.endpoints e = .receiverWaiting tid dst cap) ∧
        (c.notify e₀ code).endpoints e = .idle) := by
  by_cases he : e = e₀
  · subst he
    unfold notify
    cases hep : c.endpoints e with
    | idle => exact Or.inl hep
    | senderWaiting tid len => exact Or.inl hep
    | receiverWaiting tid dst cap =>
      refine Or.inr ⟨⟨tid, dst, cap, rfl⟩, ?_⟩
      dsimp only
      split_ifs <;> exact Function.update_self ..
  · exact Or.inl (notify_endpoints_ne c code he)

theorem fault_endpoints_cases (c : Core) (e : EpId) :
    c.fault.endpoints e = c.endpoints e ∨
      ((∃ tid dst cap, c.endpoints e = .receiverWaiting tid dst cap) ∧
        c.fault.endpoints e = .idle) := by
  unfold fault
  set c₀ := (c.setState c.current .faulted).irqDrop c.current with hc₀
  have h₀ : c₀.endpoints e = c.endpoints e := rfl
  set c₁ := c₀.notify Kernel.epFault Kernel.faultCodeWatchdog with hc₁
  rcases notify_endpoints_cases c₀ Kernel.epFault e Kernel.faultCodeWatchdog with h₁ | ⟨hr, h₁⟩
  · rcases notify_endpoints_cases c₁ Kernel.epEvent e Kernel.faultCodeWatchdog with h₂ | ⟨hr, h₂⟩
    · exact Or.inl (h₂.trans h₁)
    · rw [hc₁, h₁] at hr
      exact Or.inr ⟨hr, h₂⟩
  · refine Or.inr ⟨hr, ?_⟩
    rcases notify_endpoints_cases c₁ Kernel.epEvent e Kernel.faultCodeWatchdog with h₂ | ⟨-, h₂⟩
    · exact h₂.trans h₁
    · exact h₂

theorem setA0_seen (c : Core) (v : Int) : (c.setA0 v).seen = c.seen := rfl

theorem wake_seen (c : Core) (e : EpId) (t : Slot) (f : Tcb → Tcb) :
    (c.wake e t f).seen = c.seen := rfl

/-- The running task sees the bytes copied to it. -/
theorem seen_copyBytesToUser (c : Core) (va : Nat) {bytes : List UInt8} {len : Nat}
    (hlen : bytes.length = len) : (c.copyBytesToUser va bytes).seen va len = bytes := by
  subst hlen
  have hread : (c.copyBytesToUser va bytes).readUser = fun a =>
      if va ≤ a ∧ a < va + bytes.length then bytes.getD (a - va) 0 else c.mem c.satp a := by
    funext a
    simp only [readUser, copyBytesToUser, touch, Function.update_self]
  unfold seen
  rw [hread]
  exact window_store _ va bytes 0

theorem length_bytesOf (data : Fin ipcMsgMax → UInt8) {len : Nat} (h : len ≤ ipcMsgMax) :
    (bytesOf data len).length = len := by
  rw [bytesOf, List.length_take, List.length_ofFn, Nat.min_eq_left h]

/-- A task with a pending delivery gets its bytes and its result when it resumes. -/
theorem resume_pending {t : Slot} {pm : PendingMsg} (h : (c.tasks t).pendingIpc = some pm)
    (hlen : pm.len ≤ ipcMsgMax) : (c.resume t).frame.a0 = pm.len ∧
      (c.resume t).seen pm.dst pm.len = bytesOf pm.data pm.len := by
  have hres : c.resume t =
      ((c.activate t).copyBytesToUser pm.dst (bytesOf pm.data pm.len)).setA0 pm.len := by
    simp only [resume, h]
  rw [hres]
  refine ⟨TrapFrame.a0_setA0_len _ hlen, ?_⟩
  exact seen_copyBytesToUser (c.activate t) pm.dst (length_bytesOf pm.data hlen)

/-- A task without one resumes with its saved frame. -/
theorem resume_frame {t : Slot} (h : (c.tasks t).pendingIpc = none) :
    (c.resume t).frame = (c.tasks t).frame := by
  simp only [resume, h]
  rfl

end Core

/-! ## The staging buffer -/

/-- A move leaves the staging buffer, or it is a send that passes its checks. -/
theorem Move.kmsg_cases {tr : Trap} (hm : Move img table c tr c') : c'.kmsg = c.kmsg ∨
    ∃ e buf len, tr = .ecall ∧ SendReq img c e buf len ∧
      c'.kmsg = (c.copyFromUser buf len).kmsg := by
  cases hm with
  | ret tasks current endpoints kmsg routes satp miss mem ipc plain => exact Or.inl kmsg
  | sendBusy req ep => exact Or.inr ⟨_, _, _, rfl, req, rfl⟩
  | sendDeliver req ep fits => exact Or.inr ⟨_, _, _, rfl, req, rfl⟩
  | sendTooBig req ep small => exact Or.inr ⟨_, _, _, rfl, req, rfl⟩
  | sendPark req ep sel => exact Or.inr ⟨_, _, _, rfl, req, Core.resume_kmsg ..⟩
  | recvIrq req irq fits => exact Or.inl (by simp)
  | recvTake req irq ep fits => exact Or.inl (by simp)
  | recvPark req irq ep fits sel => exact Or.inl (Core.resume_kmsg ..)
  | yield sys sel => exact Or.inl (Core.resume_kmsg ..)
  | exit sys sel => exact Or.inl (Core.resume_kmsg ..)
  | spawn sys ctl entry vacant fresh => exact Or.inl rfl
  | rearm sys ctl entry dead => exact Or.inl rfl
  | restart sys ctl names other used started => exact Or.inl rfl
  | kill sys ctl names other used => exact Or.inl rfl
  | killSelf sys ctl names used sel => exact Or.inl (Core.resume_kmsg ..)
  | irqDead sys ctl dead => exact Or.inl rfl
  | irqDeliver sys ctl live ep fits => exact Or.inl rfl
  | irqHold sys ctl live ep => exact Or.inl rfl
  | tick fine top => exact Or.inl rfl
  | preempt fine sel other outranked => exact Or.inl (Core.resume_kmsg ..)
  | watchdog exp sel => exact Or.inl ((Core.resume_kmsg ..).trans (Core.fault_kmsg _))
  | fault sel => exact Or.inl ((Core.resume_kmsg ..).trans (Core.fault_kmsg _))

/-! ## One endpoint -/

/-- What a move does to one endpoint. -/
inductive EpChange (img : Image) (c : Core) (tr : Trap) (c' : Core) (e : EpId) : Prop where
  | same (h : c'.endpoints e = c.endpoints e)
  | cleared (h : c'.endpoints e = .idle)
  | sender {buf len : Nat} (tr : tr = .ecall) (req : SendReq img c e buf len)
      (h : c'.endpoints e = .senderWaiting c.current len)
      (kmsg : c'.kmsg = (c.copyFromUser buf len).kmsg)
  | receiver {dst cap : Nat} (tr : tr = .ecall) (req : RecvReq c e dst cap)
      (h : c'.endpoints e = .receiverWaiting c.current dst cap)
      (irq : c.irqPendingFor e.val c.current = none)

theorem EpChange.of_idle {tr : Trap} {e₀ : EpId}
    (h : c'.endpoints = Function.update c.endpoints e₀ .idle) (e : EpId) :
    EpChange img c tr c' e := by
  by_cases he : e = e₀
  · subst he
    refine .cleared ?_
    rw [h, Function.update_self]
  · refine .same ?_
    rw [h, Function.update_of_ne he]

theorem EpChange.of_clear {tr : Trap} (slot : Slot)
    (h : c'.endpoints = (c.epClearForTask slot).endpoints) (e : EpId) :
    EpChange img c tr c' e := by
  rcases Core.epClearForTask_cases c slot e with hc | ⟨-, hc⟩
  · exact .same ((congrFun h e).trans hc)
  · exact .cleared ((congrFun h e).trans hc)

theorem EpChange.of_fault {tr : Trap} (e : EpId) (h : c'.endpoints e = c.fault.endpoints e) :
    EpChange img c tr c' e := by
  rcases Core.fault_endpoints_cases c e with hc | ⟨-, hc⟩
  · exact .same (h.trans hc)
  · exact .cleared (h.trans hc)

theorem Move.epChange {tr : Trap} (hm : Move img table c tr c') (e : EpId) :
    EpChange img c tr c' e := by
  cases hm with
  | ret tasks current endpoints kmsg routes satp miss mem ipc plain =>
    exact .same (congrFun endpoints e)
  | sendBusy req ep => exact .same rfl
  | sendDeliver req ep fits => exact .of_idle rfl e
  | sendTooBig req ep small => exact .of_idle rfl e
  | @sendPark e₀ buf len next req ep sel =>
    by_cases he : e = e₀
    · subst he
      refine .sender rfl req ?_ (Core.resume_kmsg ..)
      rw [Core.resume_endpoints, Core.park_endpoints, Function.update_self]
    · refine .same ?_
      rw [Core.resume_endpoints, Core.park_endpoints, Function.update_of_ne he]
      rfl
  | recvIrq req irq fits => exact .same rfl
  | recvTake req irq ep fits => exact .of_idle rfl e
  | @recvPark e₀ dst cap next req irq ep fits sel =>
    by_cases he : e = e₀
    · subst he
      refine .receiver rfl req ?_ irq
      rw [Core.resume_endpoints, Core.park_endpoints, Function.update_self]
    · refine .same ?_
      rw [Core.resume_endpoints, Core.park_endpoints, Function.update_of_ne he]
      rfl
  | yield sys sel => exact .same (by rw [Core.resume_endpoints]; rfl)
  | exit sys sel => exact .same (by rw [Core.resume_endpoints]; rfl)
  | spawn sys ctl entry vacant fresh => exact .same rfl
  | @rearm slot d f sys ctl entry dead => exact .of_clear slot (by rfl) e
  | @restart slot f sys ctl names other used started => exact .of_clear slot (by rfl) e
  | @kill slot sys ctl names other used => exact .of_clear slot (by rfl) e
  | killSelf sys ctl names used sel =>
    exact .of_clear c.current (by rw [Core.resume_endpoints]; rfl) e
  | irqDead sys ctl dead => exact .same rfl
  | irqDeliver sys ctl live ep fits => exact .of_idle rfl e
  | irqHold sys ctl live ep => exact .same rfl
  | tick fine top => exact .same rfl
  | preempt fine sel other outranked => exact .same (by rw [Core.resume_endpoints]; rfl)
  | watchdog exp sel =>
    rcases Core.fault_endpoints_cases c.countMiss e with hc | ⟨-, hc⟩
    · exact .same ((congrFun (Core.resume_endpoints ..) e).trans hc)
    · exact .cleared ((congrFun (Core.resume_endpoints ..) e).trans hc)
  | fault sel => exact .of_fault e (congrFun (Core.resume_endpoints ..) e)

/-! ## Sends and receives -/

/-- A send that passes its checks resolves to one endpoint. -/
theorem SendReq.unique {e e' : EpId} {buf buf' len len' : Nat} (h : SendReq img c e buf len)
    (h' : SendReq img c e' buf' len') : e = e' ∧ buf = buf' ∧ len = len' := by
  have he := h.resolves.symm.trans h'.resolves
  rw [CapCheck.ok.injEq] at he
  exact ⟨Fin.ext he, h.buf_eq.symm.trans h'.buf_eq, h.len_eq.symm.trans h'.len_eq⟩

theorem RecvReq.unique {e e' : EpId} {dst dst' cap cap' : Nat} (h : RecvReq c e dst cap)
    (h' : RecvReq c e' dst' cap') : e = e' ∧ dst = dst' ∧ cap = cap' := by
  have he := h.resolves.symm.trans h'.resolves
  rw [CapCheck.ok.injEq] at he
  exact ⟨Fin.ext he, h.dst_eq.symm.trans h'.dst_eq, h.cap_eq.symm.trans h'.cap_eq⟩

theorem SendReq.not_recvReq {e e' : EpId} {buf len dst cap : Nat} (h : SendReq img c e buf len) :
    ¬ RecvReq c e' dst cap := by
  intro h'
  have hsys := h'.sys
  rw [h.sys] at hsys
  cases hsys

/-- The running task receives the message of the sender `s` parked on `e`. -/
structure Takes (c : Core) (tr : Trap) (c' : Core) (e : EpId) (s : Slot) (len dst cap : Nat) :
    Prop where
  trap : tr = .ecall
  req : RecvReq c e dst cap
  current : c'.current = c.current
  cleared : c'.endpoints e = .idle
  result : c'.frame.a0 = len
  bytes : c'.seen dst len = bytesOf c.kmsg len
  woken : (c'.tasks s).state = .ready
  pending : (c'.tasks s).pendingIpc = (c.tasks s).pendingIpc
  returned : (c'.tasks s).frame.a0 = len

/-- A receive from a parked sender takes its message. -/
theorem takes_of_fits {e : EpId} {dst cap len : Nat} {s : Slot} (req : RecvReq c e dst cap)
    (fits : len ≤ cap ∧ validUserBuf dst len = true) :
    Takes c .ecall (((c.checkIn.copyBytesToUser dst (bytesOf c.kmsg len)).setA0 len).wake e s
      fun t => { t with frame := t.frame.setA0 len }) e s len dst cap := by
  have hlen : len ≤ ipcMsgMax := (validUserBuf_iff.mp fits.2).1
  refine ⟨rfl, req, rfl, ?_, TrapFrame.a0_setA0_len _ hlen, ?_, ?_, ?_, ?_⟩
  · rw [Core.wake_endpoints, Function.update_self]
  · rw [Core.wake_seen, Core.setA0_seen]
    exact Core.seen_copyBytesToUser c.checkIn dst (Core.length_bytesOf c.kmsg hlen)
  · rw [Core.wake_tasks, Function.update_self]
  · rw [Core.wake_tasks, Function.update_self]
    rfl
  · rw [Core.wake_tasks, Function.update_self]
    exact TrapFrame.a0_setA0_len _ hlen

/-- A parked sender leaves its endpoint when its message is taken, when it is killed or when it is
made to start over. -/
theorem Move.sender_leaves {tr : Trap} (hm : Move img table c tr c') (h : Inv c) {e : EpId}
    {s : Slot} {len : Nat} (ep : c.endpoints e = .senderWaiting s len)
    (hleft : c'.endpoints e ≠ .senderWaiting s len) :
    (∃ dst cap, Takes c tr c' e s len dst cap) ∨
      (c.frame.sys ≠ some .recv ∧ ((c'.tasks s).state = .killed ∨ Renews table c tr s)) := by
  have hwait : (c.endpoints e).waiter = some s := Core.waiter_of_sender ep
  have hidle : ∀ {e₀ : EpId} {w : Ep}, c.endpoints e₀ ≠ .senderWaiting s len →
      c'.endpoints = Function.update c.endpoints e₀ w → False := by
    intro e₀ w hne hc'
    have he : e ≠ e₀ := by
      rintro rfl
      exact hne ep
    rw [hc', Function.update_of_ne he] at hleft
    exact hleft ep
  have hclear : ∀ {slot : Slot}, c'.endpoints = (c.epClearForTask slot).endpoints → s = slot := by
    intro slot hc'
    rcases Core.epClearForTask_cases c slot e with hsame | ⟨hw, -⟩
    · rw [hc', hsame] at hleft
      exact absurd ep hleft
    · rw [hwait] at hw
      exact Option.some.inj hw
  have hfault : ∀ {d : Core}, d.endpoints = c.endpoints → c'.endpoints = d.fault.endpoints →
      False := by
    intro d hd hc'
    rcases Core.fault_endpoints_cases d e with hsame | ⟨⟨tid, dst, cap, hr⟩, -⟩
    · rw [hc', hsame, hd] at hleft
      exact hleft ep
    · rw [hd, ep] at hr
      cases hr
  cases hm with
  | ret tasks current endpoints kmsg routes satp miss mem ipc plain =>
    rw [endpoints] at hleft
    exact absurd ep hleft
  | sendBusy req ep₀ => exact absurd ep hleft
  | sendDeliver req ep₀ fits => exact (hidle (by simp [ep₀]) rfl).elim
  | sendTooBig req ep₀ small => exact (hidle (by simp [ep₀]) rfl).elim
  | sendPark req ep₀ sel => exact (hidle (by simp [ep₀]) (Core.resume_endpoints ..)).elim
  | recvIrq req irq fits => exact absurd ep hleft
  | @recvTake e₀ dst cap tid len₀ req irq ep₀ fits =>
    by_cases he : e = e₀
    · subst he
      rw [ep, Ep.senderWaiting.injEq] at ep₀
      obtain ⟨rfl, rfl⟩ := ep₀
      exact Or.inl ⟨dst, cap, takes_of_fits req fits⟩
    · rw [Core.wake_endpoints, Function.update_of_ne he] at hleft
      exact absurd ep hleft
  | recvPark req irq ep₀ fits sel =>
    exact (hidle (by simp [ep₀]) (Core.resume_endpoints ..)).elim
  | yield sys sel =>
    rw [Core.resume_endpoints] at hleft
    exact absurd ep hleft
  | exit sys sel =>
    rw [Core.resume_endpoints] at hleft
    exact absurd ep hleft
  | spawn sys ctl entry vacant fresh => exact absurd ep hleft
  | @rearm slot d f sys ctl entry dead =>
    obtain rfl := hclear rfl
    exact Or.inr ⟨by simp [sys], Or.inr ⟨rfl, ctl, Or.inl ⟨sys, ⟨d, entry⟩, dead⟩⟩⟩
  | @restart slot f sys ctl names other used started =>
    obtain rfl := hclear rfl
    exact Or.inr ⟨by simp [sys], Or.inr ⟨rfl, ctl, Or.inr ⟨sys, names, other, used, started⟩⟩⟩
  | @kill slot sys ctl names other used =>
    obtain rfl := hclear rfl
    exact Or.inr ⟨by simp [sys], Or.inl (by simp)⟩
  | killSelf sys ctl names used sel =>
    have hs : s = c.current := hclear (Core.resume_endpoints ..)
    exact absurd hs (h.waiter_ne_current hwait)
  | irqDead sys ctl dead => exact absurd ep hleft
  | irqDeliver sys ctl live ep₀ fits => exact (hidle (by simp [ep₀]) rfl).elim
  | irqHold sys ctl live ep₀ => exact absurd ep hleft
  | tick fine top => exact absurd ep hleft
  | preempt fine sel other outranked =>
    rw [Core.resume_endpoints] at hleft
    exact absurd ep hleft
  | watchdog exp sel => exact (hfault (d := c.countMiss) rfl (Core.resume_endpoints ..)).elim
  | fault sel => exact (hfault (d := c) rfl (Core.resume_endpoints ..)).elim

/-- The staging buffer holds the bytes of the send that wrote it last. -/
theorem bytesOf_copyFromUser (c : Core) (buf : Nat) {len : Nat} (hlen : len ≤ ipcMsgMax) :
    bytesOf (c.copyFromUser buf len).kmsg len = c.seen buf len :=
  take_ofFn_eq_window hlen fun _ hi => if_pos hi

/-- The message staged for a receiver has the bytes of the staging buffer. -/
theorem bytesOf_ofKmsg (dst len : Nat) (kmsg : Fin ipcMsgMax → UInt8) :
    bytesOf (PendingMsg.ofKmsg dst len kmsg).data len = bytesOf kmsg len :=
  bytesOf_eq_iff.mpr fun _ hi => if_pos hi

/-- The running task sends to the receiver `r` parked on `e`, for which the message is staged. -/
structure Stages (img : Image) (c c' : Core) (e : EpId) (r : Slot) (buf len dst cap : Nat) :
    Prop where
  req : SendReq img c e buf len
  parked : c.endpoints e = .receiverWaiting r dst cap
  current : c'.current = c.current
  cleared : c'.endpoints e = .idle
  result : c'.frame.a0 = len
  ready : (c'.tasks r).state = .ready
  staged : ∃ pm, (c'.tasks r).pendingIpc = some pm ∧ pm.dst = dst ∧ pm.len = len ∧
    bytesOf pm.data len = c.seen buf len

/-- How a `sys_send` can end. -/
inductive SendOutcome (img : Image) (c c' : Core) : Prop where
  | refused (endpoints : c'.endpoints = c.endpoints) (tasks : c'.tasks = c.tasks)
      (current : c'.current = c.current) (neg : c'.frame.a0 < 0)
  | staged {e : EpId} {r : Slot} {buf len dst cap : Nat} (h : Stages img c c' e r buf len dst cap)
      (others : ∀ t, t ≠ r → c'.tasks t = c.tasks t)
  | dropped {e : EpId} {r : Slot} {buf len dst cap : Nat} (req : SendReq img c e buf len)
      (parked : c.endpoints e = .receiverWaiting r dst cap)
      (small : ¬ (len ≤ cap ∧ validUserBuf dst len = true)) (cleared : c'.endpoints e = .idle)
      (pending : ∀ t, (c'.tasks t).pendingIpc = (c.tasks t).pendingIpc)
  | parks {e : EpId} {buf len : Nat} (req : SendReq img c e buf len) (idle : c.endpoints e = .idle)
      (parked : c'.endpoints e = .senderWaiting c.current len)
      (current : c'.current ≠ c.current) (kmsg : c'.kmsg = (c.copyFromUser buf len).kmsg)
      (pending : ∀ t, (c'.tasks t).pendingIpc = none ∨
        (c'.tasks t).pendingIpc = (c.tasks t).pendingIpc)

theorem Move.sendOutcome {tr : Trap} (hm : Move img table c tr c') (htr : tr = .ecall)
    (hsys : c.frame.sys = some .send) : SendOutcome img c c' := by
  have hother : ∀ {s : Sys}, c.frame.sys = some s → s = .send := by
    intro s hs
    rw [hsys, Option.some.injEq] at hs
    exact hs.symm
  cases hm with
  | ret tasks current endpoints kmsg routes satp miss mem ipc plain =>
    exact .refused endpoints tasks current (ipc (Or.inl hsys))
  | sendBusy req ep =>
    refine .refused (by simp) (by simp) (by simp) ?_
    have ha0 : ∀ f : TrapFrame, (f.setA0 errInvalidArg).a0 = errInvalidArg := fun f =>
      TrapFrame.a0_setA0 f (by decide) (by decide)
    exact (ha0 _).trans_lt (by decide)
  | @sendDeliver e buf len tid dst cap req ep fits =>
    have hlen := req.len_le
    refine .staged ⟨req, ep, rfl, ?_, ?_, ?_, ?_⟩ fun t ht => ?_
    · exact Function.update_self ..
    · exact TrapFrame.a0_setA0_len _ hlen
    · rw [Core.setA0_tasks, Core.wake_tasks, Function.update_self]
    · refine ⟨.ofKmsg dst len (c.checkIn.copyFromUser buf len).kmsg, ?_, rfl, rfl, ?_⟩
      · rw [Core.setA0_tasks, Core.wake_tasks, Function.update_self]
      · rw [bytesOf_ofKmsg]
        exact bytesOf_copyFromUser c.checkIn buf hlen
    · rw [Core.setA0_tasks, Core.wake_tasks, Function.update_of_ne ht]
      rfl
  | @sendTooBig e buf len tid dst cap req ep small =>
    refine .dropped req ep small (Function.update_self ..) fun t => ?_
    rw [Core.setA0_tasks, Core.wake_tasks]
    by_cases ht : t = tid
    · rw [ht, Function.update_self]
      rfl
    · rw [Function.update_of_ne ht]
      rfl
  | @sendPark e buf len next req ep sel =>
    refine .parks req ep ?_ ?_ (Core.resume_kmsg ..) fun t => ?_
    · rw [Core.resume_endpoints, Core.park_endpoints, Function.update_self]
    · rw [Core.resume_current]
      exact selectHighest_park_ne (c := c.checkIn.copyFromUser buf len) sel
    · rw [Core.resume_tasks]
      by_cases ht : t = next
      · rw [ht, Function.update_self]
        exact Or.inl rfl
      · rw [Function.update_of_ne ht, Core.park_tasks]
        by_cases hc : t = c.current
        · rw [hc]
          exact Or.inr (by simp)
        · exact Or.inr (by simp [hc])
  | recvIrq req irq fits => cases hother req.sys
  | recvTake req irq ep fits => cases hother req.sys
  | recvPark req irq ep fits sel => cases hother req.sys
  | yield sys sel => cases hother sys
  | exit sys sel => cases hother sys
  | spawn sys ctl entry vacant fresh => cases hother sys
  | rearm sys ctl entry dead => cases hother sys
  | restart sys ctl names other used started => cases hother sys
  | kill sys ctl names other used => cases hother sys
  | killSelf sys ctl names used sel => cases hother sys
  | irqDead sys ctl dead => cases hother sys
  | irqDeliver sys ctl live ep fits => cases hother sys
  | irqHold sys ctl live ep => cases hother sys
  | tick fine top => cases htr
  | preempt fine sel other outranked => cases htr
  | watchdog exp sel => cases htr
  | fault sel => cases htr

/-- A receive that finds a sender parked and no event pending takes the message, if it succeeds. -/
theorem Move.takes {tr : Trap} (hm : Move img table c tr c') (htr : tr = .ecall) {e : EpId}
    {s : Slot} {len dst cap : Nat} (req : RecvReq c e dst cap)
    (hirq : c.irqPendingFor e.val c.current = none) (ep : c.endpoints e = .senderWaiting s len)
    (hpos : 0 ≤ c'.frame.a0) : Takes c tr c' e s len dst cap := by
  have hother : ∀ {sys : Sys}, c.frame.sys = some sys → sys = .recv := by
    intro sys hs
    rw [req.sys, Option.some.injEq] at hs
    exact hs.symm
  cases hm with
  | ret tasks current endpoints kmsg routes satp miss mem ipc plain =>
    have hneg := ipc (Or.inr req.sys)
    omega
  | sendBusy req₀ ep₀ => cases hother req₀.sys
  | sendDeliver req₀ ep₀ fits => cases hother req₀.sys
  | sendTooBig req₀ ep₀ small => cases hother req₀.sys
  | sendPark req₀ ep₀ sel => cases hother req₀.sys
  | recvIrq req₀ irq fits =>
    obtain ⟨rfl, -, -⟩ := req.unique req₀
    rw [hirq] at irq
    cases irq
  | recvTake req₀ irq ep₀ fits =>
    obtain ⟨rfl, rfl, rfl⟩ := req.unique req₀
    rw [ep, Ep.senderWaiting.injEq] at ep₀
    obtain ⟨rfl, rfl⟩ := ep₀
    exact takes_of_fits req fits
  | recvPark req₀ irq ep₀ fits sel =>
    obtain ⟨rfl, -, -⟩ := req.unique req₀
    rw [ep] at ep₀
    cases ep₀
  | yield sys sel => cases hother sys
  | exit sys sel => cases hother sys
  | spawn sys ctl entry vacant fresh => cases hother sys
  | rearm sys ctl entry dead => cases hother sys
  | restart sys ctl names other used started => cases hother sys
  | kill sys ctl names other used => cases hother sys
  | killSelf sys ctl names used sel => cases hother sys
  | irqDead sys ctl dead => cases hother sys
  | irqDeliver sys ctl live ep fits => cases hother sys
  | irqHold sys ctl live ep => cases hother sys
  | tick fine top => cases htr
  | preempt fine sel other outranked => cases htr
  | watchdog exp sel => cases htr
  | fault sel => cases htr

end AxiomRT.Dispatch
