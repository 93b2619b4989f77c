import AxiomRT.Dispatch.HostIpc
import AxiomRT.Dispatch.Proofs.IntegrityProofs
import AxiomRT.Fault.Proofs.WireProofs
import AxiomRT.Ipc.Proofs.ExactlyOnceProofs
import AxiomRT.Lib.Simulation

/-!
# Proofs: the dispatcher's endpoints follow the host IPC model

A move is no call on an endpoint, or one call of the host model whose reply the tasks see. Along a
run the calls add up to a history of the host endpoint, whose delivery is exactly once.
-/

namespace AxiomRT.Ipc.Rendezvous

/-- Any of the three calls. -/
def call (r : Rendezvous) : Call → Rendezvous × Reply
  | .send s m => ((r.send s m).1, .send (r.send s m).2)
  | .recv t => ((r.recv t).1, .recv (r.recv t).2)
  | .cancel t => ((r.cancel t).1, .cancel (r.cancel t).2)

theorem call_endpoint (r : Rendezvous) (id : EndpointId) (c : Call) :
    (r.endpoint id).call c = .ok ((r.call c).1.endpoint id, (r.call c).2) := by
  cases c with
  | send s m => simp only [Endpoint.call, send_endpoint, Except.map, call]
  | recv t => simp only [Endpoint.call, recv_endpoint, Except.map, call]
  | cancel t => simp only [Endpoint.call, cancel_endpoint, call]

end AxiomRT.Ipc.Rendezvous

/-- One more call on the endpoint, as it is recorded. -/
theorem AxiomRT.Ipc.Accounts.call {t : Trace} {id : EndpointId} {r : Rendezvous} {l : Ledger}
    (h : Accounts t id r l) (call : Call) :
    ∃ l', Accounts (t.record ⟨t.ep, call, (r.call call).2, (r.call call).1.endpoint id⟩) id
      (r.call call).1 l' := by
  cases call with
  | send s m => exact h.send s m
  | recv s => exact h.recv s
  | cancel s => exact h.cancel s

namespace AxiomRT.Dispatch

open Lib
open Ipc (Rendezvous Message EndpointId)
open Fault (kernelSender)

variable {img : Image} {table : List ServiceDef} {c c' d : Core} {tr : Trap} {e : EpId}
  {intact : Prop} {r : Rendezvous} {id : EndpointId} {run : Option Slot}

/-! ## Threads -/

theorem toNat_thread (t : Slot) : (thread t).toNat = t.val + 1 := by
  have ht : t.val < 16 := t.isLt
  exact UInt32.toNat_ofNat_of_lt' (by simp only [UInt32.size]; omega)

theorem thread_inj {t u : Slot} : thread t = thread u ↔ t = u := by
  refine ⟨fun h => ?_, congrArg thread⟩
  have hnat := congrArg UInt32.toNat h
  rw [toNat_thread, toNat_thread] at hnat
  exact Fin.ext (by omega)

theorem kernelSender_ne_thread (t : Slot) : kernelSender ≠ thread t := by
  intro h
  have hnat := congrArg UInt32.toNat h
  rw [toNat_thread] at hnat
  cases hnat

/-! ## Where the host endpoint stands -/

theorem mirrors_idle (h : c.endpoints e = .idle) :
    Mirrors intact c e (r.endpoint id) ↔ r = .idle := by
  simp only [Mirrors, h]
  cases r <;> simp [Rendezvous.endpoint]

theorem mirrors_receiver {t : Slot} {dst cap : Nat}
    (h : c.endpoints e = .receiverWaiting t dst cap) :
    Mirrors intact c e (r.endpoint id) ↔ r = .receiving (thread t) := by
  simp only [Mirrors, h]
  cases r <;> simp [Rendezvous.endpoint]

theorem mirrors_sender {t : Slot} {len : Nat} (h : c.endpoints e = .senderWaiting t len) :
    Mirrors intact c e (r.endpoint id) ↔
      ∃ m, r = .sending (thread t) m ∧ m.header = ⟨thread t, len⟩ ∧
        (intact → bytesOf c.kmsg len = m.data) := by
  simp only [Mirrors, h]
  cases r with
  | idle => simp [Rendezvous.endpoint]
  | receiving u => simp [Rendezvous.endpoint]
  | sending u m =>
    simp only [Rendezvous.endpoint, Option.some.injEq, Ipc.EndpointState.senderWaiting.injEq,
      Rendezvous.sending.injEq]
    constructor
    · rintro ⟨rfl, m, rfl, hm⟩
      exact ⟨m, ⟨rfl, rfl⟩, hm⟩
    · rintro ⟨m', ⟨rfl, rfl⟩, hm⟩
      exact ⟨rfl, m, rfl, hm⟩

/-- What is staged for a parked sender on `e` is left as it is. -/
def KeptAt (c c' : Core) (e : EpId) : Prop :=
  ∀ t len, c.endpoints e = .senderWaiting t len → bytesOf c'.kmsg len = bytesOf c.kmsg len

theorem Mirrors.keep {ep : Ipc.Endpoint} (h : Mirrors intact c e ep)
    (he : c'.endpoints e = c.endpoints e) (hk : intact → KeptAt c c' e) :
    Mirrors intact c' e ep := by
  simp only [Mirrors, he]
  cases hep : c.endpoints e with
  | idle =>
    simp only [Mirrors, hep] at h
    exact h
  | receiverWaiting t dst cap =>
    simp only [Mirrors, hep] at h
    exact h
  | senderWaiting t len =>
    simp only [Mirrors, hep] at h
    obtain ⟨hstate, m, hpend, hhead, hdata⟩ := h
    exact ⟨hstate, m, hpend, hhead, fun hi => (hk hi t len hep).trans (hdata hi)⟩

/-! ## Notifications -/

namespace Core

variable {t u : Slot} {dst cap : Nat}

theorem notify_receiver (code : UInt8) (hep : c.endpoints e = .receiverWaiting u dst cap) :
    (c.notify e code).endpoints e = .idle := by
  simp only [notify, hep]
  split_ifs
  · rw [wake_endpoints, Function.update_self]
  · exact Function.update_self ..

/-- A notification changes no task but the one that waits for it. -/
theorem notify_far (code : UInt8) (hno : ∀ dst cap, c.endpoints e ≠ .receiverWaiting t dst cap) :
    (c.notify e code).tasks t = c.tasks t := by
  simp only [notify]
  cases hep : c.endpoints e with
  | idle => rfl
  | senderWaiting u len => rfl
  | receiverWaiting u dst cap =>
    have hne : t ≠ u := by
      rintro rfl
      exact hno dst cap hep
    dsimp only
    split_ifs
    · rw [wake_tasks, Function.update_of_ne hne]
    · rfl

theorem notify_delivers (code : UInt8) (hep : c.endpoints e = .receiverWaiting u dst cap)
    (fits : 1 ≤ cap ∧ validUserBuf dst 1 = true) :
    ((c.notify e code).tasks u).state = .ready ∧
      ((c.notify e code).tasks u).pendingIpc = some (.oneByte dst code) := by
  simp only [notify, hep, fits, and_self, if_true, wake_tasks, Function.update_self]

theorem fault_receiver (he : IsFaultChannel e) (hep : c.endpoints e = .receiverWaiting u dst cap) :
    c.fault.endpoints e = .idle := by
  rcases he with rfl | rfl
  · exact (notify_endpoints_ne _ _ (by decide)).trans (notify_receiver _ hep)
  · exact notify_receiver _ ((notify_endpoints_ne _ _ (by decide)).trans hep)

theorem fault_elsewhere (he : ¬ IsFaultChannel e) : c.fault.endpoints e = c.endpoints e := by
  have hne : e ≠ Kernel.epFault ∧ e ≠ Kernel.epEvent := not_or.mp he
  exact (notify_endpoints_ne _ _ hne.2).trans (notify_endpoints_ne _ _ hne.1)

/-- A fault leaves every other task that waits for no report of it. -/
theorem fault_far (ht : t ≠ c.current)
    (hno : ∀ e, IsFaultChannel e → ∀ dst cap, c.endpoints e ≠ .receiverWaiting t dst cap) :
    c.fault.tasks t = c.tasks t := by
  have hevent : ((((c.setState c.current .faulted).irqDrop c.current).notify Kernel.epFault
      Kernel.faultCodeWatchdog)).endpoints Kernel.epEvent = c.endpoints Kernel.epEvent :=
    notify_endpoints_ne _ _ (by decide)
  have hfault : ((((c.setState c.current .faulted).irqDrop c.current).notify Kernel.epFault
      Kernel.faultCodeWatchdog)).tasks t = c.tasks t :=
    (notify_far (c := (c.setState c.current .faulted).irqDrop c.current) _
      (hno _ (Or.inl rfl))).trans (Function.update_of_ne ht ..)
  rw [← hfault]
  refine notify_far _ ?_
  rw [hevent]
  exact hno _ (Or.inr rfl)

/-- Whoever waits on a channel for faults with room for the report gets it. -/
theorem fault_delivers (hwf : WellFormed run c) (he : IsFaultChannel e)
    (hep : c.endpoints e = .receiverWaiting u dst cap)
    (fits : 1 ≤ cap ∧ validUserBuf dst 1 = true) :
    (c.fault.tasks u).state = .ready ∧
      (c.fault.tasks u).pendingIpc = some (.oneByte dst Kernel.faultCodeWatchdog) := by
  rcases he with rfl | rfl
  · have hno : ∀ dst cap, (((c.setState c.current .faulted).irqDrop c.current).notify
        Kernel.epFault Kernel.faultCodeWatchdog).endpoints Kernel.epEvent ≠
          .receiverWaiting u dst cap := by
      intro dst' cap' hep'
      rw [notify_endpoints_ne _ _ (by decide)] at hep'
      have honce := hwf.waiter_once _ _ u (waiter_of_receiver hep) (waiter_of_receiver hep')
      exact absurd honce (by decide)
    rw [fault, notify_far _ hno]
    exact notify_delivers _ hep fits
  · exact notify_delivers _ ((notify_endpoints_ne _ _ (by decide)).trans hep) fits

end Core

/-! ## Waiting tasks -/

/-- A task stays as it is while its record stands. -/
theorem Move.waiter_kept (hm : Move img table c tr c') (h : Inv c) {t : Slot}
    (hw : (c.endpoints e).waiter = some t) (hrec : c'.endpoints e = c.endpoints e) :
    c'.tasks t = c.tasks t := by
  have hblk : (c.tasks t).state = .blocked := h.wf.waiter_blocked e t hw
  have hcur : t ≠ c.current := h.waiter_ne_current hw
  -- the task that is resumed was ready
  have hresume : ∀ {d : Core} {cur next : Slot}, d.selectHighest cur = some next →
      d.tasks t = c.tasks t → (d.resume next).tasks t = c.tasks t := by
    intro d cur next hsel hd
    have hne : t ≠ next := by
      rintro rfl
      have hready := Core.selectHighest_ready hsel
      rw [hd, hblk] at hready
      cases hready
    rw [Core.resume_other d hne, hd]
  -- a task that is woken leaves its own record
  have hwoken : ∀ {e₀ : EpId} {u : Slot}, (c.endpoints e₀).waiter = some u →
      c'.endpoints e₀ = .idle → t ≠ u := by
    rintro e₀ u hu hidle rfl
    have he : e₀ = e := h.wf.waiter_once e₀ e t hu hw
    subst he
    rw [← hrec, hidle] at hw
    cases hw
  have hcleared : ∀ {slot : Slot}, c'.endpoints = (c.epClearForTask slot).endpoints → t ≠ slot := by
    rintro slot hc' rfl
    have hclear : ((c.epClearForTask t).endpoints e).waiter = some t := by
      rw [← hc', hrec]
      exact hw
    exact (Core.waiter_epClearForTask.mp hclear).2 rfl
  have hfault : ∀ {d : Core} {next : Slot}, d.tasks = c.tasks → d.current = c.current →
      d.endpoints = c.endpoints → c' = d.fault.resume next →
      d.fault.selectHighest c.current = some next → c'.tasks t = c.tasks t := by
    rintro d next htasks hcurrent heps rfl hsel
    refine hresume hsel ?_
    rw [← htasks]
    refine Core.fault_far (hcurrent ▸ hcur) fun e₀ he₀ dst cap hep => ?_
    have hidle : (d.fault.resume next).endpoints e₀ = .idle := by
      rw [Core.resume_endpoints]
      exact Core.fault_receiver he₀ hep
    rw [heps] at hep
    exact hwoken (Core.waiter_of_receiver hep) hidle rfl
  cases hm with
  | ret tasks current endpoints kmsg routes satp miss mem ipc plain => exact congrFun tasks t
  | sendBusy req ep => rfl
  | sendDeliver req ep fits =>
    exact Function.update_of_ne (hwoken (Core.waiter_of_receiver ep) (Function.update_self ..)) ..
  | sendTooBig req ep small =>
    exact Function.update_of_ne (hwoken (Core.waiter_of_receiver ep) (Function.update_self ..)) ..
  | sendPark req ep sel => exact hresume sel (Function.update_of_ne hcur ..)
  | recvIrq req irq fits => rfl
  | recvTake req irq ep fits =>
    exact Function.update_of_ne (hwoken (Core.waiter_of_sender ep) (Function.update_self ..)) ..
  | recvPark req irq ep fits sel => exact hresume sel (Function.update_of_ne hcur ..)
  | yield sys sel => exact hresume sel (Function.update_of_ne hcur ..)
  | exit sys sel => exact hresume sel (Function.update_of_ne hcur ..)
  | @spawn slot b d routes sys ctl entry vacant fresh granted space =>
    have hne : t ≠ slot := by
      rintro rfl
      rw [hblk] at vacant
      cases vacant
    exact Function.update_of_ne hne ..
  | rearm sys ctl entry dead =>
    rw [Core.setA0_tasks, Core.rearm_tasks, Function.update_of_ne (hcleared rfl)]
    rfl
  | restart sys ctl names other used started =>
    rw [Core.setA0_tasks, Core.rearm_tasks, Function.update_of_ne (hcleared rfl)]
    rfl
  | kill sys ctl names other used => exact Function.update_of_ne (hcleared rfl) ..
  | killSelf sys ctl names used sel => exact hresume sel (Function.update_of_ne hcur ..)
  | irqDead sys ctl dead => rfl
  | irqDeliver sys ctl live ep fits =>
    exact Function.update_of_ne (hwoken (Core.waiter_of_receiver ep) (Function.update_self ..)) ..
  | irqHold sys ctl live ep => rfl
  | tick fine top => rfl
  | @preempt next fine sel other outranked =>
    have hne : t ≠ next := by
      rintro rfl
      have hready := Core.selectHighest_ready sel
      rw [hblk] at hready
      cases hready
    rw [Core.resume_other _ hne]
    exact Function.update_of_ne hcur ..
  | watchdog exp sel => exact hfault (d := c.countMiss) rfl rfl rfl rfl sel
  | fault sel => exact hfault (d := c) rfl rfl rfl rfl sel

/-! ## Messages -/

/-- The message of a task that sends the `len` bytes it sees at `buf`. -/
def userMessage (c : Core) (buf len : Nat) (h : len ≤ ipcMsgMax) : Message :=
  .ofBytes (thread c.current) (c.seen buf len) (by simpa [Core.seen] using h)

theorem userMessage_header (c : Core) (buf len : Nat) (h : len ≤ ipcMsgMax) :
    (userMessage c buf len h).header = ⟨thread c.current, len⟩ := by
  simp [userMessage, Message.ofBytes, Core.seen]

theorem userMessage_data (c : Core) (buf len : Nat) (h : len ≤ ipcMsgMax) :
    (userMessage c buf len h).data = c.seen buf len := Message.data_ofBytes ..

theorem length_userMessage (c : Core) (buf len : Nat) (h : len ≤ ipcMsgMax) :
    (userMessage c buf len h).data.length = len := by
  rw [userMessage_data, Core.seen, length_window]

/-- A one-byte message of the kernel. -/
def notice (code : UInt8) : Message :=
  .ofBytes kernelSender [code] (by rw [List.length_singleton]; decide)

theorem notice_data (code : UInt8) : (notice code).data = [code] := Message.data_ofBytes ..

theorem bytesOf_oneByte (dst : Nat) (code : UInt8) :
    bytesOf (PendingMsg.oneByte dst code).data 1 = [code] := by
  rw [bytesOf, List.ofFn_succ, List.take_succ_cons, List.take_zero]
  rfl

/-- Whoever has a delivery pending gets it when it runs, now or later. -/
theorem Hands.resume {t next : Slot} {cap : Nat} {pm : PendingMsg} {m : Message}
    (fits : m.data.length ≤ cap) (hready : (d.tasks t).state = .ready)
    (hpend : (d.tasks t).pendingIpc = some pm) (hbytes : bytesOf pm.data pm.len = m.data)
    (hlen : pm.len ≤ ipcMsgMax) : Hands (d.resume next) t pm.dst cap m := by
  by_cases hn : t = next
  · subst hn
    obtain ⟨ha0, hseen⟩ := Core.resume_pending hpend hlen
    have hm : m.data.length = pm.len := by
      rw [← hbytes]
      exact Core.length_bytesOf pm.data hlen
    refine .copied fits (Core.resume_current ..) ?_ ?_
    · rw [hm]
      exact ha0
    · rw [hm, hseen, hbytes]
  · refine .staged fits ?_ ?_ rfl hbytes
    · rw [Core.resume_other d hn]
      exact hready
    · rw [Core.resume_other d hn]
      exact hpend

/-- A fault is reported to whoever waits for it with room for one byte. -/
theorem Hands.report (hwf : WellFormed run d) (hch : IsFaultChannel e) {t next : Slot}
    {dst cap : Nat} (hep : d.endpoints e = .receiverWaiting t dst cap)
    (fits : 1 ≤ cap ∧ validUserBuf dst 1 = true) :
    Hands (d.fault.resume next) t dst cap (notice Kernel.faultCodeWatchdog) := by
  obtain ⟨hready, hpend⟩ := Core.fault_delivers hwf hch hep fits
  have hone : (notice Kernel.faultCodeWatchdog).data.length ≤ cap := by
    rw [notice_data]
    exact fits.1
  refine .resume hone hready hpend ?_ (show 1 ≤ ipcMsgMax by decide)
  rw [notice_data]
  exact bytesOf_oneByte ..

theorem Kernel.faults_iff {k : Kernel} {ev : Event} :
    k.faults ev = true ↔ (k.toCore.enter ev).FaultsOn ev.trap := by
  cases htr : ev.trap <;>
    simp [Kernel.faults, htr, Core.FaultsOn, Kernel.watchdogExpired, Core.expired, Core.enter]

/-- So it is on every trap that faults the running task. -/
theorem Move.hands_report (hm : Move img table c tr c') (h : Inv c) (hfaults : c.FaultsOn tr)
    (hch : IsFaultChannel e) {t : Slot} {dst cap : Nat}
    (hep : c.endpoints e = .receiverWaiting t dst cap)
    (fits : 1 ≤ cap ∧ validUserBuf dst 1 = true) :
    Hands c' t dst cap (notice Kernel.faultCodeWatchdog) := by
  rcases hfaults with ⟨rfl, hexp⟩ | ⟨reason, rfl⟩
  · cases hm with
    | tick fine top => exact absurd hexp fine
    | preempt fine sel other outranked => exact absurd hexp fine
    | watchdog exp sel => exact .report h.countMiss hch hep fits
  · cases hm with
    | fault sel => exact .report h.wf hch hep fits

/-! ## Moves -/

/-- What a move does on the host endpoint. -/
inductive Follows (intact : Prop) (img : Image) (table : List ServiceDef) (c : Core) (tr : Trap)
    (c' : Core) (e : EpId) (r : Rendezvous) : Rendezvous → Prop where
  | quiet (spared : Spared img c tr c' e) : Follows intact img table c tr c' e r r
  | called {call : Ipc.Call} (issued : Issues img table c tr e call)
      (answered : Answers intact c c' e call (r.call call).2) :
      Follows intact img table c tr c' e r (r.call call).1

/-- The host endpoint can follow the move, and then stands where the dispatcher's stands. -/
def Matched (intact : Prop) (img : Image) (table : List ServiceDef) (c : Core) (tr : Trap)
    (c' : Core) (e : EpId) (id : EndpointId) (r : Rendezvous) : Prop :=
  ∃ r', Follows intact img table c tr c' e r r' ∧ Mirrors intact c' e (r'.endpoint id)

/-- A send on `e` that passes its checks. -/
theorem SendReq.issues {buf len : Nat} (req : SendReq img c e buf len) :
    Issues img table c .ecall e
      (.send (thread c.current) (userMessage c buf len req.len_le)) := by
  refine ⟨?_, Or.inl ⟨rfl, rfl, buf, len, req, userMessage_data ..⟩⟩
  rw [userMessage_header]

theorem RecvReq.issues {dst cap : Nat} (req : RecvReq c e dst cap) :
    Issues img table c .ecall e (.recv (thread c.current)) := ⟨rfl, rfl, dst, cap, req⟩

/-- Whoever waits is cancelled. -/
theorem Mirrors.cancel {slot : Slot} (hr : Mirrors intact c e (r.endpoint id))
    (hw : (c.endpoints e).waiter = some slot) :
    (r.call (.cancel (thread slot))) = (.idle, .cancel .cancelled) := by
  cases hep : c.endpoints e with
  | idle =>
    rw [hep] at hw
    cases hw
  | senderWaiting t len =>
    rw [hep] at hw
    cases hw
    obtain ⟨m, rfl, -⟩ := (mirrors_sender hep).mp hr
    simp [Rendezvous.call, Rendezvous.cancel]
  | receiverWaiting t dst cap =>
    rw [hep] at hw
    cases hw
    rw [(mirrors_receiver hep).mp hr]
    simp [Rendezvous.call, Rendezvous.cancel]

theorem follows_cancel {slot : Slot} (hr : Mirrors intact c e (r.endpoint id))
    (hw : (c.endpoints e).waiter = some slot)
    (hissue : Issues img table c tr e (.cancel (thread slot))) (hidle : c'.endpoints e = .idle) :
    Matched intact img table c tr c' e id r := by
  have hcall := hr.cancel hw
  refine ⟨_, .called hissue ?_, ?_⟩
  · rw [hcall]
    trivial
  · rw [hcall]
    exact (mirrors_idle hidle).mpr rfl

/-- The message goes to whoever waits for one. -/
theorem follows_deliver {t : Slot} {dst cap : Nat} {s : Threads.ThreadId} {m : Message}
    (hr : Mirrors intact c e (r.endpoint id)) (hep : c.endpoints e = .receiverWaiting t dst cap)
    (hissue : Issues img table c tr e (.send s m)) (hidle : c'.endpoints e = .idle)
    (hands : Hands c' t dst cap m)
    (hsender : s = thread c.current → c'.current = c.current ∧ c'.frame.a0 = m.data.length) :
    Matched intact img table c tr c' e id r := by
  rw [(mirrors_receiver hep).mp hr]
  refine ⟨_, .called hissue ?_, ?_⟩
  · exact ⟨⟨t, dst, cap, rfl, hep, hands⟩, hsender⟩
  · exact (mirrors_idle hidle).mpr rfl

/-! ### Traps that make no call -/

/-- The record stands, and a send or receive on `e` was refused. -/
theorem Move.follows_quiet (hm : Move img table c tr c') (h : Inv c)
    (hr : Mirrors intact c e (r.endpoint id)) (hk : intact → KeptAt c c' e)
    (hrec : c'.endpoints e = c.endpoints e)
    (hsend : ∀ buf len, tr = .ecall → SendReq img c e buf len →
      c'.current = c.current ∧ c'.frame.a0 < 0)
    (hrecv : ∀ dst cap, tr = .ecall → RecvReq c e dst cap → c'.current = c.current ∧
      (c'.frame.a0 < 0 ∨ (c.irqPendingFor e.val c.current).isSome = true)) :
    Matched intact img table c tr c' e id r :=
  ⟨r, .quiet ⟨hrec, fun _ hw => hm.waiter_kept h hw hrec, hsend, hrecv⟩, hr.keep hrec hk⟩

/-- The trap is no IPC call. -/
theorem Move.follows_other (hm : Move img table c tr c') (h : Inv c)
    (hr : Mirrors intact c e (r.endpoint id)) (hk : intact → KeptAt c c' e)
    (hrec : c'.endpoints e = c.endpoints e)
    (hsys : tr = .ecall → ∃ s, c.frame.sys = some s ∧ s ≠ .send ∧ s ≠ .recv) :
    Matched intact img table c tr c' e id r := by
  refine hm.follows_quiet h hr hk hrec (fun buf len htr req => ?_) fun dst cap htr req => ?_
  · obtain ⟨s, hs, hne, -⟩ := hsys htr
    rw [req.sys] at hs
    cases hs
    exact absurd rfl hne
  · obtain ⟨s, hs, -, hne⟩ := hsys htr
    rw [req.sys] at hs
    cases hs
    exact absurd rfl hne

/-- The trap is a send on another endpoint. -/
theorem Move.follows_sendElsewhere (hm : Move img table c tr c') (h : Inv c)
    (hr : Mirrors intact c e (r.endpoint id)) (hk : intact → KeptAt c c' e) {e₀ : EpId}
    {buf len : Nat} (req : SendReq img c e₀ buf len) (hne : e ≠ e₀)
    (hrec : c'.endpoints e = c.endpoints e) : Matched intact img table c tr c' e id r := by
  refine hm.follows_quiet h hr hk hrec (fun buf' len' _ req' => ?_) fun dst cap _ req' => ?_
  · exact absurd (req'.unique req).1 hne
  · exact absurd req' req.not_recvReq

/-- The trap is a receive on another endpoint. -/
theorem Move.follows_recvElsewhere (hm : Move img table c tr c') (h : Inv c)
    (hr : Mirrors intact c e (r.endpoint id)) (hk : intact → KeptAt c c' e) {e₀ : EpId}
    {dst cap : Nat} (req : RecvReq c e₀ dst cap) (hne : e ≠ e₀)
    (hrec : c'.endpoints e = c.endpoints e) : Matched intact img table c tr c' e id r := by
  refine hm.follows_quiet h hr hk hrec (fun buf len _ req' => ?_) fun dst' cap' _ req' => ?_
  · exact absurd req req'.not_recvReq
  · exact absurd (req'.unique req).1 hne

/-! ### Sends -/

/-- One sender waits at a time. -/
theorem SendReq.follows_busy (h : Inv c) (hr : Mirrors intact c e (r.endpoint id)) {tid : Slot}
    {buf len plen : Nat} (req : SendReq img c e buf len)
    (ep : c.endpoints e = .senderWaiting tid plen)
    (hk : intact → KeptAt c ((c.checkIn.copyFromUser buf len).setA0 errInvalidArg) e) :
    Matched intact img table c .ecall ((c.checkIn.copyFromUser buf len).setA0 errInvalidArg) e id
      r := by
  obtain ⟨m, rfl, hm⟩ := (mirrors_sender ep).mp hr
  have hne : thread tid ≠ thread c.current :=
    fun ht => h.waiter_ne_current (Core.waiter_of_sender ep) (thread_inj.mp ht)
  refine ⟨_, .called req.issues ?_, ?_⟩
  · simp only [Rendezvous.call, Rendezvous.send, hne, if_false]
    exact ⟨rfl, rfl, TrapFrame.a0_setA0 _ (by decide) (by decide)⟩
  · exact hr.keep rfl hk

/-- The parked receiver has room for the message, which is staged for it. -/
theorem SendReq.follows_deliver (hr : Mirrors intact c e (r.endpoint id)) {tid : Slot}
    {buf len dst cap : Nat} (req : SendReq img c e buf len)
    (ep : c.endpoints e = .receiverWaiting tid dst cap)
    (fits : len ≤ cap ∧ validUserBuf dst len = true) :
    Matched intact img table c .ecall (((c.checkIn.copyFromUser buf len).wake e tid ({ · with
      pendingIpc := some (.ofKmsg dst len (c.checkIn.copyFromUser buf len).kmsg) })).setA0 len)
      e id r := by
  have hlen := length_userMessage c buf len req.len_le
  refine Dispatch.follows_deliver hr ep req.issues (Function.update_self ..) ?_ fun _ => ⟨rfl, ?_⟩
  · refine .staged (hlen.trans_le fits.1) ?_
      (by rw [Core.setA0_tasks, Core.wake_tasks, Function.update_self]) rfl ?_
    · rw [Core.setA0_tasks, Core.wake_tasks, Function.update_self]
    · rw [userMessage_data]
      exact (bytesOf_ofKmsg ..).trans (bytesOf_copyFromUser c.checkIn buf req.len_le)
  · rw [hlen]
    exact TrapFrame.a0_setA0_len _ req.len_le

/-- The receiver has no room for the message; the sender is told that it arrived. -/
theorem SendReq.follows_tooLarge (h : Inv c) (hr : Mirrors intact c e (r.endpoint id)) {tid : Slot}
    {buf len dst cap : Nat} (req : SendReq img c e buf len)
    (ep : c.endpoints e = .receiverWaiting tid dst cap)
    (small : ¬ (len ≤ cap ∧ validUserBuf dst len = true)) :
    Matched intact img table c .ecall (((c.checkIn.copyFromUser buf len).wake e tid fun t =>
      { t with frame := t.frame.setA0 errMsgTooLarge }).setA0 len) e id r := by
  have hlen := length_userMessage c buf len req.len_le
  have hcap : cap < len := by
    by_contra hle
    have hle := Nat.not_lt.mp hle
    exact small ⟨hle, validUserBuf_mono (h.wf.receiver_buf e tid dst cap ep) hle⟩
  refine Dispatch.follows_deliver hr ep req.issues (Function.update_self ..) ?_ fun _ => ⟨rfl, ?_⟩
  · refine .tooLarge (hcap.trans_eq hlen.symm) ?_ ?_ ?_
    · rw [Core.setA0_tasks, Core.wake_tasks, Function.update_self]
    · rw [Core.setA0_tasks, Core.wake_tasks, Function.update_self]
      exact h.wf.waiter_pending (Core.waiter_of_receiver ep)
    · rw [Core.setA0_tasks, Core.wake_tasks, Function.update_self]
      exact TrapFrame.a0_setA0 _ (by decide) (by decide)
  · rw [hlen]
    exact TrapFrame.a0_setA0_len _ req.len_le

/-- Nobody waits: the sender parks with its message. -/
theorem SendReq.follows_park (hr : Mirrors intact c e (r.endpoint id)) {next : Slot}
    {buf len : Nat} (req : SendReq img c e buf len) (ep : c.endpoints e = .idle)
    (sel : ((c.checkIn.copyFromUser buf len).park e
      (.senderWaiting c.current len)).selectHighest c.current = some next) :
    Matched intact img table c .ecall
      (((c.checkIn.copyFromUser buf len).park e (.senderWaiting c.current len)).resume next)
      e id r := by
  rw [(mirrors_idle ep).mp hr]
  have hne : c.current ≠ next :=
    (selectHighest_park_ne (c := c.checkIn.copyFromUser buf len) sel).symm
  refine ⟨_, .called req.issues ?_, ?_⟩
  · show (Core.tasks _ c.current).state = .blocked
    rw [Core.resume_other _ hne]
    simp
  · refine (mirrors_sender ?_).mpr ⟨userMessage c buf len req.len_le, rfl,
      userMessage_header .., fun _ => ?_⟩
    · rw [Core.resume_endpoints, Core.park_endpoints, Function.update_self]
    · rw [Core.resume_kmsg, userMessage_data]
      exact bytesOf_copyFromUser c.checkIn buf req.len_le

/-! ### Receives -/

/-- The receiver takes the message of the parked sender. -/
theorem RecvReq.follows_take (hr : Mirrors intact c e (r.endpoint id)) {tid : Slot}
    {dst cap len : Nat} (req : RecvReq c e dst cap) (ep : c.endpoints e = .senderWaiting tid len)
    (htakes : Takes c .ecall c' e tid len dst cap) :
    Matched intact img table c .ecall c' e id r := by
  obtain ⟨m, rfl, hhead, hdata⟩ := (mirrors_sender ep).mp hr
  have hlen : m.header.len = len := by rw [hhead]
  refine ⟨_, .called req.issues ?_, (mirrors_idle htakes.cleared).mpr rfl⟩
  refine ⟨htakes.current, ?_, fun hi => ?_, tid, rfl, htakes.woken, ?_⟩
  · rw [hlen]
    exact htakes.result
  · rw [hlen, req.dst_eq]
    exact htakes.bytes.trans (hdata hi)
  · rw [hlen]
    exact htakes.returned

/-- Nobody waits: the receiver parks with its buffer. -/
theorem RecvReq.follows_park (hr : Mirrors intact c e (r.endpoint id)) {next : Slot}
    {dst cap : Nat} (req : RecvReq c e dst cap) (ep : c.endpoints e = .idle)
    (sel : (c.checkIn.park e (.receiverWaiting c.current dst cap)).selectHighest c.current =
      some next) :
    Matched intact img table c .ecall
      ((c.checkIn.park e (.receiverWaiting c.current dst cap)).resume next) e id r := by
  rw [(mirrors_idle ep).mp hr]
  have hne : c.current ≠ next := (selectHighest_park_ne (c := c.checkIn) sel).symm
  have hparked : ((c.checkIn.park e (.receiverWaiting c.current dst cap)).resume next).endpoints
      e = .receiverWaiting c.current dst cap := by
    rw [Core.resume_endpoints, Core.park_endpoints, Function.update_self]
  refine ⟨_, .called req.issues ?_, (mirrors_receiver hparked).mpr rfl⟩
  show (Core.tasks _ c.current).state = .blocked
  rw [Core.resume_other _ hne]
  simp

/-! ### The kernel's own calls -/

/-- A task that is killed or starts over waits for nothing any more. -/
theorem Move.follows_clear (hm : Move img table c tr c') (h : Inv c)
    (hr : Mirrors intact c e (r.endpoint id)) (hk : intact → KeptAt c c' e)
    {slot : Slot} {sys : Sys} (heps : c'.endpoints = (c.epClearForTask slot).endpoints)
    (hsys : c.frame.sys = some sys)
    (hipc : sys ≠ .send ∧ sys ≠ .recv) (hwhy : Kills c tr slot ∨ Renews table c tr slot) :
    Matched intact img table c tr c' e id r := by
  rcases Core.epClearForTask_cases c slot e with hsame | ⟨hw, hidle⟩
  · exact hm.follows_other h hr hk ((congrFun heps e).trans hsame) fun _ => ⟨sys, hsys, hipc⟩
  · refine follows_cancel hr hw ⟨slot, rfl, ?_⟩ ((congrFun heps e).trans hidle)
    exact hwhy.elim Or.inl (Or.inr ∘ Or.inl)

/-- The report of a fault goes to whoever waits for it with room for one byte; without room, the
wait is over. -/
theorem follows_report (hwf : WellFormed run d) (heps : d.endpoints = c.endpoints)
    (hr : Mirrors intact c e (r.endpoint id)) (hfaults : c.FaultsOn tr) (hch : IsFaultChannel e)
    {t next : Slot} {dst cap : Nat} (hep : c.endpoints e = .receiverWaiting t dst cap)
    (hidle : d.fault.endpoints e = .idle) :
    Matched intact img table c tr (d.fault.resume next) e id r := by
  have hidle' : (d.fault.resume next).endpoints e = .idle := by
    rw [Core.resume_endpoints]
    exact hidle
  by_cases fits : 1 ≤ cap ∧ validUserBuf dst 1 = true
  · have hepd : d.endpoints e = .receiverWaiting t dst cap := by
      rw [heps]
      exact hep
    exact follows_deliver (s := kernelSender) (m := notice Kernel.faultCodeWatchdog) hr hep
      ⟨rfl, Or.inr ⟨rfl, _, Or.inl ⟨hfaults, hch, rfl⟩, notice_data _⟩⟩ hidle'
      (.report hwf hch hepd fits) fun hs => absurd hs (kernelSender_ne_thread _)
  · exact follows_cancel hr (Core.waiter_of_receiver hep)
      ⟨t, rfl, Or.inr (Or.inr ⟨hfaults, hch, dst, cap, hep, fits⟩)⟩ hidle'

theorem Move.follows_fault {next : Slot} (hm : Move img table c tr (d.fault.resume next))
    (h : Inv c) (hr : Mirrors intact c e (r.endpoint id))
    (hk : intact → KeptAt c (d.fault.resume next) e) (hwf : WellFormed run d)
    (heps : d.endpoints = c.endpoints) (hfaults : c.FaultsOn tr) (htr : tr ≠ .ecall) :
    Matched intact img table c tr (d.fault.resume next) e id r := by
  have hsame : d.fault.endpoints e = d.endpoints e →
      Matched intact img table c tr (d.fault.resume next) e id r := by
    intro hrec
    refine hm.follows_other h hr hk ?_ fun hecall => absurd hecall htr
    rw [Core.resume_endpoints, hrec, heps]
  by_cases hch : IsFaultChannel e
  · rcases Core.fault_endpoints_cases d e with hrec | ⟨⟨t, dst, cap, hep⟩, hidle⟩
    · exact hsame hrec
    · rw [heps] at hep
      exact follows_report hwf heps hr hfaults hch hep hidle
  · exact hsame (Core.fault_elsewhere hch)

/-- A device event for the receiver that waits for it. -/
theorem follows_irqDeliver {dev : DevId} {tid : Slot} {dst cap : Nat}
    (hr : Mirrors intact c (devices dev).irqEndpoint (r.endpoint id))
    (sys : c.frame.sys = some .irqRaise)
    (ctl : c.deviceCapCheck c.current (c.frame.arg 0) devRightDriverControl = .ok dev.val)
    (ep : c.endpoints (devices dev).irqEndpoint = .receiverWaiting tid dst cap) (fits : 1 ≤ cap) :
    Matched intact img table c .ecall ((c.checkIn.wake (devices dev).irqEndpoint tid
      ({ · with pendingIpc := some (.oneByte dst irqEventCode) })).setA0 0)
      (devices dev).irqEndpoint id r := by
  refine follows_deliver (s := kernelSender) (m := notice irqEventCode) hr ep
    ⟨rfl, Or.inr ⟨rfl, _, Or.inr ⟨rfl, sys, rfl, dev, ctl, rfl⟩, notice_data _⟩⟩
    (Function.update_self ..) ?_ fun hs => absurd hs (kernelSender_ne_thread _)
  refine .staged ?_ ?_ (by rw [Core.setA0_tasks, Core.wake_tasks, Function.update_self]) rfl ?_
  · rw [notice_data]
    exact fits
  · rw [Core.setA0_tasks, Core.wake_tasks, Function.update_self]
  · rw [notice_data]
    exact bytesOf_oneByte ..

/-! ### All moves -/

/-- The host endpoint can follow every move. -/
theorem Move.follows (hm : Move img table c tr c') (h : Inv c)
    (hr : Mirrors intact c e (r.endpoint id)) (hk : intact → KeptAt c c' e) :
    Matched intact img table c tr c' e id r := by
  have hmove := hm
  cases hm with
  | ret tasks current endpoints kmsg routes satp miss mem ipc plain =>
    exact hmove.follows_quiet h hr hk (congrFun endpoints e)
      (fun _ _ _ req => ⟨current, ipc (Or.inl req.sys)⟩)
      fun _ _ _ req => ⟨current, Or.inl (ipc (Or.inr req.sys))⟩
  | @sendBusy e₀ buf len tid plen req ep =>
    by_cases he : e = e₀
    · subst he
      exact req.follows_busy h hr ep hk
    · exact hmove.follows_sendElsewhere h hr hk req he rfl
  | @sendDeliver e₀ buf len tid dst cap req ep fits =>
    by_cases he : e = e₀
    · subst he
      exact req.follows_deliver hr ep fits
    · exact hmove.follows_sendElsewhere h hr hk req he (Function.update_of_ne he ..)
  | @sendTooBig e₀ buf len tid dst cap req ep small =>
    by_cases he : e = e₀
    · subst he
      exact req.follows_tooLarge h hr ep small
    · exact hmove.follows_sendElsewhere h hr hk req he (Function.update_of_ne he ..)
  | @sendPark e₀ buf len next req ep sel =>
    by_cases he : e = e₀
    · subst he
      exact req.follows_park hr ep sel
    · refine hmove.follows_sendElsewhere h hr hk req he ?_
      rw [Core.resume_endpoints]
      exact Function.update_of_ne he ..
  | @recvIrq e₀ dst cap dev req irq fits =>
    refine hmove.follows_quiet h hr hk rfl (fun buf len _ req' => ?_)
      fun dst' cap' _ req' => ⟨rfl, Or.inr ?_⟩
    · exact absurd req req'.not_recvReq
    · rw [(req'.unique req).1, irq]
      rfl
  | @recvTake e₀ dst cap tid len req irq ep fits =>
    by_cases he : e = e₀
    · subst he
      exact req.follows_take hr ep (takes_of_fits req fits)
    · exact hmove.follows_recvElsewhere h hr hk req he (Function.update_of_ne he ..)
  | @recvPark e₀ dst cap next req irq ep fits sel =>
    by_cases he : e = e₀
    · subst he
      exact req.follows_park hr ep sel
    · refine hmove.follows_recvElsewhere h hr hk req he ?_
      rw [Core.resume_endpoints]
      exact Function.update_of_ne he ..
  | yield sys sel =>
    refine hmove.follows_other h hr hk ?_ fun _ => ⟨_, sys, by decide, by decide⟩
    rw [Core.resume_endpoints]
    rfl
  | exit sys sel =>
    refine hmove.follows_other h hr hk ?_ fun _ => ⟨_, sys, by decide, by decide⟩
    rw [Core.resume_endpoints]
    rfl
  | spawn sys ctl entry vacant fresh =>
    exact hmove.follows_other h hr hk rfl fun _ => ⟨_, sys, by decide, by decide⟩
  | @rearm slot d f sys ctl entry dead =>
    exact hmove.follows_clear h hr hk rfl sys (by decide)
      (Or.inr ⟨rfl, ctl, Or.inl ⟨sys, ⟨d, entry⟩, dead⟩⟩)
  | @restart slot f sys ctl names other used started =>
    exact hmove.follows_clear h hr hk rfl sys (by decide)
      (Or.inr ⟨rfl, ctl, Or.inr ⟨sys, names, other, used, started⟩⟩)
  | @kill slot sys ctl names other used =>
    exact hmove.follows_clear h hr hk rfl sys (by decide) (Or.inl ⟨rfl, sys, ctl, names⟩)
  | killSelf sys ctl names used sel =>
    have hkills : Kills c .ecall c.current := ⟨rfl, sys, ctl, names⟩
    refine hmove.follows_clear h hr hk ?_ sys (by decide) (Or.inl hkills)
    rw [Core.resume_endpoints]
    rfl
  | irqDead sys ctl dead =>
    exact hmove.follows_other h hr hk rfl fun _ => ⟨_, sys, by decide, by decide⟩
  | @irqDeliver dev tid dst cap sys ctl live ep fits =>
    by_cases he : e = (devices dev).irqEndpoint
    · subst he
      exact follows_irqDeliver hr sys ctl ep fits.1
    · exact hmove.follows_other h hr hk (Function.update_of_ne he ..)
        fun _ => ⟨_, sys, by decide, by decide⟩
  | irqHold sys ctl live ep =>
    exact hmove.follows_other h hr hk rfl fun _ => ⟨_, sys, by decide, by decide⟩
  | tick fine top => exact hmove.follows_other h hr hk rfl fun htr => Trap.noConfusion htr
  | preempt fine sel other outranked =>
    refine hmove.follows_other h hr hk ?_ fun htr => Trap.noConfusion htr
    rw [Core.resume_endpoints]
    rfl
  | watchdog exp sel =>
    exact hmove.follows_fault h hr hk h.countMiss rfl (Or.inl ⟨rfl, exp⟩)
      fun htr => Trap.noConfusion htr
  | fault sel =>
    exact hmove.follows_fault h hr hk h.wf rfl (Or.inr ⟨_, rfl⟩) fun htr => Trap.noConfusion htr

/-! ## Runs -/

/-- On every endpoint, a run of the dispatcher is a history of the host IPC model. -/
theorem run_refinesHostIpc (x : Run img) (e : EpId) (id : EndpointId) :
    ∃ t : ℕ → Ipc.Trace, t 0 = .start id ∧
      (∀ i, i ≤ x.len → Ipc.ExactlyOnce (t i) ∧
        Mirrors (x.EveryStep (KeepsStaged img)) (x.st i).toCore e (t i).ep) ∧
      ∀ i, i < x.len → HostStep (x.EveryStep (KeepsStaged img)) img
        ((x.st i).serviceTable.getD []) (entry x i) (x.ev i).trap (x.st (i + 1)).toCore e
        (t i) (t (i + 1)) := by
  have hstart : ∃ r l, Ipc.Accounts (.start id) id r l ∧
      Mirrors (x.EveryStep (KeepsStaged img)) (x.st 0).toCore e (r.endpoint id) := by
    refine ⟨.idle, [], ⟨rfl, rfl, rfl, rfl, rfl, fun _ he => absurd he List.not_mem_nil⟩, ?_⟩
    exact (mirrors_idle (x.init_st.started.idle e)).mpr rfl
  obtain ⟨t, ht₀, hP, hR⟩ := exists_history
    (P := fun i t => ∃ r l, Ipc.Accounts t id r l ∧
      Mirrors (x.EveryStep (KeepsStaged img)) (x.st i).toCore e (r.endpoint id))
    (R := fun i t t' => HostStep (x.EveryStep (KeepsStaged img)) img
      ((x.st i).serviceTable.getD []) (entry x i) (x.ev i).trap (x.st (i + 1)).toCore e t t')
    hstart x.len fun i hi t ⟨r, l, hacc, hmir⟩ => by
      have hkept : x.EveryStep (KeepsStaged img) → KeptAt (entry x i) (x.st (i + 1)).toCore e :=
        fun hkeep s len ep => (hkeep i hi).bytes hi ep
      obtain ⟨r', hfollows, hmir'⟩ :=
        (run_move x hi).follows (run_entry_inv x (Nat.le_of_lt hi)) hmir hkept
      cases hfollows with
      | quiet spared => exact ⟨t, .quiet spared, r, l, hacc, hmir'⟩
      | @called call issued answered =>
        obtain ⟨l', hacc'⟩ := hacc.call call
        refine ⟨_, .called ?_ issued answered, _, l', hacc', hmir'⟩
        rw [hacc.ep]
        exact r.call_endpoint id call
  refine ⟨t, ht₀, fun i hi => ?_, hR⟩
  obtain ⟨r, l, hacc, hmir⟩ := hP i hi
  rw [hacc.ep]
  exact ⟨hacc.exactlyOnce, hmir⟩

end AxiomRT.Dispatch
