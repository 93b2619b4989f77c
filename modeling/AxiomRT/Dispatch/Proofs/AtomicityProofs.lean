import AxiomRT.Lib.Buffer
import AxiomRT.Dispatch.Proofs.MovesProofs
import AxiomRT.Dispatch.Runs

/-!
# Proofs: IPC calls that fail

A refused `sys_send` or `sys_recv` leaves endpoints, routes and the other tasks alone. The staging
buffer is the exception: a send that finds another sender parked on its endpoint is refused after
its bytes were staged, over those of whoever is parked.
-/

namespace AxiomRT.Dispatch

open Lib

variable {img : Image} {table : List ServiceDef} {c c' : Core} {k k' : Kernel}

/-- The trap is a `sys_send` or `sys_recv` that returns a negative code to its caller. -/
def IpcFails (c : Core) (tr : Trap) (c' : Core) : Prop :=
  tr = .ecall ∧ (c.frame.sys = some .send ∨ c.frame.sys = some .recv) ∧
    c'.current = c.current ∧ c'.frame.a0 < 0

/-- An IPC call on event `ev` that fails leaves every endpoint, every route, the control blocks of
the other tasks, and the bytes that the parked senders will deliver as they were. -/
def ErrorAtomic (img : Image) (k : Kernel) (ev : Event) : Prop :=
  ∀ k', step img k ev = .ok k' → IpcFails (k.toCore.enter ev) ev.trap k'.toCore →
    k'.endpoints = k.endpoints ∧ k'.routes = k.routes ∧
      (∀ t, t ≠ k.current → k'.tasks t = k.tasks t) ∧
      ∀ e s len, k.endpoints e = .senderWaiting s len → bytesOf k'.kmsg len = bytesOf k.kmsg len

/-- The running task issues a `sys_send` that passes its capability, length and buffer checks, finds
a sender parked on its endpoint, and has other bytes in its buffer than those staged for some parked
sender. -/
def Overwrites (img : Image) (c : Core) : Prop :=
  ∃ e buf len tid plen, SendReq img c e buf len ∧ c.endpoints e = .senderWaiting tid plen ∧
    ∃ e' s len', c.endpoints e' = .senderWaiting s len' ∧
      ∃ i : Fin ipcMsgMax, i.val < len ∧ i.val < len' ∧ c.readUser (buf + i.val) ≠ c.kmsg i

/-! ## What a failing call changes -/

theorem a0_ofNat_nonneg (f : TrapFrame) {n : Nat} (hn : n ≤ ipcMsgMax) : ¬ (f.setA0 n).a0 < 0 := by
  rw [TrapFrame.a0_setA0 f (by omega) (by simp only [ipcMsgMax] at hn; omega)]
  omega

/-- Parking leaves another task on the CPU. -/
theorem selectHighest_park_ne {e : EpId} {w : Ep} {next : Slot}
    (sel : (c.park e w).selectHighest c.current = some next) : next ≠ c.current :=
  Core.selectHighest_ne sel (by simp)

/-- An IPC call that fails changes nothing but its caller's result, or it is a send that finds
another sender parked. -/
theorem Move.ipcFails {tr : Trap} (hm : Move img table c tr c') (hf : IpcFails c tr c') :
    c'.endpoints = c.endpoints ∧ c'.routes = c.routes ∧ c'.tasks = c.tasks ∧
      (c'.kmsg = c.kmsg ∨ ∃ e buf len tid plen, SendReq img c e buf len ∧
        c.endpoints e = .senderWaiting tid plen ∧ c'.kmsg = (c.copyFromUser buf len).kmsg) := by
  obtain ⟨htr, hsys, hcur, hneg⟩ := hf
  have hother : ∀ {s : Sys}, c.frame.sys = some s → s = .send ∨ s = .recv := by
    intro s hs
    rw [hs] at hsys
    simpa using hsys
  cases hm with
  | ret tasks current endpoints kmsg routes satp miss mem ipc plain =>
    exact ⟨endpoints, routes, tasks, Or.inl kmsg⟩
  | sendBusy req ep =>
    refine ⟨by simp, by simp, by simp, Or.inr ⟨_, _, _, _, _, req, ep, ?_⟩⟩
    rw [Core.setA0_kmsg]
    rfl
  | sendDeliver req ep fits => exact absurd hneg (a0_ofNat_nonneg _ req.len_le)
  | sendTooBig req ep small => exact absurd hneg (a0_ofNat_nonneg _ req.len_le)
  | @sendPark e buf len next req ep sel =>
    rw [Core.resume_current] at hcur
    exact absurd hcur (selectHighest_park_ne (c := c.checkIn.copyFromUser buf len) sel)
  | recvIrq req irq fits => exact absurd hneg (a0_ofNat_nonneg _ (n := 1) (by decide))
  | recvTake req irq ep fits =>
    exact absurd hneg (a0_ofNat_nonneg _ (validUserBuf_iff.mp fits.2).1)
  | recvPark req irq ep fits sel =>
    rw [Core.resume_current] at hcur
    exact absurd hcur (selectHighest_park_ne (c := c.checkIn) sel)
  | yield sys sel => simpa using hother sys
  | exit sys sel => simpa using hother sys
  | spawn sys ctl entry vacant fresh => simpa using hother sys
  | rearm sys ctl entry dead => simpa using hother sys
  | restart sys ctl names other used started => simpa using hother sys
  | kill sys ctl names other used => simpa using hother sys
  | killSelf sys ctl names used sel => simpa using hother sys
  | irqDead sys ctl dead => simpa using hother sys
  | irqDeliver sys ctl live ep fits => simpa using hother sys
  | irqHold sys ctl live ep => simpa using hother sys
  | tick fine top => cases htr
  | preempt fine sel other outranked => cases htr
  | watchdog exp sel => cases htr
  | fault sel => cases htr

theorem bytesOf_eq_iff {f g : Fin ipcMsgMax → UInt8} {len : Nat} :
    bytesOf f len = bytesOf g len ↔ ∀ i : Fin ipcMsgMax, i.val < len → f i = g i :=
  take_ofFn_eq_iff

/-! ## The send that finds a sender parked -/

theorem ipcSend_busy {e : EpId} {buf len plen : Nat} {tid : Slot} (hk : k.toCore = c.checkIn)
    (req : SendReq img c e buf len) (ep : c.endpoints e = .senderWaiting tid plen) :
    ∃ k', k.ipcSend img = .ok k' ∧
      k'.toCore = (c.checkIn.copyFromUser buf len).setA0 errInvalidArg := by
  have hcap : k.capCheck k.current (k.frame.arg 0) rightSend = .ok e.val := by
    rw [hk]
    exact req.resolves
  have hbuf : k.frame.arg 1 = buf := by
    rw [hk]
    exact req.buf_eq
  have hlen : k.frame.arg 2 = len := by
    rw [hk]
    exact req.len_eq
  have hep : (k.core (·.copyFromUser buf len)).endpoints e = .senderWaiting tid plen := by
    rw [Kernel.toCore_core, hk]
    exact ep
  have hidx : arrayIndex numEndpoints e.val = .ok e := arrayIndex_eq_ok.mpr rfl
  refine ⟨(k.core (·.copyFromUser buf len)).ipcDenied errInvalidArg
    "IPC_DENIED op=send reason=busy task=" k.curName, ?_, ?_⟩
  · simp only [Kernel.ipcSend, hcap, hbuf, hlen, Nat.not_lt.mpr req.len_le, if_false, req.len_le,
      decide_true, req.readable, Bool.and_self, Bool.not_true, Bool.false_eq_true, hidx]
    rw [bind_eq_ok]
    exact ⟨e, rfl, by simp only [hep]⟩
  · rw [Kernel.toCore_ipcDenied, Kernel.toCore_core, hk]

/-- Such a send returns to its caller with an error, after its bytes were staged. -/
theorem step_busy {ev : Event} {e : EpId} {buf len plen : Nat} {tid : Slot}
    (htr : ev.trap = .ecall) (req : SendReq img (k.toCore.enter ev) e buf len)
    (ep : k.endpoints e = .senderWaiting tid plen) :
    ∃ k', step img k ev = .ok k' ∧
      k'.toCore = ((k.toCore.enter ev).checkIn.copyFromUser buf len).setA0 errInvalidArg := by
  have hsys : ((((k.core (·.enter ev)).core (·.advance)).core
      ({ · with watchdogMiss := 0 })).frame.sys) = some .send := req.sys
  simp only [step, htr, Kernel.onSyscall, hsys]
  exact ipcSend_busy rfl req ep

/-- An IPC call that fails changes nothing for the other tasks, with exactly one exception: a send
that finds a sender parked has by then copied its own bytes over those that are staged. -/
theorem errorAtomic_iff (img : Image) (k : Kernel) (ev : Event) :
    ErrorAtomic img k ev ↔ ¬ (ev.trap = .ecall ∧ Overwrites img (k.toCore.enter ev)) := by
  constructor
  · rintro hat ⟨htr, e, buf, len, tid, plen, req, ep, e', s, len', ep', i, hi, hi', hne⟩
    obtain ⟨k', hstep, hcore⟩ := step_busy htr req ep
    have hfails : IpcFails (k.toCore.enter ev) ev.trap k'.toCore := by
      refine ⟨htr, Or.inl req.sys, by rw [hcore]; rfl, ?_⟩
      have ha0 : k'.frame.a0 = errInvalidArg := by
        rw [hcore]
        exact TrapFrame.a0_setA0 _ (by decide) (by decide)
      rw [ha0]
      decide
    obtain ⟨-, -, -, hbytes⟩ := hat k' hstep hfails
    have hsame := bytesOf_eq_iff.mp (hbytes e' s len' ep') i hi'
    have hread : k'.kmsg i = (k.toCore.enter ev).readUser (buf + i.val) := by
      rw [hcore]
      exact if_pos hi
    exact hne (hread.symm.trans hsame)
  · intro hno k' hstep hfails
    obtain ⟨hep, hroutes, htasks, hkmsg⟩ := (step_move hstep).ipcFails hfails
    refine ⟨hep, hroutes, fun t _ => congrFun htasks t, fun e' s len' ep' => ?_⟩
    rcases hkmsg with hk | ⟨e, buf, len, tid, plen, req, ep, hk⟩
    · rw [hk]
      rfl
    · rw [bytesOf_eq_iff, hk]
      intro i hi'
      by_cases hi : i.val < len
      · by_contra hne
        refine hno ⟨hfails.1, e, buf, len, tid, plen, req, ep, e', s, len', ep', i, hi, hi', ?_⟩
        intro hsame
        exact hne ((if_pos hi).trans hsame)
      · exact if_neg hi

/-- `app_loader_service` parks on the file-system endpoint with the byte 65, `fs_service` tries to
send the byte 66 there and is refused, and then receives. -/
def stagedOver : List Event :=
  [sampleCall 8 5 0 0 0, sampleCall 8 9 0 0 0, sampleCall 2 0 0 0 0,
    sampleCall 3 2 0x200000 1 65, sampleCall 3 0 0x200000 1 66, sampleCall 4 0 0x200010 1 67]

theorem survives_stagedOver : survives stagedOver = true := rfl

/-- The refused send replaces the byte of the parked sender. -/
theorem stagedOver_not_atomic :
    ¬ ∀ x : Run sampleImage, x.Always fun k => ∀ ev, ErrorAtomic sampleImage k ev := by
  intro h
  have hat := h (sampleRun stagedOver survives_stagedOver) 4 (by decide)
    (sampleCall 3 0 0x200000 1 66)
  have hstep := (sampleRun stagedOver survives_stagedOver).step_st 4 (by decide)
  have hfails : IpcFails ((sampleState stagedOver 4).toCore.enter (sampleCall 3 0 0x200000 1 66))
      .ecall (sampleState stagedOver 5).toCore := by
    unfold IpcFails
    decide
  have hparked : (sampleState stagedOver 4).endpoints 4 = .senderWaiting 6 1 := rfl
  obtain ⟨-, -, -, hbytes⟩ := hat _ hstep hfails
  have hbefore : (sampleState stagedOver 4).kmsg 0 = 65 := rfl
  have hafter : (sampleState stagedOver 5).kmsg 0 = 66 := rfl
  have hsame := bytesOf_eq_iff.mp (hbytes 4 6 1 hparked) 0 (by decide)
  have hdiff : (66 : UInt8) = 65 := hafter.symm.trans (hsame.trans hbefore)
  exact absurd hdiff (by decide)

end AxiomRT.Dispatch
