import AxiomRT.Lib.Execution
import AxiomRT.Dispatch.Proofs.PrimitivesProofs
import AxiomRT.Dispatch.Proofs.SnapshotProofs

/-!
# Proofs: a step of the dispatcher is a move

Each syscall handler and each trap handler is shown to perform one of the moves of
`Dispatch/Moves.lean`; `step_move` collects them.
-/

namespace AxiomRT.Dispatch

open Lib

variable {img : Image} {table : List ServiceDef} {env : Env} {c : Core} {k k' : Kernel}

/-! ## Array accesses -/

theorem arrayIndex_eq_ok {n id : Nat} {i : Fin n} : arrayIndex n id = .ok i ↔ id = i.val := by
  unfold arrayIndex
  split_ifs with h
  · simp [Fin.ext_iff]
  · simp only [false_iff]
    intro he
    exact h (he ▸ i.isLt)

theorem sliceTo_eq_ok {data : Fin ipcMsgMax → UInt8} {len : Nat} {bytes : List UInt8}
    (h : sliceTo data len = .ok bytes) : bytes = bytesOf data len := by
  unfold sliceTo at h
  split_ifs at h
  cases h
  rfl

theorem stage_eq_ok {dst len : Nat} {kmsg : Fin ipcMsgMax → UInt8} {pm : PendingMsg}
    (h : PendingMsg.stage dst len kmsg = .ok pm) : pm = .ofKmsg dst len kmsg := by
  simp only [PendingMsg.stage, bind_eq_ok] at h
  obtain ⟨zeros, -, bytes, hb, h⟩ := h
  cases h
  rw [sliceTo_eq_ok hb, PendingMsg.ofKmsg]
  congr 1
  funext i
  rw [bytesOf, List.getD_eq_getElem?_getD, List.getElem?_take]
  split_ifs
  · rw [List.getElem?_ofFn, dif_pos i.isLt, Option.getD_some]
  · rfl

/-- Staging for a receiver changes its control block only. -/
theorem stageFor_eq_ok {tid : Slot} {dst cap len : Nat} (h : k.stageFor tid dst cap len = .ok k') :
    k' = k.core (·.modTask tid
      (if len ≤ cap ∧ validUserBuf dst len = true then
        ({ · with pendingIpc := some (.ofKmsg dst len k.kmsg) })
      else fun t => { t with frame := t.frame.setA0 errMsgTooLarge })) := by
  unfold Kernel.stageFor at h
  split_ifs at h ⊢ with hfit
  · rw [bind_eq_ok] at h
    obtain ⟨pm, hpm, h⟩ := h
    cases h
    rw [stage_eq_ok hpm]
  · cases h
    rfl

/-! ## Updates -/

namespace Core

theorem setState_modTask (c : Core) (t : Slot) (f : Tcb → Tcb) (s : RtState) :
    (c.modTask t f).setState t s = c.modTask t fun b => { f b with state := s } := by
  simp [setState, modTask, setTask]

theorem modTask_setTask (c : Core) (t : Slot) (b : Tcb) (f : Tcb → Tcb) :
    (c.setTask t b).modTask t f = c.setTask t (f b) := by
  simp [modTask, setTask]

/-! ### The check-in -/

@[simp] theorem checkIn_arg (c : Core) (i : Fin 4) : c.checkIn.frame.arg i = c.frame.arg i := rfl
@[simp] theorem checkIn_capFind (c : Core) : c.checkIn.capFind = c.capFind := rfl

end Core

/-! ## Calls that return to their caller -/

/-- The call keeps its caller on the CPU and ends or begins no life. -/
structure Plain (table : List ServiceDef) (c : Core) : Prop where
  goesOn : ¬ c.GivesUp
  lives : SparesLives table c

/-- A call other than the scheduling and life-cycle calls. -/
theorem Plain.of_sys (hs : ∀ s ∈ [Sys.yield, .exit, .taskKill, .taskStart, .taskRestart],
    c.frame.sys ≠ some s) : Plain table c := by
  refine ⟨?_, ⟨?_, ?_⟩⟩
  · rintro (h | h | ⟨h, -⟩)
    · exact hs _ (by simp) h
    · exact hs _ (by simp) h
    · exact hs _ (by simp) h
  · rintro t ⟨-, h, -⟩
    exact absurd h (hs _ (by simp))
  · rintro t (⟨-, -, h, -⟩ | ⟨-, -, ⟨h, -⟩ | ⟨h, -⟩⟩)
    · exact hs _ (by simp) h
    · exact hs _ (by simp) h
    · exact hs _ (by simp) h

/-- A life-cycle call that is not a kill. -/
theorem Plain.of_no_start (hs : c.frame.sys = some .taskStart ∨ c.frame.sys = some .taskRestart)
    (hbegins : ∀ t, ¬ Begins table c .ecall t) : Plain table c := by
  refine ⟨?_, ⟨?_, hbegins⟩⟩
  · rcases hs with hs | hs <;> simp [Core.GivesUp, hs]
  · rintro t ⟨-, h, -⟩
    rcases hs with hs | hs <;> simp [hs] at h

/-- A kill that hits an unused slot or nothing. -/
theorem Plain.of_no_kill (hs : c.frame.sys = some .taskKill)
    (hkills : ∀ t, Kills c .ecall t → (c.tasks t).state = .empty) : Plain table c := by
  refine ⟨?_, ⟨hkills, ?_⟩⟩
  · rintro (h | h | ⟨-, hctl, hn, hused⟩)
    · simp [hs] at h
    · simp [hs] at h
    · exact hused (hkills _ ⟨rfl, hs, hctl, hn⟩)
  · rintro t (⟨-, -, h, -⟩ | ⟨-, -, ⟨h, -⟩ | ⟨h, -⟩⟩) <;> simp [hs] at h

/-- Nothing begins without the control capability. -/
theorem Begins.controls {tr : Trap} {t : Slot} (h : Begins table c tr t) : c.Controls := by
  rcases h with h | h
  · exact h.2.1
  · exact h.2.1

/-- A syscall that only stores a result. -/
theorem Move.setResult {v : Int}
    (ipc : c.frame.sys = some .send ∨ c.frame.sys = some .recv → v < 0 ∧ -9 ≤ v)
    (plain : Plain table c) :
    Move img table c .ecall (c.checkIn.setA0 v) := by
  refine .ret rfl rfl rfl rfl rfl rfl rfl (fun _ _ => rfl) ?_ plain.goesOn (.none rfl rfl)
    plain.lives
  intro h
  obtain ⟨hneg, hlo⟩ := ipc h
  have ha0 : (c.checkIn.setA0 v).frame.a0 = v := TrapFrame.a0_setA0 _ (by omega) (by omega)
  rw [ha0]
  exact hneg

/-- A syscall handler stores a result, after it read bytes of its caller or copied bytes out to the
buffer its caller named. -/
inductive Returns (img : Image) (c : Core) : Core → Prop where
  | setA0 (v : Int) : Returns img c (c.setA0 v)
  | reads {va len : Nat} (window : inReadableWindow img va len = true) (v : Int) :
      Returns img c ((c.touch false va len).setA0 v)
  | writes {va cap : Nat} {bytes : List UInt8} (asked : c.frame.buffer = some (va, cap))
      (fits : bytes.length ≤ cap) (window : inStackWindow va bytes.length = true) (v : Int) :
      Returns img c ((c.copyBytesToUser va bytes).setA0 v)

/-- A syscall other than IPC that only returns to its caller. -/
theorem Returns.move {c' : Core} (hr : Returns img c.checkIn c')
    (ipc : c.frame.sys ≠ some .send ∧ c.frame.sys ≠ some .recv)
    (plain : Plain table c) :
    Move img table c .ecall c' := by
  have hipc : c.frame.sys = some .send ∨ c.frame.sys = some .recv → c'.frame.a0 < 0 := by
    rintro (h | h)
    · exact absurd h ipc.1
    · exact absurd h ipc.2
  cases hr with
  | setA0 v =>
    refine .ret ?_ ?_ ?_ ?_ ?_ ?_ ?_ (fun _ _ => by simp) hipc plain.goesOn
      (.none (by simp) (by simp)) plain.lives
    all_goals simp
  | reads window v =>
    refine .ret ?_ ?_ ?_ ?_ ?_ ?_ ?_ (fun _ _ => by simp) hipc plain.goesOn
      (.reads window (by simp) (by simp)) plain.lives
    all_goals simp
  | writes asked fits window v =>
    refine .ret ?_ ?_ ?_ ?_ ?_ ?_ ?_ (fun _ hr => by simp [hr]) hipc plain.goesOn
      (.writes asked fits window (by simp) (by simp)) plain.lives
    all_goals simp

/-! ## Scheduling -/

theorem resumeTask_core {next : Slot} (h : k.resumeTask next = .ok k') :
    k'.toCore = k.toCore.resume next := by
  simp only [Kernel.resumeTask] at h
  cases hp : (k.tasks next).pendingIpc with
  | none =>
    rw [hp] at h
    cases h
    simp [Core.resume, hp]
  | some pm =>
    simp only [hp, bind_eq_ok] at h
    obtain ⟨bytes, hb, h⟩ := h
    cases h
    rw [sliceTo_eq_ok hb]
    simp only [Core.resume, hp]
    rfl

theorem dispatchNext_core {cur : Slot} {idle : List Tx} (h : k.dispatchNext cur idle = .ok k') :
    ∃ next, k.toCore.selectHighest cur = some next ∧ k'.toCore = k.toCore.resume next := by
  simp only [Kernel.dispatchNext] at h
  cases hs : k.selectHighest cur with
  | none =>
    rw [hs] at h
    cases h
  | some next =>
    rw [hs] at h
    exact ⟨next, rfl, resumeTask_core (k := k.emit _ _) h⟩

theorem blockAndSwitch_core (h : k.blockAndSwitch = .ok k') :
    ∃ next, (k.toCore.saveAs .blocked).selectHighest k.current = some next ∧
      k'.toCore = (k.toCore.saveAs .blocked).resume next :=
  dispatchNext_core h

/-! ## IPC -/

/-- A refused capability check returns to the caller. -/
theorem denyCap_move (hk : k.toCore = c.checkIn) (cur : Slot) {check : CapCheck}
    (hne : ∀ id, check ≠ .ok id) (plain : Plain table c) :
    Move img table c .ecall
      ((k.denyCap cur check).1.core (·.setA0 (k.denyCap cur check).2)).toCore := by
  rw [Kernel.toCore_core, Kernel.toCore_denyCap, hk]
  exact .setResult (fun _ => k.denyCap_neg cur hne) plain

/-- A refused IPC call returns to the caller. -/
theorem ipcDenied_move (hk : k.toCore = c.checkIn) {code : Int} (hcode : code < 0 ∧ -9 ≤ code)
    (what name : String) (plain : Plain table c) :
    Move img table c .ecall (k.ipcDenied code what name).toCore := by
  rw [Kernel.toCore_ipcDenied, hk]
  exact .setResult (fun _ => hcode) plain

theorem ipcSend_move (hk : k.toCore = c.checkIn) (hs : c.frame.sys = some .send)
    (h : k.ipcSend img = .ok k') : Move img table c .ecall k'.toCore := by
  have plain : Plain table c := .of_sys (by simp [hs])
  simp only [Kernel.ipcSend] at h
  cases hc : k.capCheck k.current (k.frame.arg 0) rightSend with
  | invalidCap | wrongType | insufficientRights =>
    rw [hc] at h
    cases h
    exact denyCap_move hk _ (by simp) plain
  | ok id =>
    simp only [hc] at h
    split_ifs at h with hlen hbuf
    · cases h
      exact ipcDenied_move hk (by decide) _ _ plain
    · cases h
      exact ipcDenied_move hk (by decide) _ _ plain
    · rw [bind_eq_ok] at h
      obtain ⟨e, he, h⟩ := h
      rw [arrayIndex_eq_ok] at he
      subst he
      have req : SendReq img c e (c.frame.arg 1) (c.frame.arg 2) := by
        rw [hk] at hc hlen hbuf
        simp only [Bool.not_eq_true', Bool.and_eq_false_iff, not_or, Bool.not_eq_false] at hbuf
        exact ⟨hs, hc, rfl, rfl, Nat.not_lt.mp hlen, hbuf.2⟩
      have hep : (k.core (·.copyFromUser (k.frame.arg 1) (k.frame.arg 2))).endpoints =
          c.endpoints := by
        rw [Kernel.toCore_core, hk]
        rfl
      rw [hep] at h
      cases hw : c.endpoints e with
      | idle =>
        simp only [hw] at h
        obtain ⟨next, hsel, hcore⟩ := blockAndSwitch_core h
        simp only [Kernel.toCore_puts, Kernel.toCore_emit, Kernel.toCore_core, hk] at hsel hcore
        rw [hcore]
        exact .sendPark req hw hsel
      | senderWaiting tid plen =>
        simp only [hw] at h
        cases h
        simp only [Kernel.toCore_ipcDenied, Kernel.toCore_core, hk]
        exact .sendBusy req hw
      | receiverWaiting tid dst cap =>
        simp only [hw, bind_eq_ok] at h
        obtain ⟨k₁, hstage, h⟩ := h
        cases h
        rw [stageFor_eq_ok hstage]
        split_ifs with hfit <;> rw [hk] at hfit
        · simp only [Kernel.toCore_puts, Kernel.toCore_emit, Kernel.toCore_core, hk,
            Core.setState_modTask]
          exact .sendDeliver req hw hfit
        · simp only [Kernel.toCore_puts, Kernel.toCore_emit, Kernel.toCore_core, hk,
            Core.setState_modTask]
          exact .sendTooBig req hw hfit

theorem ipcRecv_move (hk : k.toCore = c.checkIn) (hs : c.frame.sys = some .recv)
    (h : k.ipcRecv = .ok k') : Move img table c .ecall k'.toCore := by
  have plain : Plain table c := .of_sys (by simp [hs])
  simp only [Kernel.ipcRecv] at h
  cases hc : k.capCheck k.current (k.frame.arg 0) rightRecv with
  | invalidCap | wrongType | insufficientRights =>
    rw [hc] at h
    cases h
    exact denyCap_move hk _ (by simp) plain
  | ok id =>
    simp only [hc] at h
    have hreq : ∀ e : EpId, id = e.val → RecvReq c e (c.frame.arg 1) (c.frame.arg 2) := by
      rintro e rfl
      rw [hk] at hc
      exact ⟨hs, hc, rfl, rfl⟩
    cases hi : k.irqPendingFor id k.current with
    | some dev =>
      simp only [hi] at h
      split_ifs at h with hbuf
      · cases h
        exact ipcDenied_move hk (by decide) _ _ plain
      · cases h
        have hdev : id = (devices dev).irqEndpoint.val := by
          have := List.find?_some hi
          simp only [Bool.and_eq_true, beq_iff_eq] at this
          exact this.1.1.symm
        subst hdev
        simp only [Kernel.toCore_emitIrqDelivered, Kernel.toCore_core]
        rw [hk] at hbuf hi ⊢
        exact .recvIrq (hreq _ rfl) hi (by simpa [Nat.one_le_iff_ne_zero] using hbuf)
    | none =>
      simp only [hi, bind_eq_ok] at h
      obtain ⟨e, he, h⟩ := h
      rw [arrayIndex_eq_ok] at he
      subst he
      rw [hk] at h hi
      cases hw : c.endpoints e with
      | idle =>
        simp only [Core.checkIn_endpoints, hw] at h
        split_ifs at h with hbuf
        · cases h
          exact ipcDenied_move hk (by decide) _ _ plain
        · obtain ⟨next, hsel, hcore⟩ := blockAndSwitch_core h
          simp only [Kernel.toCore_puts, Kernel.toCore_emit, Kernel.toCore_core, hk] at hsel hcore
          rw [hcore]
          refine .recvPark (hreq e rfl) hi hw ?_ hsel
          have hcap : c.frame.arg 2 ≤ ipcMsgMax := Nat.not_lt.mp fun hlt => hbuf (Or.inl hlt)
          refine ⟨hcap, ?_⟩
          have hvalid := mt Or.inr hbuf
          rw [Core.checkIn_arg, Core.checkIn_arg, Nat.min_eq_left hcap] at hvalid
          simpa using hvalid
      | senderWaiting tid len =>
        simp only [Core.checkIn_endpoints, hw] at h
        split_ifs at h with hbuf
        · cases h
          exact ipcDenied_move hk (by decide) _ _ plain
        · rw [bind_eq_ok] at h
          obtain ⟨bytes, hb, h⟩ := h
          cases h
          rw [sliceTo_eq_ok hb]
          simp only [Kernel.toCore_puts, Kernel.toCore_emit, Kernel.toCore_core, hk]
          exact .recvTake (hreq e rfl) hi hw (by simpa using hbuf)
      | receiverWaiting tid dst cap =>
        simp only [Core.checkIn_endpoints, hw] at h
        cases h
        exact ipcDenied_move hk (by decide) _ _ plain

/-! ## Yield, exit and preemption -/

theorem yield_move (hk : k.toCore = c.checkIn) (hs : c.frame.sys = some .yield)
    (h : k.switch img false = .ok k') : Move img table c .ecall k'.toCore := by
  simp only [Kernel.switch, Bool.false_eq_true, if_false] at h
  cases hsel : (k.core fun c => c.modTask k.current
      ({ · with frame := c.frame, state := .ready })).selectHighest k.current with
  | none =>
    rw [hsel] at h
    cases h
  | some next =>
    simp only [hsel] at h
    have hcore : k'.toCore = (k.toCore.saveAs .ready).resume next := by
      split_ifs at h
      · exact resumeTask_core h
      · exact resumeTask_core h
    have hnext : (k.toCore.saveAs .ready).selectHighest k.current = some next := hsel
    rw [hk] at hcore hnext
    rw [hcore]
    exact .yield hs hnext

theorem exit_move (hk : k.toCore = c.checkIn) (hs : c.frame.sys = some .exit)
    (h : k.switch img true = .ok k') : Move img table c .ecall k'.toCore := by
  simp only [Kernel.switch, if_true, Bool.not_true, Bool.and_false, Bool.false_and,
    Bool.false_eq_true, if_false] at h
  split at h
  · rename_i next hsel
    have hcore := resumeTask_core h
    simp only [Kernel.toCore_ringPush, Kernel.toCore_emit, Kernel.toCore_core, hk] at hcore hsel
    rw [hcore]
    exact .exit hs hsel
  · cases h

theorem preempt_move (hk : k.toCore = c.countMiss) (hf : ¬ c.expired)
    (h : k.preempt = .ok k') : Move img table c .timer k'.toCore := by
  simp only [Kernel.preempt] at h
  have hsel' : k.selectHighest k.current = c.selectHighest c.current := by
    rw [hk]
    rfl
  rw [hsel'] at h
  cases hsel : c.selectHighest c.current with
  | none =>
    rw [hsel] at h
    cases h
    rw [hk]
    exact .tick hf fun next hn => by simp [hsel] at hn
  | some next =>
    simp only [hsel] at h
    split_ifs at h with hle
    · cases h
      rw [hk] at hle ⊢
      refine .tick hf fun n hn => ?_
      rw [hsel] at hn
      cases hn
      exact hle
    · have hcore := resumeTask_core h
      simp only [Kernel.toCore_puts, Kernel.toCore_core] at hcore
      rw [hk] at hle hcore
      rw [hcore]
      exact .preempt hf hsel (fun he => hle (Or.inl he)) (UInt8.not_le.mp fun hp => hle (Or.inr hp))

/-! ## Faults -/

/-- Dropping the events of a task route by route. -/
theorem foldl_irqDropRoute (slot : Slot) (l : List DevId) : ∀ k : Kernel,
    (l.foldl (Kernel.irqDropRoute slot) k).toCore =
      { k.toCore with routes := fun d =>
          if d ∈ l ∧ (k.routes d).receiver = slot.val ∧ (k.routes d).pending
          then ⟨(k.routes d).receiver, false⟩ else k.routes d } := by
  induction l with
  | nil => intro k; simp
  | cons i l ih =>
    intro k
    rw [List.foldl_cons, ih]
    simp only [Kernel.irqDropRoute]
    split_ifs with hi
    · simp only [Kernel.toCore_puts, Kernel.toCore_core, Core.irqRouteSet, Core.mk.injEq, true_and,
        and_true]
      funext d
      by_cases hd : d = i
      · subst hd
        simp [hi]
      · simp [hd]
    · simp only [Core.mk.injEq, true_and, and_true]
      funext d
      by_cases hd : d = i
      · subst hd
        simp [hi]
      · simp [hd]

theorem irqDropForTask_core (k : Kernel) (slot : Slot) :
    (k.irqDropForTask slot).toCore = k.toCore.irqDrop slot := by
  simp only [Kernel.irqDropForTask, foldl_irqDropRoute, List.mem_finRange, true_and, Core.irqDrop]

theorem notifyEndpoint_core (k : Kernel) (e : EpId) (code : UInt8) :
    (k.notifyEndpoint e code).1.toCore = k.toCore.notify e code := by
  simp only [Kernel.notifyEndpoint, Core.notify]
  cases k.endpoints e with
  | idle => rfl
  | senderWaiting tid len => rfl
  | receiverWaiting tid dst cap =>
    simp only
    split_ifs with hfit <;> rfl

theorem notifySupervisorAndLogger_core (k : Kernel) (name : String) :
    (k.notifySupervisorAndLogger name).toCore =
      (k.toCore.notify Kernel.epFault Kernel.faultCodeWatchdog).notify Kernel.epEvent
        Kernel.faultCodeWatchdog := by
  simp only [Kernel.notifySupervisorAndLogger]
  split_ifs <;> simp only [Kernel.toCore_puts, Kernel.toCore_emit, notifyEndpoint_core]

theorem faultCurrent_core (h : k.faultCurrent = .ok k') :
    ∃ next, k.toCore.fault.selectHighest k.current = some next ∧
      k'.toCore = k.toCore.fault.resume next := by
  simp only [Kernel.faultCurrent] at h
  obtain ⟨next, hsel, hcore⟩ := dispatchNext_core h
  rw [notifySupervisorAndLogger_core, irqDropForTask_core] at hsel hcore
  exact ⟨next, hsel, hcore⟩

theorem containFault_move {reason : String} (h : k.containFault reason = .ok k') :
    Move img table k.toCore (.fault reason) k'.toCore := by
  obtain ⟨next, hsel, hcore⟩ := faultCurrent_core h
  rw [hcore]
  exact .fault hsel

theorem watchdogTick_core {faulted : Bool} (h : k.watchdogTick = .ok (k', faulted)) :
    (faulted = false ∧ ¬ k.toCore.expired ∧ k'.toCore = k.toCore.countMiss) ∨
    (faulted = true ∧ k.toCore.expired ∧
      ∃ next, k.toCore.countMiss.fault.selectHighest k.current = some next ∧
        k'.toCore = k.toCore.countMiss.fault.resume next) := by
  simp only [Kernel.watchdogTick] at h
  split_ifs at h with hexp
  · cases h
    refine Or.inl ⟨rfl, ?_, rfl⟩
    simpa [Kernel.watchdogExpired, Core.expired] using hexp
  · rw [bind_eq_ok] at h
    obtain ⟨k₁, hf, h⟩ := h
    cases h
    obtain ⟨next, hsel, hcore⟩ := faultCurrent_core hf
    simp only [Kernel.toCore_puts, Kernel.toCore_emit, Kernel.toCore_ringPush] at hsel hcore
    refine Or.inr ⟨rfl, ?_, next, hsel, hcore⟩
    simpa [Kernel.watchdogExpired, Core.expired] using hexp

theorem onTimerInterrupt_move (h : k.onTimerInterrupt = .ok k') :
    Move img table k.toCore .timer k'.toCore := by
  simp only [Kernel.onTimerInterrupt, bind_eq_ok] at h
  obtain ⟨⟨k₁, faulted⟩, hw, h⟩ := h
  -- the tick counter and its report are evidence only
  have hw' := watchdogTick_core hw
  have hk : (if wrappingInc k.timerTicks ≤ 3 then
      { k with timerTicks := wrappingInc k.timerTicks }.puts
        [.str "TIMER tick=", .dec (wrappingInc k.timerTicks), .str "\n"]
      else { k with timerTicks := wrappingInc k.timerTicks }).toCore = k.toCore := by
    split_ifs <;> rfl
  rw [hk] at hw'
  rcases hw' with ⟨rfl, hf, hcore⟩ | ⟨rfl, hexp, next, hsel, hcore⟩
  · exact preempt_move hcore hf h
  · cases h
    rw [hcore]
    exact .watchdog hexp hsel

/-! ## Task control -/

theorem not_controls_of (hk : k.toCore = c.checkIn)
    (h : (!k.capFind k.current .control rightControl) = true) : ¬ c.Controls := by
  intro hctl
  have hfind : c.capFind c.current .control rightControl = true := hctl
  rw [hk] at h
  simp [hfind] at h

theorem controls_of (hk : k.toCore = c.checkIn)
    (h : ¬ (!k.capFind k.current .control rightControl) = true) : c.Controls := by
  rw [hk] at h
  simp only [Bool.not_eq_true', Bool.not_eq_false] at h
  exact h

/-- Task `slot` becomes the receiver of the routes `grants` selects; what is pending stays
pending. -/
def Core.grantRoutes (c : Core) (slot : Slot) (grants : DevId → Bool) : Core :=
  { c with routes := fun dev =>
      ⟨if grants dev then slot.val else (c.routes dev).receiver, (c.routes dev).pending⟩ }

theorem Core.grantRoutes_none (c : Core) (slot : Slot) {grants : DevId → Bool}
    (h : ∀ dev, grants dev = false) : c.grantRoutes slot grants = c := by
  simp [grantRoutes, h]

theorem Core.grantRoutes_one (c : Core) (slot : Slot) {dev : DevId} {grants : DevId → Bool}
    (h : ∀ dev', grants dev' = decide (dev' = dev)) :
    c.irqRouteSet dev ⟨slot.val, (c.routes dev).pending⟩ = c.grantRoutes slot grants := by
  simp only [irqRouteSet, grantRoutes, h]
  congr 1
  funext dev'
  by_cases hd : dev' = dev
  · subst hd
    simp
  · simp [hd]

theorem announceGrant_core (slot : Slot) (k : Kernel) (i : Fin capsPerTask) :
    (k.announceGrant slot i).toCore =
      k.toCore.grantRoutes slot fun dev => ((k.tasks slot).caps i).any (·.receivesIrq dev) := by
  simp only [Kernel.announceGrant]
  cases hcap : (k.tasks slot).caps i with
  | none => rfl
  | some cap =>
    dsimp only [Option.any_some]
    by_cases hty : cap.otype = .device
    · by_cases hid : cap.objectId < numDevices
      · simp only [hty, ne_eq, not_true_eq_false, if_false, dif_pos hid]
        by_cases hirq : cap.rights &&& devRightIrqReceive = 0
        · rw [Core.grantRoutes_none _ _ fun dev => by simp [Cap.receivesIrq, hirq]]
          simp only [hirq, not_true_eq_false, if_false]
          split_ifs <;> rfl
        · have hdev : ∀ dev' : DevId,
              cap.receivesIrq dev' = decide (dev' = ⟨cap.objectId, hid⟩) := by
            intro dev'
            have hbit : (cap.rights &&& devRightIrqReceive != 0) = true := bne_iff_ne.mpr hirq
            simp only [Cap.receivesIrq, hty, hbit, beq_self_eq_true, Bool.true_and, Bool.and_true]
            rw [Bool.eq_iff_iff, beq_iff_eq, decide_eq_true_iff, Fin.ext_iff]
            exact eq_comm
          simp only [hirq, not_false_eq_true, if_true]
          rw [← Core.grantRoutes_one _ _ hdev]
          split_ifs <;> rfl
      · have hdev : ∀ dev : DevId, cap.receivesIrq dev = false := by
          intro dev
          have hne : cap.objectId ≠ dev.val := fun heq => hid (heq ▸ dev.isLt)
          simp [Cap.receivesIrq, hne]
        rw [Core.grantRoutes_none _ _ hdev]
        simp [hty, hid]
    · rw [Core.grantRoutes_none _ _ fun dev => by simp [Cap.receivesIrq, hty]]
      simp [hty]

theorem Core.grantRoutes_grantRoutes (c : Core) (slot : Slot) (g g' : DevId → Bool) :
    (c.grantRoutes slot g).grantRoutes slot g' = c.grantRoutes slot fun dev => g dev || g' dev := by
  simp only [grantRoutes]
  congr 1
  funext dev
  by_cases h : g dev = true <;> by_cases h' : g' dev = true <;> simp [h, h']

theorem announceDeviceGrants_core (k : Kernel) (slot : Slot) :
    (k.announceDeviceGrants slot).toCore =
      k.toCore.grantRoutes slot fun dev => (k.tasks slot).caps.receivesIrq dev := by
  simp only [Kernel.announceDeviceGrants, CapTable.receivesIrq]
  generalize List.finRange capsPerTask = l
  induction l generalizing k with
  | nil => rfl
  | cons i l ih =>
    rw [List.foldl_cons, ih, announceGrant_core, Core.grantRoutes_grantRoutes]
    rfl

theorem sysTaskKill_move (hk : k.toCore = c.checkIn) (hs : c.frame.sys = some .taskKill)
    (h : k.sysTaskKill = .ok k') : Move img table c .ecall k'.toCore := by
  have ipc : c.frame.sys ≠ some .send ∧ c.frame.sys ≠ some .recv := by simp [hs]
  simp only [Kernel.sysTaskKill] at h
  split_ifs at h with hctl hlt hempty hself
  · cases h
    rw [Kernel.toCore_denyAuthority, hk]
    refine (Returns.setA0 _).move ipc (.of_no_kill hs ?_)
    rintro t ⟨-, -, hctl', -⟩
    exact absurd hctl' (not_controls_of hk hctl)
  · cases h
    rw [Kernel.toCore_core, hk]
    refine (Returns.setA0 _).move ipc (.of_no_kill hs ?_)
    rintro t ⟨-, -, -, hn⟩
    simp only [hk] at hempty
    have hslot : (⟨c.checkIn.frame.arg 0, hk ▸ hlt⟩ : Slot) = t := Fin.ext hn
    rw [hslot] at hempty
    exact hempty
  · -- the caller kills itself and schedules away
    obtain ⟨next, hsel, hcore⟩ := dispatchNext_core h
    have hnames : k.frame.arg 0 = k.current.val := congrArg Fin.val hself
    simp only [hself, Kernel.toCore_emit, Kernel.toCore_ringPush, irqDropForTask_core,
      Kernel.toCore_core] at hsel hcore hempty
    rw [hk] at hsel hcore hempty hnames
    rw [hcore]
    exact .killSelf hs (controls_of hk hctl) hnames hempty hsel
  · cases h
    simp only [Kernel.toCore_emit, Kernel.toCore_ringPush, irqDropForTask_core,
      Kernel.toCore_core, hk] at hself hempty ⊢
    exact .kill hs (controls_of hk hctl) rfl hself hempty
  · cases h
    rw [Kernel.toCore_core, hk]
    refine (Returns.setA0 _).move ipc (.of_no_kill hs ?_)
    rintro t ⟨-, -, -, hn⟩
    rw [hk, Core.checkIn_arg, hn] at hlt
    exact absurd t.isLt hlt

theorem rearm_core (k : Kernel) (env : Env) (slot : Slot) :
    ∃ f, (k.rearm env slot).toCore = k.toCore.rearm slot f :=
  ⟨_, rfl⟩

theorem sysTaskRestart_move (hk : k.toCore = c.checkIn) (hs : c.frame.sys = some .taskRestart)
    (h : k.sysTaskRestart env = .ok k') : Move img table c .ecall k'.toCore := by
  have ipc : c.frame.sys ≠ some .send ∧ c.frame.sys ≠ some .recv := by simp [hs]
  have hbegins : ∀ {t : Slot}, Begins table c .ecall t → c.Names t ∧ t ≠ c.current ∧
      (c.tasks t).state ≠ .empty ∧ (c.tasks t).entryVa ≠ 0 := by
    rintro t (⟨-, -, h', -⟩ | ⟨-, -, ⟨h', -⟩ | ⟨-, h'⟩⟩)
    · simp [hs] at h'
    · simp [hs] at h'
    · exact h'
  simp only [Kernel.sysTaskRestart] at h
  split_ifs at h with hctl hlt hbad
  · cases h
    rw [Kernel.toCore_denyAuthority, hk]
    refine (Returns.setA0 _).move ipc (.of_no_start (Or.inr hs) fun t hb => ?_)
    exact not_controls_of hk hctl hb.controls
  · cases h
    rw [Kernel.toCore_core, hk]
    refine (Returns.setA0 _).move ipc (.of_no_start (Or.inr hs) fun t hb => ?_)
    obtain ⟨hn, hcur, hused, hstarted⟩ := hbegins hb
    simp only [hk] at hbad
    have hslot : (⟨c.checkIn.frame.arg 0, hk ▸ hlt⟩ : Slot) = t := Fin.ext hn
    rw [hslot] at hbad
    rcases hbad with hbad | hbad | hbad
    · exact hcur hbad
    · exact hused hbad
    · exact hstarted hbad
  · cases h
    obtain ⟨f, hf⟩ := rearm_core k env ⟨k.frame.arg 0, hlt⟩
    simp only [Kernel.toCore_emit, Kernel.toCore_ringPush, Kernel.toCore_core, hf]
    simp only [hk, not_or] at hbad ⊢
    exact .restart hs (controls_of hk hctl) rfl hbad.1 hbad.2.1 hbad.2.2
  · cases h
    rw [Kernel.toCore_core, hk]
    refine (Returns.setA0 _).move ipc (.of_no_start (Or.inr hs) fun t hb => ?_)
    rw [hk, Core.checkIn_arg, (hbegins hb).1] at hlt
    exact hlt t.isLt

/-- What starting a service does: nothing, fill an empty slot, or re-arm a dead task. -/
theorem startService_core {index : Nat} {v : Int}
    (h : k.startService img env index = .ok (k', v)) :
    (k'.toCore = k.toCore ∧ ∀ d, (k.serviceTable.getD [])[index]? = some d →
      ∀ slot : Slot, d.slot = slot.val →
        (k.tasks slot).state ≠ .empty ∧ ¬ (k.tasks slot).state.Dead) ∨
    ∃ d, (k.serviceTable.getD [])[index]? = some d ∧
      ∃ slot : Slot, d.slot = slot.val ∧ v = slot.val ∧
      (((k.tasks slot).state = .empty ∧ ∃ b routes,
          (b.state = .ready ∧ b.pendingIpc = none ∧ b.caps = d.caps) ∧
          (∀ dev, routes dev =
            ⟨if d.caps.receivesIrq dev then slot.val else (k.routes dev).receiver,
              (k.routes dev).pending⟩) ∧
          (∃ uas, img.buildServiceAddressSpace d.slot d.entry d.stackPhys = some uas ∧
            b.satpRoot = uas.root) ∧
          k'.toCore = { k.toCore.setTask slot b with routes := routes }) ∨
       ((k.tasks slot).state.Dead ∧ ∃ f, k'.toCore = k.toCore.rearm slot f)) := by
  simp only [Kernel.startService] at h
  cases htab : k.serviceTable with
  | none =>
    rw [htab] at h
    cases h
    exact Or.inl ⟨rfl, by simp⟩
  | some tab =>
    simp only [htab, Option.getD_some] at h ⊢
    cases hd : tab[index]? with
    | none =>
      rw [hd] at h
      cases h
      exact Or.inl ⟨rfl, by simp⟩
    | some d =>
      simp only [hd, bind_eq_ok] at h
      obtain ⟨slot, hslot, h⟩ := h
      rw [arrayIndex_eq_ok] at hslot
      cases hst : (k.tasks slot).state with
      | ready | running | blocked =>
        rw [hst] at h
        cases h
        refine Or.inl ⟨rfl, fun d' hd' slot' hslot' => ?_⟩
        cases hd'
        have heq : slot' = slot := Fin.ext (hslot'.symm.trans hslot)
        rw [heq, hst]
        simp [RtState.Dead]
      | killed | faulted =>
        simp only [hst] at h
        cases h
        refine Or.inr ⟨d, rfl, slot, hslot, rfl, Or.inr ⟨by simp [RtState.Dead, hst], ?_⟩⟩
        exact rearm_core k env slot
      | empty =>
        simp only [hst] at h
        cases hb : img.buildServiceAddressSpace d.slot d.entry d.stackPhys with
        | none =>
          rw [hb] at h
          cases h
        | some uas =>
          simp only [hb] at h
          cases h
          refine Or.inr ⟨d, rfl, slot, hslot, rfl, Or.inl ⟨hst, ?_⟩⟩
          have hr := announceDeviceGrants_core
            ((k.registerTask env.sstatus slot d.name d.prio uas.root uas.entryVa
              uas.stackTopVa).core fun c => c.modTask slot ({ · with caps := d.caps })) slot
          rw [Kernel.toCore_core, Kernel.registerTask, Kernel.toCore_core,
            Core.modTask_setTask] at hr
          simp only [Core.setTask_tasks, Function.update_self] at hr
          exact ⟨_, _, ⟨rfl, rfl, rfl⟩, fun _ => rfl, ⟨uas, hb, rfl⟩, hr⟩

theorem sysTaskStart_move (hk : k.toCore = c.checkIn) (hs : c.frame.sys = some .taskStart)
    (h : k.sysTaskStart img env = .ok k') :
    Move img (k.serviceTable.getD []) c .ecall k'.toCore := by
  have ipc : c.frame.sys ≠ some .send ∧ c.frame.sys ≠ some .recv := by simp [hs]
  simp only [Kernel.sysTaskStart] at h
  split_ifs at h with hctl
  · cases h
    rw [Kernel.toCore_denyAuthority, hk]
    refine (Returns.setA0 _).move ipc (.of_no_start (Or.inl hs) fun t hb => ?_)
    exact not_controls_of hk hctl hb.controls
  · rw [bind_eq_ok] at h
    obtain ⟨⟨k₁, v⟩, hst, h⟩ := h
    cases h
    have hctl' := controls_of hk hctl
    rw [Kernel.toCore_core]
    rcases startService_core hst with ⟨hc, hnone⟩ |
      ⟨d, hd, slot, hslot, rfl, ⟨hvac, b, routes, hb, hr, hu, hc⟩ | ⟨hdead, f, hc⟩⟩
    · rw [hc, hk]
      rw [hk] at hnone
      refine (Returns.setA0 _).move ipc (.of_no_start (Or.inl hs) fun t hb => ?_)
      rcases hb with ⟨-, -, -, ⟨d, hd, hslot⟩, hvac⟩ | ⟨-, -, ⟨-, ⟨d, hd, hslot⟩, hdead⟩ | ⟨h', -⟩⟩
      · exact (hnone d hd t hslot).1 hvac
      · exact (hnone d hd t hslot).2 hdead
      · simp [hs] at h'
    · rw [hk] at hc hvac hd hr
      rw [hc]
      exact .spawn hs hctl' ⟨hd, hslot⟩ hvac hb hr hu
    · rw [hk] at hc hdead hd
      rw [hc]
      exact .rearm hs hctl' ⟨hd, hslot⟩ hdead

/-! ## Devices -/

theorem sysIrqRaise_move (hk : k.toCore = c.checkIn) (hs : c.frame.sys = some .irqRaise)
    (h : k.sysIrqRaise = .ok k') : Move img table c .ecall k'.toCore := by
  have plain : Plain table c := .of_sys (by simp [hs])
  have ipc : c.frame.sys ≠ some .send ∧ c.frame.sys ≠ some .recv := by simp [hs]
  simp only [Kernel.sysIrqRaise] at h
  cases hc : k.deviceCapCheck k.current (k.frame.arg 0) devRightDriverControl with
  | invalidCap | wrongType | insufficientRights =>
    rw [hc] at h
    cases h
    rw [Kernel.toCore_denyDevice, hk]
    exact (Returns.setA0 _).move ipc plain
  | ok id =>
    simp only [hc, bind_eq_ok] at h
    obtain ⟨dev, hdev, h⟩ := h
    rw [arrayIndex_eq_ok] at hdev
    subst hdev
    cases h
    have hlive : k.irqLiveReceiver dev = c.irqLiveReceiver dev := by
      rw [hk]
      rfl
    have hep : k.endpoints (devices dev).irqEndpoint = c.endpoints (devices dev).irqEndpoint := by
      rw [hk]
      rfl
    rw [hk] at hc
    cases hl : c.irqLiveReceiver dev with
    | none =>
      simp only [Kernel.irqRaise, hlive, hl]
      simp only [Kernel.toCore_core, Kernel.toCore_puts, hk]
      exact .irqDead hs hc hl
    | some r =>
      cases hw : c.endpoints (devices dev).irqEndpoint with
      | idle =>
        simp only [Kernel.irqRaise, hlive, hl, hep, hw]
        simp only [Kernel.toCore_core, hk]
        exact .irqHold hs hc hl (by simp [hw])
      | senderWaiting tid len =>
        simp only [Kernel.irqRaise, hlive, hl, hep, hw]
        simp only [Kernel.toCore_core, hk]
        exact .irqHold hs hc hl (by simp [hw])
      | receiverWaiting tid dst cap =>
        simp only [Kernel.irqRaise, hlive, hl, hep, hw]
        split_ifs with hfit
        · obtain ⟨rfl, hcap, hbuf⟩ := hfit
          simp only [Kernel.toCore_core, Kernel.toCore_emitIrqDelivered, hk]
          exact .irqDeliver hs hc hl hw ⟨hcap, hbuf⟩
        · simp only [Kernel.toCore_core, Kernel.toCore_puts, hk]
          exact (Returns.setA0 _).move ipc plain

/-- The bytes a snapshot call copies out are within the checked window and the caller's buffer. -/
theorem Returns.snapshot {va max : Nat} {out : InfoBuf} (v : Int)
    (asked : c.frame.buffer = some (va, max)) (hout : out.Fits)
    (window : inStackWindow va (min max infoMax) = true) :
    Returns img c ((c.copyBytesToUser va (out.take (min out.length max))).setA0 v) := by
  have hlen : (out.take (min out.length max)).length ≤ min max infoMax := by
    unfold InfoBuf.Fits at hout
    rw [List.length_take]
    omega
  exact .writes asked (by omega) (inStackWindow_mono window hlen) v

theorem sysInfo_returns (hs : k.frame.sys = some .info) :
    Returns img k.toCore k.sysInfo.toCore := by
  have asked : k.frame.buffer = some (k.frame.arg 1, k.frame.arg 2) := by
    simp only [TrapFrame.buffer, hs]
  simp only [Kernel.sysInfo]
  split_ifs with hcap hwin
  · exact .setA0 _
  · exact .setA0 _
  · simp only [Bool.not_eq_true', Bool.not_eq_false] at hwin
    cases hsnap : k.infoSnapshot (k.frame.arg 0) (k.frame.arg 3) with
    | none => exact .setA0 _
    | some out => exact .snapshot _ asked (Kernel.infoSnapshot_fits hsnap) hwin

theorem sysConWrite_returns (img : Image) (k : Kernel) :
    Returns img k.toCore (k.sysConWrite img).toCore := by
  simp only [Kernel.sysConWrite]
  split_ifs with hcap hwin
  · exact .setA0 _
  · exact .setA0 _
  · simp only [Bool.or_eq_true, decide_eq_true_eq, Bool.not_eq_true', not_or, Bool.not_eq_false]
      at hwin
    exact .reads hwin.2 _

theorem sysConRead_returns (env : Env) (hs : k.frame.sys = some .conRead) :
    Returns img k.toCore (k.sysConRead env).toCore := by
  have asked : k.frame.buffer = some (k.frame.arg 0, k.frame.arg 1) := by
    simp only [TrapFrame.buffer, hs]
  simp only [Kernel.sysConRead]
  split_ifs with hcap hwin
  · exact .setA0 _
  · exact .setA0 _
  · simp only [Bool.not_eq_true', Bool.not_eq_false] at hwin
    have hlen := List.length_take_le (min (k.frame.arg 1) ipcMsgMax) env.rx
    exact .writes asked (by omega) (inStackWindow_mono hwin hlen) _

theorem stubDispatch_returns (k : Kernel) : Returns img k.toCore k.stubDispatch.toCore := by
  simp only [Kernel.stubDispatch]
  split <;> exact .setA0 _

theorem sysDeviceInfo_returns (hs : k.frame.sys = some .deviceInfo)
    (h : k.sysDeviceInfo = .ok k') : Returns img k.toCore k'.toCore := by
  have asked : k.frame.buffer = some (k.frame.arg 1, k.frame.arg 2) := by
    simp only [TrapFrame.buffer, hs]
  simp only [Kernel.sysDeviceInfo] at h
  split at h
  · split_ifs at h with hwin
    · cases h
      exact .setA0 _
    · simp only [Bool.not_eq_true', Bool.not_eq_false] at hwin
      rw [bind_eq_ok] at h
      obtain ⟨dev, -, h⟩ := h
      cases h
      exact .snapshot _ asked (InfoBuf.Fits.nil.pushAll _) hwin
  · cases h
    exact .setA0 _

theorem sysMmioRead_returns (h : k.sysMmioRead env = .ok k') : Returns img k.toCore k'.toCore := by
  simp only [Kernel.sysMmioRead] at h
  split at h
  · rw [bind_eq_ok] at h
    obtain ⟨dev, -, h⟩ := h
    split_ifs at h <;> cases h <;> exact .setA0 _
  · cases h
    exact .setA0 _

theorem sysMmioWrite_returns (h : k.sysMmioWrite = .ok k') : Returns img k.toCore k'.toCore := by
  simp only [Kernel.sysMmioWrite] at h
  split at h
  · rw [bind_eq_ok] at h
    obtain ⟨dev, -, h⟩ := h
    split_ifs at h <;> cases h <;> exact .setA0 _
  · cases h
    exact .setA0 _

theorem dmaAccess_returns {required : UInt16} {write : Bool}
    (h : k.dmaAccess img required write = .ok k') : Returns img k.toCore k'.toCore := by
  simp only [Kernel.dmaAccess] at h
  split at h
  · rw [bind_eq_ok] at h
    obtain ⟨dev, -, h⟩ := h
    split_ifs at h <;> cases h <;> exact .setA0 _
  · cases h
    exact .setA0 _

theorem sysShutdown_returns (h : k.sysShutdown = .ok k') : Returns img k.toCore k'.toCore := by
  simp only [Kernel.sysShutdown] at h
  split_ifs at h
  cases h
  exact .setA0 _

/-! ## Steps -/

theorem onSyscall_move (hk : k.toCore = c.advance) (h : k.onSyscall img env = .ok k') :
    Move img (k.serviceTable.getD []) c .ecall k'.toCore := by
  have hk' : (k.core ({ · with watchdogMiss := 0 })).toCore = c.checkIn := by
    rw [Kernel.toCore_core, hk]
    rfl
  have hsys : (k.core ({ · with watchdogMiss := 0 })).frame.sys = c.frame.sys := by
    rw [hk']
    rfl
  simp only [Kernel.onSyscall] at h
  rw [hsys] at h
  cases hs : c.frame.sys with
  | none =>
    rw [hs] at h
    cases h
    have hr : Returns img c.checkIn
        (k.core ({ · with watchdogMiss := 0 })).stubDispatch.toCore := by
      rw [← hk']
      exact stubDispatch_returns _
    exact hr.move (by simp [hs]) (.of_sys (by simp [hs]))
  | some call =>
    rw [hs] at h
    -- the calls that only return to their caller
    have ret : ∀ hne : call ≠ .send ∧ call ≠ .recv ∧ call ≠ .yield ∧ call ≠ .exit ∧
          call ≠ .taskKill ∧ call ≠ .taskStart ∧ call ≠ .taskRestart,
        Returns img (k.core ({ · with watchdogMiss := 0 })).toCore k'.toCore →
        Move img (k.serviceTable.getD []) c .ecall k'.toCore := by
      intro hne hr
      rw [hk'] at hr
      exact hr.move (by simp [hs, hne]) (.of_sys (by simp [hs, hne]))
    cases call with
    | yield => exact yield_move hk' hs h
    | exit => exact exit_move hk' hs h
    | send => exact ipcSend_move hk' hs h
    | recv => exact ipcRecv_move hk' hs h
    | faultAck =>
      cases h
      exact ret (by decide) (Returns.setA0 _)
    | taskStart => exact sysTaskStart_move (k := k.core ({ · with watchdogMiss := 0 })) hk' hs h
    | conWrite =>
      cases h
      exact ret (by decide) (sysConWrite_returns _ _)
    | conRead =>
      cases h
      exact ret (by decide) (sysConRead_returns _ (hsys.trans hs))
    | info =>
      cases h
      exact ret (by decide) (sysInfo_returns (hsys.trans hs))
    | taskKill => exact sysTaskKill_move hk' hs h
    | taskRestart => exact sysTaskRestart_move hk' hs h
    | shutdown => exact ret (by decide) (sysShutdown_returns h)
    | deviceInfo => exact ret (by decide) (sysDeviceInfo_returns (hsys.trans hs) h)
    | mmioRead => exact ret (by decide) (sysMmioRead_returns h)
    | mmioWrite => exact ret (by decide) (sysMmioWrite_returns h)
    | dmaRead => exact ret (by decide) (dmaAccess_returns h)
    | dmaWrite => exact ret (by decide) (dmaAccess_returns h)
    | irqRaise => exact sysIrqRaise_move hk' hs h

/-- A step of the dispatcher is a move from the state on trap entry. -/
theorem step_move {ev : Event} (h : step img k ev = .ok k') :
    Move img (k.serviceTable.getD []) (k.toCore.enter ev) ev.trap k'.toCore := by
  simp only [step] at h
  cases ht : ev.trap with
  | ecall =>
    rw [ht] at h
    exact onSyscall_move (k := (k.core (·.enter ev)).core (·.advance)) rfl h
  | timer =>
    rw [ht] at h
    exact onTimerInterrupt_move h
  | fault reason =>
    rw [ht] at h
    exact containFault_move h

end AxiomRT.Dispatch
