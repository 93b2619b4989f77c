import AxiomRT.Dispatch.Ending
import AxiomRT.Dispatch.Proofs.PanicProofs
import AxiomRT.Dispatch.Proofs.HostIpcProofs

/-!
# Proofs: how a run ends

Every handler that does not return to user mode has taken the running task off the CPU and found no
task to run, or is a shutdown by a holder of the control capability, or panics. In the OS the last
does not happen.
-/

namespace AxiomRT.Dispatch

open Lib

variable {img : Image} {env : Env} {table : List ServiceDef} {c : Core} {k k' : Kernel}

/-- How a handler stops. -/
inductive Stops (img : Image) (c : Core) (tr : Trap) : Stop → Prop
  | panicked : Stops img c tr .panicked
  | idle {k' : Kernel} (act : Halt img c tr k'.toCore) (sel : k'.selectHighest c.current = none) :
      Stops img c tr (.idle k')
  | shutdown {k' : Kernel} (ecall : tr = .ecall) (sys : c.frame.sys = some .shutdown)
      (ctl : c.Controls) (kept : k'.tasks = c.tasks) : Stops img c tr (.shutdown k')

/-- If the handler does not return, it stops in one of these ways. -/
abbrev OrStops (img : Image) (c : Core) (tr : Trap) {α : Type} (r : Except Stop α) : Prop :=
  Ends (Stops img c tr) (fun _ => True) r

variable {tr : Trap}

/-! ## Scheduling -/

theorem arrayIndex_orStops (n id : Nat) : OrStops img c tr (arrayIndex n id) := by
  unfold arrayIndex
  split_ifs
  · trivial
  · exact .panicked

theorem sliceTo_orStops (data : Fin ipcMsgMax → UInt8) (len : Nat) :
    OrStops img c tr (sliceTo data len) := by
  unfold sliceTo
  split_ifs
  · trivial
  · exact .panicked

theorem resumeTask_orStops (next : Slot) : OrStops img c tr (k.resumeTask next) := by
  simp only [Kernel.resumeTask]
  cases (k.tasks next).pendingIpc with
  | none => trivial
  | some pm => exact (sliceTo_orStops pm.data pm.len).bind fun _ _ => trivial

theorem dispatchNext_orStops {idle : List Tx} (act : Halt img c tr k.toCore) :
    OrStops img c tr (k.dispatchNext c.current idle) := by
  simp only [Kernel.dispatchNext]
  cases hsel : k.selectHighest c.current with
  | some next => exact resumeTask_orStops next
  | none => exact .idle act hsel

theorem yield_orStops : OrStops img c tr (k.switch img false) := by
  simp only [Kernel.switch, Bool.false_eq_true, if_false]
  -- the caller itself is ready, so that a task is selected
  have hready : ((k.core fun c => c.modTask k.current
      ({ · with frame := c.frame, state := .ready })).tasks k.current).state = .ready := by
    simp [Kernel.core, Core.modTask, Core.setTask]
  obtain ⟨next, hsel⟩ := @Core.selectHighest_isSome _ k.current _ hready
  rw [hsel]
  exact resumeTask_orStops next

theorem exit_orStops (hk : k.toCore = c.checkIn) (hs : c.frame.sys = some .exit) :
    OrStops img c .ecall (k.switch img true) := by
  simp only [Kernel.switch, if_true, Bool.not_true, Bool.and_false, Bool.false_and,
    Bool.false_eq_true, if_false]
  have hcur : k.current = c.current := by rw [hk]; rfl
  split
  · exact resumeTask_orStops _
  · next hsel =>
    refine .idle ?_ ?_
    · have hact : Halt img c .ecall (c.checkIn.setState c.current .killed) := .exit hs
      rw [← hk, ← hcur] at hact
      exact hact
    · rw [← hcur]
      exact hsel

theorem blockAndSwitch_orStops (hcur : k.current = c.current)
    (act : Halt img c tr (k.toCore.saveAs .blocked)) : OrStops img c tr k.blockAndSwitch := by
  simp only [Kernel.blockAndSwitch]
  rw [hcur]
  exact dispatchNext_orStops (k := k.core fun c' => c'.modTask c.current
    ({ · with frame := c'.frame, state := .blocked })) (by rw [← hcur]; exact act)

theorem preempt_orStops : OrStops img c tr k.preempt := by
  simp only [Kernel.preempt]
  split
  · trivial
  · split_ifs
    · trivial
    · exact resumeTask_orStops _

/-! ## IPC -/

theorem stageFor_orStops (k : Kernel) (tid : Slot) (dst cap len : Nat) :
    OrStops img c tr (k.stageFor tid dst cap len) := by
  unfold Kernel.stageFor
  split_ifs
  · have hstage : OrStops img c tr (PendingMsg.stage dst len k.kmsg) :=
      (sliceTo_orStops ..).bind fun _ _ => (sliceTo_orStops ..).bind fun _ _ => trivial
    exact hstage.bind fun _ _ => trivial
  · trivial

theorem ipcSend_orStops (hk : k.toCore = c.checkIn) (hs : c.frame.sys = some .send) :
    OrStops img c .ecall (k.ipcSend img) := by
  simp only [Kernel.ipcSend]
  cases hc : k.capCheck k.current (k.frame.arg 0) rightSend with
  | invalidCap | wrongType | insufficientRights => trivial
  | ok id =>
    dsimp only
    split_ifs with hlen hbuf
    · trivial
    · trivial
    · cases he : epIndex id with
      | error stop =>
        have hidx : OrStops img c .ecall (epIndex id) := arrayIndex_orStops numEndpoints id
        rw [he] at hidx
        exact hidx
      | ok e =>
        rw [arrayIndex_eq_ok] at he
        subst he
        rw [ok_bind]
        have req : SendReq img c e (c.frame.arg 1) (c.frame.arg 2) := by
          rw [hk] at hc hlen hbuf
          simp only [Bool.not_eq_true', Bool.and_eq_false_iff, not_or, Bool.not_eq_false] at hbuf
          exact ⟨hs, hc, rfl, rfl, Nat.not_lt.mp hlen, hbuf.2⟩
        have hep : (k.core (·.copyFromUser (k.frame.arg 1) (k.frame.arg 2))).endpoints =
            c.endpoints := by
          rw [Kernel.toCore_core, hk]
          rfl
        rw [hep]
        cases hw : c.endpoints e with
        | idle =>
          refine blockAndSwitch_orStops ?_ ?_
          · simp only [Kernel.toCore_puts, Kernel.toCore_emit, Kernel.toCore_core, hk]
            rfl
          · simp only [Kernel.toCore_puts, Kernel.toCore_emit, Kernel.toCore_core, hk]
            exact .sendPark req hw
        | senderWaiting tid plen => trivial
        | receiverWaiting tid dst cap => exact (stageFor_orStops ..).bind fun _ _ => trivial

theorem ipcRecv_orStops (hk : k.toCore = c.checkIn) (hs : c.frame.sys = some .recv) :
    OrStops img c .ecall k.ipcRecv := by
  simp only [Kernel.ipcRecv]
  cases hc : k.capCheck k.current (k.frame.arg 0) rightRecv with
  | invalidCap | wrongType | insufficientRights => trivial
  | ok id =>
    dsimp only
    cases hi : k.irqPendingFor id k.current with
    | some dev =>
      dsimp only
      split_ifs <;> trivial
    | none =>
      dsimp only
      cases he : epIndex id with
      | error stop =>
        have hidx : OrStops img c .ecall (epIndex id) := arrayIndex_orStops numEndpoints id
        rw [he] at hidx
        exact hidx
      | ok e =>
        rw [arrayIndex_eq_ok] at he
        subst he
        rw [ok_bind]
        rw [hk] at hc hi
        have req : RecvReq c e (c.frame.arg 1) (c.frame.arg 2) := ⟨hs, hc, rfl, rfl⟩
        cases hw : k.endpoints e with
        | senderWaiting tid len =>
          dsimp only
          split_ifs
          · trivial
          · exact (sliceTo_orStops k.kmsg len).bind fun _ _ => trivial
        | idle =>
          dsimp only
          split_ifs with hbuf
          · trivial
          · refine blockAndSwitch_orStops ?_ ?_
            · simp only [Kernel.toCore_puts, Kernel.toCore_emit, Kernel.toCore_core, hk]
              rfl
            · rw [hk] at hbuf hw
              have hcap : c.frame.arg 2 ≤ ipcMsgMax := Nat.not_lt.mp fun hlt => hbuf (Or.inl hlt)
              have hvalid := mt Or.inr hbuf
              rw [Core.checkIn_arg, Core.checkIn_arg, Nat.min_eq_left hcap] at hvalid
              simp only [Kernel.toCore_puts, Kernel.toCore_emit, Kernel.toCore_core, hk]
              exact .recvPark req hi hw ⟨hcap, by simpa using hvalid⟩
        | receiverWaiting tid dst cap => trivial

/-! ## Faults -/

theorem faultCurrent_orStops (hcur : k.current = c.current)
    (act : Halt img c tr k.toCore.fault) : OrStops img c tr k.faultCurrent := by
  simp only [Kernel.faultCurrent]
  rw [hcur]
  refine dispatchNext_orStops ?_
  rw [notifySupervisorAndLogger_core, irqDropForTask_core, ← hcur]
  exact act

theorem containFault_orStops {reason : String} :
    OrStops img k.toCore (.fault reason) (k.containFault reason) := by
  simp only [Kernel.containFault]
  exact faultCurrent_orStops rfl .fault

theorem watchdogTick_orStops : OrStops img k.toCore .timer k.watchdogTick := by
  simp only [Kernel.watchdogTick]
  split_ifs with hexp
  · trivial
  · have hexp' : k.toCore.expired := by simpa [Kernel.watchdogExpired, Core.expired] using hexp
    have hfault : ∀ {k₁ : Kernel}, k₁.toCore = k.toCore.countMiss →
        OrStops img k.toCore .timer k₁.faultCurrent := by
      intro k₁ hk₁
      refine faultCurrent_orStops ?_ ?_
      · rw [hk₁]
        rfl
      · rw [hk₁]
        exact .watchdog hexp'
    exact (hfault rfl).bind fun _ _ => trivial

theorem onTimerInterrupt_orStops : OrStops img k.toCore .timer k.onTimerInterrupt := by
  simp only [Kernel.onTimerInterrupt]
  generalize hk₀ : (if wrappingInc k.timerTicks ≤ 3 then
      { k with timerTicks := wrappingInc k.timerTicks }.puts
        [.str "TIMER tick=", .dec (wrappingInc k.timerTicks), .str "\n"]
      else { k with timerTicks := wrappingInc k.timerTicks }) = k₀
  have hcore : k₀.toCore = k.toCore := by
    rw [← hk₀]
    split_ifs <;> rfl
  rw [← hcore]
  refine watchdogTick_orStops.bind fun r _ => ?_
  split_ifs
  · trivial
  · exact preempt_orStops

/-! ## Task control -/

theorem startService_orStops (index : Nat) : OrStops img c tr (k.startService img env index) := by
  simp only [Kernel.startService]
  cases k.serviceTable with
  | none => trivial
  | some table =>
    dsimp only
    cases table[index]? with
    | none => trivial
    | some d =>
      refine (arrayIndex_orStops maxTasks d.slot).bind fun slot _ => ?_
      cases (k.tasks slot).state with
      | empty =>
        dsimp only
        cases img.buildServiceAddressSpace d.slot d.entry d.stackPhys with
        | none => exact .panicked
        | some uas => trivial
      | killed | faulted | ready | running | blocked => trivial

theorem sysTaskStart_orStops : OrStops img c tr (k.sysTaskStart img env) := by
  simp only [Kernel.sysTaskStart]
  split_ifs
  · trivial
  · exact (startService_orStops _).bind fun _ _ => trivial

theorem sysTaskKill_orStops (hk : k.toCore = c.checkIn) (hs : c.frame.sys = some .taskKill) :
    OrStops img c .ecall k.sysTaskKill := by
  simp only [Kernel.sysTaskKill]
  split_ifs with hctl hlt hempty hself
  · trivial
  · trivial
  · have hcur : k.current = c.current := by rw [hk]; rfl
    have hnames : c.Names c.current := by
      have hval : k.frame.arg 0 = k.current.val := congrArg Fin.val hself
      rw [hk] at hval
      exact hval
    rw [hcur]
    refine dispatchNext_orStops ?_
    simp only [hself, Kernel.toCore_emit, Kernel.toCore_ringPush, irqDropForTask_core,
      Kernel.toCore_core]
    rw [hk]
    exact .killSelf hs (controls_of hk hctl) hnames
  · trivial
  · trivial

theorem sysTaskRestart_orStops : OrStops img c tr (k.sysTaskRestart env) := by
  simp only [Kernel.sysTaskRestart]
  split_ifs <;> trivial

theorem sysShutdown_orStops (hk : k.toCore = c.checkIn) (hs : c.frame.sys = some .shutdown) :
    OrStops img c .ecall k.sysShutdown := by
  simp only [Kernel.sysShutdown]
  split_ifs with hctl
  · trivial
  · refine .shutdown rfl hs (controls_of hk hctl) ?_
    rw [Kernel.toCore_puts, hk]
    rfl

/-! ## The device calls -/

/-- A call that resolves a device capability stops only at the index of the device table. -/
theorem deviceCall_orStops {idx : Nat} {required : UInt16} {kind : String}
    {f : Nat → Except Stop Kernel} (hf : ∀ id, OrStops img c tr (f id)) :
    OrStops img c tr (match k.deviceCapCheck k.current idx required with
      | .ok id => f id
      | other => .ok (k.denyDevice k.current kind other)) := by
  cases k.deviceCapCheck k.current idx required with
  | ok id => exact hf id
  | invalidCap | wrongType | insufficientRights => trivial

theorem sysIrqRaise_orStops : OrStops img c tr k.sysIrqRaise :=
  deviceCall_orStops fun id => (arrayIndex_orStops numDevices id).bind fun _ _ => trivial

theorem sysDeviceInfo_orStops : OrStops img c tr k.sysDeviceInfo := by
  refine deviceCall_orStops fun id => ?_
  dsimp only
  split_ifs
  · trivial
  · exact (arrayIndex_orStops numDevices id).bind fun _ _ => trivial

theorem sysMmioRead_orStops : OrStops img c tr (k.sysMmioRead env) := by
  refine deviceCall_orStops fun id => (arrayIndex_orStops numDevices id).bind fun _ _ => ?_
  dsimp only
  split_ifs <;> trivial

theorem sysMmioWrite_orStops : OrStops img c tr k.sysMmioWrite := by
  refine deviceCall_orStops fun id => (arrayIndex_orStops numDevices id).bind fun _ _ => ?_
  dsimp only
  split_ifs <;> trivial

theorem dmaAccess_orStops {required : UInt16} {write : Bool} :
    OrStops img c tr (k.dmaAccess img required write) := by
  refine deviceCall_orStops fun id => (arrayIndex_orStops numDevices id).bind fun _ _ => ?_
  dsimp only
  split_ifs <;> trivial

/-! ## Traps -/

theorem onSyscall_orStops (hk : k.toCore = c.advance) :
    OrStops img c .ecall (k.onSyscall img env) := by
  have hk' : (k.core ({ · with watchdogMiss := 0 })).toCore = c.checkIn := by
    rw [Kernel.toCore_core, hk]
    rfl
  have hsys : (k.core ({ · with watchdogMiss := 0 })).frame.sys = c.frame.sys := by
    rw [hk']
    rfl
  simp only [Kernel.onSyscall]
  rw [hsys]
  cases hs : c.frame.sys with
  | none => trivial
  | some call =>
    cases call with
    | yield => exact yield_orStops
    | exit => exact exit_orStops hk' hs
    | send => exact ipcSend_orStops hk' hs
    | recv => exact ipcRecv_orStops hk' hs
    | taskStart => exact sysTaskStart_orStops
    | taskKill => exact sysTaskKill_orStops hk' hs
    | taskRestart => exact sysTaskRestart_orStops
    | shutdown => exact sysShutdown_orStops hk' hs
    | deviceInfo => exact sysDeviceInfo_orStops
    | mmioRead => exact sysMmioRead_orStops
    | mmioWrite => exact sysMmioWrite_orStops
    | dmaRead => exact dmaAccess_orStops
    | dmaWrite => exact dmaAccess_orStops
    | irqRaise => exact sysIrqRaise_orStops
    | faultAck | conWrite | conRead | info => trivial

/-- A trap that does not return to user mode stops in one of the listed ways. -/
theorem step_orStops (img : Image) (k : Kernel) (ev : Event) :
    OrStops img (k.toCore.enter ev) ev.trap (step img k ev) := by
  simp only [step]
  cases ev.trap with
  | ecall => exact onSyscall_orStops (k := (k.core (·.enter ev)).core (·.advance)) rfl
  | timer => exact onTimerInterrupt_orStops (k := k.core (·.enter ev))
  | fault reason => exact containFault_orStops (k := k.core (·.enter ev))

/-! ## The state at rest -/

/-- The trap leaves the records of tasks and endpoints consistent, with no task on the CPU. -/
theorem Halt.wf {d : Core} (hh : Halt img c tr d) (h : Inv c) : WellFormed none d := by
  cases hh with
  | sendPark req ep => exact h.parked_sender req.len_le
  | recvPark req irq ep fits => exact h.parked_receiver fits.2
  | exit sys => exact h.checkIn.retire (by simp)
  | killSelf sys ctl names => exact h.killed_self
  | watchdog exp => exact h.countMiss.fault
  | fault => exact h.wf.fault

/-- Of the tasks that are not blocked, only the running one changes. -/
theorem Halt.kept {d : Core} (hh : Halt img c tr d) (h : Inv c) {t : Slot} (hne : t ≠ c.current)
    (hb : (c.tasks t).state ≠ .blocked) : d.tasks t = c.tasks t := by
  cases hh with
  | sendPark req ep =>
    rw [Core.park_tasks]
    exact Function.update_of_ne hne ..
  | recvPark req irq ep fits =>
    rw [Core.park_tasks]
    exact Function.update_of_ne hne ..
  | exit sys => exact Function.update_of_ne hne ..
  | killSelf sys ctl names => exact Function.update_of_ne hne ..
  | watchdog exp => exact h.countMiss.fault_tasks hb hne
  | fault => exact h.wf.fault_tasks hb hne

/-- A receiver on a channel for faults with room for the notification would be ready. -/
theorem WellFormed.fault_unreported {run : Option Slot} (hwf : WellFormed run c) {e : EpId}
    (he : IsFaultChannel e) (hnone : ∀ t, (c.fault.tasks t).state ≠ .ready) {tid : Slot}
    {dst cap : Nat} (hep : c.endpoints e = .receiverWaiting tid dst cap) : cap = 0 := by
  by_contra hcap
  have hvalid : validUserBuf dst 1 = true :=
    validUserBuf_mono (hwf.receiver_buf e tid dst cap hep) (Nat.one_le_iff_ne_zero.mpr hcap)
  exact hnone tid (Core.fault_delivers hwf he hep
    ⟨Nat.one_le_iff_ne_zero.mpr hcap, hvalid⟩).1

/-- The dispatcher halts idle only if nothing is left to run. -/
theorem Halt.rests {ev : Event} (hh : Halt img (k.toCore.enter ev) ev.trap k'.toCore)
    (h : Inv k.toCore) (hsel : k'.selectHighest k.current = none) : Rests k ev k' := by
  have hinv := h.enter ev
  have hwf := hh.wf hinv
  have hnone : ∀ t, (k'.tasks t).state ≠ .ready := by
    intro t ht
    obtain ⟨next, hnext⟩ := @Core.selectHighest_isSome _ k.current _ ht
    rw [hsel] at hnext
    cases hnext
  refine ⟨hwf, ?_, ?_, ?_⟩
  · intro t
    refine ⟨hnone t, ?_⟩
    intro hrun
    cases (hwf.running t).mp hrun
  · intro t hne hready
    have hready' : ((k.toCore.enter ev).tasks t).state = .ready := hready
    have hkept := hh.kept hinv hne (by simp [hready'])
    exact hnone t (by rw [hkept]; exact hready)
  · intro hf e he tid dst cap hep
    simp only [Kernel.faults] at hf
    generalize hd : k'.toCore = d at hh
    have hnone' : ∀ t, (d.tasks t).state ≠ .ready := hd ▸ hnone
    generalize htr : ev.trap = tr at hh hf
    cases hh with
    | sendPark | recvPark | exit | killSelf => simp at hf
    | watchdog exp => exact hinv.countMiss.fault_unreported he hnone' hep
    | fault => exact hinv.wf.fault_unreported he hnone' hep

/-! ## Who may shut down -/

theorem serviceGrants_control : ∀ g ∈ serviceGrants.zipIdx, ∀ cap ∈ g.1.2.2, cap.otype = .control →
    g.2 = 3 ∨ g.2 = 5 ∨ g.2 = 11 := by
  decide

theorem BootCaps.controller {t : Slot} {caps : CapTable} (h : BootCaps img t caps)
    {j : Fin capsPerTask} {cap : Cap} (hj : caps j = some cap) (hctl : cap.otype = .control) :
    t ∈ controllers := by
  rcases h with ⟨rfl, -⟩ | ⟨d, hd, hslot, rfl⟩
  · decide
  · obtain ⟨⟨g, i⟩, hg, rfl⟩ := List.mem_map.mp hd
    have hi : i = 3 ∨ i = 5 ∨ i = 11 :=
      serviceGrants_control _ hg cap (List.mem_of_getElem? hj) hctl
    rcases hi with rfl | rfl | rfl
    · have ht : t = 4 := Fin.ext hslot.symm
      simp [ht, controllers]
    · have ht : t = 6 := Fin.ext hslot.symm
      simp [ht, controllers]
    · have ht : t = 12 := Fin.ext hslot.symm
      simp [ht, controllers]

theorem OsInv.controller (h : OsInv img k) (hctl : k.toCore.Controls) :
    k.current ∈ controllers := by
  have hused : (k.tasks k.current).state ≠ .empty := by
    rw [(h.inv.wf.running _).mpr rfl]
    simp
  simp only [Core.Controls, Core.capFind, List.any_eq_true] at hctl
  obtain ⟨j, -, hj⟩ := hctl
  cases hcap : (k.tasks k.current).caps j with
  | none => simp [hcap] at hj
  | some cap =>
    simp only [hcap, Bool.and_eq_true, beq_iff_eq] at hj
    exact (h.caps k.current hused).controller hcap hj.1

/-! ## Runs -/

/-- However a trap ends a run of the OS, it is a shutdown by a holder of the control capability, or
nothing is left to run. -/
theorem osRun_ending (x : OsRun img) (hl : img.Linked) {i : ℕ} (hi : i ≤ x.len) {ev : Event}
    {stop : Stop} (h : step img (x.st i) ev = .error stop) : Ending img (x.st i) ev stop := by
  have hos := osRun_osInv x i hi
  have hsafe : Safe (step img (x.st i) ev) :=
    step_safe (osRun_inRange x hl i hi) (hos.provisioned hl) ev
  have hstop := step_orStops img (x.st i) ev
  rw [h] at hsafe hstop
  cases hstop with
  | panicked => exact absurd hsafe id
  | idle act sel => exact .idle act (act.rests hos.inv sel)
  | shutdown ecall sys ctl kept => exact .shutdown ecall sys (hos.controller ctl) kept

/-- `init_service` starts the supervisor and exits. -/
def lonely : List Event := [sampleCall 8 0 0 0 0, sampleCall 2 0 0 0 0]

theorem survives_lonely : survives lonely = true := by decide

/-- The supervisor waits for a fault that nobody is left to raise. -/
theorem lonely_ending : sampleImage.Linked ∧ ∃ stop : Stop,
    step sampleImage ((sampleOsRun lonely survives_lonely).st 2) (sampleCall 4 0 0x200000 4 0) =
        .error stop ∧
      Ending sampleImage ((sampleOsRun lonely survives_lonely).st 2) (sampleCall 4 0 0x200000 4 0)
        stop := by
  refine ⟨sampleImage_linked, ?_⟩
  cases h : step sampleImage ((sampleOsRun lonely survives_lonely).st 2)
      (sampleCall 4 0 0x200000 4 0) with
  | error stop => exact ⟨stop, rfl, osRun_ending _ sampleImage_linked (Nat.le_refl 2) h⟩
  | ok k =>
    have hstops : (step sampleImage (sampleState lonely 2) (sampleCall 4 0 0x200000 4 0)).isOk =
        false := by decide
    rw [show step sampleImage (sampleState lonely 2) (sampleCall 4 0 0x200000 4 0) = .ok k from h]
      at hstops
    cases hstops

end AxiomRT.Dispatch
