import AxiomRT.Dispatch.DeviceAccess
import AxiomRT.Dispatch.Proofs.MovesProofs

/-!
# Proofs: the event ring, the service table and the bus

No step changes the service table, and a step appends at most one entry to the event ring: a
recovery entry exactly if it is a `sys_fault_ack`. Only the device calls go to the bus or to the
bounce page.
-/

namespace AxiomRT.Dispatch

open Lib

variable {img : Image} {env : Env} {k k' : Kernel}

/-- The part of the kernel state that only evidence and the device calls write to. -/
structure Log where
  serviceTable : Option (List ServiceDef)
  ring : Fin ringLen → EvKind × Slot
  ringHead : Nat
  bus : List BusAccess
  dma : Nat → UInt8

/-- What `ring_push` does to the log. -/
def Log.push (l : Log) (kind : EvKind) (slot : Slot) : Log :=
  { l with
    ring := Function.update l.ring (Fin.ofNat ringLen l.ringHead) (kind, slot)
    ringHead := wrappingInc l.ringHead }

namespace Kernel

/-- The log of a kernel state. -/
def log (k : Kernel) : Log := ⟨k.serviceTable, k.ring, k.ringHead, k.bus, k.dma⟩

@[simp] theorem log_core (k : Kernel) (f : Core → Core) : (k.core f).log = k.log := rfl
@[simp] theorem log_puts (k : Kernel) (out : List Tx) : (k.puts out).log = k.log := rfl
@[simp] theorem log_emit (k : Kernel) (pre name : String) : (k.emit pre name).log = k.log := rfl
@[simp] theorem log_ringPush (k : Kernel) (kind : EvKind) (slot : Slot) :
    (k.ringPush kind slot).log = k.log.push kind slot := rfl
@[simp] theorem log_emitIrqDelivered (k : Kernel) (receiver source : String) :
    (k.emitIrqDelivered receiver source).log = k.log := rfl
@[simp] theorem log_denyDeviceOp (k : Kernel) (cur : Slot) (kind reason : String) :
    (k.denyDeviceOp cur kind reason).log = k.log.push .capDenied cur := rfl
@[simp] theorem log_denyDevice (k : Kernel) (cur : Slot) (kind : String) (check : CapCheck) :
    (k.denyDevice cur kind check).log = k.log.push .capDenied cur := rfl

end Kernel

/-- The step writes nothing to the ring, or one entry that is not a recovery record. -/
def LogsPlain (l l' : Log) : Prop :=
  l' = l ∨ ∃ kind slot, kind ≠ .recovery ∧ l' = l.push kind slot

theorem LogsPlain.same (l : Log) : LogsPlain l l := Or.inl rfl

theorem LogsPlain.push (l : Log) (kind : EvKind) (slot : Slot) (h : kind ≠ .recovery) :
    LogsPlain l (l.push kind slot) :=
  Or.inr ⟨kind, slot, h, rfl⟩

/-- Evidence goes neither to the bus nor to the bounce page. -/
theorem LogsPlain.bus_same {l l' : Log} (h : LogsPlain l l') : l'.bus = l.bus ∧ l'.dma = l.dma := by
  rcases h with rfl | ⟨kind, slot, -, rfl⟩
  · exact ⟨rfl, rfl⟩
  · exact ⟨rfl, rfl⟩

/-! ## Scheduling -/

theorem resumeTask_log {next : Slot} (h : k.resumeTask next = .ok k') : k'.log = k.log := by
  simp only [Kernel.resumeTask] at h
  cases hp : (k.tasks next).pendingIpc with
  | none =>
    rw [hp] at h
    cases h
    rfl
  | some pm =>
    simp only [hp, bind_eq_ok] at h
    obtain ⟨bytes, -, h⟩ := h
    cases h
    rfl

theorem dispatchNext_log {cur : Slot} {idle : List Tx} (h : k.dispatchNext cur idle = .ok k') :
    k'.log = k.log := by
  simp only [Kernel.dispatchNext] at h
  split at h
  · exact (resumeTask_log h).trans (Kernel.log_emit ..)
  · cases h

theorem switch_log {exiting : Bool} (h : k.switch img exiting = .ok k') :
    LogsPlain k.log k'.log := by
  cases exiting with
  | false =>
    simp only [Kernel.switch, Bool.false_eq_true, if_false] at h
    split at h
    · have hlog := resumeTask_log h
      left
      rw [hlog]
      split_ifs <;> rfl
    · cases h
  | true =>
    simp only [Kernel.switch, if_true, Bool.not_true, Bool.and_false, Bool.false_and,
      Bool.false_eq_true, if_false] at h
    split at h
    · rw [resumeTask_log h]
      exact .push _ .exited k.current (by simp)
    · cases h

theorem preempt_log (h : k.preempt = .ok k') : k'.log = k.log := by
  simp only [Kernel.preempt] at h
  split at h
  · cases h
    rfl
  · split_ifs at h
    · cases h
      rfl
    · rw [resumeTask_log h]
      rfl

theorem blockAndSwitch_log (h : k.blockAndSwitch = .ok k') : k'.log = k.log := by
  simp only [Kernel.blockAndSwitch] at h
  rw [dispatchNext_log h]
  rfl

/-! ## Faults -/

theorem irqDropForTask_log (k : Kernel) (slot : Slot) : (k.irqDropForTask slot).log = k.log := by
  simp only [Kernel.irqDropForTask]
  generalize List.finRange numDevices = l
  induction l generalizing k with
  | nil => rfl
  | cons i l ih =>
    rw [List.foldl_cons, ih]
    simp only [Kernel.irqDropRoute]
    split_ifs <;> rfl

theorem notifyEndpoint_log (k : Kernel) (e : EpId) (code : UInt8) :
    (k.notifyEndpoint e code).1.log = k.log := by
  simp only [Kernel.notifyEndpoint]
  split
  · split_ifs <;> rfl
  · rfl

theorem notifySupervisorAndLogger_log (k : Kernel) (name : String) :
    (k.notifySupervisorAndLogger name).log = k.log := by
  simp only [Kernel.notifySupervisorAndLogger]
  split_ifs <;> simp only [Kernel.log_puts, Kernel.log_emit, notifyEndpoint_log]

theorem faultCurrent_log (h : k.faultCurrent = .ok k') : k'.log = k.log := by
  simp only [Kernel.faultCurrent] at h
  rw [dispatchNext_log h, notifySupervisorAndLogger_log, irqDropForTask_log, Kernel.log_core]

theorem containFault_log {reason : String} (h : k.containFault reason = .ok k') :
    LogsPlain k.log k'.log := by
  simp only [Kernel.containFault] at h
  rw [faultCurrent_log h]
  exact .push _ .fault k.current (by simp)

theorem onTimerInterrupt_log (h : k.onTimerInterrupt = .ok k') : LogsPlain k.log k'.log := by
  simp only [Kernel.onTimerInterrupt, bind_eq_ok] at h
  obtain ⟨⟨k₁, faulted⟩, hw, h⟩ := h
  generalize hk₀ : (if wrappingInc k.timerTicks ≤ 3 then
      { k with timerTicks := wrappingInc k.timerTicks }.puts
        [.str "TIMER tick=", .dec (wrappingInc k.timerTicks), .str "\n"]
      else { k with timerTicks := wrappingInc k.timerTicks }) = k₀ at hw
  have hlog₀ : k₀.log = k.log := by
    rw [← hk₀]
    split_ifs <;> rfl
  rw [← hlog₀]
  simp only [Kernel.watchdogTick] at hw
  split_ifs at hw with hexp
  · cases hw
    left
    rw [preempt_log h]
    rfl
  · rw [bind_eq_ok] at hw
    obtain ⟨k₂, hf, hw⟩ := hw
    cases hw
    cases h
    rw [faultCurrent_log hf]
    exact .push _ .fault k₀.current (by simp)

/-! ## IPC -/

theorem ipcSend_log (h : k.ipcSend img = .ok k') : LogsPlain k.log k'.log := by
  simp only [Kernel.ipcSend] at h
  split at h
  · split_ifs at h
    · cases h
      exact .same _
    · cases h
      exact .same _
    · rw [bind_eq_ok] at h
      obtain ⟨e, -, h⟩ := h
      split at h
      · rw [bind_eq_ok] at h
        obtain ⟨k₁, hstage, h⟩ := h
        cases h
        left
        rw [stageFor_eq_ok hstage]
        rfl
      · left
        rw [blockAndSwitch_log h]
        rfl
      · cases h
        exact .same _
  · cases h
    exact .push _ .capDenied k.current (by simp)

theorem ipcRecv_log (h : k.ipcRecv = .ok k') : LogsPlain k.log k'.log := by
  simp only [Kernel.ipcRecv] at h
  split at h
  · split at h
    · split_ifs at h
      · cases h
        exact .same _
      · cases h
        left
        simp only [Kernel.log_emitIrqDelivered, Kernel.log_core]
    · rw [bind_eq_ok] at h
      obtain ⟨e, -, h⟩ := h
      split at h
      · split_ifs at h
        · cases h
          exact .same _
        · rw [bind_eq_ok] at h
          obtain ⟨bytes, -, h⟩ := h
          cases h
          exact .same _
      · split_ifs at h
        · cases h
          exact .same _
        · left
          rw [blockAndSwitch_log h]
          rfl
      · cases h
        exact .same _
  · cases h
    exact .push _ .capDenied k.current (by simp)

/-! ## Task control -/

theorem announceDeviceGrants_log (k : Kernel) (slot : Slot) :
    (k.announceDeviceGrants slot).log = k.log := by
  simp only [Kernel.announceDeviceGrants]
  generalize List.finRange capsPerTask = l
  induction l generalizing k with
  | nil => rfl
  | cons i l ih =>
    rw [List.foldl_cons, ih]
    simp only [Kernel.announceGrant]
    split
    · rfl
    · split_ifs <;> rfl

theorem startService_log {index : Nat} {v : Int}
    (h : k.startService img env index = .ok (k', v)) : LogsPlain k.log k'.log := by
  simp only [Kernel.startService] at h
  split at h
  · cases h
    exact .same _
  · split at h
    · cases h
      exact .same _
    · rw [bind_eq_ok] at h
      obtain ⟨slot, -, h⟩ := h
      split at h
      · split at h
        · cases h
        · cases h
          simp only [Kernel.log_emit, Kernel.log_ringPush, announceDeviceGrants_log,
            Kernel.log_core, Kernel.registerTask]
          exact .push _ _ slot (by simp)
      · cases h
        exact .push _ .started slot (by simp)
      · cases h
        exact .push _ .started slot (by simp)
      · cases h
        exact .same _
      · cases h
        exact .same _
      · cases h
        exact .same _

theorem sysTaskStart_log (h : k.sysTaskStart img env = .ok k') : LogsPlain k.log k'.log := by
  simp only [Kernel.sysTaskStart] at h
  split_ifs at h
  · cases h
    exact .push _ .capDenied k.current (by simp)
  · rw [bind_eq_ok] at h
    obtain ⟨⟨k₁, v⟩, hst, h⟩ := h
    cases h
    rw [Kernel.log_core]
    exact startService_log hst

theorem sysTaskKill_log (h : k.sysTaskKill = .ok k') : LogsPlain k.log k'.log := by
  simp only [Kernel.sysTaskKill] at h
  split_ifs at h with hctl hlt hempty hself
  · cases h
    exact .push _ .capDenied k.current (by simp)
  · cases h
    exact .same _
  · rw [dispatchNext_log h]
    simp only [Kernel.log_emit, Kernel.log_ringPush, irqDropForTask_log, Kernel.log_core]
    exact .push _ _ _ (by simp)
  · cases h
    simp only [Kernel.log_emit, Kernel.log_ringPush, irqDropForTask_log, Kernel.log_core]
    exact .push _ _ _ (by simp)
  · cases h
    exact .same _

theorem sysTaskRestart_log (h : k.sysTaskRestart env = .ok k') : LogsPlain k.log k'.log := by
  simp only [Kernel.sysTaskRestart] at h
  split_ifs at h with hctl hlt hbad
  · cases h
    exact .push _ .capDenied k.current (by simp)
  · cases h
    exact .same _
  · cases h
    exact .push _ .restarted ⟨k.frame.arg 0, hlt⟩ (by simp)
  · cases h
    exact .same _

theorem sysShutdown_log (h : k.sysShutdown = .ok k') : LogsPlain k.log k'.log := by
  simp only [Kernel.sysShutdown] at h
  split_ifs at h
  cases h
  exact .push _ .capDenied k.current (by simp)

/-! ## Devices, console and introspection -/

theorem irqRaise_log (k : Kernel) (dev : DevId) : (k.irqRaise dev).1.log = k.log := by
  simp only [Kernel.irqRaise]
  split
  · rfl
  · split
    · split_ifs <;> rfl
    · rfl

theorem sysIrqRaise_log (h : k.sysIrqRaise = .ok k') : LogsPlain k.log k'.log := by
  simp only [Kernel.sysIrqRaise] at h
  split at h
  · rw [bind_eq_ok] at h
    obtain ⟨dev, -, h⟩ := h
    cases h
    left
    rw [Kernel.log_core, irqRaise_log]
  · cases h
    exact .push _ .capDenied k.current (by simp)

theorem sysInfo_log (k : Kernel) : LogsPlain k.log k.sysInfo.log := by
  simp only [Kernel.sysInfo]
  split_ifs
  · exact .push _ .capDenied k.current (by simp)
  · exact .same _
  · split <;> exact .same _

theorem sysConWrite_log (img : Image) (k : Kernel) : LogsPlain k.log (k.sysConWrite img).log := by
  simp only [Kernel.sysConWrite]
  split_ifs
  · exact .push _ .capDenied k.current (by simp)
  · exact .same _
  · exact .same _

theorem sysConRead_log (env : Env) (k : Kernel) : LogsPlain k.log (k.sysConRead env).log := by
  simp only [Kernel.sysConRead]
  split_ifs
  · exact .push _ .capDenied k.current (by simp)
  · exact .same _
  · exact .same _

theorem stubDispatch_log (k : Kernel) : LogsPlain k.log k.stubDispatch.log := by
  simp only [Kernel.stubDispatch]
  split <;> exact .same _

theorem sysDeviceInfo_log (h : k.sysDeviceInfo = .ok k') : LogsPlain k.log k'.log := by
  simp only [Kernel.sysDeviceInfo] at h
  split at h
  · split_ifs at h
    · cases h
      exact .same _
    · rw [bind_eq_ok] at h
      obtain ⟨dev, -, h⟩ := h
      cases h
      exact .same _
  · cases h
    exact .push _ .capDenied k.current (by simp)

/-! ## Device accesses -/

/-- The device call `sys` makes the access `a` to a region of `dev`. -/
structure Accessed (img : Image) (c : Core) (sys : Sys) (op : DeviceOp) (dev : DevId) (l l' : Log)
    (result : Int) (a : BusAccess) : Prop where
  resolves : c.deviceCapCheck c.current (c.frame.arg 0) op.required = .ok dev.val
  bounds : Kernel.accessInBounds (op.region.size dev) (c.frame.arg 1) (c.frame.arg 2) = true
  access : a = ⟨op.write, op.region.base img dev + c.frame.arg 1, c.frame.arg 2, a.value⟩
  fits : a.value < 256 ^ c.frame.arg 2
  loaded : sys = .dmaRead → a.value = Kernel.dmaLoad l.dma (c.frame.arg 1) (c.frame.arg 2)
  stored : sys = .dmaWrite → a.value = c.frame.arg 3 % 256 ^ c.frame.arg 2
  log : l' = { l with
    bus := l.bus ++ [a]
    dma := if sys = .dmaWrite then
      Kernel.dmaStore l.dma (c.frame.arg 1) (c.frame.arg 2) (c.frame.arg 3) else l.dma }
  done : result = if op.write then 0 else (a.value : Int)

/-- The outcomes of the device call `sys`: it fails and touches no device, or it makes one
access. -/
inductive DeviceCall (img : Image) (c : Core) (sys : Sys) (op : DeviceOp) (l l' : Log)
    (result : Int) : Prop
  | refused (logs : LogsPlain l l') (code : result < 0)
  | accessed {dev : DevId} {a : BusAccess} (made : Accessed img c sys op dev l l' result a)

/-- Device calls do not look at what the handler does on entry. -/
theorem DeviceCall.of_checkIn {c : Core} {sys : Sys} {op : DeviceOp} {l l' : Log} {result : Int}
    (h : DeviceCall img c.checkIn sys op l l' result) : DeviceCall img c sys op l l' result := by
  cases h with
  | refused logs code => exact .refused logs code
  | accessed made =>
    exact .accessed ⟨made.resolves, made.bounds, made.access, made.fits, made.loaded, made.stored,
      made.log, made.done⟩

theorem deviceCheckErr_bounds (check : CapCheck) :
    -2 ^ 63 ≤ (deviceCheckErr check).1 ∧ (deviceCheckErr check).1 < 0 := by
  cases check with
  | ok id => exact (by decide : -2 ^ 63 ≤ errInvalidArg ∧ errInvalidArg < 0)
  | invalidCap => decide
  | wrongType => decide
  | insufficientRights => decide

theorem denyDevice_a0 (k : Kernel) (cur : Slot) (kind : String) (check : CapCheck) :
    (k.denyDevice cur kind check).frame.a0 < 0 := by
  obtain ⟨hlo, hhi⟩ := deviceCheckErr_bounds check
  have ha0 : (k.denyDevice cur kind check).frame.a0 = (deviceCheckErr check).1 :=
    TrapFrame.a0_setA0 _ hlo (by omega)
  rw [ha0]
  exact hhi

theorem setA0_errInvalidArg_a0 (k : Kernel) : (k.core (·.setA0 errInvalidArg)).frame.a0 < 0 := by
  have ha0 : (k.core (·.setA0 errInvalidArg)).frame.a0 = errInvalidArg :=
    TrapFrame.a0_setA0 _ (by decide) (by decide)
  rw [ha0]
  decide

theorem setA0_zero_a0 (k : Kernel) : (k.core (·.setA0 0)).frame.a0 = 0 :=
  TrapFrame.a0_setA0 _ (by decide) (by decide)

/-- A value of at most four bytes is a result that reads back. -/
theorem setA0_value_a0 (k : Kernel) {value width : Nat} (hfits : value < 256 ^ width)
    (hwidth : width ≤ 4) : (k.core (·.setA0 value)).frame.a0 = value := by
  have hle : 256 ^ width ≤ 256 ^ 4 := Nat.pow_le_pow_right (by decide) hwidth
  exact TrapFrame.a0_setA0 _ (by omega) (by omega)

/-- What the bounds check of a mediated access ensures. -/
theorem accessInBounds_spec {size offset width : Nat}
    (h : Kernel.accessInBounds size offset width = true) :
    (width = 1 ∨ width = 2 ∨ width = 4) ∧ offset % width = 0 ∧ offset + width ≤ size := by
  unfold Kernel.accessInBounds at h
  simp only [Bool.and_eq_true, Bool.or_eq_true, beq_iff_eq] at h
  obtain ⟨⟨hw, halign⟩, hend⟩ := h
  exact ⟨by omega, halign, checkedAdd_le hend⟩

theorem dmaLoad_lt (dma : Nat → UInt8) (offset width : Nat) :
    Kernel.dmaLoad dma offset width < 256 ^ width := by
  induction width generalizing offset with
  | zero => exact Nat.one_pos
  | succ w ih =>
    have hbyte := (dma offset).toNat_lt
    have hrest := ih (offset + 1)
    rw [Kernel.dmaLoad, Nat.pow_succ]
    omega

/-- Truncation to the width of an access leaves a value of that many bytes. -/
theorem mod_two_pow_bytes (value width : Nat) : value % 2 ^ (8 * width) = value % 256 ^ width := by
  rw [Nat.pow_mul]

theorem mod_two_pow_bytes_lt (value width : Nat) : value % 2 ^ (8 * width) < 256 ^ width := by
  rw [mod_two_pow_bytes]
  exact Nat.mod_lt _ (Nat.pow_pos (by decide))

/-- The device calls share their denials: only with a capability for a device, and inside its
region, does the access `f` follow. -/
theorem deviceCall_cases {required : UInt16} {kind : String} {size : DevId → Nat}
    {f : DevId → Except Stop Kernel}
    (h : (match k.deviceCapCheck k.current (k.frame.arg 0) required with
      | .ok id => devIndex id >>= fun dev =>
        if !Kernel.accessInBounds (size dev) (k.frame.arg 1) (k.frame.arg 2) then
          .ok ((k.denyDeviceOp k.current kind "out_of_range").core (·.setA0 errInvalidArg))
        else f dev
      | other => .ok (k.denyDevice k.current kind other)) = .ok k') :
    (LogsPlain k.log k'.log ∧ k'.frame.a0 < 0) ∨
      ∃ dev : DevId, k.deviceCapCheck k.current (k.frame.arg 0) required = .ok dev.val ∧
        Kernel.accessInBounds (size dev) (k.frame.arg 1) (k.frame.arg 2) = true ∧
        f dev = .ok k' := by
  split at h
  · next id hcap =>
    rw [bind_eq_ok] at h
    obtain ⟨dev, hdev, h⟩ := h
    rw [arrayIndex_eq_ok] at hdev
    subst hdev
    split_ifs at h with hacc
    · cases h
      refine Or.inl ⟨?_, setA0_errInvalidArg_a0 _⟩
      rw [Kernel.log_core, Kernel.log_denyDeviceOp]
      exact .push _ .capDenied k.current (by simp)
    · simp only [Bool.not_eq_true', Bool.not_eq_false] at hacc
      exact Or.inr ⟨dev, hcap, hacc, h⟩
  · cases h
    refine Or.inl ⟨?_, denyDevice_a0 ..⟩
    rw [Kernel.log_denyDevice]
    exact .push _ .capDenied k.current (by simp)

theorem sysMmioRead_call (h : k.sysMmioRead env = .ok k') :
    DeviceCall img k.toCore .mmioRead ⟨devRightMmioRead, false, .mmio⟩ k.log k'.log
      k'.frame.a0 := by
  unfold Kernel.sysMmioRead at h
  rcases deviceCall_cases (k := k) h with ⟨logs, code⟩ | ⟨dev, hcap, hacc, h⟩
  · exact .refused logs code
  · cases h
    obtain ⟨hwidth, -, -⟩ := accessInBounds_spec hacc
    have hfits := mod_two_pow_bytes_lt
      (env.mmio ((devices dev).mmioBase + k.frame.arg 1) (k.frame.arg 2)) (k.frame.arg 2)
    exact .accessed ⟨hcap, hacc, rfl, hfits, nofun, nofun, rfl, setA0_value_a0 _ hfits (by omega)⟩

theorem sysMmioWrite_call (h : k.sysMmioWrite = .ok k') :
    DeviceCall img k.toCore .mmioWrite ⟨devRightMmioWrite, true, .mmio⟩ k.log k'.log
      k'.frame.a0 := by
  unfold Kernel.sysMmioWrite at h
  rcases deviceCall_cases (k := k) h with ⟨logs, code⟩ | ⟨dev, hcap, hacc, h⟩
  · exact .refused logs code
  · cases h
    exact .accessed ⟨hcap, hacc, rfl, mod_two_pow_bytes_lt .., nofun, nofun, rfl, setA0_zero_a0 _⟩

theorem sysDmaRead_call (h : k.sysDmaRead img = .ok k') :
    DeviceCall img k.toCore .dmaRead ⟨devRightDmaRead, false, .dma⟩ k.log k'.log k'.frame.a0 := by
  unfold Kernel.sysDmaRead Kernel.dmaAccess at h
  rcases deviceCall_cases (k := k) h with ⟨logs, code⟩ | ⟨dev, hcap, hacc, h⟩
  · exact .refused logs code
  · cases h
    obtain ⟨hwidth, -, -⟩ := accessInBounds_spec hacc
    have hfits := dmaLoad_lt k.dma (k.frame.arg 1) (k.frame.arg 2)
    exact .accessed ⟨hcap, hacc, rfl, hfits, fun _ => rfl, nofun, rfl,
      setA0_value_a0 _ hfits (by omega)⟩

theorem sysDmaWrite_call (h : k.sysDmaWrite img = .ok k') :
    DeviceCall img k.toCore .dmaWrite ⟨devRightDmaWrite, true, .dma⟩ k.log k'.log k'.frame.a0 := by
  unfold Kernel.sysDmaWrite Kernel.dmaAccess at h
  rcases deviceCall_cases (k := k) h with ⟨logs, code⟩ | ⟨dev, hcap, hacc, h⟩
  · exact .refused logs code
  · cases h
    exact .accessed ⟨hcap, hacc, rfl, mod_two_pow_bytes_lt .., nofun,
      fun _ => mod_two_pow_bytes .., rfl, setA0_zero_a0 _⟩

/-! ## Steps -/

theorem onSyscall_log (hack : k.frame.sys ≠ some .faultAck)
    (hdev : ∀ sys, k.frame.sys = some sys → sys.deviceOp = none)
    (h : k.onSyscall img env = .ok k') : LogsPlain k.log k'.log := by
  simp only [Kernel.onSyscall] at h
  generalize hk₁ : k.core ({ · with watchdogMiss := 0 }) = k₁ at h
  have hlog : k.log = k₁.log := by rw [← hk₁, Kernel.log_core]
  have hsys : k.frame.sys = k₁.frame.sys := by subst hk₁; rfl
  rw [hsys] at hack hdev
  rw [hlog]
  cases hs : k₁.frame.sys with
  | none =>
    rw [hs] at h
    cases h
    exact stubDispatch_log k₁
  | some call =>
    rw [hs] at h
    have hnone := hdev call hs
    cases call with
    | faultAck => exact absurd hs hack
    | yield => exact switch_log h
    | exit => exact switch_log h
    | send => exact ipcSend_log h
    | recv => exact ipcRecv_log h
    | taskStart => exact sysTaskStart_log h
    | conWrite =>
      cases h
      exact sysConWrite_log img k₁
    | conRead =>
      cases h
      exact sysConRead_log env k₁
    | info =>
      cases h
      exact sysInfo_log k₁
    | taskKill => exact sysTaskKill_log h
    | taskRestart => exact sysTaskRestart_log h
    | shutdown => exact sysShutdown_log h
    | deviceInfo => exact sysDeviceInfo_log h
    | mmioRead => cases hnone
    | mmioWrite => cases hnone
    | dmaRead => cases hnone
    | dmaWrite => cases hnone
    | irqRaise => exact sysIrqRaise_log h

theorem onSyscall_device {sys : Sys} {op : DeviceOp} (hs : k.frame.sys = some sys)
    (hop : sys.deviceOp = some op) (h : k.onSyscall img env = .ok k') :
    DeviceCall img { k.toCore with watchdogMiss := 0 } sys op k.log k'.log k'.frame.a0 := by
  simp only [Kernel.onSyscall] at h
  have hs₁ : (k.core ({ · with watchdogMiss := 0 })).frame.sys = some sys := hs
  rw [hs₁] at h
  rw [← Kernel.log_core k ({ · with watchdogMiss := 0 })]
  cases sys with
  | mmioRead =>
    cases hop
    exact sysMmioRead_call h
  | mmioWrite =>
    cases hop
    exact sysMmioWrite_call h
  | dmaRead =>
    cases hop
    exact sysDmaRead_call h
  | dmaWrite =>
    cases hop
    exact sysDmaWrite_call h
  | _ => cases hop

/-- The trap is a `sys_fault_ack`. -/
def Acks (ev : Event) : Prop := ev.trap = .ecall ∧ ev.frame.sys = some .faultAck

/-- The trap is a device call. -/
def CallsDevice (ev : Event) (sys : Sys) (op : DeviceOp) : Prop :=
  ev.trap = .ecall ∧ ev.frame.sys = some sys ∧ sys.deviceOp = some op

theorem step_log_plain {ev : Event} (hack : ¬ Acks ev) (hdev : ∀ sys op, ¬ CallsDevice ev sys op)
    (h : step img k ev = .ok k') : LogsPlain k.log k'.log := by
  simp only [step] at h
  cases ht : ev.trap with
  | ecall =>
    rw [ht] at h
    have hne : ev.frame.sys ≠ some .faultAck := fun hs => hack ⟨ht, hs⟩
    refine onSyscall_log (k := (k.core (·.enter ev)).core (·.advance)) hne ?_ h
    intro sys hs
    exact Option.eq_none_iff_forall_ne_some.mpr fun op hop => hdev sys op ⟨ht, hs, hop⟩
  | timer =>
    rw [ht] at h
    exact onTimerInterrupt_log (k := k.core (·.enter ev)) h
  | fault reason =>
    rw [ht] at h
    exact containFault_log (k := k.core (·.enter ev)) h

theorem step_log_ack {ev : Event} (hack : Acks ev) (h : step img k ev = .ok k') :
    k'.log = k.log.push .recovery k.current := by
  have hsys : ((((k.core (·.enter ev)).core (·.advance)).core
      ({ · with watchdogMiss := 0 })).frame.sys) = some .faultAck := hack.2
  simp only [step, hack.1, Kernel.onSyscall, hsys] at h
  cases h
  rfl

theorem step_log_device {ev : Event} {sys : Sys} {op : DeviceOp} (hdev : CallsDevice ev sys op)
    (h : step img k ev = .ok k') :
    DeviceCall img (k.toCore.enter ev) sys op k.log k'.log k'.frame.a0 := by
  obtain ⟨ht, hs, hop⟩ := hdev
  simp only [step, ht] at h
  have hcall := onSyscall_device (k := (k.core (·.enter ev)).core (·.advance)) hs hop h
  exact DeviceCall.of_checkIn (c := k.toCore.enter ev) hcall

/-- A step leaves the ring alone or pushes one entry, which is a recovery record only for an
acknowledgement; the service table stays. -/
theorem step_ring_cases {ev : Event} (h : step img k ev = .ok k') :
    k'.serviceTable = k.serviceTable ∧ ((k'.ring = k.ring ∧ k'.ringHead = k.ringHead) ∨
      ∃ e, (e.1 = .recovery → Acks ev) ∧
        k'.ring = Function.update k.ring (Fin.ofNat ringLen k.ringHead) e ∧
        k'.ringHead = wrappingInc k.ringHead) := by
  have hplain : LogsPlain k.log k'.log → k'.serviceTable = k.serviceTable ∧
      ((k'.ring = k.ring ∧ k'.ringHead = k.ringHead) ∨ ∃ e, (e.1 = .recovery → Acks ev) ∧
        k'.ring = Function.update k.ring (Fin.ofNat ringLen k.ringHead) e ∧
        k'.ringHead = wrappingInc k.ringHead) := by
    rintro (hlog | ⟨kind, slot, hkind, hlog⟩)
    · exact ⟨congrArg Log.serviceTable hlog,
        Or.inl ⟨congrArg Log.ring hlog, congrArg Log.ringHead hlog⟩⟩
    · exact ⟨congrArg Log.serviceTable hlog, Or.inr ⟨(kind, slot), fun hrec => absurd hrec hkind,
        congrArg Log.ring hlog, congrArg Log.ringHead hlog⟩⟩
  by_cases hack : Acks ev
  · have hlog := step_log_ack hack h
    exact ⟨congrArg Log.serviceTable hlog, Or.inr ⟨(.recovery, k.current), fun _ => hack,
      congrArg Log.ring hlog, congrArg Log.ringHead hlog⟩⟩
  by_cases hdev : ∃ sys op, CallsDevice ev sys op
  · obtain ⟨sys, op, hdev⟩ := hdev
    cases step_log_device hdev h with
    | refused logs code => exact hplain logs
    | accessed made =>
      exact ⟨congrArg Log.serviceTable made.log,
        Or.inl ⟨congrArg Log.ring made.log, congrArg Log.ringHead made.log⟩⟩
  · exact hplain (step_log_plain hack (fun sys op hcall => hdev ⟨sys, op, hcall⟩) h)

/-- No step changes the service table. -/
theorem step_serviceTable {ev : Event} (h : step img k ev = .ok k') :
    k'.serviceTable = k.serviceTable :=
  (step_ring_cases h).1

/-- A step that is no device call leaves the bus and the bounce page alone. -/
theorem step_bus_same {ev : Event} (hdev : ∀ sys op, ¬ CallsDevice ev sys op)
    (h : step img k ev = .ok k') : k'.bus = k.bus ∧ k'.dma = k.dma := by
  by_cases hack : Acks ev
  · have hlog := step_log_ack hack h
    exact ⟨congrArg Log.bus hlog, congrArg Log.dma hlog⟩
  · exact (step_log_plain hack hdev h).bus_same

end AxiomRT.Dispatch
