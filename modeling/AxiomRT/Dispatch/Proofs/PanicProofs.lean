import AxiomRT.Dispatch.Proofs.AuthorityProofs
import AxiomRT.Dispatch.Proofs.IntegrityProofs

/-!
# Proofs: the dispatcher does not panic

The syscalls read indexes, lengths and addresses from raw registers and from records that earlier
syscalls left. No index or slice that they form is out of range, and no address they compute leaves
the 64-bit space: every byte of user memory the kernel touches and every access it makes on the bus
is in the logs of the model, so that this is a property of the logs.
-/

namespace AxiomRT.Dispatch

open Lib

variable {img : Image} {env : Env} {k : Kernel} {c c' d : Core}

/-! ## Ranges -/

/-- A number that `put_dec` and `put_hex` can print. -/
def Tx.Fits : Tx → Prop
  | .dec v => v < 2 ^ 64
  | .hex v => v < 2 ^ 64
  | .str _ => True
  | .byte _ => True

/-- No address or length in this state is out of range: user addresses, bus addresses, printed
numbers, the counters that are printed or index the ring, and the staged messages. -/
structure InRange (k : Kernel) : Prop where
  user : ∀ a ∈ k.touched, a.va < 2 ^ 64
  bus : ∀ a ∈ k.bus, a.addr + a.width ≤ 2 ^ 64
  uart : ∀ t ∈ k.uart, t.Fits
  ringHead : k.ringHead < 2 ^ 64
  ticks : k.ticks < 2 ^ 64
  delivered : k.delivered < 2 ^ 64
  pending : ∀ t pm, (k.tasks t).pendingIpc = some pm → validUserBuf pm.dst pm.len = true

/-- The kernel has stopped for a reason other than a panic. -/
def Halted : Stop → Prop
  | .idle k => InRange k
  | .shutdown k => InRange k
  | .panicked => False

/-- A handler ends without a panic, and in the state it leaves nothing is out of range. -/
abbrev Safe : Except Stop Kernel → Prop := Ends Halted InRange

/-- What an update of the core state adds is in range. -/
structure Adds (c c' : Core) : Prop where
  user : ∀ a ∈ c'.touched, a ∈ c.touched ∨ a.va < 2 ^ 64
  pending : ∀ t pm, (c'.tasks t).pendingIpc = some pm →
    (c.tasks t).pendingIpc = some pm ∨ validUserBuf pm.dst pm.len = true

namespace Adds

theorem none (ht : c'.touched = c.touched)
    (hp : ∀ t, (c'.tasks t).pendingIpc = (c.tasks t).pendingIpc) : Adds c c' := by
  refine ⟨fun a ha => ?_, fun t pm hpm => ?_⟩
  · rw [ht] at ha
    exact Or.inl ha
  · rw [hp t] at hpm
    exact Or.inl hpm

theorem refl (c : Core) : Adds c c := .none rfl fun _ => rfl

theorem trans (h₁ : Adds c d) (h₂ : Adds d c') : Adds c c' := by
  refine ⟨fun a ha => ?_, fun t pm hpm => ?_⟩
  · rcases h₂.user a ha with ha | ha
    · exact h₁.user a ha
    · exact Or.inr ha
  · rcases h₂.pending t pm hpm with hpm | hpm
    · exact h₁.pending t pm hpm
    · exact Or.inr hpm

theorem setA0 (h : Adds c d) {v : Int} : Adds c (d.setA0 v) := ⟨h.user, h.pending⟩

theorem epSet (h : Adds c d) {e : EpId} {w : Ep} : Adds c (d.epSet e w) := ⟨h.user, h.pending⟩

theorem epClearForTask (h : Adds c d) {slot : Slot} : Adds c (d.epClearForTask slot) :=
  ⟨h.user, h.pending⟩

theorem irqRouteSet (h : Adds c d) {dev : DevId} {r : IrqRoute} : Adds c (d.irqRouteSet dev r) :=
  ⟨h.user, h.pending⟩

/-- Writing one block whose pending delivery is the old one or a valid one. -/
theorem setTask (h : Adds c d) {t : Slot} {b : Tcb}
    (hb : ∀ pm, b.pendingIpc = some pm →
      (d.tasks t).pendingIpc = some pm ∨ validUserBuf pm.dst pm.len = true) :
    Adds c (d.setTask t b) := by
  refine h.trans ⟨fun a ha => Or.inl ha, fun u pm hpm => ?_⟩
  simp only [Core.setTask] at hpm
  by_cases hut : u = t
  · subst hut
    rw [Function.update_self] at hpm
    exact hb pm hpm
  · rw [Function.update_of_ne hut] at hpm
    exact Or.inl hpm

/-- Changing one block and not its pending delivery. -/
theorem modTask (h : Adds c d) {t : Slot} {f : Tcb → Tcb}
    (hf : (f (d.tasks t)).pendingIpc = (d.tasks t).pendingIpc) : Adds c (d.modTask t f) := by
  refine h.setTask fun pm hpm => ?_
  rw [hf] at hpm
  exact Or.inl hpm

theorem setState (h : Adds c d) {t : Slot} {s : RtState} : Adds c (d.setState t s) := h.modTask rfl

theorem touch (h : Adds c d) {write : Bool} {va len : Nat} (hle : va + len ≤ 2 ^ 64) :
    Adds c (d.touch write va len) := by
  refine h.trans ⟨fun a ha => ?_, fun t pm hpm => Or.inl hpm⟩
  rcases List.mem_append.mp ha with ha | ha
  · exact Or.inl ha
  · obtain ⟨i, hi, rfl⟩ := List.mem_map.mp ha
    have := List.mem_range.mp hi
    exact Or.inr (by dsimp only; omega)

theorem copyFromUser (h : Adds c d) {va len : Nat} (hle : va + len ≤ 2 ^ 64) :
    Adds c (d.copyFromUser va len) := by
  have ht : Adds c (d.touch false va (min len ipcMsgMax)) := h.touch (by omega)
  exact ⟨ht.user, ht.pending⟩

theorem copyBytesToUser (h : Adds c d) {va : Nat} {bytes : List UInt8}
    (hle : va + bytes.length ≤ 2 ^ 64) : Adds c (d.copyBytesToUser va bytes) := by
  have ht : Adds c (d.touch true va bytes.length) := h.touch hle
  exact ⟨ht.user, ht.pending⟩

end Adds

namespace InRange

/-! ### Updates -/

theorem core (h : InRange k) {f : Core → Core} (hf : Adds k.toCore (f k.toCore)) :
    InRange (k.core f) where
  user a ha := by
    rcases hf.user a ha with ha | ha
    · exact h.user a ha
    · exact ha
  bus := h.bus
  uart := h.uart
  ringHead := h.ringHead
  ticks := h.ticks
  delivered := h.delivered
  pending t pm hpm := by
    rcases hf.pending t pm hpm with hpm | hpm
    · exact h.pending t pm hpm
    · exact hpm

theorem setA0 (h : InRange k) (v : Int) : InRange (k.core (·.setA0 v)) :=
  h.core (.setA0 (.refl _))

theorem puts (h : InRange k) {out : List Tx} (ho : ∀ t ∈ out, t.Fits) : InRange (k.puts out) where
  user := h.user
  bus := h.bus
  uart t ht := by
    rcases List.mem_append.mp ht with ht | ht
    · exact h.uart t ht
    · exact ho t ht
  ringHead := h.ringHead
  ticks := h.ticks
  delivered := h.delivered
  pending := h.pending

theorem emit (h : InRange k) (pre name : String) : InRange (k.emit pre name) :=
  h.puts (by simp [Tx.Fits])

theorem ringPush (h : InRange k) (kind : EvKind) (slot : Slot) :
    InRange (k.ringPush kind slot) where
  user := h.user
  bus := h.bus
  uart := h.uart
  ringHead := Nat.mod_lt _ (by decide)
  ticks := h.ticks
  delivered := h.delivered
  pending := h.pending

theorem busAccess (h : InRange k) {a : BusAccess} (ha : a.addr + a.width ≤ 2 ^ 64) :
    InRange (k.busAccess a) where
  user := h.user
  bus b hb := by
    rcases List.mem_append.mp hb with hb | hb
    · exact h.bus b hb
    · rw [List.mem_singleton.mp hb]
      exact ha
  uart := h.uart
  ringHead := h.ringHead
  ticks := h.ticks
  delivered := h.delivered
  pending := h.pending

/-! ### Refusals -/

theorem denyCap (h : InRange k) (cur : Slot) (check : CapCheck) :
    InRange (k.denyCap cur check).1 :=
  (h.ringPush .capDenied cur).puts (by simp [Tx.Fits])

theorem denyAuthority (h : InRange k) (cur : Slot) (what : String) :
    InRange (k.denyAuthority cur what) :=
  ((h.ringPush .capDenied cur).puts (by simp [Tx.Fits])).setA0 _

theorem denyDeviceOp (h : InRange k) (cur : Slot) (kind reason : String) :
    InRange (k.denyDeviceOp cur kind reason) :=
  (h.ringPush .capDenied cur).puts (by simp [Tx.Fits])

theorem denyDevice (h : InRange k) (cur : Slot) (kind : String) (check : CapCheck) :
    InRange (k.denyDevice cur kind check) := (h.denyDeviceOp cur kind _).setA0 _

theorem ipcDenied (h : InRange k) (code : Int) (what name : String) :
    InRange (k.ipcDenied code what name) := (h.setA0 code).emit what name

end InRange

/-! ## Scheduling -/

theorem arrayIndex_of_lt {n id : Nat} (h : id < n) : arrayIndex n id = .ok ⟨id, h⟩ := dif_pos h

theorem sliceTo_of_le {data : Fin ipcMsgMax → UInt8} {len : Nat} (h : len ≤ ipcMsgMax) :
    sliceTo data len = .ok (bytesOf data len) := if_pos h

theorem deviceCapCheck_lt {cur : Slot} {idx id : Nat} {required : UInt16}
    (h : c.deviceCapCheck cur idx required = .ok id) : id < numDevices := by
  unfold Core.deviceCapCheck at h
  split_ifs at h
  split at h
  · cases h
  · split_ifs at h with hdev hid
    cases h
    exact Nat.lt_of_not_le hid

/-- A valid buffer ends far below the top of the address space. -/
theorem validUserBuf_bound {va len : Nat} (h : validUserBuf va len = true) :
    len ≤ ipcMsgMax ∧ va + len ≤ 2 ^ 64 := by
  obtain ⟨hlen, -, hend⟩ := validUserBuf_iff.mp h
  exact ⟨hlen, by simp only [userDataEnd] at hend; omega⟩

theorem resumeTask_safe (h : InRange k) (next : Slot) : Safe (k.resumeTask next) := by
  have hact : InRange (k.core (·.activate next)) := by
    have hset : Adds k.toCore (k.toCore.setTask next
        { k.tasks next with state := .running, pendingIpc := none }) :=
      .setTask (.refl _) fun pm hpm => by cases hpm
    exact h.core ⟨hset.user, hset.pending⟩
  unfold Kernel.resumeTask
  cases hp : (k.tasks next).pendingIpc with
  | none => exact hact
  | some pm =>
    obtain ⟨hlen, hend⟩ := validUserBuf_bound (h.pending next pm hp)
    have hbytes : (bytesOf pm.data pm.len).length ≤ pm.len := List.length_take_le _ _
    dsimp only
    rw [sliceTo_of_le hlen, ok_bind]
    have hcount : InRange { k.core (·.activate next) with
        delivered := wrappingInc (k.core (·.activate next)).delivered } :=
      { hact with delivered := Nat.mod_lt _ (by decide) }
    refine (hcount.core ?_).puts ?_
    · exact .setA0 (.copyBytesToUser (.refl _) (by omega))
    · simp only [List.mem_cons, List.not_mem_nil, or_false, forall_eq_or_imp, forall_eq, Tx.Fits,
        true_and, and_true]
      simp only [ipcMsgMax] at hlen
      omega

theorem dispatchNext_safe (h : InRange k) (cur : Slot) {idle : List Tx}
    (hi : ∀ t ∈ idle, t.Fits) : Safe (k.dispatchNext cur idle) := by
  unfold Kernel.dispatchNext
  cases k.selectHighest cur with
  | some next => exact resumeTask_safe (h.emit _ _) next
  | none => exact h.puts hi

theorem blockAndSwitch_safe (h : InRange k) : Safe k.blockAndSwitch := by
  unfold Kernel.blockAndSwitch
  exact dispatchNext_safe (h.core (.modTask (.refl _) rfl)) _ (by simp [Tx.Fits])

theorem switch_safe (h : InRange k) (exiting : Bool) : Safe (k.switch img exiting) := by
  unfold Kernel.switch
  dsimp only
  set k₁ := if exiting = true then
      ((((k.emit "SYSCALL name=sys_exit task=" k.curName).core (·.setState k.current .killed)).emit
        "TASK_EXITED task=" k.curName).ringPush .exited k.current)
    else k.core fun c => c.modTask k.current ({ · with frame := c.frame, state := .ready }) with hk₁
  have h₁ : InRange k₁ := by
    rw [hk₁]
    split_ifs
    · exact (((h.emit _ _).core (.setState (.refl _))).emit _ _).ringPush _ _
    · exact h.core (.modTask (.refl _) rfl)
  cases k₁.selectHighest k.current with
  | none => exact h₁.puts (by simp [Kernel.idleHaltText, Tx.Fits])
  | some next =>
    refine resumeTask_safe ?_ next
    split_ifs
    · exact h₁
    · exact h₁.emit _ _
    · exact (h₁.emit _ _).emit _ _

theorem preempt_safe (h : InRange k) : Safe k.preempt := by
  unfold Kernel.preempt
  dsimp only
  cases k.selectHighest k.current with
  | none => exact h
  | some next =>
    dsimp only
    split_ifs
    · exact h
    · refine resumeTask_safe ((h.puts ?_).core (.modTask (.refl _) rfl)) next
      simp [Tx.Fits]

/-! ## Faults -/

theorem InRange.irqDropForTask (h : InRange k) (slot : Slot) : InRange (k.irqDropForTask slot) := by
  unfold Kernel.irqDropForTask
  refine List.foldlRecOn (List.finRange numDevices) _ h fun k hk i _ => ?_
  unfold Kernel.irqDropRoute
  dsimp only
  split_ifs
  · exact (hk.core (.irqRouteSet (.refl _))).puts (by simp [Tx.Fits])
  · exact hk

theorem InRange.notifyEndpoint (h : InRange k) (e : EpId) (code : UInt8) :
    InRange (k.notifyEndpoint e code).1 := by
  unfold Kernel.notifyEndpoint
  cases k.endpoints e with
  | idle => exact h
  | senderWaiting tid len => exact h
  | receiverWaiting tid dst cap =>
    dsimp only
    split_ifs with hfit
    · refine (h.core (.setTask (.refl _) fun pm hpm => Or.inr ?_)).core (.epSet (.refl _))
      cases hpm
      exact hfit.2
    · exact h.core (.epSet (.refl _))

theorem InRange.notifySupervisorAndLogger (h : InRange k) (name : String) :
    InRange (k.notifySupervisorAndLogger name) := by
  unfold Kernel.notifySupervisorAndLogger
  dsimp only
  have h₁ := h.notifyEndpoint Kernel.epFault Kernel.faultCodeWatchdog
  have h₂ : ∀ {k' : Kernel}, InRange k' →
      InRange (k'.notifyEndpoint Kernel.epEvent Kernel.faultCodeWatchdog).1 :=
    fun h' => h'.notifyEndpoint _ _
  split_ifs
  · exact (h₂ (h₁.emit _ _)).puts (by simp [Tx.Fits])
  · exact h₂ (h₁.emit _ _)
  · exact (h₂ h₁).puts (by simp [Tx.Fits])
  · exact h₂ h₁

theorem faultCurrent_safe (h : InRange k) : Safe k.faultCurrent := by
  unfold Kernel.faultCurrent
  have hset : InRange (k.core (·.setState k.current .faulted)) :=
    h.core (.setState (.refl _))
  exact dispatchNext_safe ((hset.irqDropForTask _).notifySupervisorAndLogger _) _
    (by simp [Tx.Fits])

theorem containFault_safe (h : InRange k) (reason : String) : Safe (k.containFault reason) := by
  unfold Kernel.containFault
  exact faultCurrent_safe (((h.ringPush _ _).emit _ _).puts (by simp [Tx.Fits]))

theorem onTimerInterrupt_safe (h : InRange k) : Safe k.onTimerInterrupt := by
  unfold Kernel.onTimerInterrupt
  have htick : ∀ {k : Kernel}, InRange k →
      Ends Halted (fun r : Kernel × Bool => InRange r.1) k.watchdogTick := by
    intro k h
    unfold Kernel.watchdogTick
    have hcount : InRange { k with
        ticks := wrappingInc k.ticks, watchdogMiss := wrappingInc k.watchdogMiss } :=
      { h with ticks := Nat.mod_lt _ (by decide) }
    dsimp only
    split_ifs
    · exact hcount
    · refine (faultCurrent_safe ?_).bind fun k' hk' => hk'
      exact ((hcount.ringPush _ _).emit _ _).puts (by simp [Tx.Fits])
  dsimp only
  refine (htick ?_).bind fun r hr => ?_
  · have hn : InRange { k with timerTicks := wrappingInc k.timerTicks } := { h with }
    split_ifs with hle
    · refine hn.puts ?_
      simp only [List.mem_cons, List.not_mem_nil, or_false, forall_eq_or_imp, forall_eq, Tx.Fits,
        true_and, and_true]
      omega
    · exact hn
  · obtain ⟨k', faulted⟩ := r
    cases faulted with
    | true => exact hr
    | false => exact preempt_safe hr

/-! ## IPC -/

theorem inReadableWindow_bound {va len : Nat} (h : inReadableWindow img va len = true) :
    va + len ≤ 2 ^ 64 := by
  by_contra hlt
  have hnone : checkedAdd va len = none := if_neg (by omega)
  simp [inReadableWindow, inStackWindow, hnone] at h

/-- A buffer that can take the message is not longer than the message buffers. -/
theorem stageFor_safe (h : InRange k) (tid : Slot) (dst cap len : Nat) :
    Safe (k.stageFor tid dst cap len) := by
  unfold Kernel.stageFor
  split_ifs with hfit
  · obtain ⟨hlen, -⟩ := validUserBuf_bound hfit.2
    rw [PendingMsg.stage, sliceTo_of_le hlen, ok_bind, sliceTo_of_le hlen, ok_bind, ok_bind]
    refine h.core (.setTask (.refl _) fun pm hpm => Or.inr ?_)
    cases hpm
    exact hfit.2
  · exact h.core (.modTask (.refl _) rfl)

theorem ipcSend_safe (h : InRange k)
    (hep : ∀ id, k.capCheck k.current (k.frame.arg 0) rightSend = .ok id → id < numEndpoints) :
    Safe (k.ipcSend img) := by
  unfold Kernel.ipcSend
  dsimp only
  cases hc : k.capCheck k.current (k.frame.arg 0) rightSend with
  | ok id =>
    dsimp only
    split_ifs with hlen hbuf
    · exact h.ipcDenied ..
    · exact h.ipcDenied ..
    · simp only [Bool.not_eq_true', Bool.and_eq_false_iff, decide_eq_false_iff_not, not_or,
        Decidable.not_not, Bool.not_eq_false] at hbuf
      have hcopy : InRange (k.core (·.copyFromUser (k.frame.arg 1) (k.frame.arg 2))) :=
        h.core (.copyFromUser (.refl _) (inReadableWindow_bound hbuf.2))
      have hidx : epIndex id = .ok ⟨id, hep id hc⟩ := arrayIndex_of_lt (hep id hc)
      rw [hidx, ok_bind]
      split
      · refine (stageFor_safe ((hcopy.emit _ _).puts ?_) _ _ _ _).bind fun k₁ hk₁ => ?_
        · simp [Tx.Fits]
        exact hk₁.core (.setA0 (.epSet (.setState (.refl _))))
      · exact blockAndSwitch_safe (((hcopy.core (.epSet (.refl _))).emit _ _).puts
          (by simp [Tx.Fits]))
      · exact hcopy.ipcDenied ..
  | invalidCap => exact (h.denyCap ..).setA0 _
  | wrongType => exact (h.denyCap ..).setA0 _
  | insufficientRights => exact (h.denyCap ..).setA0 _

theorem ipcRecv_safe (h : InRange k)
    (hlen : ∀ e t len, k.endpoints e = .senderWaiting t len → len ≤ ipcMsgMax)
    (hep : ∀ id, k.capCheck k.current (k.frame.arg 0) rightRecv = .ok id → id < numEndpoints) :
    Safe k.ipcRecv := by
  unfold Kernel.ipcRecv
  dsimp only
  cases hc : k.capCheck k.current (k.frame.arg 0) rightRecv with
  | ok id =>
    dsimp only
    cases k.irqPendingFor id k.current with
    | some dev =>
      dsimp only
      split_ifs with hbuf
      · exact h.ipcDenied ..
      · simp only [not_or, Nat.not_lt, Bool.not_eq_true', Bool.not_eq_false] at hbuf
        obtain ⟨-, hend⟩ := validUserBuf_bound hbuf.2
        refine InRange.setA0 (InRange.puts (h.core ?_) (by simp [Tx.Fits])) 1
        exact .copyBytesToUser (.irqRouteSet (.refl _)) hend
    | none =>
      dsimp only
      have hidx : epIndex id = .ok ⟨id, hep id hc⟩ := arrayIndex_of_lt (hep id hc)
      rw [hidx, ok_bind]
      cases he : k.endpoints ⟨id, hep id hc⟩ with
      | senderWaiting tid len =>
        dsimp only
        split_ifs with hbuf
        · exact h.ipcDenied ..
        · simp only [not_or, Nat.not_lt, Bool.not_eq_true', Bool.not_eq_false] at hbuf
          have hle := hlen _ _ _ he
          obtain ⟨-, hend⟩ := validUserBuf_bound hbuf.2
          have hbytes : (bytesOf k.kmsg len).length ≤ len := List.length_take_le _ _
          rw [sliceTo_of_le hle, ok_bind]
          refine ((InRange.core (h.core ?_) ?_).emit _ _).puts ?_
          · exact .setA0 (.copyBytesToUser (.refl _) (by omega))
          · exact .epSet (.modTask (.refl _) rfl)
          · simp only [List.mem_cons, List.not_mem_nil, or_false, forall_eq_or_imp, forall_eq,
              Tx.Fits, true_and, and_true]
            simp only [ipcMsgMax] at hle
            omega
      | idle =>
        dsimp only
        split_ifs with hbuf
        · exact h.ipcDenied ..
        · exact blockAndSwitch_safe (((h.core (.epSet (.refl _))).emit _ _).puts
            (by simp [Tx.Fits]))
      | receiverWaiting tid dst cap => exact h.ipcDenied ..
  | invalidCap => exact (h.denyCap ..).setA0 _
  | wrongType => exact (h.denyCap ..).setA0 _
  | insufficientRights => exact (h.denyCap ..).setA0 _

theorem InRange.faultAck (h : InRange k) : InRange k.faultAck := by
  unfold Kernel.faultAck
  exact ((h.puts (by simp [Tx.Fits])).ringPush _ _).setA0 0

/-! ## Task control -/

theorem InRange.rearm (h : InRange k) (env : Env) (slot : Slot) : InRange (k.rearm env slot) := by
  unfold Kernel.rearm
  refine (h.core (.setTask (.refl _) fun pm hpm => ?_)).core (.setState (.epClearForTask (.refl _)))
  cases hpm

theorem devices_fit (dev : DevId) : (devices dev).mmioBase + (devices dev).mmioSize ≤ 2 ^ 64 ∧
    (devices dev).dmaSize ≤ 4096 := by
  revert dev
  decide

theorem InRange.announceGrant (h : InRange k) (slot : Slot) (i : Fin capsPerTask) :
    InRange (k.announceGrant slot i) := by
  have hput : ∀ {k : Kernel} (p : Prop) [Decidable p] {out : List Tx}, InRange k →
      (∀ t ∈ out, t.Fits) → InRange (if p then k.puts out else k) := by
    intro k p _ out hk hout
    split_ifs
    · exact hk.puts hout
    · exact hk
  unfold Kernel.announceGrant
  split
  · exact h
  · split
    · exact h
    · split
      · rename_i cap _ _ hid
        refine hput _ (hput _ ?_ (by simp [Tx.Fits])) ?_
        · split_ifs
          · exact h.core (.irqRouteSet (.refl _))
          · exact h
        · have hsize := (devices_fit ⟨cap.objectId, hid⟩).2
          simp only [List.mem_cons, List.not_mem_nil, or_false, forall_eq_or_imp, forall_eq,
            Tx.Fits, true_and, and_true]
          omega
      · exact h

theorem InRange.announceDeviceGrants (h : InRange k) (slot : Slot) :
    InRange (k.announceDeviceGrants slot) :=
  List.foldlRecOn (List.finRange capsPerTask) _ h fun _ hk i _ => hk.announceGrant slot i

/-- What `sys_task_start` needs of the installed table: slots in range, and room in the page-table
arenas for every service. -/
def Startable (img : Image) (k : Kernel) : Prop :=
  ∀ table, k.serviceTable = some table → ∀ d ∈ table, d.slot < maxTasks ∧
    (img.buildServiceAddressSpace d.slot d.entry d.stackPhys).isSome = true

theorem startService_safe (h : InRange k) (hst : Startable img k) (index : Nat) :
    Ends Halted (fun r : Kernel × Int => InRange r.1) (k.startService img env index) := by
  unfold Kernel.startService
  cases ht : k.serviceTable with
  | none => exact h
  | some table =>
    dsimp only
    cases hd : table[index]? with
    | none => exact h
    | some d =>
      obtain ⟨hslot, hsome⟩ := hst table ht d (List.mem_of_getElem? hd)
      obtain ⟨uas, huas⟩ := Option.isSome_iff_exists.mp hsome
      have hidx : taskIndex d.slot = .ok ⟨d.slot, hslot⟩ := arrayIndex_of_lt hslot
      have hre : InRange (((k.rearm env ⟨d.slot, hslot⟩).ringPush .started ⟨d.slot, hslot⟩).emit
          "SERVICE started=" d.name) := ((h.rearm env _).ringPush _ _).emit _ _
      dsimp only
      rw [hidx, ok_bind, huas]
      cases (k.tasks ⟨d.slot, hslot⟩).state with
      | empty =>
        refine ((InRange.announceDeviceGrants (InRange.core (h.core ?_) ?_) _).ringPush _ _).emit
          _ _
        · exact .setTask (.refl _) fun pm hpm => by cases hpm
        · exact .modTask (.refl _) rfl
      | killed => exact hre
      | faulted => exact hre
      | ready => exact h
      | running => exact h
      | blocked => exact h

theorem sysTaskStart_safe (h : InRange k) (hst : Startable img k) :
    Safe (k.sysTaskStart img env) := by
  unfold Kernel.sysTaskStart
  dsimp only
  split_ifs
  · exact h.denyAuthority ..
  · exact (startService_safe h hst _).bind fun r hr => hr.setA0 r.2

theorem sysTaskKill_safe (h : InRange k) : Safe k.sysTaskKill := by
  unfold Kernel.sysTaskKill
  dsimp only
  split_ifs with hctl hlt hempty hself
  · exact h.denyAuthority ..
  · exact h.setA0 _
  · refine dispatchNext_safe (((InRange.irqDropForTask (h.core ?_) _).ringPush _ _).emit _ _) _
      (by simp [Kernel.idleHaltText, Tx.Fits])
    exact .epClearForTask (.setTask (.refl _) fun pm hpm => by cases hpm)
  · refine (((InRange.irqDropForTask (h.core ?_) _).ringPush _ _).emit _ _).setA0 0
    exact .epClearForTask (.setTask (.refl _) fun pm hpm => by cases hpm)
  · exact h.setA0 _

theorem sysTaskRestart_safe (h : InRange k) : Safe (k.sysTaskRestart env) := by
  unfold Kernel.sysTaskRestart
  dsimp only
  split_ifs
  · exact h.denyAuthority ..
  · exact h.setA0 _
  · exact (((h.rearm env _).ringPush _ _).emit _ _).setA0 0
  · exact h.setA0 _

theorem sysShutdown_safe (h : InRange k) : Safe k.sysShutdown := by
  unfold Kernel.sysShutdown
  dsimp only
  split_ifs
  · exact h.denyAuthority ..
  · exact h.puts (by simp [Tx.Fits])

/-! ## Devices, console and introspection -/

theorem TrapFrame.arg_lt (f : TrapFrame) (i : Fin 4) : f.arg i < 2 ^ 64 := UInt64.toNat_lt _

/-- The device calls resolve a capability first; only a known device id gets past it. -/
theorem deviceCall_safe (h : InRange k) {idx : Nat} {required : UInt16} {kind : String}
    {f : Nat → Except Stop Kernel}
    (hf : ∀ id (hid : id < numDevices), devIndex id = .ok ⟨id, hid⟩ → Safe (f id)) :
    Safe (match k.deviceCapCheck k.current idx required with
      | .ok id => f id
      | other => .ok (k.denyDevice k.current kind other)) := by
  cases hc : k.deviceCapCheck k.current idx required with
  | ok id => exact hf id (deviceCapCheck_lt hc) (arrayIndex_of_lt (deviceCapCheck_lt hc))
  | invalidCap => exact h.denyDevice ..
  | wrongType => exact h.denyDevice ..
  | insufficientRights => exact h.denyDevice ..

theorem InRange.irqRaise (h : InRange k) (dev : DevId) : InRange (k.irqRaise dev).1 := by
  have hhold : InRange (k.core (·.irqRouteSet dev ⟨(k.routes dev).receiver, true⟩)) :=
    h.core (.irqRouteSet (.refl _))
  unfold Kernel.irqRaise
  dsimp only
  cases k.irqLiveReceiver dev with
  | none => exact (h.core (.irqRouteSet (.refl _))).puts (by simp [Tx.Fits])
  | some r =>
    dsimp only
    cases k.endpoints (devices dev).irqEndpoint with
    | idle => exact hhold
    | senderWaiting tid len => exact hhold
    | receiverWaiting tid dst cap =>
      dsimp only
      split_ifs with hfit
      · refine (h.core (.epSet (.setTask (.refl _) fun pm hpm => Or.inr ?_))).puts
          (by simp [Tx.Fits])
        cases hpm
        exact hfit.2.2
      · exact h.puts (by simp [Tx.Fits])

theorem sysIrqRaise_safe (h : InRange k) : Safe k.sysIrqRaise := by
  refine deviceCall_safe h fun id hid hidx => ?_
  rw [hidx, ok_bind]
  exact (h.irqRaise _).setA0 _

/-- Copying at most `infoMax` bytes of a snapshot to the stack page. -/
theorem InRange.snapshot (h : InRange k) {va max : Nat} {out : InfoBuf} (hfits : out.Fits)
    (hwin : inStackWindow va (min max infoMax) = true) (n : Int) :
    InRange (k.core fun c => (c.copyBytesToUser va (out.take (min out.length max))).setA0 n) := by
  obtain ⟨-, hend⟩ := inStackWindow_iff.mp hwin
  have hlen : (out.take (min out.length max)).length ≤ min max infoMax := by
    rw [List.length_take]
    unfold InfoBuf.Fits at hfits
    omega
  simp only [userDataEnd] at hend
  exact h.core (.setA0 (.copyBytesToUser (.refl _) (by omega)))

theorem InRange.sysInfo (h : InRange k) : InRange k.sysInfo := by
  unfold Kernel.sysInfo
  dsimp only
  split_ifs with hcap hwin
  · exact h.denyAuthority ..
  · exact h.setA0 _
  · cases hs : k.infoSnapshot (k.frame.arg 0) (k.frame.arg 3) with
    | none => exact h.setA0 _
    | some out =>
      simp only [Bool.not_eq_true', Bool.not_eq_false] at hwin
      exact h.snapshot (k.infoSnapshot_fits hs) hwin _

theorem InRange.sysConWrite (h : InRange k) : InRange (k.sysConWrite img) := by
  unfold Kernel.sysConWrite
  dsimp only
  split_ifs with hcap hbuf
  · exact h.denyAuthority ..
  · exact h.setA0 _
  · simp only [Bool.or_eq_true, decide_eq_true_eq, Bool.not_eq_true', not_or,
      Bool.not_eq_false] at hbuf
    refine ((h.core (.touch (.refl _) (inReadableWindow_bound hbuf.2))).puts ?_).setA0 _
    intro t ht
    obtain ⟨i, -, hi⟩ := List.mem_flatMap.mp ht
    unfold Kernel.conByte at hi
    split_ifs at hi
    · rcases List.mem_cons.mp hi with rfl | hi
      · trivial
      · rw [List.mem_singleton.mp hi]
        trivial
    · rw [List.mem_singleton.mp hi]
      trivial

theorem InRange.sysConRead (h : InRange k) : InRange (k.sysConRead env) := by
  unfold Kernel.sysConRead
  dsimp only
  split_ifs with hcap hwin
  · exact h.denyAuthority ..
  · exact h.setA0 _
  · simp only [Bool.not_eq_true', Bool.not_eq_false] at hwin
    obtain ⟨-, hend⟩ := inStackWindow_iff.mp hwin
    have hlen : (env.rx.take (min (k.frame.arg 1) ipcMsgMax)).length ≤
        min (k.frame.arg 1) ipcMsgMax := List.length_take_le _ _
    simp only [userDataEnd] at hend
    exact h.core (.setA0 (.copyBytesToUser (.refl _) (by omega)))

theorem InRange.stubDispatch (h : InRange k) : InRange k.stubDispatch := by
  unfold Kernel.stubDispatch
  split <;> exact (h.puts (by simp [Tx.Fits])).setA0 _

theorem sysDeviceInfo_safe (h : InRange k) : Safe k.sysDeviceInfo := by
  refine deviceCall_safe h fun id hid hidx => ?_
  split_ifs with hwin
  · exact h.setA0 _
  · simp only [Bool.not_eq_true', Bool.not_eq_false] at hwin
    rw [hidx, ok_bind]
    exact h.snapshot (InfoBuf.Fits.nil.pushAll _) hwin _

theorem sysMmioRead_safe (h : InRange k) : Safe (k.sysMmioRead env) := by
  refine deviceCall_safe h fun id hid hidx => ?_
  have hbase := (devices_fit ⟨id, hid⟩).1
  rw [hidx, ok_bind]
  dsimp only
  split_ifs with hacc
  · exact (h.denyDeviceOp ..).setA0 _
  · simp only [Bool.not_eq_true', Bool.not_eq_false] at hacc
    obtain ⟨hw, -, hend⟩ := accessInBounds_spec hacc
    refine ((h.busAccess ?_).puts ?_).setA0 _
    · dsimp only
      omega
    · simp only [List.mem_cons, List.not_mem_nil, or_false, forall_eq_or_imp, forall_eq, Tx.Fits,
        true_and, and_true]
      refine ⟨k.frame.arg_lt 1, (Nat.mod_lt _ (Nat.two_pow_pos _)).trans_le ?_⟩
      exact Nat.pow_le_pow_right (by decide) (by omega)

theorem sysMmioWrite_safe (h : InRange k) : Safe k.sysMmioWrite := by
  refine deviceCall_safe h fun id hid hidx => ?_
  have hbase := (devices_fit ⟨id, hid⟩).1
  rw [hidx, ok_bind]
  dsimp only
  split_ifs with hacc
  · exact (h.denyDeviceOp ..).setA0 _
  · simp only [Bool.not_eq_true', Bool.not_eq_false] at hacc
    obtain ⟨hw, -, hend⟩ := accessInBounds_spec hacc
    refine ((h.busAccess ?_).puts ?_).setA0 _
    · dsimp only
      omega
    · simp only [List.mem_cons, List.not_mem_nil, or_false, forall_eq_or_imp, forall_eq, Tx.Fits,
        true_and, and_true]
      exact ⟨k.frame.arg_lt 1, k.frame.arg_lt 3⟩

theorem dmaAccess_safe (h : InRange k) (hdma : img.dmaBase + 4096 ≤ 2 ^ 64) (required : UInt16)
    (write : Bool) : Safe (k.dmaAccess img required write) := by
  refine deviceCall_safe h fun id hid hidx => ?_
  have hsize := (devices_fit ⟨id, hid⟩).2
  rw [hidx, ok_bind]
  dsimp only
  split_ifs with hacc hwrite
  · exact (h.denyDeviceOp ..).setA0 _
  · simp only [Bool.not_eq_true', Bool.not_eq_false] at hacc
    obtain ⟨-, -, hend⟩ := accessInBounds_spec hacc
    have hbus := h.busAccess (a := ⟨true, img.dmaBase + k.frame.arg 1, k.frame.arg 2,
      k.frame.arg 3 % 2 ^ (8 * k.frame.arg 2)⟩) (by dsimp only; omega)
    have hstore : InRange { k.busAccess ⟨true, img.dmaBase + k.frame.arg 1, k.frame.arg 2,
        k.frame.arg 3 % 2 ^ (8 * k.frame.arg 2)⟩ with
        dma := Kernel.dmaStore k.dma (k.frame.arg 1) (k.frame.arg 2) (k.frame.arg 3) } :=
      ⟨hbus.user, hbus.bus, hbus.uart, hbus.ringHead, hbus.ticks, hbus.delivered, hbus.pending⟩
    exact hstore.setA0 0
  · simp only [Bool.not_eq_true', Bool.not_eq_false] at hacc
    obtain ⟨-, -, hend⟩ := accessInBounds_spec hacc
    refine (h.busAccess ?_).setA0 _
    dsimp only
    omega

/-! ## Traps -/

/-- What the handlers rely on: endpoint capabilities and parked senders are in range, the installed
table can be started, and the bounce page lies in the address space. -/
structure Provisioned (img : Image) (k : Kernel) : Prop where
  endpoint : ∀ idx required id, k.capCheck k.current idx required = .ok id → id < numEndpoints
  sender : ∀ e t len, k.endpoints e = .senderWaiting t len → len ≤ ipcMsgMax
  table : Startable img k
  dma : img.dmaBase + 4096 ≤ 2 ^ 64

theorem onSyscall_safe (h : InRange k) (hp : Provisioned img k) : Safe (k.onSyscall img env) := by
  have h₀ : InRange (k.core ({ · with watchdogMiss := 0 })) := h.core (.none rfl fun _ => rfl)
  unfold Kernel.onSyscall
  dsimp only
  split
  · exact switch_safe h₀ false
  · exact switch_safe h₀ true
  · exact ipcSend_safe h₀ (hp.endpoint _ _)
  · exact ipcRecv_safe h₀ hp.sender (hp.endpoint _ _)
  · exact h₀.faultAck
  · exact sysTaskStart_safe h₀ hp.table
  · exact h₀.sysConWrite
  · exact h₀.sysConRead
  · exact h₀.sysInfo
  · exact sysTaskKill_safe h₀
  · exact sysTaskRestart_safe h₀
  · exact sysShutdown_safe h₀
  · exact sysDeviceInfo_safe h₀
  · exact sysMmioRead_safe h₀
  · exact sysMmioWrite_safe h₀
  · exact dmaAccess_safe h₀ hp.dma _ _
  · exact dmaAccess_safe h₀ hp.dma _ _
  · exact sysIrqRaise_safe h₀
  · exact h₀.stubDispatch

theorem step_safe (h : InRange k) (hp : Provisioned img k) (ev : Event) : Safe (step img k ev) := by
  have henter : InRange (k.core (·.enter ev)) := h.core (.none rfl fun _ => rfl)
  unfold step
  cases ev.trap with
  | ecall =>
    refine onSyscall_safe (henter.core (.none rfl fun _ => rfl)) ?_
    exact ⟨hp.endpoint, hp.sender, hp.table, hp.dma⟩
  | timer => exact onTimerInterrupt_safe henter
  | fault reason => exact containFault_safe henter reason

/-! ## The OS boot flow -/

/-- The linked image fits: every service of the table gets its address space, and the bounce page
lies in the 64-bit address space. -/
structure Image.Linked (img : Image) : Prop where
  spaces : ∀ d ∈ serviceTable img,
    (img.buildServiceAddressSpace d.slot d.entry d.stackPhys).isSome = true
  dma : img.dmaBase + 4096 ≤ 2 ^ 64

theorem serviceGrants_endpoint : ∀ g ∈ serviceGrants, ∀ cap ∈ g.2.2,
    cap.otype = .endpoint → cap.objectId < numEndpoints := by
  decide

/-- The entries of the table come from the grants, in slot order. -/
theorem mem_serviceTable {d : ServiceDef} (h : d ∈ serviceTable img) :
    d.slot < maxTasks ∧ ∃ g ∈ serviceGrants, d.caps = capTable g.2.2 := by
  obtain ⟨⟨g, i⟩, hg, rfl⟩ := List.mem_map.mp h
  have hi := (List.mem_zipIdx hg).2.1
  have hlen : serviceGrants.length = 15 := rfl
  refine ⟨?_, g, List.fst_mem_of_mem_zipIdx hg, rfl⟩
  show i + 1 < 16
  omega

/-- Boot grants no capability for an endpoint out of range. -/
theorem BootCaps.endpoint_lt {t : Slot} {caps : CapTable} (h : BootCaps img t caps)
    {j : Fin capsPerTask} {cap : Cap} (hj : caps j = some cap) (hep : cap.otype = .endpoint) :
    cap.objectId < numEndpoints := by
  rcases h with ⟨-, rfl⟩ | ⟨d, hd, -, rfl⟩
  · unfold initCaps at hj
    by_cases h0 : j = 0
    · subst h0
      rw [Function.update_self] at hj
      cases hj
      cases hep
    · rw [Function.update_of_ne h0] at hj
      cases hj
  · obtain ⟨-, g, hg, hcaps⟩ := mem_serviceTable hd
    rw [hcaps] at hj
    exact serviceGrants_endpoint g hg cap (List.mem_of_getElem? hj) hep

theorem OsInv.provisioned (h : OsInv img k) (hl : img.Linked) : Provisioned img k where
  endpoint idx required id hc := by
    obtain ⟨hidx, cap, hj, hep, rfl, -⟩ := capCheck_cap hc
    have hused : (k.tasks k.current).state ≠ .empty := by
      rw [(h.inv.wf.running _).mpr rfl]
      simp
    exact (h.caps _ hused).endpoint_lt hj hep
  sender := h.inv.wf.sender_len
  table table ht d hd := by
    rw [h.table] at ht
    cases ht
    exact ⟨(mem_serviceTable hd).1, hl.spaces d hd⟩
  dma := hl.dma

theorem registerDevicesText_fits : ∀ t ∈ registerDevicesText, t.Fits := by
  intro t ht
  obtain ⟨i, -, hi⟩ := List.mem_flatMap.mp ht
  simp only [List.mem_cons, List.not_mem_nil, or_false] at hi
  rcases hi with rfl | rfl | rfl | rfl | rfl | rfl | rfl | rfl | rfl | rfl <;> trivial

theorem OsBooted.inRange (h : OsBooted img k) : InRange k := by
  have hpend := h.booted.started.pending
  obtain ⟨sstatus, uas, -, rfl⟩ := h
  have huart : (bootWith img (osBootOps img sstatus uas)).uart =
      registerDevicesText ++ [.str "TASK_STARTED task=init_service\n"] := rfl
  refine ⟨?_, ?_, ?_, Nat.two_pow_pos 64, Nat.two_pow_pos 64, Nat.two_pow_pos 64, ?_⟩
  · intro a ha
    cases ha
  · intro a ha
    cases ha
  · intro t ht
    rw [huart] at ht
    rcases List.mem_append.mp ht with ht | ht
    · exact registerDevicesText_fits t ht
    · rw [List.mem_singleton.mp ht]
      trivial
  · intro t pm hpm
    rw [hpend t] at hpm
    cases hpm

theorem osRun_inRange (x : OsRun img) (hl : img.Linked) : x.Always InRange := by
  have hall : x.Always fun k => OsInv img k ∧ InRange k := by
    refine x.invariant (fun k h => ⟨h.osInv, h.inRange⟩) ?_
    rintro k ev k' ⟨hos, hr⟩ hs
    have hsafe := step_safe hr (hos.provisioned hl) ev
    rw [hs] at hsafe
    exact ⟨step_osInv hs hos, hsafe⟩
  exact fun i hi => (hall i hi).2

/-! ## Digit buffers -/

/-- A number below `10 ^ room` needs no more than `room` digits. -/
theorem decLoop_room (room extra : Nat) : ∀ v tmp, v < 10 ^ room →
    InfoBuf.decLoop (room + extra) v tmp = InfoBuf.decLoop room v tmp := by
  induction room with
  | zero =>
    intro v tmp hv
    obtain rfl : v = 0 := by
      rw [pow_zero] at hv
      omega
    cases extra <;> rfl
  | succ room ih =>
    intro v tmp hv
    rw [Nat.add_right_comm]
    simp only [InfoBuf.decLoop]
    split_ifs
    · rfl
    · refine ih _ _ ?_
      rw [Nat.div_lt_iff_lt_mul (by decide)]
      rwa [pow_succ] at hv

/-- No trap can make the dispatcher panic in a state of this run: every step ends without an index,
a slice or an address out of range, the snapshot buffer is never overrun, and the digit buffers hold
every number they are given. -/
structure NoPanic (x : OsRun img) : Prop where
  steps : ∀ i ≤ x.len, ∀ ev, Safe (step img (x.st i) ev)
  snapshot : ∀ out : InfoBuf, out.length ≤ infoMax →
    ∀ items, (out.pushAll items).length ≤ infoMax
  digits : ∀ v < 2 ^ 64, ∀ extra, InfoBuf.decLoop (20 + extra) v [] = InfoBuf.decLoop 20 v []

/-- In every state that the OS boot flow reaches on an image that fits, no trap, whatever the
registers and the stack page of the running task hold, makes the dispatcher panic. -/
theorem osRun_noPanic (x : OsRun img) (hl : img.Linked) : NoPanic x := by
  refine ⟨fun i hi ev => ?_, fun out hout items => ?_, fun v hv extra => ?_⟩
  · exact step_safe (osRun_inRange x hl i hi) ((osRun_osInv x i hi).provisioned hl) ev
  · exact InfoBuf.Fits.pushAll hout items
  · exact decLoop_room 20 extra v [] (hv.trans (by decide))

theorem sampleImage_linked : sampleImage.Linked := ⟨fun _ _ => rfl, by decide⟩

theorem parkedTaken_noPanic :
    sampleImage.Linked ∧ NoPanic (sampleOsRun parkedTaken survives_parkedTaken) :=
  ⟨sampleImage_linked, osRun_noPanic _ sampleImage_linked⟩

end AxiomRT.Dispatch
