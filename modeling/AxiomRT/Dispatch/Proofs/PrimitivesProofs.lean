import Mathlib.Tactic.Common
import AxiomRT.Dispatch.Moves
import AxiomRT.Lib.Ring

/-!
# Proofs: dispatcher primitives

Evidence never touches the core state, results read back as they were stored, and the scheduler's
selection is a ready task of the highest priority.
-/

namespace AxiomRT.Dispatch

/-! ## The core state under evidence -/

namespace Kernel

@[simp] theorem toCore_core (k : Kernel) (f : Core → Core) : (k.core f).toCore = f k.toCore := rfl

@[simp] theorem toCore_puts (k : Kernel) (out : List Tx) : (k.puts out).toCore = k.toCore := rfl

@[simp] theorem toCore_emit (k : Kernel) (pre name : String) :
    (k.emit pre name).toCore = k.toCore := rfl

@[simp] theorem toCore_ringPush (k : Kernel) (kind : EvKind) (slot : Slot) :
    (k.ringPush kind slot).toCore = k.toCore := rfl

@[simp] theorem toCore_emitIrqDelivered (k : Kernel) (receiver source : String) :
    (k.emitIrqDelivered receiver source).toCore = k.toCore := rfl

@[simp] theorem toCore_denyCap (k : Kernel) (cur : Slot) (check : CapCheck) :
    (k.denyCap cur check).1.toCore = k.toCore := rfl

@[simp] theorem toCore_denyAuthority (k : Kernel) (cur : Slot) (what : String) :
    (k.denyAuthority cur what).toCore = k.toCore.setA0 errInvalidCap := rfl

@[simp] theorem toCore_denyDevice (k : Kernel) (cur : Slot) (kind : String) (check : CapCheck) :
    (k.denyDevice cur kind check).toCore = k.toCore.setA0 (deviceCheckErr check).1 := rfl

@[simp] theorem toCore_ipcDenied (k : Kernel) (code : Int) (what name : String) :
    (k.ipcDenied code what name).toCore = k.toCore.setA0 code := rfl

/-- A refused capability check is an error for the caller. -/
theorem denyCap_neg (k : Kernel) (cur : Slot) {check : CapCheck} (h : ∀ id, check ≠ .ok id) :
    (k.denyCap cur check).2 < 0 ∧ -9 ≤ (k.denyCap cur check).2 := by
  cases check with
  | ok id => exact absurd rfl (h id)
  | invalidCap => simp [denyCap]
  | wrongType => simp [denyCap]
  | insufficientRights => simp [denyCap]

end Kernel

/-! ## Frame lemmas

What each update of the core state does to the tasks, the endpoints, the running task and the root
of the active address space; for results and copies, to everything they do not write. -/

namespace Core

variable (c : Core)

section Results

variable (v : Int) (write : Bool) (va len : Nat) (bytes : List UInt8)

@[simp] theorem setA0_kmsg : (c.setA0 v).kmsg = c.kmsg := rfl
@[simp] theorem setA0_routes : (c.setA0 v).routes = c.routes := rfl
@[simp] theorem setA0_watchdogMiss : (c.setA0 v).watchdogMiss = c.watchdogMiss := rfl
@[simp] theorem setA0_mem : (c.setA0 v).mem = c.mem := rfl
@[simp] theorem setA0_touched : (c.setA0 v).touched = c.touched := rfl

@[simp] theorem checkIn_kmsg : c.checkIn.kmsg = c.kmsg := rfl
@[simp] theorem checkIn_routes : c.checkIn.routes = c.routes := rfl
@[simp] theorem checkIn_watchdogMiss : c.checkIn.watchdogMiss = 0 := rfl
@[simp] theorem checkIn_mem : c.checkIn.mem = c.mem := rfl
@[simp] theorem checkIn_touched : c.checkIn.touched = c.touched := rfl

@[simp] theorem touch_tasks : (c.touch write va len).tasks = c.tasks := rfl
@[simp] theorem touch_endpoints : (c.touch write va len).endpoints = c.endpoints := rfl
@[simp] theorem touch_current : (c.touch write va len).current = c.current := rfl
@[simp] theorem touch_satp : (c.touch write va len).satp = c.satp := rfl
@[simp] theorem touch_kmsg : (c.touch write va len).kmsg = c.kmsg := rfl
@[simp] theorem touch_routes : (c.touch write va len).routes = c.routes := rfl
@[simp] theorem touch_watchdogMiss : (c.touch write va len).watchdogMiss = c.watchdogMiss := rfl
@[simp] theorem touch_mem : (c.touch write va len).mem = c.mem := rfl
@[simp] theorem touch_touched : (c.touch write va len).touched =
    c.touched ++ (List.range len).map fun i => ⟨write, c.satp, va + i⟩ := rfl

@[simp] theorem copyFromUser_routes : (c.copyFromUser va len).routes = c.routes := rfl
@[simp] theorem copyFromUser_mem : (c.copyFromUser va len).mem = c.mem := rfl
@[simp] theorem copyFromUser_touched : (c.copyFromUser va len).touched =
    (c.touch false va (min len ipcMsgMax)).touched := rfl

@[simp] theorem copyBytesToUser_kmsg : (c.copyBytesToUser va bytes).kmsg = c.kmsg := rfl
@[simp] theorem copyBytesToUser_routes : (c.copyBytesToUser va bytes).routes = c.routes := rfl
@[simp] theorem copyBytesToUser_watchdogMiss :
    (c.copyBytesToUser va bytes).watchdogMiss = c.watchdogMiss := rfl
@[simp] theorem copyBytesToUser_mem :
    (c.copyBytesToUser va bytes).mem = Function.update c.mem c.satp fun a =>
      if va ≤ a ∧ a < va + bytes.length then bytes.getD (a - va) 0 else c.mem c.satp a := rfl
@[simp] theorem copyBytesToUser_touched :
    (c.copyBytesToUser va bytes).touched = (c.touch true va bytes.length).touched := rfl

end Results

@[simp] theorem setA0_tasks (v : Int) : (c.setA0 v).tasks = c.tasks := rfl
@[simp] theorem setA0_endpoints (v : Int) : (c.setA0 v).endpoints = c.endpoints := rfl
@[simp] theorem setA0_current (v : Int) : (c.setA0 v).current = c.current := rfl
@[simp] theorem setA0_satp (v : Int) : (c.setA0 v).satp = c.satp := rfl

@[simp] theorem copyFromUser_tasks (va len : Nat) : (c.copyFromUser va len).tasks = c.tasks := rfl
@[simp] theorem copyFromUser_endpoints (va len : Nat) :
    (c.copyFromUser va len).endpoints = c.endpoints := rfl
@[simp] theorem copyFromUser_current (va len : Nat) :
    (c.copyFromUser va len).current = c.current := rfl
@[simp] theorem copyFromUser_satp (va len : Nat) : (c.copyFromUser va len).satp = c.satp := rfl

@[simp] theorem copyBytesToUser_tasks (va : Nat) (bytes : List UInt8) :
    (c.copyBytesToUser va bytes).tasks = c.tasks := rfl
@[simp] theorem copyBytesToUser_endpoints (va : Nat) (bytes : List UInt8) :
    (c.copyBytesToUser va bytes).endpoints = c.endpoints := rfl
@[simp] theorem copyBytesToUser_current (va : Nat) (bytes : List UInt8) :
    (c.copyBytesToUser va bytes).current = c.current := rfl
@[simp] theorem copyBytesToUser_satp (va : Nat) (bytes : List UInt8) :
    (c.copyBytesToUser va bytes).satp = c.satp := rfl

@[simp] theorem irqRouteSet_tasks (d : DevId) (r : IrqRoute) :
    (c.irqRouteSet d r).tasks = c.tasks := rfl
@[simp] theorem irqRouteSet_endpoints (d : DevId) (r : IrqRoute) :
    (c.irqRouteSet d r).endpoints = c.endpoints := rfl
@[simp] theorem irqRouteSet_current (d : DevId) (r : IrqRoute) :
    (c.irqRouteSet d r).current = c.current := rfl
@[simp] theorem irqRouteSet_satp (d : DevId) (r : IrqRoute) :
    (c.irqRouteSet d r).satp = c.satp := rfl

@[simp] theorem irqDrop_tasks (slot : Slot) : (c.irqDrop slot).tasks = c.tasks := rfl

@[simp] theorem countMiss_tasks : c.countMiss.tasks = c.tasks := rfl
@[simp] theorem countMiss_endpoints : c.countMiss.endpoints = c.endpoints := rfl
@[simp] theorem countMiss_current : c.countMiss.current = c.current := rfl
@[simp] theorem countMiss_satp : c.countMiss.satp = c.satp := rfl

@[simp] theorem checkIn_tasks : c.checkIn.tasks = c.tasks := rfl
@[simp] theorem checkIn_endpoints : c.checkIn.endpoints = c.endpoints := rfl
@[simp] theorem checkIn_current : c.checkIn.current = c.current := rfl
@[simp] theorem checkIn_satp : c.checkIn.satp = c.satp := rfl

@[simp] theorem setTask_tasks (t : Slot) (b : Tcb) :
    (c.setTask t b).tasks = Function.update c.tasks t b := rfl
@[simp] theorem setTask_endpoints (t : Slot) (b : Tcb) :
    (c.setTask t b).endpoints = c.endpoints := rfl
@[simp] theorem setTask_current (t : Slot) (b : Tcb) : (c.setTask t b).current = c.current := rfl

@[simp] theorem setState_tasks (t : Slot) (s : RtState) :
    (c.setState t s).tasks = Function.update c.tasks t { c.tasks t with state := s } := rfl
@[simp] theorem setState_endpoints (t : Slot) (s : RtState) :
    (c.setState t s).endpoints = c.endpoints := rfl

@[simp] theorem saveAs_tasks (s : RtState) : (c.saveAs s).tasks =
    Function.update c.tasks c.current { c.tasks c.current with frame := c.frame, state := s } := rfl
@[simp] theorem saveAs_endpoints (s : RtState) : (c.saveAs s).endpoints = c.endpoints := rfl

@[simp] theorem wake_tasks (e : EpId) (t : Slot) (f : Tcb → Tcb) : (c.wake e t f).tasks =
    Function.update c.tasks t { f (c.tasks t) with state := .ready } := rfl
@[simp] theorem wake_endpoints (e : EpId) (t : Slot) (f : Tcb → Tcb) :
    (c.wake e t f).endpoints = Function.update c.endpoints e .idle := rfl
@[simp] theorem wake_current (e : EpId) (t : Slot) (f : Tcb → Tcb) :
    (c.wake e t f).current = c.current := rfl
@[simp] theorem wake_satp (e : EpId) (t : Slot) (f : Tcb → Tcb) :
    (c.wake e t f).satp = c.satp := rfl

@[simp] theorem park_tasks (e : EpId) (w : Ep) : (c.park e w).tasks =
    Function.update c.tasks c.current
      { c.tasks c.current with frame := c.frame, state := .blocked } := rfl
@[simp] theorem park_endpoints (e : EpId) (w : Ep) :
    (c.park e w).endpoints = Function.update c.endpoints e w := rfl

@[simp] theorem kill_tasks (slot : Slot) : (c.kill slot).tasks =
    Function.update c.tasks slot { c.tasks slot with state := .killed, pendingIpc := none } := rfl
@[simp] theorem kill_endpoints (slot : Slot) :
    (c.kill slot).endpoints = (c.epClearForTask slot).endpoints := rfl

@[simp] theorem rearm_tasks (slot : Slot) (f : TrapFrame) : (c.rearm slot f).tasks =
    Function.update c.tasks slot
      { c.tasks slot with frame := f, pendingIpc := none, state := .ready } := by
  simp [rearm, setState, modTask, setTask, epClearForTask]
@[simp] theorem rearm_endpoints (slot : Slot) (f : TrapFrame) :
    (c.rearm slot f).endpoints = (c.epClearForTask slot).endpoints := rfl

@[simp] theorem resume_current (next : Slot) : (c.resume next).current = next := by
  simp only [resume]
  cases (c.tasks next).pendingIpc <;> rfl

@[simp] theorem resume_tasks (next : Slot) : (c.resume next).tasks =
    Function.update c.tasks next { c.tasks next with state := .running, pendingIpc := none } := by
  simp only [resume]
  cases (c.tasks next).pendingIpc <;> rfl

theorem resume_other {next t : Slot} (h : t ≠ next) : (c.resume next).tasks t = c.tasks t := by
  rw [resume_tasks, Function.update_of_ne h]

@[simp] theorem resume_endpoints (next : Slot) : (c.resume next).endpoints = c.endpoints := by
  simp only [resume]
  cases (c.tasks next).pendingIpc <;> rfl

end Core

/-! ## Results in `a0` -/

/-- A result that fits 64 signed bits reads back as it was stored. -/
theorem TrapFrame.a0_setA0 (f : TrapFrame) {v : Int} (hlo : -2 ^ 63 ≤ v) (hhi : v < 2 ^ 63) :
    (f.setA0 v).a0 = v := by
  simp only [TrapFrame.a0, TrapFrame.setA0, Function.update_self]
  have h : (UInt64.ofInt v).toBitVec = BitVec.ofInt 64 v := by
    apply BitVec.eq_of_toNat_eq
    simp [UInt64.ofInt, BitVec.toNat_ofInt]
    omega
  rw [h, BitVec.toInt_ofInt, Int.bmod_eq_of_le (by omega) (by omega)]

/-- So does the length of a message. -/
theorem TrapFrame.a0_setA0_len (f : TrapFrame) {len : Nat} (h : len ≤ ipcMsgMax) :
    (f.setA0 len).a0 = len := by
  simp only [ipcMsgMax] at h
  exact TrapFrame.a0_setA0 f (by omega) (by omega)

/-! ## User buffers -/

/-- A checked end that does not pass `stop`. -/
theorem checkedAdd_le {va len stop : Nat}
    (h : (match checkedAdd va len with | some e => decide (e ≤ stop) | none => false) = true) :
    va + len ≤ stop := by
  unfold checkedAdd at h
  split_ifs at h
  exact of_decide_eq_true h

theorem validUserBuf_iff {va len : Nat} : validUserBuf va len = true ↔
    len ≤ ipcMsgMax ∧ userDataVa ≤ va ∧ va + len ≤ userDataEnd := by
  unfold validUserBuf checkedAdd
  split_ifs with h
  · simp [and_assoc]
  · simp [ipcMsgMax, userDataVa, userDataEnd]
    omega

/-- A shorter buffer at the same address is valid too. -/
theorem validUserBuf_mono {va len len' : Nat} (h : validUserBuf va len = true) (hle : len' ≤ len) :
    validUserBuf va len' = true := by
  rw [validUserBuf_iff] at h ⊢
  omega

theorem inStackWindow_iff {va len : Nat} : inStackWindow va len = true ↔
    userDataVa ≤ va ∧ va + len ≤ userDataEnd := by
  unfold inStackWindow checkedAdd
  split_ifs with h
  · simp
  · simp [userDataVa, userDataEnd]
    omega

/-- An IPC buffer lies in the stack window. -/
theorem inStackWindow_of_valid {va len : Nat} (h : validUserBuf va len = true) :
    inStackWindow va len = true :=
  inStackWindow_iff.mpr (validUserBuf_iff.mp h).2

theorem inStackWindow_mono {va len len' : Nat} (h : inStackWindow va len = true)
    (hle : len' ≤ len) : inStackWindow va len' = true := by
  rw [inStackWindow_iff] at h ⊢
  omega

/-! ## Selection -/

namespace Core

/-- One selection step keeps the candidate or takes the visited slot, which is then ready. -/
theorem selectStep_some {c : Core} {cur : Slot} {best : Option Slot} {step : Nat} {b : Slot}
    (h : c.selectStep cur best step = some b) :
    best = some b ∨ (c.tasks b).state = .ready := by
  simp only [selectStep] at h
  split_ifs at h with hr
  · exact Or.inl h
  · have hr' : (c.tasks (slotAfter cur step)).state = .ready := not_not.mp hr
    cases best with
    | none =>
      simp only [Option.some.injEq] at h
      exact Or.inr (h ▸ hr')
    | some b₀ =>
      simp only at h
      split_ifs at h with hp
      · simp only [Option.some.injEq] at h
        exact Or.inr (h ▸ hr')
      · exact Or.inl h

/-- A selection step never lowers the priority of the candidate. -/
theorem selectStep_mono (c : Core) (cur b : Slot) (step : Nat) :
    ∃ b', c.selectStep cur (some b) step = some b' ∧ (c.tasks b).prio ≤ (c.tasks b').prio := by
  simp only [selectStep]
  split_ifs with hr hp
  · exact ⟨b, rfl, UInt8.le_refl _⟩
  · exact ⟨slotAfter cur step, rfl, UInt8.le_of_lt hp⟩
  · exact ⟨b, rfl, UInt8.le_refl _⟩

/-- After visiting a ready slot there is a candidate of at least its priority. -/
theorem selectStep_visit {c : Core} {cur : Slot} {step : Nat} (best : Option Slot)
    (hr : (c.tasks (slotAfter cur step)).state = .ready) :
    ∃ b, c.selectStep cur best step = some b ∧
      (c.tasks (slotAfter cur step)).prio ≤ (c.tasks b).prio := by
  cases best with
  | none => exact ⟨slotAfter cur step, by simp [selectStep, hr], UInt8.le_refl _⟩
  | some b₀ =>
    by_cases hp : (c.tasks b₀).prio < (c.tasks (slotAfter cur step)).prio
    · exact ⟨slotAfter cur step, by simp [selectStep, hr, hp], UInt8.le_refl _⟩
    · exact ⟨b₀, by simp [selectStep, hr, hp], UInt8.not_lt.mp hp⟩

/-- The scan returns its start or a ready slot. -/
theorem foldl_selectStep_ready {c : Core} {cur : Slot} (l : List Nat) :
    ∀ {best : Option Slot} {b : Slot}, l.foldl (c.selectStep cur) best = some b →
      best = some b ∨ (c.tasks b).state = .ready := by
  induction l with
  | nil => intro best b h; exact Or.inl h
  | cons s l ih =>
    intro best b h
    rw [List.foldl_cons] at h
    rcases ih h with h' | h'
    · exact selectStep_some h'
    · exact Or.inr h'

/-- The scan never lowers the priority of its candidate. -/
theorem foldl_selectStep_mono (c : Core) (cur : Slot) (l : List Nat) :
    ∀ b : Slot, ∃ b', l.foldl (c.selectStep cur) (some b) = some b' ∧
      (c.tasks b).prio ≤ (c.tasks b').prio := by
  induction l with
  | nil => intro b; exact ⟨b, rfl, UInt8.le_refl _⟩
  | cons s l ih =>
    intro b
    obtain ⟨b₁, h₁, hle₁⟩ := selectStep_mono c cur b s
    obtain ⟨b₂, h₂, hle₂⟩ := ih b₁
    exact ⟨b₂, by rw [List.foldl_cons, h₁, h₂], UInt8.le_trans hle₁ hle₂⟩

/-- The scan ends with a candidate at least as urgent as every ready slot it visits. -/
theorem foldl_selectStep_top {c : Core} {cur : Slot} {s : Nat} (l : List Nat) (hs : s ∈ l)
    (hr : (c.tasks (slotAfter cur s)).state = .ready) :
    ∀ best : Option Slot, ∃ b, l.foldl (c.selectStep cur) best = some b ∧
      (c.tasks (slotAfter cur s)).prio ≤ (c.tasks b).prio := by
  induction l with
  | nil => cases hs
  | cons s' l ih =>
    intro best
    rw [List.foldl_cons]
    rcases List.mem_cons.mp hs with rfl | hs
    · obtain ⟨b₁, h₁, hle₁⟩ := selectStep_visit best hr
      obtain ⟨b₂, h₂, hle₂⟩ := foldl_selectStep_mono c cur l b₁
      exact ⟨b₂, by rw [h₁, h₂], UInt8.le_trans hle₁ hle₂⟩
    · exact ih hs _

/-- Every slot is visited by the scan that starts after `cur`. -/
theorem exists_slotAfter (cur t : Slot) : ∃ s ∈ List.range' 1 maxTasks, slotAfter cur s = t :=
  List.mem_map.1 (Lib.mem_lap cur t)

/-- The selected task is ready. -/
theorem selectHighest_ready {c : Core} {cur b : Slot} (h : c.selectHighest cur = some b) :
    (c.tasks b).state = .ready := by
  rcases foldl_selectStep_ready _ h with h' | h'
  · cases h'
  · exact h'

/-- A task that is not ready is not the one selected. -/
theorem selectHighest_ne {c : Core} {cur b t : Slot} (h : c.selectHighest cur = some b)
    (ht : (c.tasks t).state ≠ .ready) : b ≠ t := by
  rintro rfl
  exact ht (selectHighest_ready h)

/-- The selected task is at least as urgent as every ready task. -/
theorem selectHighest_top {c : Core} {cur b t : Slot} (h : c.selectHighest cur = some b)
    (ht : (c.tasks t).state = .ready) : (c.tasks t).prio ≤ (c.tasks b).prio := by
  obtain ⟨s, hs, rfl⟩ := exists_slotAfter cur t
  obtain ⟨b', hb', hle⟩ := foldl_selectStep_top _ hs ht none
  have : some b' = some b := hb'.symm.trans h
  rw [Option.some.injEq] at this
  exact this ▸ hle

/-- If any task is ready, one is selected. -/
theorem selectHighest_isSome {c : Core} {cur t : Slot} (ht : (c.tasks t).state = .ready) :
    ∃ b, c.selectHighest cur = some b := by
  obtain ⟨s, hs, rfl⟩ := exists_slotAfter cur t
  obtain ⟨b, hb, -⟩ := foldl_selectStep_top _ hs ht none
  exact ⟨b, hb⟩

end Core

end AxiomRT.Dispatch
