import AxiomRT.Dispatch.Proofs.AuthorityProofs
import AxiomRT.Dispatch.Proofs.IntegrityProofs

/-!
# Proofs: what the kernel writes into user memory

A delivery is deferred: the receiver leaves the address of its buffer on the endpoint, the payload
is staged later, and the copy happens when the receiver next runs. Every address the kernel may
still write to is therefore remembered somewhere, in a pending delivery or in the record of a parked
receiver, and both are gone when the task starts over.
-/

namespace AxiomRT.Dispatch

open Lib

variable {img : Image} {table : List ServiceDef} {c c' d : Core}

/-! ## User memory

Only the two copies and the resumption of a task touch user memory. -/

namespace Core

section

variable (c : Core)

@[simp] theorem countMiss_touched : c.countMiss.touched = c.touched := rfl
@[simp] theorem countMiss_mem : c.countMiss.mem = c.mem := rfl

@[simp] theorem irqRouteSet_touched (d : DevId) (r : IrqRoute) :
    (c.irqRouteSet d r).touched = c.touched := rfl
@[simp] theorem irqRouteSet_mem (d : DevId) (r : IrqRoute) : (c.irqRouteSet d r).mem = c.mem := rfl

@[simp] theorem setState_touched (t : Slot) (s : RtState) :
    (c.setState t s).touched = c.touched := rfl
@[simp] theorem setState_mem (t : Slot) (s : RtState) : (c.setState t s).mem = c.mem := rfl

@[simp] theorem saveAs_touched (s : RtState) : (c.saveAs s).touched = c.touched := rfl
@[simp] theorem saveAs_mem (s : RtState) : (c.saveAs s).mem = c.mem := rfl

@[simp] theorem wake_touched (e : EpId) (t : Slot) (f : Tcb → Tcb) :
    (c.wake e t f).touched = c.touched := rfl
@[simp] theorem wake_mem (e : EpId) (t : Slot) (f : Tcb → Tcb) : (c.wake e t f).mem = c.mem := rfl

@[simp] theorem park_touched (e : EpId) (w : Ep) : (c.park e w).touched = c.touched := rfl
@[simp] theorem park_mem (e : EpId) (w : Ep) : (c.park e w).mem = c.mem := rfl

@[simp] theorem kill_touched (slot : Slot) : (c.kill slot).touched = c.touched := rfl
@[simp] theorem kill_mem (slot : Slot) : (c.kill slot).mem = c.mem := rfl

@[simp] theorem rearm_touched (slot : Slot) (f : TrapFrame) :
    (c.rearm slot f).touched = c.touched := rfl
@[simp] theorem rearm_mem (slot : Slot) (f : TrapFrame) : (c.rearm slot f).mem = c.mem := rfl

end

/-- A notification changes tasks and endpoints only. -/
theorem notify_memory (c : Core) (e : EpId) (code : UInt8) :
    (c.notify e code).touched = c.touched ∧ (c.notify e code).mem = c.mem := by
  unfold notify
  cases c.endpoints e with
  | idle => exact ⟨rfl, rfl⟩
  | senderWaiting tid len => exact ⟨rfl, rfl⟩
  | receiverWaiting tid dst cap =>
    dsimp only
    split_ifs <;> exact ⟨rfl, rfl⟩

theorem fault_touched (c : Core) : c.fault.touched = c.touched := by
  unfold fault
  rw [(notify_memory ..).1, (notify_memory ..).1]
  rfl

theorem fault_mem (c : Core) : c.fault.mem = c.mem := by
  unfold fault
  rw [(notify_memory ..).2, (notify_memory ..).2]
  rfl

end Core

/-! ## Footprints -/

/-- Between `c` and `c'` the kernel writes to user memory only under `root` and only at addresses
that satisfy `P`, and every byte it changes is recorded. -/
def WritesOnly (root : UInt64) (P : Nat → Prop) (c c' : Core) : Prop :=
  ∃ w, c'.touched = c.touched ++ w ∧ (∀ a ∈ w, a.write = true → a.root = root ∧ P a.va) ∧
    ∀ r va, (⟨true, r, va⟩ : UserAccess) ∉ w → c'.mem r va = c.mem r va

namespace WritesOnly

variable {root : UInt64} {P : Nat → Prop}

theorem none (ht : c'.touched = c.touched) (hm : c'.mem = c.mem) : WritesOnly root P c c' := by
  refine ⟨[], ?_, ?_, ?_⟩
  · rw [ht, List.append_nil]
  · intro a ha
    cases ha
  · intro r va _
    rw [hm]

/-- Reading writes nothing. -/
theorem reads (va len : Nat) (ht : c'.touched = (c.touch false va len).touched)
    (hm : c'.mem = c.mem) : WritesOnly root P c c' := by
  refine ⟨_, ht, ?_, ?_⟩
  · intro a ha hw
    obtain ⟨i, -, rfl⟩ := List.mem_map.mp ha
    cases hw
  · intro r va _
    rw [hm]

/-- A copy to the active address space, after steps that stayed within the footprint. -/
theorem copy (h : WritesOnly root P c d) {va : Nat} {bytes : List UInt8} (hs : d.satp = root)
    (hP : ∀ a, va ≤ a → a < va + bytes.length → P a)
    (ht : c'.touched = (d.copyBytesToUser va bytes).touched)
    (hm : c'.mem = (d.copyBytesToUser va bytes).mem) : WritesOnly root P c c' := by
  obtain ⟨w, hw, hroot, hsame⟩ := h
  refine ⟨w ++ (List.range bytes.length).map fun i => ⟨true, d.satp, va + i⟩, ?_, ?_, ?_⟩
  · rw [ht, ← List.append_assoc, ← hw]
    rfl
  · intro a ha haw
    rcases List.mem_append.mp ha with ha | ha
    · exact hroot a ha haw
    · obtain ⟨i, hi, rfl⟩ := List.mem_map.mp ha
      have hi' := List.mem_range.mp hi
      exact ⟨hs, hP _ (Nat.le_add_right va i) (Nat.add_lt_add_left hi' va)⟩
  · intro r a ha
    rw [List.mem_append, not_or] at ha
    obtain ⟨haw, hout⟩ := ha
    rw [hm, ← hsame r a haw]
    by_cases hr : r = d.satp
    · subst hr
      have hmiss : ¬ (va ≤ a ∧ a < va + bytes.length) := by
        rintro ⟨hle, hlt⟩
        refine hout (List.mem_map.mpr ⟨a - va, List.mem_range.mpr (by omega), ?_⟩)
        rw [Nat.add_sub_cancel' hle]
      simp only [Core.copyBytesToUser, Function.update_self, if_neg hmiss]
    · simp only [Core.copyBytesToUser, Function.update_of_ne hr]

/-- The task that gets the CPU may have a delivery to complete. -/
theorem resume {next : Slot} (ht : d.touched = c.touched ∨ ∃ va len,
      d.touched = (c.touch false va len).touched) (hm : d.mem = c.mem)
    (hP : ∀ pm, (d.tasks next).pendingIpc = some pm → ∀ a, pm.dst ≤ a → a < pm.dst + pm.len → P a) :
    WritesOnly (d.tasks next).satpRoot P c (d.resume next) := by
  have hact : WritesOnly (d.tasks next).satpRoot P c (d.activate next) := by
    rcases ht with ht | ⟨va, len, ht⟩
    · exact none ht hm
    · exact reads va len ht hm
  unfold Core.resume
  cases hpm : (d.tasks next).pendingIpc with
  | none => exact hact
  | some pm =>
    refine hact.copy rfl ?_ rfl rfl
    intro a hle hlt
    have hlen : (bytesOf pm.data pm.len).length ≤ pm.len := List.length_take_le _ _
    exact hP pm hpm a hle (by omega)

end WritesOnly

/-! ## Remembered buffers -/

/-- The kernel remembers the buffer `[dst, dst + cap)` of `u`. -/
inductive Core.Remembers (c : Core) (u : Slot) : Nat → Nat → Prop where
  | pending {pm : PendingMsg} (h : (c.tasks u).pendingIpc = some pm) :
      Core.Remembers c u pm.dst pm.len
  | waiting {e : EpId} {dst cap : Nat} (h : c.endpoints e = .receiverWaiting u dst cap) :
      Core.Remembers c u dst cap

theorem Inv.remembered_valid (h : Inv c) {u : Slot} {dst cap : Nat} (hr : c.Remembers u dst cap) :
    validUserBuf dst cap = true := by
  cases hr with
  | pending hp => exact (h.wf.pending_ready u _ hp).2
  | waiting hw => exact h.wf.receiver_buf _ u dst cap hw

/-- What is pending in `d` goes into buffers that `c` remembers. -/
structure Recalls (c d : Core) : Prop where
  pending : ∀ u pm, (d.tasks u).pendingIpc = some pm →
    ∃ cap, pm.len ≤ cap ∧ c.Remembers u pm.dst cap

namespace Recalls

theorem of_tasks (ht : d.tasks = c.tasks) : Recalls c d := by
  refine ⟨fun u pm hpm => ?_⟩
  rw [ht] at hpm
  exact ⟨pm.len, le_rfl, .pending hpm⟩

theorem setA0 (h : Recalls c d) {v : Int} : Recalls c (d.setA0 v) := ⟨h.pending⟩

theorem update (h : Recalls c d) {u : Slot} {b : Tcb} (ht : c'.tasks = Function.update d.tasks u b)
    (hb : b.pendingIpc = none ∨ b.pendingIpc = (d.tasks u).pendingIpc) : Recalls c c' := by
  refine ⟨fun t pm hpm => ?_⟩
  rw [ht] at hpm
  by_cases htu : t = u
  · subst htu
    rw [Function.update_self] at hpm
    rcases hb with hb | hb
    · rw [hb] at hpm
      cases hpm
    · exact h.pending t pm (hb.symm.trans hpm)
  · rw [Function.update_of_ne htu] at hpm
    exact h.pending t pm hpm

/-- A wake-up that stages a message for the parked receiver. -/
theorem stage (h : Recalls c d) {e : EpId} {u : Slot} {dst cap : Nat} {pm : PendingMsg}
    {f : Tcb → Tcb} (ep : c.endpoints e = .receiverWaiting u dst cap) (hlen : pm.len ≤ cap)
    (hdst : pm.dst = dst) (hf : (f (d.tasks u)).pendingIpc = some pm) :
    Recalls c (d.wake e u f) := by
  refine ⟨fun t pm' hpm => ?_⟩
  rw [Core.wake_tasks] at hpm
  by_cases htu : t = u
  · subst htu
    rw [Function.update_self] at hpm
    obtain rfl : pm = pm' := Option.some.inj (hf.symm.trans hpm)
    subst hdst
    exact ⟨cap, hlen, .waiting ep⟩
  · rw [Function.update_of_ne htu] at hpm
    exact h.pending t pm' hpm

theorem notify (h : Recalls c d) {e : EpId} {code : UInt8} (he : d.endpoints e = c.endpoints e) :
    Recalls c (d.notify e code) := by
  unfold Core.notify
  cases hep : d.endpoints e with
  | idle => exact h
  | senderWaiting tid len => exact h
  | receiverWaiting tid dst cap =>
    dsimp only
    split_ifs with hfit
    · exact h.stage (he.symm.trans hep) hfit.1 rfl rfl
    · exact ⟨h.pending⟩

theorem fault (h : Recalls c d) (he : d.endpoints = c.endpoints) : Recalls c d.fault := by
  have hset : Recalls c (d.setState d.current .faulted) :=
    h.update (Core.setState_tasks ..) (Or.inr rfl)
  have hdrop : Recalls c ((d.setState d.current .faulted).irqDrop d.current) := ⟨hset.pending⟩
  refine (hdrop.notify (congrFun he _)).notify ?_
  rw [Core.notify_endpoints_ne _ _ (by decide)]
  exact congrFun he _

end Recalls

/-- The running task hands the buffer `[dst, dst + cap)` to the kernel with this trap. -/
def Core.Passes (c : Core) (tr : Trap) (u : Slot) (dst cap : Nat) : Prop :=
  tr = .ecall ∧ c.current = u ∧ c.frame.buffer = some (dst, cap)

/-- The stack page address `a` lies in a buffer of `u` that the kernel remembers or is handed. -/
def Writable (c : Core) (tr : Trap) (u : Slot) (a : Nat) : Prop :=
  (userDataVa ≤ a ∧ a < userDataEnd) ∧
    ∃ dst cap, (c.Remembers u dst cap ∨ c.Passes tr u dst cap) ∧ dst ≤ a ∧ a < dst + cap

/-- What a trap with result `c'` does to user memory, and where it leaves deliveries pending. -/
structure Delivers (c : Core) (tr : Trap) (c' : Core) : Prop where
  recalls : Recalls c c'
  writes : WritesOnly c'.satp (Writable c tr c'.current) c c'

namespace Delivers

variable {tr : Trap}

theorem quiet (hr : Recalls c c') (ht : c'.touched = c.touched) (hm : c'.mem = c.mem) :
    Delivers c tr c' := ⟨hr, .none ht hm⟩

/-- The CPU goes to a task whose delivery, if one is pending, `c` remembers. -/
theorem resume (h : Inv c) (hr : Recalls c d) {next : Slot}
    (ht : d.touched = c.touched ∨ ∃ va len, d.touched = (c.touch false va len).touched)
    (hm : d.mem = c.mem) : Delivers c tr (d.resume next) := by
  refine ⟨hr.update (Core.resume_tasks d next) (Or.inl rfl), ?_⟩
  rw [Core.resume_satp, Core.resume_current]
  refine .resume ht hm fun pm hpm a hle hlt => ?_
  obtain ⟨cap, hlen, hrem⟩ := hr.pending next pm hpm
  obtain ⟨-, hlo, hhi⟩ := validUserBuf_iff.mp (h.remembered_valid hrem)
  exact ⟨⟨by omega, by omega⟩, pm.dst, cap, Or.inl hrem, hle, by omega⟩

/-- A call fills the buffer it was handed. -/
theorem fill (hr : Recalls c c') (hs : c'.satp = c.satp) (hcur : c'.current = c.current)
    {va cap : Nat} {bytes : List UInt8} (hask : c.frame.buffer = some (va, cap))
    (hcap : bytes.length ≤ cap) (hwin : inStackWindow va bytes.length = true)
    (ht : c'.touched = (c.copyBytesToUser va bytes).touched)
    (hm : c'.mem = (c.copyBytesToUser va bytes).mem) : Delivers c .ecall c' := by
  refine ⟨hr, ?_⟩
  rw [hs, hcur]
  have hself : WritesOnly c.satp (Writable c .ecall c.current) c c := .none rfl rfl
  refine hself.copy rfl ?_ ht hm
  intro a hle hlt
  obtain ⟨hlo, hhi⟩ := inStackWindow_iff.mp hwin
  exact ⟨⟨by omega, by omega⟩, va, cap, Or.inr ⟨rfl, rfl, hask⟩, hle, by omega⟩

end Delivers

theorem RecvReq.buffer {e : EpId} {dst cap : Nat} (h : RecvReq c e dst cap) :
    c.frame.buffer = some (dst, cap) := by
  simp only [TrapFrame.buffer, h.sys, h.dst_eq, h.cap_eq]

theorem Move.delivers {tr : Trap} (hm : Move img table c tr c') (h : Inv c) :
    Delivers c tr c' := by
  have hin : Recalls c c.checkIn := .of_tasks (by simp)
  have hcopy : ∀ buf len, Recalls c (c.checkIn.copyFromUser buf len) :=
    fun buf len => .of_tasks (by simp)
  cases hm with
  | ret tasks current endpoints kmsg routes satp miss mem ipc plain copies lives =>
    have hr : Recalls c c' := .of_tasks tasks
    cases copies with
    | none mem touched => exact .quiet hr touched mem
    | @reads va len window mem touched => exact ⟨hr, .reads va len touched mem⟩
    | writes asked fits window mem touched =>
      exact .fill hr satp current asked fits window touched mem
  | @sendBusy e buf len tid plen req ep =>
    exact ⟨.of_tasks (by simp), .reads buf (min len ipcMsgMax) (by simp) (by simp)⟩
  | @sendDeliver e buf len tid dst cap req ep fits =>
    have hst := (hcopy buf len).stage (f := fun t => { t with
      pendingIpc := some (.ofKmsg dst len (c.checkIn.copyFromUser buf len).kmsg) })
      ep fits.1 rfl rfl
    exact ⟨hst.setA0, .reads buf (min len ipcMsgMax) (by simp) (by simp)⟩
  | @sendTooBig e buf len tid dst cap req ep small =>
    have hwake := (hcopy buf len).update (Core.wake_tasks _ e tid fun t =>
      { t with frame := t.frame.setA0 errMsgTooLarge }) (Or.inr rfl)
    exact ⟨hwake.setA0, .reads buf (min len ipcMsgMax) (by simp) (by simp)⟩
  | @sendPark e buf len next req ep sel =>
    have hpark := (hcopy buf len).update (Core.park_tasks _ e (.senderWaiting c.current len))
      (Or.inr rfl)
    exact .resume h hpark (Or.inr ⟨buf, min len ipcMsgMax, by simp⟩) (by simp)
  | @recvIrq e dst cap dev req irq fits =>
    have hlen : [irqEventCode].length ≤ cap := fits.1
    exact .fill (.of_tasks (by simp)) (by simp) (by simp) req.buffer hlen
      (inStackWindow_of_valid fits.2) (by simp) (by simp)
  | @recvTake e dst cap tid len req irq ep fits =>
    have htake : Recalls c ((c.checkIn.copyBytesToUser dst (bytesOf c.kmsg len)).setA0 len) :=
      .of_tasks (by simp)
    have hlen : (bytesOf c.kmsg len).length ≤ len := List.length_take_le _ _
    exact .fill (htake.update (Core.wake_tasks ..) (Or.inr rfl)) (by simp) (by simp) req.buffer
      (hlen.trans fits.1) (inStackWindow_mono (inStackWindow_of_valid fits.2) hlen)
      (by simp) (by simp)
  | @recvPark e dst cap next req irq ep fits sel =>
    have hpark := hin.update (Core.park_tasks _ e (.receiverWaiting c.current dst cap))
      (Or.inr rfl)
    exact .resume h hpark (Or.inl (by simp)) (by simp)
  | yield sys sel =>
    have hsave := hin.update (Core.saveAs_tasks _ .ready) (Or.inr rfl)
    exact .resume h hsave (Or.inl (by simp)) (by simp)
  | exit sys sel =>
    have hset := hin.update (Core.setState_tasks _ c.current .killed) (Or.inr rfl)
    exact .resume h hset (Or.inl (by simp)) (by simp)
  | @spawn slot b d routes sys ctl entry vacant fresh granted space =>
    have hset := hin.update (Core.setTask_tasks _ slot b) (Or.inl fresh.2.1)
    exact .quiet ⟨hset.pending⟩ rfl rfl
  | @rearm slot d f sys ctl entry dead =>
    have hre := hin.update (Core.rearm_tasks _ slot f) (Or.inl rfl)
    exact .quiet hre.setA0 (by simp) (by simp)
  | @restart slot f sys ctl names other used started =>
    have hre := hin.update (Core.rearm_tasks _ slot f) (Or.inl rfl)
    exact .quiet hre.setA0 (by simp) (by simp)
  | @kill slot sys ctl names other used =>
    have hk := hin.update (Core.kill_tasks _ slot) (Or.inl rfl)
    exact .quiet hk.setA0 (by simp) (by simp)
  | killSelf sys ctl names used sel =>
    have hk := hin.update (Core.kill_tasks _ c.current) (Or.inl rfl)
    exact .resume h hk (Or.inl (by simp)) (by simp)
  | irqDead sys ctl dead => exact .quiet (.of_tasks (by simp)) (by simp) (by simp)
  | @irqDeliver dev tid dst cap sys ctl live ep fits =>
    have hst := hin.stage (f := fun t => { t with
      pendingIpc := some (.oneByte dst irqEventCode) }) ep fits.1 rfl rfl
    exact .quiet hst.setA0 (by simp) (by simp)
  | irqHold sys ctl live ep => exact .quiet (.of_tasks (by simp)) (by simp) (by simp)
  | tick fine top => exact .quiet (.of_tasks (by simp)) (by simp) (by simp)
  | preempt fine sel other outranked =>
    have hmiss : Recalls c c.countMiss := .of_tasks (by simp)
    have hsave := hmiss.update (Core.saveAs_tasks _ .ready) (Or.inr rfl)
    exact .resume h hsave (Or.inl (by simp)) (by simp)
  | watchdog exp sel =>
    have hmiss : Recalls c c.countMiss := .of_tasks (by simp)
    exact .resume h (hmiss.fault rfl) (Or.inl (Core.fault_touched _)) (Core.fault_mem _)
  | fault sel =>
    have hself : Recalls c c := .of_tasks rfl
    exact .resume h (hself.fault rfl) (Or.inl (Core.fault_touched c)) (Core.fault_mem c)

/-! ## Along a run -/

section Runs

variable {x : Run img}

/-- Before step `m`, and since its latest start, restart or re-arm, `u` passed the kernel a buffer
that contains `a`. -/
def Asked (x : Run img) (m : ℕ) (u : Slot) (a : Nat) : Prop :=
  ∃ p dst cap, p < m ∧ (entry x p).Passes (x.ev p).trap u dst cap ∧ dst ≤ a ∧ a < dst + cap ∧
    ∀ i, p ≤ i → i < m → ¬ BeginsAt x i u

theorem Asked.succ {m : ℕ} {u : Slot} {a : Nat} (h : Asked x m u a) (hb : ¬ BeginsAt x m u) :
    Asked x (m + 1) u a := by
  obtain ⟨p, dst, cap, hp, hpass, hle, hlt, hlife⟩ := h
  refine ⟨p, dst, cap, by omega, hpass, hle, hlt, fun i hpi him => ?_⟩
  rcases Nat.lt_or_ge i m with hi | hi
  · exact hlife i hpi hi
  · obtain rfl : i = m := by omega
    exact hb

theorem Asked.now {m : ℕ} {u : Slot} {a dst cap : Nat}
    (hpass : (entry x m).Passes (x.ev m).trap u dst cap) (hle : dst ≤ a) (hlt : a < dst + cap)
    (hb : ¬ BeginsAt x m u) : Asked x (m + 1) u a := by
  refine ⟨m, dst, cap, Nat.lt_succ_self m, hpass, hle, hlt, fun i hmi him => ?_⟩
  obtain rfl : i = m := by omega
  exact hb

/-- No life of a task begins with a step after which the kernel remembers a buffer of it. -/
theorem Remembers.not_begins {m : ℕ} (hm : m < x.len) {u : Slot} {dst cap : Nat}
    (h : (x.st (m + 1)).toCore.Remembers u dst cap) : ¬ BeginsAt x m u := by
  intro hb
  obtain ⟨hready, hnone⟩ := (run_move x hm).begins hb
  cases h with
  | pending hp =>
    rw [hnone] at hp
    cases hp
  | waiting hw =>
    have hblk := (run_inv x (m + 1) hm).wf.waiter_blocked _ u (Core.waiter_of_receiver hw)
    rw [hready] at hblk
    cases hblk

/-- The kernel remembers no buffer it was not asked to fill. -/
theorem run_remembers (x : Run img) : ∀ m, m ≤ x.len → ∀ u dst cap,
    (x.st m).toCore.Remembers u dst cap → ∀ a, dst ≤ a → a < dst + cap → Asked x m u a := by
  refine x.induct ?_ ?_
  · intro u dst cap h
    cases h with
    | pending hp =>
      rw [x.init_st.started.pending u] at hp
      cases hp
    | waiting hw =>
      rw [x.init_st.started.idle] at hw
      cases hw
  · intro m hm ih u dst cap h a hle hlt
    have hb := Remembers.not_begins hm h
    have hold : ∀ {dst cap}, (entry x m).Remembers u dst cap → dst ≤ a → a < dst + cap →
        Asked x (m + 1) u a := by
      intro dst cap hr hle hlt
      exact (ih u dst cap (by cases hr with
        | pending hp => exact .pending hp
        | waiting hw => exact .waiting hw) a hle hlt).succ hb
    cases h with
    | @pending pm hp =>
      obtain ⟨cap, hlen, hr⟩ :=
        ((run_move x hm).delivers (run_entry_inv x (Nat.le_of_lt hm))).recalls.pending u pm hp
      exact hold hr hle (by omega)
    | @waiting e _ _ hw =>
      cases (run_move x hm).epChange e with
      | same h => exact hold (.waiting (h.symm.trans hw)) hle hlt
      | cleared h =>
        rw [h] at hw
        cases hw
      | sender htr req h kmsg =>
        rw [h] at hw
        cases hw
      | receiver htr req h =>
        rw [h] at hw
        cases hw
        exact .now ⟨htr, rfl, req.buffer⟩ hle hlt hb

/-- The kernel's accesses to user memory during step `m`. -/
def accesses (x : Run img) (m : ℕ) : List UserAccess :=
  (x.st (m + 1)).touched.drop (x.st m).touched.length

/-- Each task has its memory to itself. -/
def OwnMemory (x : Run img) : Prop :=
  ∀ i ≤ x.len, ∀ t u, ((x.st i).tasks t).state ≠ .empty → ((x.st i).tasks u).state ≠ .empty →
    ((x.st i).tasks t).satpRoot = ((x.st i).tasks u).satpRoot → t = u

/-- The kernel writes into a task's memory only on its stack page, while its address space is
active, and into buffers it passed in its present life; a byte that is not recorded as written keeps
its value over the step. -/
structure WritesAsked (x : Run img) : Prop where
  log : ∀ m < x.len, (x.st (m + 1)).touched = (x.st m).touched ++ accesses x m
  complete : ∀ m < x.len, ∀ r a, ⟨true, r, a⟩ ∉ accesses x m →
    (x.st (m + 1)).mem r a = (entry x m).mem r a
  asked : ∀ m < x.len, ∀ u, ((x.st (m + 1)).tasks u).state ≠ .empty → ∀ a,
    ⟨true, ((x.st (m + 1)).tasks u).satpRoot, a⟩ ∈ accesses x m →
      (userDataVa ≤ a ∧ a < userDataEnd) ∧ (x.st (m + 1)).current = u ∧
        (x.st (m + 1)).satp = ((x.st (m + 1)).tasks u).satpRoot ∧ Asked x (m + 1) u a

theorem run_accesses (x : Run img) {m : ℕ} (hm : m < x.len) :
    (x.st (m + 1)).touched = (x.st m).touched ++ accesses x m ∧
      (∀ a ∈ accesses x m, a.write = true → a.root = (x.st (m + 1)).satp ∧
        Writable (entry x m) (x.ev m).trap (x.st (m + 1)).current a.va) ∧
      ∀ r a, (⟨true, r, a⟩ : UserAccess) ∉ accesses x m →
        (x.st (m + 1)).mem r a = (entry x m).mem r a := by
  obtain ⟨w, hw, hroot, hsame⟩ :=
    ((run_move x hm).delivers (run_entry_inv x (Nat.le_of_lt hm))).writes
  have hacc : accesses x m = w := by
    unfold accesses
    rw [hw]
    exact List.drop_left
  rw [hacc]
  exact ⟨hw, hroot, hsame⟩

/-- The task that runs after a step has not just begun a life. -/
theorem run_current_not_begins (x : Run img) {m : ℕ} (hm : m < x.len) :
    ¬ BeginsAt x m (x.st (m + 1)).current := by
  intro hb
  have hrun := ((run_inv x (m + 1) hm).wf.running _).mpr rfl
  rw [((run_move x hm).begins hb).1] at hrun
  cases hrun

/-- In every run of the dispatcher, the kernel writes into a task's memory only where that task
asked it to. -/
theorem run_writesAsked (x : Run img) (hown : OwnMemory x) : WritesAsked x := by
  refine ⟨fun m hm => (run_accesses x hm).1, fun m hm => (run_accesses x hm).2.2, ?_⟩
  intro m hm u hused a ha
  obtain ⟨-, hwrites, -⟩ := run_accesses x hm
  obtain ⟨hroot, hwin, dst, cap, hbuf, hle, hlt⟩ := hwrites _ ha rfl
  have hinv := run_inv x (m + 1) hm
  have hcur : ((x.st (m + 1)).tasks (x.st (m + 1)).current).state ≠ .empty := by
    rw [(hinv.wf.running _).mpr rfl]
    simp
  have hu : (x.st (m + 1)).current = u :=
    hown (m + 1) hm _ u hcur hused (hinv.space.symm.trans hroot.symm)
  have hb := run_current_not_begins x hm
  rw [hu] at hb hbuf
  refine ⟨hwin, hu, hroot.symm, ?_⟩
  rcases hbuf with hrem | hpass
  · have hrem' : (x.st m).toCore.Remembers u dst cap := by
      cases hrem with
      | pending hp => exact .pending hp
      | waiting hw => exact .waiting hw
    exact (run_remembers x m (Nat.le_of_lt hm) u dst cap hrem' a hle hlt).succ hb
  · exact .now hpass hle hlt hb

end Runs

/-! ## Address spaces of the OS boot flow -/

/-- The address space of every slot in use was built for that slot. -/
def Rooted (img : Image) (c : Core) : Prop :=
  ∀ t, (c.tasks t).state ≠ .empty → ∃ entryVa stack uas,
    img.buildServiceAddressSpace t.val entryVa stack = some uas ∧ (c.tasks t).satpRoot = uas.root

theorem OsBooted.rooted {k : Kernel} (h : OsBooted img k) : Rooted img k.toCore := by
  intro t ht
  by_cases h0 : t = 0
  · subst h0
    obtain ⟨sstatus, uas, hb, rfl⟩ := h
    exact ⟨_, _, uas, hb, rfl⟩
  · exact absurd (h.vacant h0) ht

theorem Move.rooted {tr : Trap} (hm : Move img table c tr c') (h : Inv c) (hr : Rooted img c) :
    Rooted img c' := by
  intro t ht
  by_cases hv : (c.tasks t).state = .empty
  · rcases hm.vacant h hv with hsame | ⟨⟨d, -, hslot, -, uas, hb, hroot⟩, -⟩
    · rw [hsame] at ht
      exact absurd hv ht
    · rw [hslot] at hb
      exact ⟨_, _, uas, hb, hroot⟩
  · rw [(hm.sameTasks.kept t hv).1.satpRoot]
    exact hr t hv

theorem osRun_rooted (x : OsRun img) : x.Always fun k => Rooted img k.toCore := by
  intro i hi
  have hall : x.Always fun k => Inv k.toCore ∧ Rooted img k.toCore := by
    refine x.invariant (fun k h => ⟨h.booted.started.inv, h.rooted⟩) ?_
    rintro k ev k' ⟨hinv, hr⟩ hs
    exact ⟨step_inv hs hinv, (step_move hs).rooted (hinv.enter ev) hr⟩
  exact (hall i hi).2

/-- On an image that builds different slots under different roots, the services of the OS boot flow
have their memory to themselves. -/
theorem osRun_ownMemory (x : OsRun img)
    (hroot : ∀ (t u : Slot) (entryVa entryVa' stack stack' : UInt64) (s s' : UserAddressSpace),
      img.buildServiceAddressSpace t.val entryVa stack = some s →
      img.buildServiceAddressSpace u.val entryVa' stack' = some s' → s.root = s'.root → t = u) :
    OwnMemory (x.weaken fun _ => OsBooted.booted) := by
  intro i hi t u ht hu hsame
  obtain ⟨entryVa, stack, s, hs, hts⟩ := osRun_rooted x i hi t ht
  obtain ⟨entryVa', stack', s', hs', hus⟩ := osRun_rooted x i hi u hu
  exact hroot t u _ _ _ _ s s' hs hs' (hts.symm.trans (hsame.trans hus))

theorem sampleRun_ownMemory {es : List Event} (h : survives es = true) :
    OwnMemory (sampleRun es h) := by
  refine osRun_ownMemory (sampleOsRun es h) ?_
  intro t u entryVa entryVa' stack stack' s s' hs hs' hr
  cases hs
  cases hs'
  have hnat := congrArg UInt64.toNat hr
  simp only [UInt64.toNat_ofNat'] at hnat
  have ht : t.val < 16 := t.isLt
  have hu : u.val < 16 := u.isLt
  exact Fin.ext (by omega)

/-- `fs_service` gets one byte from `app_loader_service`, at the address it passed. -/
theorem parkedTaken_writesAsked :
    WritesAsked (sampleRun parkedTaken survives_parkedTaken) ∧
      (⟨true, ((sampleState parkedTaken 5).tasks 10).satpRoot, 0x200010⟩ : UserAccess) ∈
        accesses (sampleRun parkedTaken survives_parkedTaken) 4 :=
  ⟨run_writesAsked _ (sampleRun_ownMemory _), by decide⟩

end AxiomRT.Dispatch
