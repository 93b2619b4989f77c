import Mathlib.Data.Nat.Count
import AxiomRT.Dispatch.Proofs.LifecycleProofs
import AxiomRT.Dispatch.Proofs.PriorityProofs

/-!
# Proofs: the watchdog

The miss counter is one global that every syscall and every context switch clears. It fires only
after five ticks in a row under the same task. A preempted task starts a fresh window, but only
once: a task that makes no syscall is top of the ready tasks from its second time on the CPU on, so
no tick preempts it again.
-/

namespace AxiomRT.Dispatch

open Lib

variable {img : Image} {table : List ServiceDef} {c c' : Core}

/-- Step `j` is a timer interrupt and `t` is the running task. -/
def TickOf (x : Run img) (t : Slot) (j : ℕ) : Prop :=
  (x.ev j).trap = .timer ∧ ((x.st j).tasks t).state = .running

instance (x : Run img) (t : Slot) (j : ℕ) : Decidable (TickOf x t j) :=
  inferInstanceAs (Decidable (_ ∧ _))

/-- A timer interrupt faults a task only if that task was running at this and the four preceding
traps and all five were timer interrupts. -/
def WatchdogSound (x : Run img) : Prop :=
  ∀ i t, i < x.len → (x.ev i).trap = .timer → ((x.st i).tasks t).state ≠ .faulted →
    ((x.st (i + 1)).tasks t).state = .faulted →
    4 ≤ i ∧ ∀ j, i - 4 ≤ j → j ≤ i → TickOf x t j

/-- From step `a` to step `b`, task `t` issues no syscall and is not started, restarted or re-armed
after it died. -/
def Silent (x : Run img) (t : Slot) (a b : ℕ) : Prop :=
  ∀ j, a ≤ j → j < b →
    ¬ ((x.ev j).trap = .ecall ∧ (x.st j).current = t) ∧
    ¬ (((x.st j).tasks t).state.Dead ∧ ((x.st (j + 1)).tasks t).state = .ready)

/-- Timer interrupts from step `a` to step `b` at which `t` is the running task. -/
def tickCount (x : Run img) (t : Slot) (a b : ℕ) : ℕ := Nat.count (fun j => a ≤ j ∧ TickOf x t j) b

/-- A silent task is the running task at no more than six timer interrupts, and at no more than five
while it is alive. -/
def DetectionBounded (x : Run img) : Prop :=
  ∀ t a b, a ≤ b → b ≤ x.len → Silent x t a b →
    tickCount x t a b ≤ 6 ∧ (¬ ((x.st b).tasks t).state.Dead → tickCount x t a b ≤ 5)

/-! ## The miss counter -/

theorem Core.resume_miss (c : Core) (next : Slot) : (c.resume next).watchdogMiss = 0 := by
  simp only [Core.resume]
  cases (c.tasks next).pendingIpc <;> rfl

/-- A move clears the miss counter, or it is a tick that leaves the running task on the CPU. -/
theorem Move.miss {tr : Trap} (hm : Move img table c tr c') :
    c'.watchdogMiss = 0 ∨ (tr = .timer ∧ ¬ c.expired ∧ c' = c.countMiss ∧
      ∀ next, c.selectHighest c.current = some next →
        next = c.current ∨ (c.tasks next).prio ≤ (c.tasks c.current).prio) := by
  cases hm with
  | ret tasks current endpoints kmsg routes satp miss mem ipc plain => exact Or.inl miss
  | sendPark req ep sel => exact Or.inl (Core.resume_miss ..)
  | recvPark req irq ep fits sel => exact Or.inl (Core.resume_miss ..)
  | yield sys sel => exact Or.inl (Core.resume_miss ..)
  | exit sys sel => exact Or.inl (Core.resume_miss ..)
  | killSelf sys ctl names used sel => exact Or.inl (Core.resume_miss ..)
  | preempt fine sel other outranked => exact Or.inl (Core.resume_miss ..)
  | watchdog exp sel => exact Or.inl (Core.resume_miss ..)
  | fault sel => exact Or.inl (Core.resume_miss ..)
  | tick fine top => exact Or.inr ⟨rfl, fine, rfl, top⟩
  | sendBusy req ep => exact Or.inl rfl
  | sendDeliver req ep fits => exact Or.inl rfl
  | sendTooBig req ep small => exact Or.inl rfl
  | recvIrq req irq fits => exact Or.inl rfl
  | recvTake req irq ep fits => exact Or.inl rfl
  | spawn sys ctl entry vacant fresh => exact Or.inl rfl
  | rearm sys ctl entry dead => exact Or.inl rfl
  | restart sys ctl names other used started => exact Or.inl rfl
  | kill sys ctl names other used => exact Or.inl rfl
  | irqDead sys ctl dead => exact Or.inl rfl
  | irqDeliver sys ctl live ep fits => exact Or.inl rfl
  | irqHold sys ctl live ep => exact Or.inl rfl

/-- The miss counter never passes the window. -/
theorem Move.miss_le {tr : Trap} (hm : Move img table c tr c')
    (h : c.watchdogMiss ≤ watchdogWindow) :
    c'.watchdogMiss ≤ watchdogWindow ∧
      (c'.watchdogMiss = 0 ∨ c'.watchdogMiss = c.watchdogMiss + 1) := by
  rcases hm.miss with h0 | ⟨-, hexp, rfl, -⟩
  · exact ⟨by omega, Or.inl h0⟩
  · simp only [Core.expired, watchdogWindow] at hexp h
    have hinc : c.countMiss.watchdogMiss = c.watchdogMiss + 1 := by
      simp only [Core.countMiss, wrappingInc]
      omega
    simp only [watchdogWindow]
    omega

theorem run_miss_le (x : Run img) : x.Always fun k => k.watchdogMiss ≤ watchdogWindow := by
  refine x.invariant (fun k h => ?_) fun k ev k' h hs => ((step_move hs).miss_le h).1
  rw [h.started.miss]
  exact Nat.zero_le _

/-- A miss counter of `n` means that the last `n` traps were ticks under the running task. -/
theorem run_miss_ticks (x : Run img) : ∀ i, i ≤ x.len → ∀ d, d < (x.st i).watchdogMiss →
    d < i ∧ (x.ev (i - 1 - d)).trap = .timer ∧ (x.st (i - 1 - d)).current = (x.st i).current := by
  intro i
  induction i with
  | zero =>
    intro _ d hd
    rw [x.init_st.started.miss] at hd
    omega
  | succ i ih =>
    intro hi d hd
    have hm := step_move (x.step_st i hi)
    rcases hm.miss with h0 | ⟨htr, -, hcore, -⟩
    · rw [h0] at hd
      omega
    · have hcur : (x.st (i + 1)).current = (x.st i).current := by
        rw [hcore]
        rfl
      have hle := (hm.miss_le (run_miss_le x i (by omega))).2
      have hmiss : (x.st i).toCore.watchdogMiss =
          ((x.st i).toCore.enter (x.ev i)).watchdogMiss := rfl
      cases d with
      | zero => exact ⟨by omega, htr, hcur.symm⟩
      | succ d =>
        obtain ⟨h₁, h₂, h₃⟩ := ih (by omega) d (by omega)
        have hidx : i + 1 - 1 - (d + 1) = i - 1 - d := by omega
        rw [hidx, hcur]
        exact ⟨by omega, h₂, h₃⟩

/-! ## Who a tick faults -/

/-- A notification changes no state except to `ready`. -/
theorem Core.notify_state (c : Core) (e : EpId) (code : UInt8) (t : Slot) :
    ((c.notify e code).tasks t).state = (c.tasks t).state ∨
      ((c.notify e code).tasks t).state = .ready := by
  simp only [Core.notify]
  cases c.endpoints e with
  | idle => exact Or.inl rfl
  | senderWaiting tid len => exact Or.inl rfl
  | receiverWaiting tid dst cap =>
    simp only
    split_ifs
    · by_cases ht : t = tid
      · subst ht
        exact Or.inr (by simp)
      · exact Or.inl (by simp [ht])
    · exact Or.inl rfl

/-- A fault changes the state of another task at most to `ready`. -/
theorem Core.fault_state (c : Core) {t : Slot} (hne : t ≠ c.current) :
    (c.fault.tasks t).state = (c.tasks t).state ∨ (c.fault.tasks t).state = .ready := by
  have hset : (((c.setState c.current .faulted).irqDrop c.current).tasks t).state =
      (c.tasks t).state := by simp [hne]
  rcases Core.notify_state (((c.setState c.current .faulted).irqDrop c.current).notify
    Kernel.epFault Kernel.faultCodeWatchdog) Kernel.epEvent Kernel.faultCodeWatchdog t with h | h
  · rcases Core.notify_state ((c.setState c.current .faulted).irqDrop c.current)
      Kernel.epFault Kernel.faultCodeWatchdog t with h' | h'
    · exact Or.inl (h.trans (h'.trans hset))
    · exact Or.inr (h.trans h')
  · exact Or.inr h

/-- After a fault, the faulted task is faulted and another one runs. -/
theorem resume_fault {next : Slot} (h : WellFormed (some c.current) c)
    (sel : c.fault.selectHighest c.current = some next) :
    next ≠ c.current ∧ ((c.fault.resume next).tasks c.current).state = .faulted := by
  have hf := h.fault_current
  have hne : next ≠ c.current := Core.selectHighest_ne sel (by simp [hf])
  refine ⟨hne, ?_⟩
  rw [Core.resume_other _ hne.symm]
  exact hf

/-- A timer interrupt faults only the running task, and only when the window has passed. -/
theorem Move.timer_faults (hm : Move img table c .timer c') {t : Slot}
    (hne : (c.tasks t).state ≠ .faulted) (hf : (c'.tasks t).state = .faulted) :
    c.expired ∧ t = c.current := by
  cases hm with
  | tick fine top => exact absurd hf hne
  | @preempt next fine sel other outranked =>
    exfalso
    by_cases hn : t = next
    · subst hn
      simp at hf
    · by_cases hc : t = c.current
      · subst hc
        simp [hn] at hf
      · simp [hn, hc] at hf
        exact hne hf
  | @watchdog next exp sel =>
    refine ⟨exp, ?_⟩
    by_contra hc
    by_cases hn : t = next
    · subst hn
      simp at hf
    · rw [Core.resume_tasks, Function.update_of_ne hn] at hf
      rcases Core.fault_state c.countMiss hc with h | h
      · exact hne (h.symm.trans hf)
      · rw [h] at hf
        cases hf

theorem run_watchdogSound (x : Run img) : WatchdogSound x := by
  intro i t hi htr hne hf
  have hm := step_move (x.step_st i hi)
  rw [htr] at hm
  obtain ⟨hexp, rfl⟩ := hm.timer_faults hne hf
  have hmiss : 3 < (x.st i).watchdogMiss := by
    simp only [Core.expired, watchdogWindow, Core.enter] at hexp
    omega
  have hback := run_miss_ticks x i (Nat.le_of_lt hi)
  have hrun : ∀ j, j ≤ i → (x.st j).current = (x.st i).current →
      ((x.st j).tasks (x.st i).current).state = .running := by
    intro j hj hcur
    rw [← hcur]
    exact ((run_inv x j (by omega)).wf.running _).mpr rfl
  refine ⟨by have := (hback 3 hmiss).1; omega, fun j hlo hhi => ?_⟩
  rcases Nat.lt_or_ge j i with hlt | hge
  · obtain ⟨-, htick, hcur⟩ := hback (i - 1 - j) (by omega)
    have hidx : i - 1 - (i - 1 - j) = j := by omega
    rw [hidx] at htick hcur
    exact ⟨htick, hrun j hhi hcur⟩
  · have hji : j = i := by omega
    subst hji
    exact ⟨htr, hrun j (Nat.le_refl j) rfl⟩

/-! ## Bounded detection -/

/-- The state of a silent task that was the running task at `n` timer interrupts. While it runs,
either it has seen no tick yet, or it is top of the ready tasks and at most one of its ticks was
before it was last resumed. -/
def Window (c : Core) (t : Slot) (n : ℕ) : Prop :=
  (c.current = t ∧ (n = 0 ∨ (TopRuns c ∧ n ≤ c.watchdogMiss + 1))) ∨
    (c.current ≠ t ∧ (n ≤ 1 ∨ ((c.tasks t).state.Dead ∧ n ≤ 6)))

/-- A tick under the silent task. -/
theorem Window.tick {n : ℕ} (hm : Move img table c .timer c') (h : Inv c)
    (hmiss : c.watchdogMiss ≤ watchdogWindow) (hw : Window c c.current n) :
    Window c' c.current (n + 1) := by
  have hn : n = 0 ∨ (TopRuns c ∧ n ≤ c.watchdogMiss + 1) := by
    rcases hw with ⟨-, hn⟩ | ⟨hne, -⟩
    · exact hn
    · exact absurd rfl hne
  simp only [watchdogWindow] at hmiss
  cases hm with
  | tick fine top =>
    have hinc : c.countMiss.watchdogMiss = c.watchdogMiss + 1 := by
      simp only [Core.countMiss, wrappingInc]
      omega
    refine Or.inl ⟨rfl, Or.inr ⟨h.topRuns_tick top, ?_⟩⟩
    rw [hinc]
    rcases hn with hn | ⟨-, hn⟩ <;> omega
  | @preempt next fine sel other outranked =>
    refine Or.inr ⟨by rw [Core.resume_current]; exact other, Or.inl ?_⟩
    rcases hn with hn | ⟨⟨-, htop⟩, -⟩
    · omega
    · -- a task that is top of the ready tasks is not out-ranked
      have hle := htop next (Core.selectHighest_ready sel)
      exact absurd outranked (UInt8.not_lt.mpr hle)
  | @watchdog next exp sel =>
    obtain ⟨hne, hf⟩ := resume_fault h.countMiss sel
    refine Or.inr ⟨by rw [Core.resume_current]; exact hne, Or.inr ⟨Or.inl hf, ?_⟩⟩
    rcases hn with hn | ⟨-, hn⟩ <;> omega

/-- A contained fault of the silent task. -/
theorem Window.contained {n : ℕ} {reason : String} (hm : Move img table c (.fault reason) c')
    (h : Inv c) (hmiss : c.watchdogMiss ≤ watchdogWindow) (hw : Window c c.current n) :
    Window c' c.current n := by
  have hn : n ≤ 6 := by
    simp only [watchdogWindow] at hmiss
    rcases hw with ⟨-, hn | ⟨-, hn⟩⟩ | ⟨hne, -⟩
    · omega
    · omega
    · exact absurd rfl hne
  cases hm with
  | @fault next reason sel =>
    obtain ⟨hne, hf⟩ := resume_fault h.wf sel
    exact Or.inr ⟨by rw [Core.resume_current]; exact hne, Or.inr ⟨Or.inl hf, hn⟩⟩

/-- Any trap while another task runs. -/
theorem Window.other {n : ℕ} {tr : Trap} {t : Slot} (hm : Move img table c tr c') (h : Inv c)
    (hne : c.current ≠ t) (hrev : ¬ ((c.tasks t).state.Dead ∧ (c'.tasks t).state = .ready))
    (hw : Window c t n) : Window c' t n := by
  have hn : n ≤ 1 ∨ ((c.tasks t).state.Dead ∧ n ≤ 6) := by
    rcases hw with ⟨hc, -⟩ | ⟨-, hn⟩
    · exact absurd hc hne
    · exact hn
  -- a dead task stays dead, because it is not revived
  have hn' : n ≤ 1 ∨ ((c'.tasks t).state.Dead ∧ n ≤ 6) := by
    rcases hn with hn | ⟨hd, hn⟩
    · exact Or.inl hn
    · rcases hm.dead h hd with hsame | ⟨hk, -⟩ | ⟨hr, -⟩
      · exact Or.inr ⟨by rw [hsame]; exact hd, hn⟩
      · exact Or.inr ⟨Or.inr hk, hn⟩
      · exact absurd ⟨hd, hr⟩ hrev
  rcases hm.stay_or_switch h with hs | ⟨d, next, hs⟩
  · refine Or.inr ⟨?_, hn'⟩
    rw [hs.current]
    exact hne
  · have htop := hs.topRuns
    have hcur : c'.current = next := by rw [hs.resumed, Core.resume_current]
    by_cases hnt : next = t
    · refine Or.inl ⟨hcur.trans hnt, Or.inr ⟨htop, ?_⟩⟩
      rcases hn' with hn' | ⟨hd, -⟩
      · omega
      · rw [← hnt, ← hcur, htop.1] at hd
        rcases hd with hd | hd <;> cases hd
    · refine Or.inr ⟨?_, hn'⟩
      rw [hcur]
      exact hnt

theorem tickCount_succ {x : Run img} {t : Slot} {a b : ℕ} (hab : a ≤ b) :
    tickCount x t a (b + 1) = tickCount x t a b + if TickOf x t b then 1 else 0 := by
  simp [tickCount, Nat.count_succ, hab]

/-- The window invariant along a silent stretch of a run. -/
theorem run_window (x : Run img) {t : Slot} {a : ℕ} : ∀ b, a ≤ b → b ≤ x.len → Silent x t a b →
    Window (x.st b).toCore t (tickCount x t a b) := by
  intro b hab
  induction b, hab using Nat.le_induction with
  | base =>
    intro _ _
    have h0 : tickCount x t a a = 0 := by
      rw [tickCount, Nat.count_iff_forall_not]
      rintro j hj ⟨ha, -⟩
      omega
    rw [h0]
    by_cases hc : (x.st a).current = t
    · exact Or.inl ⟨hc, Or.inl rfl⟩
    · exact Or.inr ⟨hc, Or.inl (Nat.zero_le 1)⟩
  | succ b hab ih =>
    intro hb hsil
    have hw := ih (by omega) fun j h₁ h₂ => hsil j h₁ (by omega)
    obtain ⟨hcall, hrev⟩ := hsil b hab (by omega)
    have hinv := run_inv x b (by omega)
    have hmiss := run_miss_le x b (by omega)
    have hm := step_move (x.step_st b hb)
    have hrunning := hinv.wf.running t
    rw [tickCount_succ hab]
    by_cases hc : (x.st b).current = t
    · subst hc
      have hrun : ((x.st b).tasks (x.st b).current).state = .running := hrunning.mpr rfl
      cases htr : (x.ev b).trap with
      | ecall => exact absurd ⟨htr, rfl⟩ hcall
      | timer =>
        rw [htr] at hm
        rw [if_pos ⟨htr, hrun⟩]
        exact Window.tick (c := entry x b) hm (hinv.enter _) hmiss hw
      | fault reason =>
        rw [htr] at hm
        have hnot : ¬ TickOf x (x.st b).current b := by
          rintro ⟨htick, -⟩
          rw [htr] at htick
          cases htick
        rw [if_neg hnot]
        exact Window.contained (c := entry x b) hm (hinv.enter _) hmiss hw
    · have hnot : ¬ TickOf x t b := by
        rintro ⟨-, hr⟩
        exact hc (Option.some.inj (hrunning.mp hr))
      rw [if_neg hnot]
      exact Window.other (c := entry x b) hm (hinv.enter _) hc hrev hw

theorem run_detectionBounded (x : Run img) : DetectionBounded x := by
  intro t a b hab hb hsil
  have hw := run_window x b hab hb hsil
  have hmiss := run_miss_le x b hb
  simp only [watchdogWindow] at hmiss
  rcases hw with ⟨-, hn | ⟨-, hn⟩⟩ | ⟨-, hn | ⟨hd, hn⟩⟩
  · exact ⟨by omega, fun _ => by omega⟩
  · exact ⟨by omega, fun _ => by omega⟩
  · exact ⟨by omega, fun _ => by omega⟩
  · exact ⟨hn, fun halive => absurd hd halive⟩

/-- The watchdog is sound and detects a silent task within six of its ticks. -/
theorem run_watchdog (x : Run img) : WatchdogSound x ∧ DetectionBounded x :=
  ⟨run_watchdogSound x, run_detectionBounded x⟩

end AxiomRT.Dispatch
