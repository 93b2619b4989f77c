import AxiomRT.Dispatch.Interrupts
import AxiomRT.Dispatch.Proofs.UserWriteProofs

/-!
# Proofs: device events

What a step does to a route is said once. From it: events go to the registered receiver, none is
stuck, none is delivered more often than raised, and none outlives its receiver as long as no
receiver leaves or comes with an event pending.
-/

namespace AxiomRT.Dispatch

open Lib

variable {img : Image} {table : List ServiceDef} {c c' : Core} {dev : DevId}

/-! ## Routes -/

namespace Core

section

variable (c : Core)

@[simp] theorem countMiss_routes : c.countMiss.routes = c.routes := rfl
@[simp] theorem irqRouteSet_routes (d : DevId) (r : IrqRoute) :
    (c.irqRouteSet d r).routes = Function.update c.routes d r := rfl
@[simp] theorem setState_routes (t : Slot) (s : RtState) : (c.setState t s).routes = c.routes := rfl
@[simp] theorem saveAs_routes (s : RtState) : (c.saveAs s).routes = c.routes := rfl
@[simp] theorem wake_routes (e : EpId) (t : Slot) (f : Tcb → Tcb) :
    (c.wake e t f).routes = c.routes := rfl
@[simp] theorem park_routes (e : EpId) (w : Ep) : (c.park e w).routes = c.routes := rfl
@[simp] theorem rearm_routes (slot : Slot) (f : TrapFrame) :
    (c.rearm slot f).routes = c.routes := rfl
@[simp] theorem kill_routes (slot : Slot) : (c.kill slot).routes = (c.irqDrop slot).routes := rfl

@[simp] theorem resume_routes (next : Slot) : (c.resume next).routes = c.routes := by
  unfold resume
  cases (c.tasks next).pendingIpc with
  | none => rfl
  | some pm => rfl

@[simp] theorem notify_routes (e : EpId) (code : UInt8) : (c.notify e code).routes = c.routes := by
  unfold notify
  cases c.endpoints e with
  | idle => rfl
  | senderWaiting tid len => rfl
  | receiverWaiting tid dst cap =>
    dsimp only
    split_ifs <;> rfl

@[simp] theorem fault_routes : c.fault.routes = (c.irqDrop c.current).routes := by
  unfold fault
  rw [notify_routes, notify_routes]
  rfl

end

/-- Dropping the events of `slot` changes a route only if it holds one of them. -/
theorem irqDrop_cases (c : Core) (slot : Slot) (dev : DevId) :
    (c.irqDrop slot).routes dev = c.routes dev ∨
      (c.routes dev = ⟨slot.val, true⟩ ∧ (c.irqDrop slot).routes dev = ⟨slot.val, false⟩) := by
  unfold irqDrop
  dsimp only
  split_ifs with h
  · refine Or.inr ⟨?_, ?_⟩
    · rw [← h.1, ← h.2]
    · rw [h.1]
  · exact Or.inl rfl

theorem irqDrop_awaitsNone (c : Core) (slot : Slot) : (c.irqDrop slot).AwaitsNone slot := by
  intro dev hr
  unfold irqDrop at hr ⊢
  dsimp only at hr ⊢
  split_ifs at hr ⊢ with h
  · rfl
  · rw [not_and] at h
    exact Bool.not_eq_true _ ▸ h hr

theorem irqPendingFor_eq_some {c : Core} {ep : Nat} {cur : Slot} {dev : DevId}
    (h : c.irqPendingFor ep cur = some dev) :
    (devices dev).irqEndpoint.val = ep ∧ c.routes dev = ⟨cur.val, true⟩ := by
  unfold irqPendingFor at h
  have hp := List.find?_some h
  simp only [Bool.and_eq_true, beq_iff_eq] at hp
  refine ⟨hp.1.1, ?_⟩
  rw [← hp.2, ← hp.1.2]

theorem irqLiveReceiver_eq_some {c : Core} {dev : DevId} {r : Slot}
    (h : c.irqLiveReceiver dev = some r) :
    (c.routes dev).receiver = r.val ∧ (c.tasks r).state ≠ .empty ∧ ¬ (c.tasks r).state.Dead := by
  unfold irqLiveReceiver at h
  split_ifs at h with hlt
  dsimp only at h
  split at h <;> cases h <;> rename_i hs <;> refine ⟨rfl, ?_, ?_⟩ <;>
    simp [hs, RtState.Dead]

end Core

/-- What a move does to the route of `dev`. -/
inductive RouteStep (table : List ServiceDef) (c : Core) (tr : Trap) (c' : Core) (dev : DevId) :
    Prop where
  | same (h : c'.routes dev = c.routes dev)
  | held {r : Slot} (raise : Raises c tr dev) (live : c.irqLiveReceiver dev = some r)
      (free : ∀ tid dst cap, c.endpoints (devices dev).irqEndpoint ≠ .receiverWaiting tid dst cap)
      (h : c'.routes dev = ⟨(c.routes dev).receiver, true⟩)
  | refused (raise : Raises c tr dev) (h : c'.routes dev = ⟨(c.routes dev).receiver, false⟩)
  | taken (trap : tr = .ecall) (sys : c.frame.sys = some .recv)
      (mine : c.routes dev = ⟨c.current.val, true⟩) (h : c'.routes dev = ⟨c.current.val, false⟩)
  | dropped {u : Slot} (dies : Dies c tr u) (mine : c.routes dev = ⟨u.val, true⟩)
      (h : c'.routes dev = ⟨u.val, false⟩)
  | granted {u : Slot} {d : ServiceDef} (fills : Fills table c tr u)
      (entry : table[c.frame.arg 0]? = some d) (grant : d.caps.receivesIrq dev = true)
      (h : c'.routes dev = ⟨u.val, (c.routes dev).pending⟩)

theorem RouteStep.of_drop {tr : Trap} {u : Slot} (dies : Dies c tr u)
    (h : c'.routes = (c.irqDrop u).routes) : RouteStep table c tr c' dev := by
  rcases c.irqDrop_cases u dev with hsame | ⟨hmine, hdrop⟩
  · exact .same ((congrFun h dev).trans hsame)
  · exact .dropped dies hmine ((congrFun h dev).trans hdrop)

theorem Move.routeStep {tr : Trap} (hm : Move img table c tr c') (dev : DevId) :
    RouteStep table c tr c' dev := by
  cases hm with
  | ret tasks current endpoints kmsg routes => exact .same (congrFun routes dev)
  | sendBusy req ep => exact .same (by simp)
  | sendDeliver req ep fits => exact .same (by simp)
  | sendTooBig req ep small => exact .same (by simp)
  | sendPark req ep sel => exact .same (by simp)
  | @recvIrq e dst cap dev₀ req irq fits =>
    by_cases hdev : dev = dev₀
    · subst hdev
      exact .taken rfl req.sys (Core.irqPendingFor_eq_some irq).2 (by simp)
    · exact .same (by simp [hdev])
  | recvTake req irq ep fits => exact .same (by simp)
  | recvPark req irq ep fits sel => exact .same (by simp)
  | yield sys sel => exact .same (by simp)
  | exit sys sel => exact .same (by simp)
  | @spawn slot b d routes sys ctl entry vacant fresh granted =>
    by_cases hgrant : d.caps.receivesIrq dev = true
    · refine .granted ⟨rfl, ctl, sys, ⟨d, entry⟩, vacant⟩ entry.1 hgrant ?_
      simp [granted, hgrant]
    · refine .same ?_
      simp [granted, hgrant]
  | rearm sys ctl entry dead => exact .same (by simp)
  | restart sys ctl names other used started => exact .same (by simp)
  | @kill slot sys ctl names other used =>
    have hdies : Dies c .ecall slot := Or.inr ⟨⟨rfl, sys, ctl, names⟩, used⟩
    exact .of_drop hdies (by simp; rfl)
  | killSelf sys ctl names used sel =>
    have hdies : Dies c .ecall c.current := Or.inr ⟨⟨rfl, sys, ctl, names⟩, used⟩
    exact .of_drop hdies (by simp; rfl)
  | @irqDead dev₀ sys ctl dead =>
    by_cases hdev : dev = dev₀
    · subst hdev
      exact .refused ⟨rfl, sys, ctl⟩ (by simp)
    · exact .same (by simp [hdev])
  | irqDeliver sys ctl live ep fits => exact .same (by simp)
  | @irqHold dev₀ r sys ctl live ep =>
    by_cases hdev : dev = dev₀
    · subst hdev
      exact .held ⟨rfl, sys, ctl⟩ live ep (by simp)
    · exact .same (by simp [hdev])
  | tick fine top => exact .same (by simp)
  | preempt fine sel other outranked => exact .same (by simp)
  | watchdog exp sel =>
    have hdies : Dies c .timer c.current := Or.inl ⟨rfl, Or.inr (Or.inl ⟨rfl, exp⟩)⟩
    exact .of_drop hdies (by simp; rfl)
  | @fault next reason sel =>
    have hdies : Dies c (.fault reason) c.current := Or.inl ⟨rfl, Or.inr (Or.inr ⟨reason, rfl⟩)⟩
    exact .of_drop hdies (by simp)

/-! ## Lives -/

theorem Dies.sys {u : Slot} (h : Dies c .ecall u) :
    c.frame.sys = some .exit ∨ c.frame.sys = some .taskKill := by
  rcases h with ⟨-, ⟨-, h⟩ | ⟨h, -⟩ | ⟨_, h⟩⟩ | ⟨⟨-, h, -⟩, -⟩
  · exact Or.inl h
  · cases h
  · cases h
  · exact Or.inr h

theorem Dies.expired {u : Slot} (h : Dies c .timer u) : c.expired := by
  rcases h with ⟨-, ⟨h, -⟩ | ⟨-, h⟩ | ⟨_, h⟩⟩ | ⟨⟨h, -⟩, -⟩
  · cases h
  · exact h
  · cases h
  · cases h

/-- The calls with which lives begin and end. -/
theorem life_sys {u : Slot} (h : Begins table c .ecall u ∨ Dies c .ecall u) :
    (c.frame.sys = some .exit ∨ c.frame.sys = some .taskKill) ∨
      (c.frame.sys = some .taskStart ∨ c.frame.sys = some .taskRestart) := by
  rcases h with h | h
  · exact Or.inr h.sys
  · exact Or.inl h.sys

theorem Dies.exits {u : Slot} (h : Dies c .ecall u) (hs : c.frame.sys = some .exit) :
    u = c.current := by
  rcases h with ⟨hu, -⟩ | ⟨⟨-, hk, -⟩, -⟩
  · exact hu
  · rw [hs] at hk
    cases hk

theorem Dies.killed {u : Slot} (h : Dies c .ecall u) (hs : c.frame.sys = some .taskKill) :
    c.Names u := by
  rcases h with ⟨-, ⟨-, he⟩ | ⟨ht, -⟩ | ⟨_, ht⟩⟩ | ⟨⟨-, -, -, hn⟩, -⟩
  · rw [hs] at he
    cases he
  · cases ht
  · cases ht
  · exact hn

theorem Dies.faulted {tr : Trap} {u : Slot} (h : Dies c tr u) (htr : tr ≠ .ecall) :
    u = c.current := by
  rcases h with ⟨hu, -⟩ | ⟨⟨ht, -⟩, -⟩
  · exact hu
  · exact absurd ht htr

/-- What a move with which a life of `u` begins or ends does to the routes. -/
inductive LifeStep (table : List ServiceDef) (c : Core) (tr : Trap) (c' : Core) (u : Slot) :
    Prop where
  | drops (h : c'.AwaitsNone u)
  | exits (trap : tr = .ecall) (sys : c.frame.sys = some .exit) (self : u = c.current)
      (routes : c'.routes = c.routes)
  | renews (h : Renews table c tr u) (routes : c'.routes = c.routes)
  | fills {d : ServiceDef} (h : Fills table c tr u) (entry : table[c.frame.arg 0]? = some d)
      (routes : ∀ dev, c'.routes dev =
        ⟨if d.caps.receivesIrq dev then u.val else (c.routes dev).receiver,
          (c.routes dev).pending⟩)

theorem Core.AwaitsNone.of_drop {u : Slot} (h : c'.routes = (c.irqDrop u).routes) :
    c'.AwaitsNone u := by
  intro dev hr
  rw [h] at hr ⊢
  exact c.irqDrop_awaitsNone u dev hr

/-- A kill or a fault drops what is pending, the other beginnings and ends keep it. -/
theorem Move.lifeStep {tr : Trap} (hm : Move img table c tr c') {u : Slot}
    (hlife : Begins table c tr u ∨ Dies c tr u) : LifeStep table c tr c' u := by
  cases hm with
  | ret tasks current endpoints kmsg routes satp miss mem ipc plain copies lives =>
    rcases hlife with hb | ⟨-, ⟨-, hs⟩ | ⟨ht, -⟩ | ⟨_, ht⟩⟩ | ⟨hk, hu⟩
    · exact absurd hb (lives.begins u)
    · exact absurd (Or.inr (Or.inl hs)) plain
    · cases ht
    · cases ht
    · exact absurd (lives.kills u hk) hu
  | sendBusy req ep => exact absurd (life_sys hlife) (by simp [req.sys])
  | sendDeliver req ep fits => exact absurd (life_sys hlife) (by simp [req.sys])
  | sendTooBig req ep small => exact absurd (life_sys hlife) (by simp [req.sys])
  | sendPark req ep sel => exact absurd (life_sys hlife) (by simp [req.sys])
  | recvIrq req irq fits => exact absurd (life_sys hlife) (by simp [req.sys])
  | recvTake req irq ep fits => exact absurd (life_sys hlife) (by simp [req.sys])
  | recvPark req irq ep fits sel => exact absurd (life_sys hlife) (by simp [req.sys])
  | yield sys sel => exact absurd (life_sys hlife) (by simp [sys])
  | exit sys sel =>
    rcases hlife with hb | hd
    · exact absurd hb.sys (by simp [sys])
    · exact .exits rfl sys (hd.exits sys) (by simp)
  | @spawn slot b d routes sys ctl entry vacant fresh granted =>
    rcases hlife with hb | hd
    · obtain rfl := hb.named_start sys entry
      exact .fills ⟨rfl, ctl, sys, ⟨d, entry⟩, vacant⟩ entry.1 granted
    · exact absurd hd.sys (by simp [sys])
  | rearm sys ctl entry dead =>
    rcases hlife with hb | hd
    · obtain rfl := hb.named_start sys entry
      exact .renews ⟨rfl, ctl, Or.inl ⟨sys, ⟨_, entry⟩, dead⟩⟩ (by simp)
    · exact absurd hd.sys (by simp [sys])
  | restart sys ctl names other used started =>
    rcases hlife with hb | hd
    · obtain rfl := hb.named_restart sys names
      exact .renews ⟨rfl, ctl, Or.inr ⟨sys, names, other, used, started⟩⟩ (by simp)
    · exact absurd hd.sys (by simp [sys])
  | @kill slot sys ctl names other used =>
    rcases hlife with hb | hd
    · exact absurd hb.sys (by simp [sys])
    · obtain rfl : u = slot := Fin.ext ((hd.killed sys).symm.trans names)
      exact .drops (.of_drop (by simp; rfl))
  | killSelf sys ctl names used sel =>
    rcases hlife with hb | hd
    · exact absurd hb.sys (by simp [sys])
    · obtain rfl : u = c.current := Fin.ext ((hd.killed sys).symm.trans names)
      exact .drops (.of_drop (by simp; rfl))
  | irqDead sys ctl dead => exact absurd (life_sys hlife) (by simp [sys])
  | irqDeliver sys ctl live ep fits => exact absurd (life_sys hlife) (by simp [sys])
  | irqHold sys ctl live ep => exact absurd (life_sys hlife) (by simp [sys])
  | tick fine top =>
    rcases hlife with hb | hd
    · cases hb.trap
    · exact absurd hd.expired fine
  | preempt fine sel other outranked =>
    rcases hlife with hb | hd
    · cases hb.trap
    · exact absurd hd.expired fine
  | watchdog exp sel =>
    rcases hlife with hb | hd
    · cases hb.trap
    · obtain rfl := hd.faulted (by simp)
      exact .drops (.of_drop (by simp; rfl))
  | fault sel =>
    rcases hlife with hb | hd
    · cases hb.trap
    · obtain rfl := hd.faulted (by simp)
      exact .drops (.of_drop ((Core.resume_routes ..).trans c.fault_routes))

/-! ## Receivers -/

/-- The registered receiver of a route is a task. -/
def ReceiversUsed (c : Core) : Prop :=
  ∀ dev (u : Slot), (c.routes dev).receiver = u.val → (c.tasks u).state ≠ .empty

theorem Move.receiversUsed {tr : Trap} (hm : Move img table c tr c') (h : ReceiversUsed c) :
    ReceiversUsed c' := by
  have hkept : ∀ dev (u : Slot), (c.routes dev).receiver = u.val → (c'.tasks u).state ≠ .empty :=
    fun dev u hr => (hm.sameTasks.kept u (h dev u hr)).2
  intro dev u hr
  cases hm.routeStep dev with
  | same hd => exact hkept dev u (by rw [← hr, hd])
  | held raise live free hd => exact hkept dev u (by rw [← hr, hd])
  | refused raise hd => exact hkept dev u (by rw [← hr, hd])
  | taken trap sys mine hd => exact hkept dev u (by rw [← hr, hd, mine])
  | dropped dies mine hd => exact hkept dev u (by rw [← hr, hd, mine])
  | @granted v d fills entry grant hd =>
    rw [hd] at hr
    obtain rfl : v = u := Fin.ext hr
    rw [(hm.begins (Or.inl fills)).1]
    simp

theorem Booted.routes {k : Kernel} (h : Booted img k) (dev : DevId) :
    k.routes dev = ⟨maxTasks, false⟩ := by
  have hkept : k.routes = (initial img).routes :=
    h.keeps (f := fun k => k.routes) (fun k op => by cases op <;> rfl) fun _ => rfl
  rw [hkept]
  rfl

theorem run_receiversUsed (x : Run img) : x.Always fun k => ReceiversUsed k.toCore := by
  refine x.invariant ?_ ?_
  · intro k hk dev u hr
    rw [hk.routes] at hr
    exact absurd hr (Nat.ne_of_gt u.isLt)
  · intro k ev k' h hs
    exact (step_move hs).receiversUsed h

/-! ## Events and lives -/

section Runs

variable {x : Run img}

/-- What is pending was raised. -/
theorem run_heldSince (x : Run img) (dev : DevId) : ∀ m, m ≤ x.len →
    ((x.st m).routes dev).pending = true → ∃ j, HeldSince x dev j m := by
  refine x.induct ?_ ?_
  · intro hp
    rw [x.init_st.routes] at hp
    cases hp
  · intro m hm ih hp
    have hext : ((x.st m).routes dev).pending = true → ∃ j, HeldSince x dev j (m + 1) := by
      intro hpm
      obtain ⟨j, hj⟩ := ih hpm
      refine ⟨j, Nat.lt_succ_of_lt hj.lt, hj.raise, fun i hji him => ?_⟩
      rcases Nat.le_succ_iff.mp him with him | rfl
      · exact hj.pending i hji him
      · exact hp
    cases (run_move x hm).routeStep dev with
    | same hd => exact hext (by rw [← hp, hd]; rfl)
    | held raise live free hd =>
      refine ⟨m, Nat.lt_succ_self m, ⟨hm, raise⟩, fun i hmi him => ?_⟩
      obtain rfl : i = m + 1 := by omega
      exact hp
    | refused raise hd =>
      rw [hd] at hp
      cases hp
    | taken trap sys mine hd =>
      rw [hd] at hp
      cases hp
    | dropped dies mine hd =>
      rw [hd] at hp
      cases hp
    | granted fills entry grant hd => exact hext (by rw [← hp, hd]; rfl)

/-- A life does not begin or end with an event pending. -/
theorem life_awaitsNone (hC : x.EveryStep LeavesNone) {i : ℕ} (hi : i < x.len) {u : Slot}
    (hlife : LifeAt x i u) : (x.st (i + 1)).AwaitsNone u := by
  have hcond := hC i hi
  cases (run_move x hi).lifeStep hlife with
  | drops h => exact h
  | exits trap sys self routes =>
    intro dev hr
    rw [routes] at hr ⊢
    exact hcond.exit trap sys dev (hr.trans (congrArg Fin.val self))
  | renews h routes =>
    intro dev hr
    rw [routes] at hr ⊢
    exact hcond.renew u h dev hr
  | @fills d h entry routes =>
    intro dev hr
    rw [routes] at hr ⊢
    by_cases hgrant : d.caps.receivesIrq dev = true
    · exact hcond.fill u d h entry dev hgrant
    · rw [if_neg hgrant] at hr
      exact absurd h.2.2.2.2 (run_receiversUsed x i hi.le dev u hr)

/-- While an event stays pending, its receiver does not change. -/
theorem receiver_kept (hC : x.EveryStep LeavesNone) {i : ℕ} (hi : i < x.len)
    (hp : ((x.st i).routes dev).pending = true) :
    ((x.st (i + 1)).routes dev).receiver = ((x.st i).routes dev).receiver := by
  cases (run_move x hi).routeStep dev with
  | same hd => rw [hd]; rfl
  | held raise live free hd => rw [hd]; rfl
  | refused raise hd => rw [hd]; rfl
  | taken trap sys mine hd =>
    rw [hd]
    exact (congrArg IrqRoute.receiver mine).symm
  | dropped dies mine hd =>
    rw [hd]
    exact (congrArg IrqRoute.receiver mine).symm
  | granted fills entry grant hd =>
    have hnone := (hC i hi).fill _ _ fills entry dev grant
    rw [hnone] at hp
    cases hp

/-- What is pending for a task was raised after every beginning and end of a life of that task. -/
theorem heldSince_fresh (hC : x.EveryStep LeavesNone) {m : ℕ} (hm : m ≤ x.len) {u : Slot}
    (hroute : (x.st m).routes dev = ⟨u.val, true⟩) {j : ℕ} (hj : HeldSince x dev j m) {i : ℕ}
    (hi : i < m) (hlife : LifeAt x i u) : i < j := by
  by_contra hji
  have hji : j ≤ i := Nat.le_of_not_lt hji
  -- the receiver is the same in every state from after step `i` on
  have hsame : ∀ n, i + 1 ≤ n → n ≤ m →
      ((x.st n).routes dev).receiver = ((x.st (i + 1)).routes dev).receiver := by
    intro n hn
    induction n, hn using Nat.le_induction with
    | base =>
      intro _
      rfl
    | succ n hn ih =>
      intro hnm
      rw [receiver_kept hC (by omega) (hj.pending n (by omega) (by omega))]
      exact ih (by omega)
  have hreceiver : ((x.st (i + 1)).routes dev).receiver = u.val := by
    rw [← hsame m hi (Nat.le_refl m), hroute]
  have hnone := life_awaitsNone hC (Nat.lt_of_lt_of_le hi hm) hlife dev hreceiver
  rw [hj.pending (i + 1) (by omega) hi] at hnone
  cases hnone

theorem RaisesAt.not_life {m : ℕ} (h : RaisesAt x m dev) (u : Slot) : ¬ LifeAt x m u := by
  obtain ⟨-, htr, hsys, -⟩ := h
  intro hlife
  unfold LifeAt BeginsAt at hlife
  rw [htr] at hlife
  exact absurd (life_sys hlife) (by simp [hsys])

theorem TakesAt.not_life {m : ℕ} {u : Slot} (h : TakesAt x m dev u) (v : Slot) :
    ¬ LifeAt x m v := by
  intro hlife
  unfold LifeAt BeginsAt at hlife
  rw [h.call.trap] at hlife
  exact absurd (life_sys hlife) (by simp [h.call.sys])

/-- Only the registered receiver takes a pending event. -/
theorem TakesAt.route {m : ℕ} {u : Slot} (h : TakesAt x m dev u) :
    (x.st m).routes dev = ⟨u.val, true⟩ := by
  have hp := h.before
  have hp' := h.taken
  have hsys := h.call.sys
  cases (run_move x h.call.lt).routeStep dev with
  | same hd =>
    rw [hd] at hp'
    exact Bool.noConfusion (hp.symm.trans hp')
  | held raise live free hd =>
    rw [hd] at hp'
    cases hp'
  | refused raise hd =>
    rw [raise.2.1] at hsys
    cases hsys
  | taken trap sys mine hd =>
    rw [← h.call.caller]
    exact mine
  | dropped dies mine hd => exact absurd (Or.inr dies) (h.not_life _)
  | granted fills entry grant hd =>
    rw [hd] at hp'
    exact Bool.noConfusion (hp.symm.trans hp')

/-- In every run in which no task exits, starts over or comes with an event pending, no event
survives its receiver. -/
theorem run_eventsFresh (x : Run img) (hC : x.EveryStep LeavesNone) : EventsFresh x := by
  refine ⟨?_, ?_⟩
  · intro m hm dev u hroute
    refine ⟨run_heldSince x dev m hm (by rw [hroute]), ?_⟩
    intro j hj i hi hlife
    exact heldSince_fresh hC hm hroute hj hi hlife
  · rintro m dev u j (⟨hs, rfl⟩ | ⟨ht, hj⟩) i hi hlife
    · rcases Nat.lt_or_eq_of_le hi with hlt | rfl
      · exact hlt
      · exact absurd hlife (hs.raise.not_life u)
    · rcases Nat.lt_or_eq_of_le hi with hlt | rfl
      · exact heldSince_fresh hC ht.call.lt.le ht.route hj hlt hlife
      · exact absurd hlife (ht.not_life u)

end Runs

theorem LeavesNone.of_none {k : Kernel} {ev : Event} (h : ∀ dev, (k.routes dev).pending = false) :
    LeavesNone k ev :=
  ⟨fun _ _ dev _ => h dev, fun _ _ dev _ => h dev, fun _ _ _ _ dev _ => h dev⟩

theorem LeavesNone.of_sys {k : Kernel} {ev : Event}
    (h : (k.toCore.enter ev).frame.sys = some .yield ∨
      (k.toCore.enter ev).frame.sys = some .recv) : LeavesNone k ev := by
  refine ⟨fun _ hs => ?_, fun t hr => ?_, fun t d hf => ?_⟩
  · exact absurd h (by simp [hs])
  · rcases (show Begins _ _ _ t from Or.inr hr).sys with hs | hs <;> exact absurd h (by simp [hs])
  · exact absurd h (by simp [hf.2.2.1])

/-- The driver manager raises an event of the block device while its driver is busy, and the driver
takes it. -/
def heldEvent : List Event :=
  [sampleCall 8 11 0 0 0, sampleCall 8 12 0 0 0, sampleCall 2 0 0 0 0, sampleCall 20 4 0 0 0,
    sampleCall 1 0 0 0 0, sampleCall 4 2 0x200000 16 0]

theorem survives_heldEvent : survives heldEvent = true := rfl

theorem heldEvent_eventsFresh :
    (sampleState heldEvent 5).routes 0 = ⟨13, true⟩ ∧
      EventsFresh (sampleRun heldEvent survives_heldEvent) := by
  have hsteps : ∀ i < 6, (∀ dev, ((sampleState heldEvent i).routes dev).pending = false) ∨
      (((sampleState heldEvent i).toCore.enter (heldEvent.getD i sampleTick)).frame.sys =
          some .yield ∨
        ((sampleState heldEvent i).toCore.enter (heldEvent.getD i sampleTick)).frame.sys =
          some .recv) := by
    decide
  refine ⟨rfl, run_eventsFresh _ ?_⟩
  intro i hi
  rcases hsteps i hi with h | h
  · exact .of_none h
  · exact .of_sys h

/-- The driver manager raises an event of the block device while its driver is busy, and restarts
the driver. -/
def staleEvent : List Event :=
  [sampleCall 8 11 0 0 0, sampleCall 8 12 0 0 0, sampleCall 2 0 0 0 0, sampleCall 20 4 0 0 0,
    sampleCall 13 13 0 0 0, sampleCall 1 0 0 0 0, sampleCall 4 2 0x200000 16 0]

theorem survives_staleEvent : survives staleEvent = true := rfl

/-- The restarted driver takes the event that was raised in its previous life. -/
theorem staleEvent_delivered : ¬ ∀ x : Run sampleImage, EventsFresh x := by
  intro h
  have hraise : RaisesAt (sampleRun staleEvent survives_staleEvent) 3 0 :=
    ⟨by decide, rfl, rfl, rfl⟩
  have hheld : HeldSince (sampleRun staleEvent survives_staleEvent) 0 3 6 := by
    have hpending : ∀ i < 7, 3 < i → ((sampleState staleEvent i).routes 0).pending = true := by
      decide
    exact ⟨by decide, hraise, fun i hlt hle => hpending i (Nat.lt_succ_of_le hle) hlt⟩
  have htakes : TakesAt (sampleRun staleEvent survives_staleEvent) 6 0 13 :=
    ⟨⟨by decide, rfl, rfl, rfl⟩, rfl, rfl⟩
  have hlife : LifeAt (sampleRun staleEvent survives_staleEvent) 4 13 :=
    Or.inl (Or.inr ⟨rfl, rfl, Or.inr ⟨rfl, rfl, by decide, by decide, by decide⟩⟩)
  have := (h _).delivered 6 0 13 3 (Or.inr ⟨htakes, hheld⟩) 4 (by decide) hlife
  omega

/-! ## The policy -/

theorem IrqRaiseOutcome.code_injective {o o' : IrqRaiseOutcome} (h : o.code = o'.code) :
    o = o' := by
  cases o <;> cases o' <;> first | rfl | exact absurd h (by decide)

/-- The result codes of the outcomes are different. -/
theorem irqRefines_iff {k : Kernel} :
    IrqRefines k dev ↔ (k.irqRaise dev).2 = (k.irqPolicy dev).code := by
  unfold IrqRefines
  constructor
  · intro h
    exact (h _).mpr rfl
  · intro h o
    rw [h]
    exact ⟨IrqRaiseOutcome.code_injective, congrArg _⟩

theorem Core.irqPolicy_of_live {r : Slot} (h : c.irqLiveReceiver dev = some r) :
    c.irqPolicy dev = if c.irqWaiting dev then .delivered else .pending := by
  have hreg : c.irqRegistered dev = true := by
    unfold irqRegistered
    rw [(irqLiveReceiver_eq_some h).1]
    exact decide_eq_true r.isLt
  unfold irqPolicy irqAlive irqRaiseOutcome
  rw [hreg, h]
  rfl

theorem Core.irqPolicy_of_dead (h : c.irqLiveReceiver dev = none) : c.irqPolicy dev = .dropped := by
  unfold irqPolicy irqAlive irqRaiseOutcome
  rw [h]
  simp

/-- A raise refines the policy unless the receiver is alive and a task waits on the route's endpoint
that is not the receiver or has no room. -/
theorem irqRefines_iff_waiterFits {k : Kernel} (h : Inv k.toCore) :
    IrqRefines k dev ↔ k.IrqWaiterFits dev := by
  rw [irqRefines_iff]
  unfold Kernel.irqRaise Core.IrqWaiterFits Core.irqAlive
  cases hlive : k.irqLiveReceiver dev with
  | none =>
    rw [Core.irqPolicy_of_dead hlive]
    simp [IrqRaiseOutcome.code]
  | some r =>
    obtain ⟨hr, -⟩ := Core.irqLiveReceiver_eq_some hlive
    rw [Core.irqPolicy_of_live hlive]
    unfold Core.irqWaiting
    cases hep : k.endpoints (devices dev).irqEndpoint with
    | idle => simp [hep, IrqRaiseOutcome.code]
    | senderWaiting tid len => simp [hep, IrqRaiseOutcome.code]
    | receiverWaiting tid dst cap =>
      have hbuf := h.wf.receiver_buf _ _ _ _ hep
      simp only [hep, hr, Option.isSome_some, true_implies]
      by_cases hfits : tid = r ∧ 1 ≤ cap ∧ validUserBuf dst 1 = true
      · rw [if_pos hfits]
        simp [hfits.1, hfits.2.1, IrqRaiseOutcome.code]
      · rw [if_neg hfits]
        constructor
        · intro hcode
          have hcode : IrqRaiseOutcome.dropped.code = _ := hcode
          have := IrqRaiseOutcome.code_injective hcode
          split_ifs at this
        · intro hwait
          obtain ⟨htid, hcap⟩ := hwait tid dst cap rfl
          exact absurd ⟨Fin.ext htid, hcap, validUserBuf_mono hbuf hcap⟩ hfits

/-- In every reachable state, raising an event refines the policy exactly if whoever waits on the
route's endpoint of a living receiver is that receiver, with room for the event. -/
theorem run_irqRefines (x : Run img) {i : ℕ} (hi : i ≤ x.len) (dev : DevId) :
    IrqRefines (x.st i) dev ↔ (x.st i).IrqWaiterFits dev :=
  irqRefines_iff_waiterFits (run_inv x i hi)

theorem heldEvent_irqRefines : IrqRefines (sampleState heldEvent 3) 0 ∧
    (sampleState heldEvent 3).irqPolicy 0 = .pending := by
  have hfits : (sampleState heldEvent 3).IrqWaiterFits 0 := by
    intro _ tid dst cap hep
    cases hep
  exact ⟨(run_irqRefines (sampleRun heldEvent survives_heldEvent) (by decide) 0).mpr hfits, rfl⟩

/-- The block driver waits for an event with a buffer of capacity 0 when the driver manager raises
one. -/
def roomlessDriver : List Event :=
  [sampleCall 8 11 0 0 0, sampleCall 8 12 0 0 0, sampleCall 2 0 0 0 0, sampleCall 1 0 0 0 0,
    sampleCall 4 2 0x200000 0 0]

theorem survives_roomlessDriver : survives roomlessDriver = true := rfl

/-- The driver is alive and waiting, and the manager is told that it is dead. -/
theorem roomlessDriver_reportedDead :
    ¬ ∀ (x : Run sampleImage) (i : ℕ), i ≤ x.len → ∀ dev, IrqRefines (x.st i) dev := by
  intro h
  have hpolicy : (sampleState roomlessDriver 5).irqPolicy 0 = .delivered := rfl
  have hcode : ((sampleState roomlessDriver 5).irqRaise 0).2 = errNoSlot := rfl
  have hrefines : IrqRefines (sampleState roomlessDriver 5) 0 :=
    h (sampleRun roomlessDriver survives_roomlessDriver) 5 (Nat.le_refl 5) 0
  have hdropped := (hrefines .dropped).mp hcode
  rw [hpolicy] at hdropped
  cases hdropped

/-! ## Authority and bounds -/

/-- The task for which a raise stages the event is the registered receiver, and nothing becomes
pending. -/
theorem Move.staged {tr : Trap} (hm : Move img table c tr c') (hraise : Raises c tr dev) {u : Slot}
    (hchange : (c'.tasks u).pendingIpc ≠ (c.tasks u).pendingIpc) :
    (c.routes dev).receiver = u.val ∧ c'.routes dev = c.routes dev := by
  obtain ⟨htr, hsys, hctl⟩ := hraise
  cases hm with
  | ret tasks => exact absurd (by rw [tasks]) hchange
  | sendBusy req ep => exact absurd hsys (by simp [req.sys])
  | sendDeliver req ep fits => exact absurd hsys (by simp [req.sys])
  | sendTooBig req ep small => exact absurd hsys (by simp [req.sys])
  | sendPark req ep sel => exact absurd hsys (by simp [req.sys])
  | recvIrq req irq fits => exact absurd hsys (by simp [req.sys])
  | recvTake req irq ep fits => exact absurd hsys (by simp [req.sys])
  | recvPark req irq ep fits sel => exact absurd hsys (by simp [req.sys])
  | yield sys sel => exact absurd hsys (by simp [sys])
  | exit sys sel => exact absurd hsys (by simp [sys])
  | spawn sys ctl entry vacant fresh => exact absurd hsys (by simp [sys])
  | rearm sys ctl entry dead => exact absurd hsys (by simp [sys])
  | restart sys ctl names other used started => exact absurd hsys (by simp [sys])
  | kill sys ctl names other used => exact absurd hsys (by simp [sys])
  | killSelf sys ctl names used sel => exact absurd hsys (by simp [sys])
  | irqDead sys ctl dead => exact absurd (by simp) hchange
  | @irqDeliver dev₀ tid dst cap sys ctl live ep fits =>
    rw [hctl] at ctl
    obtain rfl : dev = dev₀ := Fin.ext (CapCheck.ok.inj ctl)
    refine ⟨?_, by simp⟩
    by_cases hu : u = tid
    · rw [hu]
      exact (Core.irqLiveReceiver_eq_some live).1
    · exact absurd (by simp [hu]) hchange
  | irqHold sys ctl live ep => exact absurd (by simp) hchange
  | tick fine top => cases htr
  | preempt fine sel other outranked => cases htr
  | watchdog exp sel => cases htr
  | fault sel => cases htr

/-- A receive after which an event is no longer pending has copied it. -/
theorem Move.taken (hm : Move img table c .ecall c') (hsys : c.frame.sys = some .recv)
    (hp : (c.routes dev).pending = true) (hp' : (c'.routes dev).pending = false) :
    c'.current = c.current ∧ c'.readUser (c.frame.arg 1) = irqEventCode := by
  have hsame : c'.routes = c.routes → False := by
    intro hroutes
    rw [hroutes, hp] at hp'
    cases hp'
  cases hm with
  | ret tasks current endpoints kmsg routes => exact (hsame routes).elim
  | sendBusy req ep => exact (hsame (by simp)).elim
  | sendDeliver req ep fits => exact (hsame (by simp)).elim
  | sendTooBig req ep small => exact (hsame (by simp)).elim
  | sendPark req ep sel => exact (hsame (by simp)).elim
  | @recvIrq e dst cap dev₀ req irq fits =>
    refine ⟨by simp, ?_⟩
    rw [req.dst_eq]
    simp [Core.readUser]
  | recvTake req irq ep fits => exact (hsame (by simp)).elim
  | recvPark req irq ep fits sel => exact (hsame (by simp)).elim
  | yield sys sel => exact (hsame (by simp)).elim
  | exit sys sel => exact (hsame (by simp)).elim
  | spawn sys ctl entry vacant fresh => exact absurd hsys (by simp [sys])
  | rearm sys ctl entry dead => exact (hsame (by simp)).elim
  | restart sys ctl names other used started => exact (hsame (by simp)).elim
  | kill sys ctl names other used => exact absurd hsys (by simp [sys])
  | killSelf sys ctl names used sel => exact absurd hsys (by simp [sys])
  | irqDead sys ctl dead => exact absurd hsys (by simp [sys])
  | irqDeliver sys ctl live ep fits => exact absurd hsys (by simp [sys])
  | irqHold sys ctl live ep => exact absurd hsys (by simp [sys])

end AxiomRT.Dispatch
