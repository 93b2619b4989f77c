import AxiomRT.Fault.Containment

/-!
# A faulted thread does not execute again unless it is resumed

A fault moves a thread out of `ready`, `running` and `blocked`; from there only the transition from
`suspended` to `ready` leads back. The transition relation has it whether or not the suspended
thread was faulted before, so that a run may bring a faulted thread back to execution.
-/

namespace AxiomRT.Fault

open Threads (Thread ThreadId ThreadState isLegalTransition)
open Sched (FixedPriorityScheduler)
open Lib (Execution)

/-! ## One thread -/

/-- The states in which a thread does not compete for the processor. -/
def Stopped (state : ThreadState) : Prop :=
  state = .faulted ∨ state = .killed ∨ state = .suspended

theorem Stopped.not_ready {state : ThreadState} (h : Stopped state) : state ≠ .ready := by
  rcases h with rfl | rfl | rfl <;> decide

theorem Stopped.not_running {state : ThreadState} (h : Stopped state) : state ≠ .running := by
  rcases h with rfl | rfl | rfl <;> decide

/-- Resuming is the only way out of the stopped states. -/
theorem Stopped.of_legal {state target : ThreadState} (h : Stopped state)
    (hlegal : isLegalTransition state target = true)
    (hresume : ¬ (state = .suspended ∧ target = .ready)) : Stopped target := by
  rcases h with rfl | rfl | rfl
  · cases target <;> first | exact absurd hlegal (by decide) | simp [Stopped]
  · cases target <;> exact absurd hlegal (by decide)
  · cases target with
    | ready => exact absurd ⟨rfl, rfl⟩ hresume
    | killed => exact .inr (.inl rfl)
    | running => exact absurd hlegal (by decide)
    | blocked => exact absurd hlegal (by decide)
    | faulted => exact absurd hlegal (by decide)
    | suspended => exact absurd hlegal (by decide)

theorem transition_ok {thread thread' : Thread} {target : ThreadState}
    (h : thread.transition target = .ok thread') :
    isLegalTransition thread.state target = true ∧ thread' = { thread with state := target } := by
  rw [Thread.transition] at h
  by_cases hlegal : isLegalTransition thread.state target = true
  · rw [if_pos hlegal] at h
    exact ⟨hlegal, (Except.ok.inj h).symm⟩
  · rw [if_neg hlegal] at h
    cases h

/-- What the handler does to the thread of a user fault: nothing, or a legal move to `faulted`. -/
theorem handle_user (eventId : UInt64) (faultType : FaultType) (thread : Thread)
    (pc detail : UInt64) :
    ∃ thread', (handle eventId faultType (.user thread) pc detail).2 = .user thread' ∧
      (thread' = thread ∨ thread.transition .faulted = .ok thread') := by
  rw [handle]
  by_cases hinvariant : faultType = .kernelInvariantViolation
  · rw [if_pos hinvariant]
    exact ⟨thread, rfl, .inl rfl⟩
  · rw [if_neg hinvariant]
    cases htransition : thread.transition .faulted with
    | ok thread' => exact ⟨thread', rfl, .inr rfl⟩
    | error e => exact ⟨thread, rfl, .inl rfl⟩

namespace System

/-! ## One step -/

theorem stateOf_set (s : System) (thread : Thread) (tid : ThreadId) :
    (s.set thread).stateOf tid = if tid = thread.id then some thread.state else s.stateOf tid := by
  by_cases htid : tid = thread.id
  · rw [if_pos htid, htid]
    simp [stateOf, set]
  · rw [if_neg htid]
    simp [stateOf, set, Function.update_of_ne htid]

theorem set_self {s : System} {tid : ThreadId} {thread : Thread}
    (h : s.threads tid = some thread) : s.set thread = s := by
  obtain rfl := s.id_eq h
  cases s with
  | mk threads scheduler id_eq =>
    have hupdate : Function.update threads thread.id (some thread) = threads :=
      Function.update_eq_self_iff.2 h.symm
    simp only [set, hupdate]

/-- A thread moves by legal transitions only, and where it moves to is either what a call asked
for or `faulted`. -/
inductive Moves (s : System) (action : Action) (tid : ThreadId) (state : ThreadState) :
    ThreadState → Prop
  | stays : Moves s action tid state state
  | asked {target : ThreadState} (hlegal : isLegalTransition state target = true)
      (haction : action = .transition tid target) : Moves s action tid state target
  | faults (hlegal : isLegalTransition state .faulted = true) : Moves s action tid state .faulted

/-- A thread that was stored after a legal transition. -/
theorem stateOf_transition {s : System} {owner tid : ThreadId} {thread thread' : Thread}
    {target state : ThreadState} (howner : s.threads owner = some thread)
    (h : thread.transition target = .ok thread') (hstate : s.stateOf tid = some state) :
    (s.set thread').stateOf tid = some state ∨
      (tid = owner ∧ isLegalTransition state target = true ∧
        (s.set thread').stateOf tid = some target) := by
  obtain ⟨hlegal, rfl⟩ := transition_ok h
  have hid : thread.id = owner := s.id_eq howner
  rw [stateOf_set]
  by_cases htid : tid = thread.id
  · have hthread : s.stateOf tid = some thread.state := by
      rw [htid, hid, stateOf, howner]
      rfl
    rw [hthread] at hstate
    obtain rfl := Option.some.inj hstate
    exact .inr ⟨htid.trans hid, hlegal, if_pos htid⟩
  · rw [if_neg htid]
    exact .inl hstate

/-- What one step can do to one thread. -/
theorem step_moves {s s' : System} {action : Action} {tid : ThreadId} {state : ThreadState}
    (h : s.step action = .ok s') (hstate : s.stateOf tid = some state) :
    ∃ state', s'.stateOf tid = some state' ∧ Moves s action tid state state' := by
  cases action with
  | transition owner target =>
    simp only [step] at h
    cases howner : s.threads owner with
    | none => simp [howner] at h
    | some thread =>
      cases htransition : thread.transition target with
      | error e =>
        simp only [howner, htransition, Except.ok.injEq] at h
        exact ⟨state, h ▸ hstate, .stays⟩
      | ok thread' =>
        simp only [howner, htransition, Except.ok.injEq] at h
        subst h
        rcases stateOf_transition howner htransition hstate with hsame | ⟨rfl, hlegal, hmoved⟩
        · exact ⟨state, hsame, .stays⟩
        · exact ⟨target, hmoved, .asked hlegal rfl⟩
  | handleUser eventId faultType owner pc detail =>
    simp only [step] at h
    cases howner : s.threads owner with
    | none => simp [howner] at h
    | some thread =>
      obtain ⟨thread', hscope, hthread⟩ := handle_user eventId faultType thread pc detail
      simp only [howner, hscope, Except.ok.injEq] at h
      subst h
      rcases hthread with rfl | htransition
      · rw [set_self howner]
        exact ⟨state, hstate, .stays⟩
      · rcases stateOf_transition howner htransition hstate with hsame | ⟨-, hlegal, hmoved⟩
        · exact ⟨state, hsame, .stays⟩
        · exact ⟨.faulted, hmoved, .faults hlegal⟩
  | handleKernel eventId faultType pc detail =>
    cases h
    exact ⟨state, hstate, .stays⟩
  | markReady owner prio =>
    cases h
    exact ⟨state, hstate, .stays⟩
  | markNotReady owner =>
    cases h
    exact ⟨state, hstate, .stays⟩
  | selectNext =>
    cases h
    exact ⟨state, hstate, .stays⟩

/-- The thread is in the table, and stopped. -/
def StoppedIn (s : System) (tid : ThreadId) : Prop :=
  ∃ state, s.stateOf tid = some state ∧ Stopped state

/-- A stopped thread stays stopped, unless the step resumes it. -/
theorem StoppedIn.step {s s' : System} {action : Action} {tid : ThreadId} (h : s.StoppedIn tid)
    (hstep : s.step action = .ok s') (hresume : ¬ s.Resumes action tid) : s'.StoppedIn tid := by
  obtain ⟨state, hstate, hstopped⟩ := h
  obtain ⟨state', hstate', hmoves⟩ := step_moves hstep hstate
  refine ⟨state', hstate', ?_⟩
  cases hmoves with
  | stays => exact hstopped
  | faults => exact .inl rfl
  | asked hlegal haction =>
    refine hstopped.of_legal hlegal ?_
    rintro ⟨rfl, rfl⟩
    exact hresume ⟨hstate, haction⟩

/-- The scheduler only returns threads that satisfy the predicate it was given. -/
theorem selected_ready {s : System} {tid : ThreadId} (h : s.selected = some tid) :
    s.stateOf tid = some .ready := by
  rw [selected, (s.scheduler.selectNext_spec s.isReady).1, Option.map_eq_some_iff] at h
  obtain ⟨entry, hfind, rfl⟩ := h
  have hready := List.find?_some hfind
  exact of_decide_eq_true hready

end System

/-! ## Whole runs -/

section Runs

variable {init : System → Prop} {x : Execution System.step init} {tid : ThreadId}

/-- Once faulted, a thread that is never resumed is stopped. -/
theorem FaultedBy.stoppedIn
    (hresume : ∀ i < x.len, FaultedBy x tid i → ¬ (x.st i).Resumes (x.ev i) tid) :
    ∀ i ≤ x.len, FaultedBy x tid i → (x.st i).StoppedIn tid := by
  refine x.induct ?_ ?_
  · rintro ⟨j, hj, hfaulted⟩
    obtain rfl := Nat.le_zero.1 hj
    exact ⟨.faulted, hfaulted, .inl rfl⟩
  · rintro i hi ih ⟨j, hj, hfaulted⟩
    rcases Nat.lt_or_eq_of_le hj with hlt | rfl
    · have hearlier : FaultedBy x tid i := ⟨j, Nat.le_of_lt_succ hlt, hfaulted⟩
      exact (ih hearlier).step (x.step_st i hi) (hresume i hi hearlier)
    · exact ⟨.faulted, hfaulted, .inl rfl⟩

end Runs

/-- In every run, from any start, that does not resume a thread after it was faulted: the thread is
never selected again, and never running. -/
theorem faulted_neverExecutesAgain {init : System → Prop} (x : Execution System.step init)
    (tid : ThreadId)
    (hresume : ∀ i < x.len, FaultedBy x tid i → ¬ (x.st i).Resumes (x.ev i) tid) :
    NeverExecutesAgain x tid := by
  intro i hi hfaulted
  obtain ⟨state, hstate, hstopped⟩ := FaultedBy.stoppedIn hresume i hi hfaulted
  refine ⟨?_, ?_⟩
  · intro hrunning
    exact hstopped.not_running (Option.some.inj (hstate.symm.trans hrunning))
  · intro _ _ hselected
    have hready := System.selected_ready hselected
    exact hstopped.not_ready (Option.some.inj (hstate.symm.trans hready))

/-! ### A run that keeps the faulted thread stopped, and one that resumes it -/

/-- One thread, with identifier 1. -/
def soleThread : System where
  threads tid := if tid = 1 then some (.new 1 1) else none
  scheduler := .new
  id_eq := by
    intro tid thread h
    by_cases htid : tid = 1
    · rw [if_pos htid] at h
      rw [htid, ← Option.some.inj h]
      rfl
    · rw [if_neg htid] at h
      cases h

theorem soleThread_initial : soleThread.Initial := by
  refine ⟨?_, rfl⟩
  intro tid thread h
  obtain rfl := soleThread.id_eq h
  by_cases htid : thread.id = 1
  · simp only [soleThread, htid, if_true, Option.some.injEq] at h
    rw [← h]
    rfl
  · simp [soleThread, htid] at h

/-- The thread is killed after its fault; a stale entry of it stays in the queue. -/
def killActions : List Action :=
  [.markReady 1 ⟨3, by decide⟩, .handleUser 1 .pageFault 1 0x80000000 0, .transition 1 .killed,
    .selectNext]

/-- The thread is suspended after its fault and then resumed. -/
def resumeActions : List Action :=
  [.handleUser 1 .pageFault 1 0x80000000 0, .transition 1 .suspended, .transition 1 .ready,
    .markReady 1 ⟨3, by decide⟩, .selectNext, .transition 1 .running]

/-- The run in which the thread is killed. -/
def killRun : Execution System.step System.Initial :=
  .ofEvents System.step System.Initial soleThread killActions .selectNext soleThread_initial
    ⟨_, rfl⟩

/-- The run in which the thread is resumed. -/
def resumeRun : Execution System.step System.Initial :=
  .ofEvents System.step System.Initial soleThread resumeActions .selectNext soleThread_initial
    ⟨_, rfl⟩

theorem killRun_neverExecutesAgain :
    (killRun.st 2).stateOf 1 = some .faulted ∧ NeverExecutesAgain killRun 1 := by
  refine ⟨by decide, faulted_neverExecutesAgain killRun 1 ?_⟩
  rintro i hi - ⟨-, haction⟩
  have hmem : killRun.ev i ∈ killActions := by
    show killActions.getD i .selectNext ∈ killActions
    rw [List.getD_eq_getElem?_getD, List.getElem?_eq_getElem hi]
    exact List.getElem_mem hi
  rw [haction] at hmem
  exact absurd hmem (by decide)

theorem resumeRun_executesAgain :
    (resumeRun.st 1).stateOf 1 = some .faulted ∧ (resumeRun.st 4).selected = some 1 ∧
      (resumeRun.st 6).stateOf 1 = some .running ∧ ¬ NeverExecutesAgain resumeRun 1 := by
  have hfaulted : (resumeRun.st 1).stateOf 1 = some .faulted := by decide
  have hrunning : (resumeRun.st 6).stateOf 1 = some .running := by decide
  refine ⟨hfaulted, ?_, hrunning, ?_⟩
  · rw [System.selected, ((resumeRun.st 4).scheduler.selectNext_spec _).1]
    decide
  · intro h
    exact (h 6 (Nat.le_refl 6) ⟨1, by decide, hfaulted⟩).1 hrunning

end AxiomRT.Fault
