import AxiomRT.Studio.Jobs

/-!
# Proofs: the background jobs run one at a time

A state of the threads carries a state of the job server. Every step keeps this, silent steps with
the same server state, and the server's own steps can be followed by the threads.
-/

namespace AxiomRT.Studio

variable {st st' : State} {a a' : JobServer} {s s' : Jobs} {which w : JobName} {ev : JobEvent}
  {history : List JobEvent}

/-! ## The shared state -/

namespace State

theorem setJob_busy (st : State) (which : JobName) (j : Job) :
    (st.setJob which j).busy = st.busy := by
  cases which <;> rfl

theorem job_setJob (st : State) (which w : JobName) (j : Job) :
    (st.setJob which j).job w = if which = w then j else st.job w := by
  cases which <;> cases w <;> rfl

/-- A state is its busy mark and its three jobs. -/
theorem ext_jobs (hbusy : st.busy = st'.busy) (hjob : ∀ w, st.job w = st'.job w) : st = st' := by
  obtain ⟨busy, demo, verify, kit⟩ := st
  obtain ⟨busy', demo', verify', kit'⟩ := st'
  obtain rfl : busy = busy' := hbusy
  obtain rfl : demo = demo' := hjob .demo
  obtain rfl : verify = verify' := hjob .verify
  obtain rfl : kit = kit' := hjob .kit
  rfl

end State

theorem logText_snoc (lines : List String) (line : String) :
    logText (lines ++ [line]) = logText lines ++ line ++ "\n" := by
  rw [logText, logText, List.foldl_append]
  rfl

namespace JobServer

theorem view_busy (a : JobServer) : a.view.busy = a.current.map JobRun.which := rfl

theorem view_job (a : JobServer) (w : JobName) : a.view.job w = a.shows w := by
  cases w <;> rfl

end JobServer

/-! ## What the critical sections do to the view -/

theorem eq_view (hbusy : st.busy = a.current.map JobRun.which) (hjob : ∀ w, st.job w = a.shows w) :
    st = a.view :=
  State.ext_jobs hbusy fun w => (hjob w).trans (a.view_job w).symm

theorem shows_runs {r : JobRun} (h : a.current = some r) (w : JobName) : a.shows w =
    if r.which = w then ⟨some .running, logText r.lines⟩ else a.settled w := by
  rw [JobServer.shows, h]

theorem shows_idle (h : a.current = none) (w : JobName) : a.shows w = a.settled w := by
  rw [JobServer.shows, h]

/-- The job that runs, as the view has it. -/
theorem view_runs {r : JobRun} (h : a.current = some r) :
    a.view.job r.which = ⟨some .running, logText r.lines⟩ := by
  rw [a.view_job, shows_runs h, if_pos rfl]

theorem apiStart_free (h : a.current = none) (which : JobName) : apiStart a.view which =
    some ({ a with current := some ⟨which, []⟩ } : JobServer).view := by
  have hbusy : a.view.busy.isSome = false := by
    rw [a.view_busy, h]
    rfl
  rw [apiStart, hbusy, if_neg (by decide), Option.some.injEq]
  refine eq_view ?_ fun w => ?_
  · rw [State.setJob_busy]
    rfl
  · have hrest : ({ a.view with busy := some which } : State).job w = a.settled w := by
      rw [← shows_idle h, ← a.view_job]
      cases w <;> rfl
    rw [State.job_setJob, hrest]
    rfl

theorem apiStart_busy {r : JobRun} (h : a.current = some r) (which : JobName) :
    apiStart a.view which = none := by
  have hbusy : a.view.busy.isSome = true := by
    rw [a.view_busy, h]
    rfl
  rw [apiStart, if_pos hbusy]

theorem pushLine_view {r : JobRun} (h : a.current = some r) (text : String) :
    pushLine a.view r.which text =
      ({ a with current := some { r with lines := r.lines ++ [text] } } : JobServer).view := by
  rw [pushLine, view_runs h]
  refine eq_view ?_ fun w => ?_
  · rw [State.setJob_busy, a.view_busy, h]
    rfl
  · rw [State.job_setJob, a.view_job, shows_runs h, ← logText_snoc]
    split_ifs with hw
    · exact (if_pos hw).symm
    · exact (if_neg hw).symm

theorem judge_view {r : JobRun} (h : a.current = some r) (statusOk : Bool) :
    judge a.view r.which statusOk =
      if r.which = .demo then demoPassed (logText r.lines) else statusOk := by
  have hjob := view_runs h
  cases hw : r.which with
  | demo =>
    rw [hw] at hjob
    exact congrArg (fun j => demoPassed j.log) hjob
  | verify => rfl
  | kit => rfl

theorem finish_view {r : JobRun} (h : a.current = some r) (ok : Bool) : finish a.view r.which ok =
    (⟨none, Function.update a.last r.which (some ⟨r.lines, ok⟩)⟩ : JobServer).view := by
  refine eq_view rfl fun w => ?_
  have hset : (finish a.view r.which ok).job w = (a.view.setJob r.which
      ⟨some (if ok then .ok else .failed), logText r.lines⟩).job w := by
    rw [finish, view_runs h]
    cases w <;> rfl
  rw [hset, State.job_setJob, a.view_job, shows_runs h, shows_idle rfl]
  by_cases hw : r.which = w
  · subst hw
    rw [if_pos rfl]
    simp [JobServer.settled]
  · rw [if_neg hw, if_neg hw]
    simp [JobServer.settled, Function.update_of_ne (Ne.symm hw)]

/-! ## Threads and server -/

/-- The threads while the server runs `r`, or runs nothing. A verdict that is reached is one the
server allows. -/
inductive Carries : Jobs → JobServer → Prop
  | idle {a : JobServer} (free : a.current = none) : Carries ⟨a.view, []⟩ a
  | runs {a : JobServer} {r : JobRun} {p : Point} (runs : a.current = some r)
      (empty : p = .starting → r.lines = [])
      (verdict : ∀ ok, p = .decided ok → r.which = .demo → ok = demoPassed (logText r.lines)) :
      Carries ⟨a.view, [⟨r.which, p⟩]⟩ a

theorem demoPassed_nil : demoPassed (logText []) = false := by decide

theorem only_thread {before after : List JobThread} {t x : JobThread}
    (h : before ++ t :: after = [x]) : before = [] ∧ t = x ∧ after = [] := by
  cases before with
  | nil =>
    rw [List.nil_append, List.cons.injEq] at h
    exact ⟨rfl, h⟩
  | cons y ys => simp at h

/-- The thread that steps is the one of the job that runs. -/
theorem Carries.thread {before after : List JobThread} {t : JobThread}
    (h : Carries ⟨st, before ++ t :: after⟩ a) : ∃ r, a.current = some r ∧ st = a.view ∧
      before = [] ∧ after = [] ∧ t.which = r.which ∧ (t.point = .starting → r.lines = []) ∧
      ∀ ok, t.point = .decided ok → r.which = .demo → ok = demoPassed (logText r.lines) := by
  generalize hs : (⟨st, before ++ t :: after⟩ : Jobs) = s at h
  cases h with
  | idle free =>
    rw [Jobs.mk.injEq] at hs
    simp at hs
  | @runs _ r p runs empty verdict =>
    rw [Jobs.mk.injEq] at hs
    obtain ⟨hst, hthreads⟩ := hs
    obtain ⟨hbefore, rfl, hafter⟩ := only_thread hthreads
    exact ⟨r, runs, hst, hbefore, hafter, rfl, empty, verdict⟩

/-- A silent step stays with the server's state. -/
theorem Carries.silent (h : Carries s a) (step : JobsStep s none s') : Carries s' a := by
  cases step with
  | @thread st st' before after t _ t' acts =>
    obtain ⟨r, runs, rfl, rfl, rfl, hwhich, empty, verdict⟩ := h.thread
    generalize hp : t.point = p at acts
    cases acts with
    | spawned =>
      rw [hwhich]
      exact .runs runs (fun h => Point.noConfusion h) fun _ h => Point.noConfusion h
    | noChild =>
      rw [hwhich]
      refine .runs runs (fun h => Point.noConfusion h) ?_
      rintro ok ⟨⟩ -
      rw [empty hp]
      exact demoPassed_nil.symm
    | closed statusOk =>
      rw [hwhich]
      exact .runs runs (fun h => Point.noConfusion h) fun _ h => Point.noConfusion h
    | judged statusOk =>
      rw [hwhich]
      refine .runs runs (fun h => Point.noConfusion h) ?_
      rintro ok ⟨⟩ hdemo
      rw [judge_view runs, if_pos hdemo]

/-- A visible step is one of the server. -/
theorem Carries.visible (h : Carries s a) (step : JobsStep s (some ev) s') :
    ∃ a', ServerStep a ev a' ∧ Carries s' a' := by
  cases step with
  | @started _ st which accepted =>
    cases h with
    | idle free =>
      rw [apiStart_free free, Option.some.injEq] at accepted
      subst accepted
      exact ⟨_, .started free, .runs (a := ⟨some ⟨which, []⟩, a.last⟩) rfl (fun _ => rfl)
        fun _ h => Point.noConfusion h⟩
    | runs runs empty verdict =>
      rw [apiStart_busy runs] at accepted
      cases accepted
  | refused conflict =>
    cases h with
    | idle free =>
      rw [apiStart_free free] at conflict
      cases conflict
    | runs runs empty verdict => exact ⟨a, .refused runs, .runs runs empty verdict⟩
  | @thread st st' before after t _ t' acts =>
    obtain ⟨r, runs, rfl, rfl, rfl, hwhich, empty, verdict⟩ := h.thread
    generalize hp : t.point = p at acts
    cases acts with
    | line text =>
      rw [hwhich, pushLine_view runs]
      exact ⟨_, .line runs text, .runs (r := { r with lines := r.lines ++ [text] }) rfl
        (fun h => Point.noConfusion h) fun _ h => Point.noConfusion h⟩
    | finished ok =>
      rw [hwhich, finish_view runs]
      exact ⟨_, .finished runs (verdict ok hp), .idle rfl⟩

theorem JobsRun.carries (h : JobsRun history s) : ∃ a, ServerRun history a ∧ Carries s a := by
  induction h with
  | start => exact ⟨_, .start, .idle (a := .initial) rfl⟩
  | silent h step ih =>
    obtain ⟨a, hrun, ht⟩ := ih
    exact ⟨a, hrun, ht.silent step⟩
  | visible h step ih =>
    obtain ⟨a, hrun, ht⟩ := ih
    obtain ⟨a', hstep, ht'⟩ := ht.visible step
    exact ⟨a', hrun.step hstep, ht'⟩

theorem Carries.view (h : Carries s a) : s.shared = a.view := by
  cases h <;> rfl

/-! ## The threads can follow -/

/-- The threads while the server runs its current job, as far as they have to be known. -/
def JobServer.threads (a : JobServer) : List JobThread :=
  a.current.toList.map fun r => ⟨r.which, .reading⟩

/-- A thread that is alone takes a step. -/
theorem JobsStep.only {t : JobThread} {ev : Option JobEvent} {t' : Option JobThread}
    (acts : ThreadStep st t.which t.point ev st' t') :
    JobsStep ⟨st, [t]⟩ ev ⟨st', t'.toList⟩ := by
  have h := @JobsStep.thread st st' [] [] t ev t' acts
  rw [List.append_nil] at h
  exact h

/-- The threads can take the step of the server. -/
theorem ServerStep.follow (hrun : JobsRun history ⟨a.view, a.threads⟩) (step : ServerStep a ev a') :
    JobsRun (ev :: history) ⟨a'.view, a'.threads⟩ := by
  cases step with
  | @started which free =>
    have hthreads : a.threads = [] := by rw [JobServer.threads, free]; rfl
    rw [hthreads] at hrun
    have h := hrun.visible (.started (apiStart_free free which))
    exact h.silent (.only (t := ⟨which, .starting⟩) .spawned)
  | refused busy => exact hrun.visible (.refused (apiStart_busy busy _))
  | @line r runs text =>
    have hthreads : a.threads = [⟨r.which, .reading⟩] := by rw [JobServer.threads, runs]; rfl
    rw [hthreads] at hrun
    have h := hrun.visible (.only (t := ⟨r.which, .reading⟩) (.line text))
    rw [pushLine_view runs] at h
    exact h
  | @finished r ok runs demo =>
    have hthreads : a.threads = [⟨r.which, .reading⟩] := by rw [JobServer.threads, runs]; rfl
    rw [hthreads] at hrun
    have hclosed := hrun.silent (.only (t := ⟨r.which, .reading⟩) (.closed ok))
    have hjudged := hclosed.silent (.only (t := ⟨r.which, .exited ok⟩) (.judged ok))
    have hok : judge a.view r.which ok = ok := by
      rw [judge_view runs]
      split_ifs with hdemo
      · exact (demo hdemo).symm
      · rfl
    rw [hok] at hjudged
    have h := hjudged.visible (.only (t := ⟨r.which, .decided ok⟩) (.finished ok))
    rw [finish_view runs] at h
    exact h

theorem ServerRun.follow (h : ServerRun history a) : JobsRun history ⟨a.view, a.threads⟩ := by
  induction h with
  | start => exact .start
  | step h step ih => exact step.follow ih

/-- The studio runs its jobs one at a time, and shows what its job server shows. -/
theorem jobs_oneAtATime (history : List JobEvent) : OneAtATime history := by
  refine ⟨fun st => ⟨?_, ?_⟩, ?_⟩
  · rintro ⟨threads, h⟩
    obtain ⟨a, hrun, ht⟩ := h.carries
    exact ⟨a, hrun, ht.view.symm⟩
  · rintro ⟨a, hrun, rfl⟩
    exact ⟨_, hrun.follow⟩
  · intro s h
    obtain ⟨a, -, ht⟩ := h.carries
    cases ht with
    | idle free => simp [a.view_busy, free]
    | runs runs empty verdict => simp [a.view_busy, runs]

end AxiomRT.Studio
