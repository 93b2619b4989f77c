import Mathlib.Data.List.Nodup
import AxiomRT.Studio.Tasks

/-!
# The task table shows the last states of tasks that start once

The entries are the started tasks in order, with repetitions. As long as no name is repeated, the
first entry of a name is its only one, and every event reaches the entry that it concerns.
-/

namespace AxiomRT.Studio

open AxiomRT.Axiomctl

/-! ## Single entries -/

theorem map_fst_setState (tasks : List (String × String)) (t s : String) :
    (setState tasks t s).map Prod.fst = tasks.map Prod.fst := by
  induction tasks with
  | nil => rfl
  | cons e tasks ih =>
    by_cases h : e.1 = t
    · simp [setState, h]
    · simp [setState, h, ih]

/-- Where no name is repeated, the entry of the name is the written one. -/
theorem mem_setState {tasks : List (String × String)} {t s : String} {e : String × String}
    (hnodup : (tasks.map Prod.fst).Nodup) (he : e ∈ setState tasks t s) :
    e = (t, s) ∨ e ∈ tasks ∧ e.1 ≠ t := by
  induction tasks with
  | nil => cases he
  | cons e' tasks ih =>
    obtain ⟨hnew, hnodup⟩ := List.nodup_cons.1 hnodup
    by_cases h : e'.1 = t
    · simp only [setState, h, if_true, List.mem_cons] at he
      rcases he with he | he
      · exact .inl he
      · refine .inr ⟨List.mem_cons_of_mem _ he, ?_⟩
        intro hsame
        apply hnew
        rw [h, ← hsame]
        exact List.mem_map_of_mem he
    · simp only [setState, h, if_false, List.mem_cons] at he
      rcases he with rfl | he
      · exact .inr ⟨List.mem_cons_self, h⟩
      · rcases ih hnodup he with he | ⟨he, hne⟩
        · exact .inl he
        · exact .inr ⟨List.mem_cons_of_mem _ he, hne⟩

/-! ## One event -/

theorem kind_cases (kind : String) :
    kind = "TASK_STARTED" ∨ kind = "TASK_EXITED" ∨ kind = "FAULT" ∨ kind = "TASK_FAULTED" ∨
      kind = "RECOVERY_APPLIED" ∨
      kind ≠ "TASK_STARTED" ∧ kind ≠ "TASK_EXITED" ∧ kind ≠ "FAULT" ∧ kind ≠ "TASK_FAULTED" ∧
        kind ≠ "RECOVERY_APPLIED" := by
  tauto

/-- One turn of the loop adds an entry for a start, writes the reported state into the entry of any
other report, and leaves the entries alone if nothing is reported. -/
theorem taskEvent_tasks (table : TaskTable) (ev : Event) :
    (∃ t, startedTask ev = some t ∧ report table.lastFaulted ev = some (t, "running") ∧
      (taskEvent table ev).tasks = table.tasks ++ [(t, "running")]) ∨
    (∃ t s, startedTask ev = none ∧ report table.lastFaulted ev = some (t, s) ∧
      (taskEvent table ev).tasks = setState table.tasks t s) ∨
    (startedTask ev = none ∧ report table.lastFaulted ev = none ∧
      (taskEvent table ev).tasks = table.tasks) := by
  unfold taskEvent report startedTask
  generalize ev.kind = kind
  rcases kind_cases kind with rfl | rfl | rfl | rfl | rfl | ⟨h₁, h₂, h₃, h₄, h₅⟩
  · cases field ev "task" <;> simp
  · cases field ev "task" <;> simp
  · cases field ev "task" <;> simp
  · cases field ev "task" <;> simp
  · rcases hpolicy : field ev "policy" with _ | policy
    · simp
    · by_cases hkill : policy = "Kill" <;> cases table.lastFaulted <;> simp [hkill]
  · simp [h₁]

theorem taskEvent_lastFaulted (table : TaskTable) (ev : Event) :
    (taskEvent table ev).lastFaulted = (faultedTask ev).or table.lastFaulted := by
  unfold taskEvent faultedTask
  generalize ev.kind = kind
  rcases kind_cases kind with rfl | rfl | rfl | rfl | rfl | ⟨h₁, h₂, h₃, h₄, h₅⟩
  · cases field ev "task" <;> simp
  · cases field ev "task" <;> simp
  · cases field ev "task" <;> simp
  · cases field ev "task" <;> simp
  · rcases hpolicy : field ev "policy" with _ | policy
    · simp
    · by_cases hkill : policy = "Kill" <;> cases hlast : table.lastFaulted <;> simp [hkill, hlast]
  · simp [h₃, h₄]

theorem mostRecentlyFaulted_concat (evs : List Event) (ev : Event) :
    mostRecentlyFaulted (evs ++ [ev]) = (faultedTask ev).or (mostRecentlyFaulted evs) := by
  unfold mostRecentlyFaulted
  cases h : faultedTask ev <;> simp [List.filterMap_append, h]

/-- An event decides the state of the task that it concerns. -/
theorem LastState.concerned {evs : List Event} {ev : Event} {t s : String}
    (h : report (mostRecentlyFaulted evs) ev = some (t, s)) : LastState (evs ++ [ev]) t s := by
  refine ⟨evs, ev, [], rfl, h, ?_⟩
  intro mid ev' rest hsplit
  simp at hsplit

/-- An event does not touch the states of the tasks that it does not concern. -/
theorem LastState.other {evs : List Event} {ev : Event} {t s : String} (hlast : LastState evs t s)
    (h : ∀ s', report (mostRecentlyFaulted evs) ev ≠ some (t, s')) :
    LastState (evs ++ [ev]) t s := by
  obtain ⟨before, ev₀, after, rfl, hreport, hlater⟩ := hlast
  refine ⟨before, ev₀, after ++ [ev], by simp, hreport, ?_⟩
  intro mid ev' rest hsplit
  -- The later event is the new one, or it was there before.
  rcases List.eq_nil_or_concat rest with rfl | ⟨rest, last, rfl⟩
  · obtain ⟨rfl, hev⟩ := List.append_inj' hsplit rfl
    obtain rfl : ev = ev' := List.head_eq_of_cons_eq hev
    exact h
  · have hsplit' : after ++ [ev] = (mid ++ ev' :: rest) ++ [last] := by simpa using hsplit
    exact hlater mid ev' rest (List.append_inj' hsplit' rfl).1

/-! ## The loop -/

/-- What the loop has computed after the events. -/
structure Tracks (evs : List Event) (table : TaskTable) : Prop where
  lastFaulted : table.lastFaulted = mostRecentlyFaulted evs
  names : table.tasks.map Prod.fst = evs.filterMap startedTask
  last : (evs.filterMap startedTask).Nodup → ∀ e ∈ table.tasks, LastState evs e.1 e.2

theorem Tracks.event {evs : List Event} {table : TaskTable} (h : Tracks evs table) (ev : Event) :
    Tracks (evs ++ [ev]) (taskEvent table ev) := by
  have hfaulted : (taskEvent table ev).lastFaulted = mostRecentlyFaulted (evs ++ [ev]) := by
    rw [taskEvent_lastFaulted, mostRecentlyFaulted_concat, h.lastFaulted]
  have hsub : (evs.filterMap startedTask).Sublist ((evs ++ [ev]).filterMap startedTask) :=
    (List.sublist_append_left evs [ev]).filterMap startedTask
  rcases taskEvent_tasks table ev with
    ⟨t, hstart, hreport, htasks⟩ | ⟨t, s, hstart, hreport, htasks⟩ | ⟨hstart, hreport, htasks⟩
  · rw [h.lastFaulted] at hreport
    have hnames : (evs ++ [ev]).filterMap startedTask = evs.filterMap startedTask ++ [t] := by
      simp [List.filterMap_append, hstart]
    refine ⟨hfaulted, by rw [htasks, hnames, List.map_append, h.names]; rfl, ?_⟩
    intro hnodup e he
    rw [htasks] at he
    rcases List.mem_append.1 he with he | he
    · refine (h.last (hnodup.sublist hsub) e he).other ?_
      intro s' hs'
      -- The old entry would be a second one of the started task.
      have hsame : t = e.1 := congrArg Prod.fst (Option.some.inj (hreport.symm.trans hs'))
      have hmem : t ∈ evs.filterMap startedTask := by
        rw [← h.names, hsame]
        exact List.mem_map_of_mem he
      rw [hnames] at hnodup
      exact (List.disjoint_of_nodup_append hnodup) hmem (List.mem_singleton.2 rfl)
    · obtain rfl := List.mem_singleton.1 he
      exact .concerned hreport
  · rw [h.lastFaulted] at hreport
    have hnames : (evs ++ [ev]).filterMap startedTask = evs.filterMap startedTask := by
      simp [List.filterMap_append, hstart]
    refine ⟨hfaulted, by rw [htasks, map_fst_setState, hnames, h.names], ?_⟩
    intro hnodup e he
    rw [htasks] at he
    rcases mem_setState (by rw [h.names]; exact hnodup.sublist hsub) he with rfl | ⟨he, hne⟩
    · exact .concerned hreport
    · refine (h.last (hnodup.sublist hsub) e he).other ?_
      intro s' hs'
      exact hne (congrArg Prod.fst (Option.some.inj (hs'.symm.trans hreport)))
  · rw [h.lastFaulted] at hreport
    have hnames : (evs ++ [ev]).filterMap startedTask = evs.filterMap startedTask := by
      simp [List.filterMap_append, hstart]
    refine ⟨hfaulted, by rw [htasks, hnames, h.names], ?_⟩
    intro hnodup e he
    rw [htasks] at he
    refine (h.last (hnodup.sublist hsub) e he).other ?_
    intro s' hs'
    rw [hreport] at hs'
    cases hs'

theorem foldl_tracks (evs : List Event) : Tracks evs (evs.foldl taskEvent ⟨[], none⟩) := by
  induction evs using List.reverseRecOn with
  | nil => exact ⟨rfl, rfl, fun _ e he => nomatch he⟩
  | append_singleton evs ev ih =>
    rw [List.foldl_append]
    exact ih.event ev

/-- The table shows the last state of each started task once, exactly if no task is started
twice. -/
theorem deriveTasks_showsLastStates_iff (evs : List Event) :
    ShowsLastStates evs (deriveTasks evs) ↔ (evs.filterMap startedTask).Nodup := by
  have htracks := foldl_tracks evs
  have hnames : (deriveTasks evs).map Prod.fst = evs.filterMap startedTask := htracks.names
  constructor
  · intro h
    apply List.nodup_iff_count_eq_one.2
    intro t ht
    rw [← hnames]
    exact h.once t ht
  · intro hnodup
    refine ⟨?_, ?_, htracks.last hnodup⟩
    · intro t ht
      rw [hnames]
      exact List.count_eq_one_of_mem hnodup ht
    · intro e he
      rw [← hnames]
      exact List.mem_map_of_mem he

/-- A task that is started again after a fault and then exits. -/
def restartLog : List Event :=
  [⟨1, .task, "TASK_STARTED", [], [("task", "a")], "TASK_STARTED task=a"⟩,
    ⟨2, .fault, "FAULT", [], [("task", "a")], "FAULT task=a"⟩,
    ⟨3, .task, "TASK_STARTED", [], [("task", "a")], "TASK_STARTED task=a"⟩,
    ⟨4, .task, "TASK_EXITED", [], [("task", "a")], "TASK_EXITED task=a"⟩]

/-- The task has two entries, and the second one says that it is still running. -/
theorem deriveTasks_restartLog :
    deriveTasks restartLog = [("a", "exited"), ("a", "running")] ∧
      LastState restartLog "a" "exited" ∧
      ¬ ShowsLastStates restartLog (deriveTasks restartLog) := by
  have htable : deriveTasks restartLog = [("a", "exited"), ("a", "running")] := rfl
  have hexit : restartLog = restartLog.take 3 ++
      [⟨4, .task, "TASK_EXITED", [], [("task", "a")], "TASK_EXITED task=a"⟩] := rfl
  refine ⟨htable, ?_, ?_⟩
  · rw [hexit]
    apply LastState.concerned
    rfl
  · intro h
    have hstarted : "a" ∈ restartLog.filterMap startedTask := .head _
    have honce := h.once "a" hstarted
    rw [htable] at honce
    exact absurd honce (by decide)

end AxiomRT.Studio
