import AxiomRT.Dispatch.Proofs.SerialLogProofs
import AxiomRT.Dispatch.Proofs.AuthorityProofs
import AxiomRT.Dispatch.Proofs.RecoveryProofs

/-!
# Proofs: the serial log of a run

The log that the host reads tells of every exit, fault, denial and recovery of a run, in order, and
of no other, as long as the tasks write whole lines that read as none of these. A name in the log
stands for one slot: no slot in use changes its name.
-/

namespace AxiomRT.Dispatch

open Lib

variable {img : Image} {table : List ServiceDef} {c c' : Core} {k k' : Kernel}

/-! ## Names -/

theorem names_of_update {d : Core} {u : Slot} {b : Tcb} (hd : d.names = c.names)
    (ht : c'.tasks = Function.update d.tasks u b) (hb : b.name = (d.tasks u).name) :
    c'.names = c.names := by
  rw [← hd]
  funext s
  simp only [Core.names, ht]
  by_cases hs : s = u
  · subst hs
    rw [Function.update_self, hb]
  · rw [Function.update_of_ne hs]

theorem names_resume (c : Core) (next : Slot) : (c.resume next).names = c.names :=
  names_of_update rfl (Core.resume_tasks c next) rfl

theorem names_saveAs (c : Core) (st : RtState) : (c.saveAs st).names = c.names :=
  names_of_update rfl (Core.saveAs_tasks c st) rfl

theorem names_park (c : Core) (e : EpId) (w : Ep) : (c.park e w).names = c.names :=
  names_of_update rfl (Core.park_tasks c e w) rfl

theorem names_wake (c : Core) (e : EpId) (t : Slot) {f : Tcb → Tcb}
    (hf : (f (c.tasks t)).name = (c.tasks t).name) : (c.wake e t f).names = c.names :=
  names_of_update rfl (Core.wake_tasks c e t f) hf

theorem names_notify (c : Core) (e : EpId) (code : UInt8) : (c.notify e code).names = c.names := by
  unfold Core.notify
  cases c.endpoints e with
  | idle => rfl
  | senderWaiting tid len => rfl
  | receiverWaiting tid dst cap =>
    dsimp only
    split_ifs
    · exact names_wake c e tid rfl
    · rfl

theorem names_fault (c : Core) : c.fault.names = c.names := by
  rw [Core.fault, names_notify, names_notify]
  exact names_setState c c.current .faulted

theorem names_of_tasks (h : c'.tasks = c.tasks) : c'.names = c.names := by
  funext t
  simp only [Core.names, h]

theorem names_setA0 (c : Core) (v : Int) : (c.setA0 v).names = c.names := rfl

/-- Only the start of a service gives a slot a name. -/
theorem Move.names {tr : Trap} (hm : Move img table c tr c')
    (hsys : tr = .ecall → c.frame.sys ≠ some .taskStart) : c'.names = c.names := by
  cases hm with
  | ret tasks current endpoints kmsg routes satp miss mem ipc plain => exact names_of_tasks tasks
  | sendBusy req ep => exact names_of_tasks rfl
  | sendDeliver req ep fits =>
    rw [names_setA0, names_wake _ _ _ (by rfl)]
    rfl
  | sendTooBig req ep small =>
    rw [names_setA0, names_wake _ _ _ (by rfl)]
    rfl
  | sendPark req ep sel =>
    exact (names_resume _ _).trans (names_park (c.checkIn.copyFromUser _ _) _ _)
  | recvIrq req irq fits => exact names_of_tasks rfl
  | recvTake req irq ep fits =>
    exact names_wake ((c.checkIn.copyBytesToUser _ _).setA0 _) _ _ rfl
  | recvPark req irq ep fits sel => exact (names_resume _ _).trans (names_park c.checkIn _ _)
  | yield sys sel => exact (names_resume _ _).trans (names_saveAs c.checkIn _)
  | exit sys sel => exact (names_resume _ _).trans (names_setState c.checkIn _ _)
  | spawn sys ctl entry vacant fresh granted space => exact absurd sys (hsys rfl)
  | rearm sys ctl entry dead => exact absurd sys (hsys rfl)
  | restart sys ctl names other used started =>
    exact names_of_update rfl (Core.rearm_tasks c.checkIn _ _) rfl
  | kill sys ctl names other used => exact names_of_update rfl (Core.kill_tasks c.checkIn _) rfl
  | killSelf sys ctl names used sel =>
    exact (names_resume _ _).trans (names_of_update rfl (Core.kill_tasks c.checkIn _) rfl)
  | irqDead sys ctl dead => exact names_of_tasks rfl
  | irqDeliver sys ctl live ep fits =>
    rw [names_setA0, names_wake _ _ _ (by rfl)]
    rfl
  | irqHold sys ctl live ep => exact names_of_tasks rfl
  | tick fine top => exact names_of_tasks rfl
  | preempt fine sel other outranked =>
    exact (names_resume _ _).trans (names_saveAs c.countMiss _)
  | watchdog exp sel => exact (names_resume _ _).trans (names_fault c.countMiss)
  | fault sel => exact (names_resume _ _).trans (names_fault c)

theorem SolidNames.setTask (h : SolidNames k) {t : Slot} {b : Tcb} (hb : Solid b.name) :
    SolidNames (k.core (·.setTask t b)) := by
  intro s
  have hname : ((k.core (·.setTask t b)).tasks s).name = (Function.update k.tasks t b s).name := rfl
  rw [hname]
  by_cases hs : s = t
  · subst hs
    rw [Function.update_self]
    exact hb
  · rw [Function.update_of_ne hs]
    exact h s

theorem names_emit (k : Kernel) (pre name : String) : (k.emit pre name).names = k.names := rfl

theorem names_ringPush (k : Kernel) (kind : EvKind) (slot : Slot) :
    (k.ringPush kind slot).names = k.names := rfl

theorem names_announce (k : Kernel) (slot : Slot) :
    (k.announceDeviceGrants slot).names = k.names := by
  rw [announceDeviceGrants_core]
  rfl

theorem startService_solidNames {env : Env} {index : ℕ} {v : Int} (hn : SolidNames k)
    (htable : SolidTable k) (h : k.startService img env index = .ok (k', v)) : SolidNames k' := by
  simp only [Kernel.startService] at h
  split at h
  · cases h
    exact hn
  · next table htab =>
    split at h
    · cases h
      exact hn
    · next d hd =>
      have hname : Solid d.name := htable table htab d (List.mem_of_getElem? hd)
      rw [bind_eq_ok] at h
      obtain ⟨slot, -, h⟩ := h
      have hrearm : SolidNames (k.rearm env slot) := hn.of_names (names_rearm k env slot)
      split at h
      · split at h
        · cases h
        · next uas _ =>
          cases h
          have hregistered : SolidNames (k.registerTask env.sstatus slot d.name d.prio uas.root
              uas.entryVa uas.stackTopVa) := hn.setTask hname
          refine SolidNames.of_names hregistered ?_
          rw [names_emit, names_ringPush, names_announce, names_core,
            names_modTask _ _ (by intro _; rfl)]
      · cases h
        exact hrearm
      · cases h
        exact hrearm
      · cases h
        exact hn
      · cases h
        exact hn
      · cases h
        exact hn

theorem sysTaskStart_solidNames {env : Env} (hn : SolidNames k) (htable : SolidTable k)
    (h : k.sysTaskStart img env = .ok k') : SolidNames k' := by
  simp only [Kernel.sysTaskStart] at h
  split_ifs at h
  · cases h
    exact hn
  · rw [bind_eq_ok] at h
    obtain ⟨⟨k₁, v⟩, hst, h⟩ := h
    cases h
    have hn₁ : SolidNames k₁ := startService_solidNames hn htable hst
    exact hn₁

theorem step_solidNames {ev : Event} (hn : SolidNames k) (htable : SolidTable k)
    (h : step img k ev = .ok k') : SolidNames k' := by
  by_cases hstart : ev.trap = .ecall ∧ ev.frame.sys = some .taskStart
  · obtain ⟨ht, hs⟩ := hstart
    have hsys : ((((k.core (·.enter ev)).core (·.advance)).core
        ({ · with watchdogMiss := 0 })).frame.sys) = some .taskStart := hs
    simp only [step, ht, Kernel.onSyscall, hsys] at h
    refine sysTaskStart_solidNames ?_ ?_ h
    · exact hn
    · exact htable
  · have hnames := (step_move h).names fun ht hs => hstart ⟨ht, hs⟩
    exact hn.of_names hnames

/-! ## Boot -/

theorem serviceTable_solid (img : Image) : ∀ d ∈ serviceTable img, Solid d.name := by
  intro d hd
  obtain ⟨⟨⟨name, prio, caps⟩, i⟩, hmem, rfl⟩ := List.mem_map.1 hd
  have hentry : (name, prio, caps) ∈ serviceGrants := List.fst_mem_of_mem_zipIdx hmem
  have hall : ∀ g ∈ serviceGrants, Solid g.1 := by decide
  exact hall _ hentry

theorem OsInv.solidTable (h : OsInv img k) : SolidTable k := by
  intro table htable
  rw [h.table] at htable
  cases htable
  exact serviceTable_solid img

theorem OsBooted.solidNames (h : OsBooted img k) : SolidNames k := by
  obtain ⟨sstatus, uas, -, rfl⟩ := h
  intro t
  by_cases h0 : t = 0
  · subst h0
    exact (by decide : Solid "init_service")
  · have hname : ((bootWith img (osBootOps img sstatus uas)).tasks t).name = "" := by
      simp [bootWith, osBootOps, Kernel.start, Kernel.bootOp, Kernel.setCap, Kernel.registerTask,
        Kernel.core, Kernel.puts, Core.setState, Core.modTask, Core.setTask, initial, emptyTcb, h0]
    rw [hname]
    exact (by decide : Solid "")

theorem Printed.flatMap {α : Type} {f : α → List Tx} {l : List α}
    (h : ∀ a ∈ l, Printed (f a) []) : Printed (l.flatMap f) [] := by
  induction l with
  | nil => exact .nil
  | cons a l ih =>
    rw [List.flatMap_cons]
    exact (h a List.mem_cons_self).plain_and (ih fun b hb => h b (List.mem_cons_of_mem _ hb))

theorem registerDevicesText_printed : Printed registerDevicesText [] := by
  refine Printed.flatMap fun i _ => ?_
  obtain ⟨hname, -, -⟩ := devices_solid i
  have hkind : Solid (devices i).kind ∧ Solid (devices i).irqName := by
    revert i
    decide
  have hdevice := printed_plain (s := "DEVICE registered=") (by decide)
    [.str (devices i).name, .str " kind=", .str (devices i).kind] (by
      simp only [List.forall_mem_cons]
      exact ⟨hname.flat, flat_of_contains (by decide), hkind.1.flat, flat_nil⟩)
  have hirq := printed_plain (s := "IRQ registered source=") (by decide)
    [.str (devices i).name, .str " endpoint=", .str (devices i).irqName] (by
      simp only [List.forall_mem_cons]
      exact ⟨hname.flat, flat_of_contains (by decide), hkind.2.flat, flat_nil⟩)
  exact hdevice.plain_and hirq

theorem OsBooted.printed (h : OsBooted img k) : Printed k.uart [] := by
  obtain ⟨sstatus, uas, -, rfl⟩ := h
  exact registerDevicesText_printed.plain_and (printed_literal (by decide))

/-! ## Runs -/

theorem putHex_flat (value : UInt64) : ∀ t ∈ putHex value, Flat t := by
  refine List.forall_mem_cons.2 ⟨flat_of_contains (by decide), fun t ht => ?_⟩
  obtain ⟨shift, -, rfl⟩ := List.mem_map.1 ht
  have hdigit : ∀ b ∈ [hexDigit (value.toNat / 16 ^ shift % 16)], 48 ≤ b.toNat :=
    List.forall_mem_singleton.2 (hexDigit_ge (Nat.mod_lt _ (by decide)))
  exact bytes_flat hdigit

/-- The line of a trap is not evidence of a fault; the dispatcher writes that. -/
theorem trapText_printed (ev : Event) (r : TrapRegs) : Printed (trapText ev r) [] := by
  unfold trapText
  split
  · have hkind : Solid (faultReport r).1 := by
      unfold faultReport
      split_ifs
      · decide
      · exact (by decide : Solid "page-fault")
      · decide
    refine printed_plain (s := "TRAP kind=") (by decide)
      ([.str (faultReport r).1, .str " cause="] ++ putHex r.scause ++ [.str " sepc="] ++
        putHex ev.frame.sepc ++ [.str " stval="] ++ putHex r.stval) ?_
    simp only [List.forall_mem_append, List.forall_mem_cons]
    exact ⟨⟨⟨⟨⟨⟨hkind.flat, flat_of_contains (by decide), flat_nil⟩, putHex_flat _⟩,
      flat_of_contains (by decide), flat_nil⟩, putHex_flat _⟩, flat_of_contains (by decide),
      flat_nil⟩, putHex_flat _⟩
  · exact .nil

/-- What a handler tells is the evidence of what it pushes. -/
theorem Told.evidence (h : Told k k') :
    Writes ((pushedAt k k').filterMap (ringEvidence k.names)) k k' ∧
      ∀ e ∈ pushedAt k k', (ringEvidence k.names e).isSome = true → e.2 = k.current := by
  cases h with
  | quiet log text =>
    rw [pushedAt, if_pos log.2]
    exact ⟨text, fun _ he => absurd he List.not_mem_nil⟩
  | pushed e log own text =>
    have hne : k'.ringHead ≠ k.ringHead := by
      rw [log.2]
      exact wrappingInc_ne _
    have he : k'.ring (Fin.ofNat ringLen k.ringHead) = e := by
      rw [log.1, Function.update_self]
    rw [pushedAt, if_neg hne, he]
    refine ⟨?_, ?_⟩
    · have hone : [e].filterMap (ringEvidence k.names) = (ringEvidence k.names e).toList := by
        cases hr : ringEvidence k.names e <;> simp [hr]
      rw [hone]
      exact text
    · intro e' he'
      rw [List.mem_singleton.1 he']
      exact own

theorem ringEvidence_congr {names names' : Slot → String} {e : EvKind × Slot}
    (h : (ringEvidence names e).isSome = true → names' e.2 = names e.2) :
    ringEvidence names' e = ringEvidence names e := by
  obtain ⟨kind, slot⟩ := e
  cases kind <;> simp_all [ringEvidence]

/-- No step renames a slot in use or empties it. -/
theorem step_used {ev : Event} (h : step img k ev = .ok k') {t : Slot}
    (ht : (k.tasks t).state ≠ .empty) :
    k'.names t = k.names t ∧ (k'.tasks t).state ≠ .empty := by
  obtain ⟨hsame, hused⟩ := (step_move h).sameTasks.kept t ht
  exact ⟨hsame.name, hused⟩

/-- Evidence of entries about slots in use stays the same over a step. -/
theorem step_evidence {ev : Event} (h : step img k ev = .ok k') {evs : List (EvKind × Slot)}
    (hused : ∀ e ∈ evs, (ringEvidence k.names e).isSome = true → (k.tasks e.2).state ≠ .empty) :
    evs.filterMap (ringEvidence k'.names) = evs.filterMap (ringEvidence k.names) ∧
      ∀ e ∈ evs, (ringEvidence k'.names e).isSome = true → (k'.tasks e.2).state ≠ .empty := by
  have hsame : ∀ e ∈ evs, ringEvidence k'.names e = ringEvidence k.names e := fun e he =>
    ringEvidence_congr fun hshown => (step_used h (hused e he hshown)).1
  refine ⟨List.filterMap_congr hsame, fun e he hshown => ?_⟩
  rw [hsame e he] at hshown
  exact (step_used h (hused e he hshown)).2

/-- A step adds the evidence of what it pushes to the log, and keeps the names in the log. -/
theorem osRun_logHolds (x : OsRun img) (regs : ℕ → TrapRegs) (hclass : Classified x regs)
    (hw : x.EveryStep (WritesHarmless img)) : ∀ i, i ≤ x.len →
      (Printed (serialBefore x regs i)
        ((pushedBefore (x.weaken fun _ => OsBooted.booted) i).filterMap
          (ringEvidence (x.st i).names)) ∧
      ∀ e ∈ pushedBefore (x.weaken fun _ => OsBooted.booted) i,
        (ringEvidence (x.st i).names e).isSome = true → ((x.st i).tasks e.2).state ≠ .empty) := by
  have hos := osRun_osInv x
  have hnames : ∀ i, i ≤ x.len → SolidNames (x.st i) :=
    x.induct (OsBooted.solidNames x.init_st) fun i hi hn =>
      step_solidNames hn (hos i (Nat.le_of_lt hi)).solidTable (x.step_st i hi)
  refine x.induct ⟨OsBooted.printed x.init_st, fun _ he => absurd he List.not_mem_nil⟩ ?_
  rintro i hi ⟨htext, hused⟩
  have hstep := x.step_st i hi
  have hinv := (hos i (Nat.le_of_lt hi)).inv
  have hcur : ((x.st i).tasks (x.st i).current).state ≠ .empty := by
    rw [(hinv.wf.running _).mpr rfl]
    exact fun hs => RtState.noConfusion hs
  have htold : Told (x.st i) (x.st (i + 1)) := by
    refine step_told (hnames i (Nat.le_of_lt hi)) (hos i (Nat.le_of_lt hi)).solidTable ?_ (hw i hi)
      hstep
    intro reason hreason
    rw [hclass i hi reason hreason]
    exact faultReport_solid _
  obtain ⟨⟨out, huart, hout⟩, hown⟩ := htold.evidence
  have hall : ∀ e ∈ pushedBefore (x.weaken fun _ => OsBooted.booted) (i + 1),
      (ringEvidence (x.st i).names e).isSome = true → ((x.st i).tasks e.2).state ≠ .empty := by
    intro e he hshown
    rcases List.mem_append.1 he with hold | hnew
    · exact hused e hold hshown
    · rw [hown e hnew hshown]
      exact hcur
  obtain ⟨hevs, hused'⟩ := step_evidence hstep hall
  refine ⟨?_, hused'⟩
  rw [hevs, serialBefore, huart, List.drop_left, pushedBefore, List.filterMap_append]
  exact (htext.and_plain (trapText_printed _ _)).append hout

/-- In every run of the OS in which the tasks write only whole lines that read as no evidence, the
events of the serial log that stand for entries of the event ring are those entries: every exit,
fault, denial and recovery is in the log, once, in order and under the name of its task, whatever
else the kernel writes. A partial line, such as the prompt of the shell or the echo of the console,
is not covered: the next line of the kernel would be appended to it. -/
theorem osRun_serialEvidence (x : OsRun img) (regs : ℕ → TrapRegs) (hclass : Classified x regs)
    (hw : x.EveryStep (WritesHarmless img)) (i : ℕ) (hi : i ≤ x.len) :
    (Axiomctl.parseLog (serialLog x regs i)).events.filterMap evidenceOf =
      (pushedBefore (x.weaken fun _ => OsBooted.booted) i).filterMap
        (ringEvidence fun s => ((x.st i).tasks s).name) :=
  (osRun_logHolds x regs hclass hw i hi).1.evidence

/-- `init_service` starts the console and the supervisor, makes a call it has no right to and exits;
the supervisor waits for faults, the console writes an empty line and faults, and the supervisor
acknowledges. -/
def contained : List Event :=
  [sampleCall 8 2 0 0 0, sampleCall 8 0 0 0 0, sampleCall 3 0 0x200000 1 0, sampleCall 2 0 0 0 0,
    sampleCall 4 0 0x200000 1 0, sampleCall 9 0x200000 1 0 10,
    sampleTrap (.fault "user_access_unmapped") 0 0 0 0 0, sampleCall 7 0 2 0 0]

theorem survives_contained : survives contained = true := rfl

theorem contained_classified :
    Classified (sampleOsRun contained survives_contained) fun _ => ⟨13, 0⟩ := by
  intro i hi reason hreason
  have hall : ∀ ev ∈ contained, ev.trap = .ecall ∨ ev.trap = .fault "user_access_unmapped" := by
    decide
  have hmem : contained.getD i sampleTick ∈ contained := by
    rw [List.getD_eq_getElem?_getD, List.getElem?_eq_getElem hi, Option.getD_some]
    exact List.getElem_mem hi
  have htrap : (contained.getD i sampleTick).trap = .fault reason := hreason
  rcases hall _ hmem with hcall | hfault
  · rw [hcall] at htrap
    cases htrap
  · rw [hfault] at htrap
    cases htrap
    rfl

theorem contained_harmless :
    (sampleOsRun contained survives_contained).EveryStep (WritesHarmless sampleImage) := by
  intro i hi _ bytes hreq
  have hall : ∀ j < 8, (contained.getD j sampleTick).frame.sys = some .conWrite → j = 5 := by decide
  obtain rfl : i = 5 := hall i hi hreq.sys
  have hbytes : [10] = bytes := by
    rw [← hreq.bytes_eq]
    rfl
  subst hbytes
  refine ⟨?_, [""], ⟨rfl, ?_⟩, by decide⟩
  · exact List.forall_mem_singleton.2 (by decide)
  · exact List.forall_mem_singleton.2 List.not_mem_nil

theorem contained_log :
    (Axiomctl.parseLog (serialLog (sampleOsRun contained survives_contained)
      (fun _ => ⟨13, 0⟩) 8)).events.filterMap evidenceOf =
      [(.capDenied, some "init_service"), (.exited, some "init_service"),
        (.fault, some "console_service"), (.recovery, none)] := by
  rw [osRun_serialEvidence _ _ contained_classified contained_harmless 8 (by decide)]
  decide +kernel

end AxiomRT.Dispatch
