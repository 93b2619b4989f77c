import AxiomRT.Dispatch.Proofs.SerialTextProofs
import AxiomRT.Dispatch.Proofs.LifecycleProofs

/-!
# Proofs: the serial log and the event ring

Every trap handler writes whole lines, and those among them that stand for ring entries are the
entry the handler pushes. So the log that the host reads tells of every exit, fault, denial and
recovery of a run, in order, and of no other.
-/

namespace AxiomRT.Dispatch

open Lib

variable {img : Image} {env : Env} {k k' : Kernel}

/-! ## Names -/

/-- The names of the tasks. -/
def Core.names (c : Core) : Slot → String := fun t => (c.tasks t).name

/-- Every task name is one word or empty. -/
def SolidNames (k : Kernel) : Prop := ∀ t, Solid (k.tasks t).name

theorem names_modTask (c : Core) (t : Slot) {f : Tcb → Tcb} (hf : ∀ b, (f b).name = b.name) :
    (c.modTask t f).names = c.names := by
  funext s
  by_cases hs : s = t
  · subst hs
    simp only [Core.names, Core.modTask, Core.setTask, Function.update_self, hf]
  · simp only [Core.names, Core.modTask, Core.setTask, Function.update_of_ne hs]

theorem names_core (k : Kernel) (f : Core → Core) : (k.core f).names = (f k.toCore).names := rfl

theorem names_epSet (c : Core) (e : EpId) (w : Ep) : (c.epSet e w).names = c.names := rfl

theorem names_setState (c : Core) (t : Slot) (st : RtState) : (c.setState t st).names = c.names :=
  names_modTask c t fun _ => rfl

theorem SolidNames.of_names (h : SolidNames k) (hn : k'.names = k.names) : SolidNames k' := by
  intro t
  have hname : (k'.tasks t).name = (k.tasks t).name := congrFun hn t
  rw [hname]
  exact h t

theorem SolidNames.core {f : Core → Core} (h : SolidNames k)
    (hf : (f k.toCore).names = k.names) : SolidNames (k.core f) := h.of_names hf

/-! ## What a handler text -/

/-- The handler writes whole lines with this evidence. -/
def Writes (evs : List (EvKind × Option String)) (k k' : Kernel) : Prop :=
  ∃ out, k'.uart = k.uart ++ out ∧ Printed out evs

theorem Writes.of_uart (h : k'.uart = k.uart) : Writes [] k k' :=
  ⟨[], by rw [h, List.append_nil], .nil⟩

theorem Writes.puts {out : List Tx} {evs : List (EvKind × Option String)} (h : Printed out evs) :
    Writes evs k (k.puts out) := ⟨out, rfl, h⟩

theorem Writes.trans {k₁ : Kernel} {evs evs' : List (EvKind × Option String)} (h : Writes evs k k₁)
    (h' : Writes evs' k₁ k') : Writes (evs ++ evs') k k' := by
  obtain ⟨out, hout, hp⟩ := h
  obtain ⟨out', hout', hp'⟩ := h'
  refine ⟨out ++ out', ?_, hp.append hp'⟩
  rw [hout', hout, List.append_assoc]

/-- Afterwards only plain lines. -/
theorem Writes.and_plain {k₁ : Kernel} {evs : List (EvKind × Option String)} (h : Writes evs k k₁)
    (h' : Writes [] k₁ k') : Writes evs k k' := by
  simpa using h.trans h'

section First

variable {evs : List (EvKind × Option String)}

/-- First plain lines. -/
theorem Writes.plain_and {k₁ : Kernel} (h : Writes [] k k₁) (h' : Writes evs k₁ k') :
    Writes evs k k' :=
  h.trans h'

theorem Writes.core_and {f : Core → Core} (h : Writes evs (k.core f) k') : Writes evs k k' := h

theorem Writes.puts_and {out : List Tx} (hout : Printed out []) (h : Writes evs (k.puts out) k') :
    Writes evs k k' := (Writes.puts hout).plain_and h

theorem Writes.emit_and {pre name : String} (hpre : plainHead pre = true) (hname : Solid name)
    (h : Writes evs (k.emit pre name) k') : Writes evs k k' :=
  .puts_and (printed_emit hpre hname) h

theorem Writes.then_core {f : Core → Core} (h : Writes evs k k') : Writes evs k (k'.core f) := h

theorem Writes.then_push {kind : EvKind} {slot : Slot} (h : Writes evs k k') :
    Writes evs k (k'.ringPush kind slot) := h

theorem Writes.then_puts {out : List Tx} (h : Writes evs k k') (hout : Printed out []) :
    Writes evs k (k'.puts out) := h.and_plain (.puts hout)

theorem Writes.then_emit {pre name : String} (h : Writes evs k k') (hpre : plainHead pre = true)
    (hname : Solid name) : Writes evs k (k'.emit pre name) :=
  h.then_puts (printed_emit hpre hname)

theorem Writes.shows {out : List Tx} (h : Writes [] k k') (hout : Printed out evs) :
    Writes evs k (k'.puts out) := h.plain_and (.puts hout)

theorem Writes.ite {p : Prop} [Decidable p] {k₁ k₂ : Kernel} (h₁ : Writes evs k k₁)
    (h₂ : Writes evs k k₂) : Writes evs k (if p then k₁ else k₂) := by
  split_ifs
  · exact h₁
  · exact h₂

theorem Writes.then_if {p : Prop} [Decidable p] {out : List Tx} (h : Writes evs k k')
    (hout : Printed out []) : Writes evs k (if p then k'.puts out else k') :=
  .ite (h.then_puts hout) h

end First

/-! ## Scheduling -/

theorem resumeTask_writes {next : Slot} (h : k.resumeTask next = .ok k') : Writes [] k k' := by
  simp only [Kernel.resumeTask] at h
  cases hp : (k.tasks next).pendingIpc with
  | none =>
    rw [hp] at h
    cases h
    exact .of_uart rfl
  | some pm =>
    simp only [hp, bind_eq_ok] at h
    obtain ⟨bytes, -, h⟩ := h
    cases h
    exact .puts (printed_plain (by decide) [.dec pm.len]
      (List.forall_mem_singleton.2 (flat_dec _)))

theorem dispatchNext_writes {cur : Slot} {idle : List Tx} (hn : SolidNames k)
    (h : k.dispatchNext cur idle = .ok k') : Writes [] k k' := by
  simp only [Kernel.dispatchNext] at h
  split at h
  · next next _ => exact .emit_and (by decide) (hn next) (resumeTask_writes h)
  · cases h

theorem preempt_writes (hn : SolidNames k) (h : k.preempt = .ok k') : Writes [] k k' := by
  simp only [Kernel.preempt] at h
  split at h
  · cases h
    exact .of_uart rfl
  · next next _ =>
    split_ifs at h
    · cases h
      exact .of_uart rfl
    · have hpieces : ∀ t ∈ [Tx.str (k.tasks k.current).name, .str " selected=",
          .str (k.tasks next).name], Flat t := by
        simp only [List.forall_mem_cons]
        exact ⟨(hn _).flat, flat_of_contains (by decide), (hn _).flat, flat_nil⟩
      have hline := printed_plain (s := "SCHED preempt=") (by decide) _ hpieces
      exact .puts_and hline (.core_and (resumeTask_writes h))

theorem blockAndSwitch_writes (hn : SolidNames k) (h : k.blockAndSwitch = .ok k') :
    Writes [] k k' := by
  simp only [Kernel.blockAndSwitch] at h
  refine .core_and (dispatchNext_writes ?_ h)
  exact hn.core (names_modTask _ _ fun _ => rfl)

/-! ## Told -/

/-- What the handler pushes on the event ring, and what the serial line tells of it. -/
inductive Told (k k' : Kernel) : Prop
  | quiet (log : k'.ring = k.ring ∧ k'.ringHead = k.ringHead) (text : Writes [] k k')
  | pushed (e : EvKind × Slot)
      (log : k'.ring = Function.update k.ring (Fin.ofNat ringLen k.ringHead) e ∧
        k'.ringHead = wrappingInc k.ringHead)
      (own : (ringEvidence k.names e).isSome = true → e.2 = k.current)
      (text : Writes (ringEvidence k.names e).toList k k')

theorem Told.of_same (hlog : k'.log = k.log) (text : Writes [] k k') : Told k k' :=
  .quiet ⟨congrArg Log.ring hlog, congrArg Log.ringHead hlog⟩ text

/-- An entry about the running task that the log shows. -/
theorem Told.of_shown {kind : EvKind} {shown : EvKind × Option String}
    (hlog : k'.log = k.log.push kind k.current)
    (hshown : ringEvidence k.names (kind, k.current) = some shown) (text : Writes [shown] k k') :
    Told k k' := by
  refine .pushed (kind, k.current) ⟨congrArg Log.ring hlog, congrArg Log.ringHead hlog⟩
    (fun _ => rfl) ?_
  rw [hshown]
  exact text

/-- An entry that the log does not show. -/
theorem Told.of_hidden {kind : EvKind} {slot : Slot} (hlog : k'.log = k.log.push kind slot)
    (hhidden : ringEvidence k.names (kind, slot) = none) (text : Writes [] k k') : Told k k' := by
  refine .pushed (kind, slot) ⟨congrArg Log.ring hlog, congrArg Log.ringHead hlog⟩ ?_ ?_
  · rw [hhidden]
    exact fun hshown => Bool.noConfusion hshown
  · rw [hhidden]
    exact text

/-- First plain lines. -/
theorem Told.after (k₁ : Kernel) (hlog : k₁.log = k.log) (hnames : k₁.names = k.names)
    (hcur : k₁.current = k.current) (htext : Writes [] k k₁) (h : Told k₁ k') : Told k k' := by
  have hring : k₁.ring = k.ring := congrArg Log.ring hlog
  have hhead : k₁.ringHead = k.ringHead := congrArg Log.ringHead hlog
  cases h with
  | quiet log text =>
    rw [hring, hhead] at log
    exact .quiet log (htext.plain_and text)
  | pushed e log own text =>
    rw [hring, hhead] at log
    rw [hnames, hcur] at own
    rw [hnames] at text
    exact .pushed e log own (htext.plain_and text)

theorem blockAndSwitch_told {k₁ : Kernel} (hlog : k₁.log = k.log) (hn : SolidNames k₁)
    (htext : Writes [] k k₁) (h : k₁.blockAndSwitch = .ok k') : Told k k' :=
  .of_same ((blockAndSwitch_log h).trans hlog) (htext.and_plain (blockAndSwitch_writes hn h))

theorem switch_told {exiting : Bool} (hn : SolidNames k)
    (h : k.switch img exiting = .ok k') : Told k k' := by
  have hname : Solid k.curName := hn k.current
  cases exiting with
  | false =>
    simp only [Kernel.switch, Bool.false_eq_true, if_false] at h
    split at h
    · next next _ =>
      have hn' : SolidNames (k.core fun c => c.modTask k.current
          ({ · with frame := c.frame, state := .ready })) :=
        hn.core (names_modTask _ _ fun _ => rfl)
      refine .of_same ?_ (Writes.and_plain ?_ (resumeTask_writes h))
      · rw [resumeTask_log h]
        split_ifs <;> rfl
      · split_ifs
        · exact .then_core (.of_uart rfl)
        · exact ((Writes.of_uart rfl).then_emit (by decide) hname).then_emit (by decide) (hn' next)
    · cases h
  | true =>
    simp only [Kernel.switch, if_true, Bool.not_true, Bool.and_false, Bool.false_and,
      Bool.false_eq_true, if_false] at h
    split at h
    · next next _ =>
      have hn' : SolidNames (k.core (·.setState k.current .killed)) :=
        hn.core (names_setState ..)
      have hcall : Writes [] k (k.emit "SYSCALL name=sys_exit task=" k.curName) :=
        (Writes.of_uart rfl).then_emit (by decide) hname
      have hkill := hcall.then_core (f := (·.setState k.current .killed))
      have hexit := hkill.shows (printed_exited hname)
      refine .of_shown (resumeTask_log h) rfl (Writes.and_plain ?_ (resumeTask_writes h))
      exact hexit.then_push.then_emit (by decide) (hn' next)
    · cases h

/-! ## Faults -/

theorem irqDropForTask_writes (k : Kernel) (slot : Slot) :
    Writes [] k (k.irqDropForTask slot) := by
  simp only [Kernel.irqDropForTask]
  generalize List.finRange numDevices = l
  induction l generalizing k with
  | nil => exact .of_uart rfl
  | cons i l ih =>
    refine Writes.plain_and ?_ (ih _)
    simp only [Kernel.irqDropRoute]
    split_ifs
    · exact .then_puts (.of_uart rfl) (printed_literal (by decide))
    · exact .of_uart rfl

theorem irqDropForTask_names (k : Kernel) (slot : Slot) :
    (k.irqDropForTask slot).names = k.names := by
  simp only [Kernel.irqDropForTask]
  generalize List.finRange numDevices = l
  induction l generalizing k with
  | nil => rfl
  | cons i l ih =>
    rw [List.foldl_cons, ih]
    simp only [Kernel.irqDropRoute]
    split_ifs <;> rfl

theorem notifyEndpoint_names (k : Kernel) (e : EpId) (code : UInt8) :
    (k.notifyEndpoint e code).1.names = k.names := by
  simp only [Kernel.notifyEndpoint]
  split
  · split_ifs
    · rw [names_core, names_epSet, names_core, names_modTask _ _ (by intro _; rfl)]
    · rfl
  · rfl

theorem notifyEndpoint_writes (k : Kernel) (e : EpId) (code : UInt8) :
    Writes [] k (k.notifyEndpoint e code).1 := by
  simp only [Kernel.notifyEndpoint]
  split
  · split_ifs
    · exact .of_uart rfl
    · exact .of_uart rfl
  · exact .of_uart rfl

theorem notifySupervisorAndLogger_writes (k : Kernel) {name : String} (hname : Solid name) :
    Writes [] k (k.notifySupervisorAndLogger name) := by
  have hsup := notifyEndpoint_writes k Kernel.epFault Kernel.faultCodeWatchdog
  have htold : Writes [] k ((k.notifyEndpoint Kernel.epFault Kernel.faultCodeWatchdog).1.emit
      "IPC delivered fault_event to=supervisor_task from=" name) := hsup.then_emit (by decide) hname
  have hline : Printed [.str "LOGGER event=TASK_FAULTED task=", .str name, .str "\n"] [] :=
    printed_emit (by decide) hname
  simp only [Kernel.notifySupervisorAndLogger]
  split_ifs
  · exact (htold.and_plain (notifyEndpoint_writes _ _ _)).then_puts hline
  · exact htold.and_plain (notifyEndpoint_writes _ _ _)
  · exact (hsup.and_plain (notifyEndpoint_writes _ _ _)).then_puts hline
  · exact hsup.and_plain (notifyEndpoint_writes _ _ _)

theorem notifySupervisorAndLogger_names (k : Kernel) (name : String) :
    (k.notifySupervisorAndLogger name).names = k.names := by
  have hemit : ∀ (k : Kernel) (pre n : String), (k.emit pre n).names = k.names := fun _ _ _ => rfl
  have hputs : ∀ (k : Kernel) (out : List Tx), (k.puts out).names = k.names := fun _ _ => rfl
  simp only [Kernel.notifySupervisorAndLogger]
  split_ifs <;> simp only [hputs, hemit, notifyEndpoint_names]

theorem faultCurrent_writes (hn : SolidNames k) (h : k.faultCurrent = .ok k') :
    Writes [] k k' := by
  simp only [Kernel.faultCurrent] at h
  refine .core_and (Writes.plain_and (irqDropForTask_writes _ k.current)
    (Writes.plain_and (notifySupervisorAndLogger_writes _ (hn k.current))
      (dispatchNext_writes ?_ h)))
  refine hn.of_names ?_
  rw [notifySupervisorAndLogger_names, irqDropForTask_names, names_core, names_setState]

theorem containFault_told {reason : String} (hn : SolidNames k) (hreason : Solid reason)
    (h : k.containFault reason = .ok k') : Told k k' := by
  simp only [Kernel.containFault] at h
  have hname : Solid k.curName := hn k.current
  have hpieces : ∀ t ∈ [Tx.str reason, .str " action=faulted kernel=alive"], Flat t := by
    simp only [List.forall_mem_cons]
    exact ⟨hreason.flat, flat_of_contains (by decide), flat_nil⟩
  have hcontain : Printed [.str "CONTAIN scope=user reason=", .str reason,
      .str " action=faulted kernel=alive\n"] [] := by
    refine (printed_plain (s := "CONTAIN scope=user reason=") (by decide) _ hpieces).congr ?_
    simp [serialChars, Tx.chars]
  have hpush : Writes [] k (k.ringPush .fault k.current) := (Writes.of_uart rfl).then_push
  have hlines := (hpush.shows (printed_pageFault hname)).then_puts hcontain
  refine .of_shown (faultCurrent_log h) rfl (hlines.and_plain (faultCurrent_writes ?_ h))
  exact hn

/-- The watchdog counts, or it tells of the fault. -/
theorem watchdogTick_told {faulted : Bool} (hn : SolidNames k)
    (h : k.watchdogTick = .ok (k', faulted)) :
    Told k k' ∧ (faulted = false → SolidNames k' ∧ k'.log = k.log ∧ Writes [] k k') := by
  simp only [Kernel.watchdogTick] at h
  split_ifs at h with hexp
  · cases h
    exact ⟨.of_same rfl (.of_uart rfl), fun _ => ⟨hn, rfl, .of_uart rfl⟩⟩
  · rw [bind_eq_ok] at h
    obtain ⟨k₂, hf, h⟩ := h
    cases h
    refine ⟨?_, fun hf => Bool.noConfusion hf⟩
    have hlog : k'.log = k.log.push .fault k.current := faultCurrent_log hf
    have hcontain : Printed
        [.str "CONTAIN scope=user reason=watchdog_timeout action=faulted kernel=alive\n"] [] :=
      printed_literal (by decide)
    refine .of_shown hlog rfl (Writes.and_plain ?_ (faultCurrent_writes ?_ hf))
    · refine Writes.then_puts (Writes.shows ?_ (printed_watchdog (hn k.current))) hcontain
      exact .then_push (.of_uart rfl)
    · exact hn

theorem onTimerInterrupt_told (hn : SolidNames k) (h : k.onTimerInterrupt = .ok k') :
    Told k k' := by
  simp only [Kernel.onTimerInterrupt, bind_eq_ok] at h
  obtain ⟨⟨k₁, faulted⟩, hw, h⟩ := h
  generalize hk₀ : (if wrappingInc k.timerTicks ≤ 3 then
      { k with timerTicks := wrappingInc k.timerTicks }.puts
        [.str "TIMER tick=", .dec (wrappingInc k.timerTicks), .str "\n"]
      else { k with timerTicks := wrappingInc k.timerTicks }) = k₀ at hw
  have hlog : k₀.log = k.log := by
    rw [← hk₀]
    split_ifs <;> rfl
  have hcore : k₀.toCore = k.toCore := by
    rw [← hk₀]
    split_ifs <;> rfl
  have htick : Writes [] k k₀ := by
    rw [← hk₀]
    split_ifs
    · exact .then_puts (.of_uart rfl) (printed_plain (by decide) [.dec _]
        (List.forall_mem_singleton.2 (flat_dec _)))
    · exact .of_uart rfl
  have hnames : k₀.names = k.names := congrArg Core.names hcore
  have hn₀ : SolidNames k₀ := hn.of_names hnames
  obtain ⟨htold, hquiet⟩ := watchdogTick_told hn₀ hw
  refine Told.after k₀ hlog hnames (congrArg Core.current hcore) htick ?_
  cases faulted with
  | false =>
    obtain ⟨hn₁, hlog₁, htext⟩ := hquiet rfl
    exact .of_same ((preempt_log h).trans hlog₁) (htext.and_plain (preempt_writes hn₁ h))
  | true =>
    cases h
    exact htold

/-! ## Denials -/

theorem denyCap_told (hn : SolidNames k) (check : CapCheck) {code : Int} :
    Told k ((k.denyCap k.current check).1.core (·.setA0 code)) := by
  have hname : Solid (k.tasks k.current).name := hn k.current
  have hdenied : Printed [.str "CAP_DENIED task=", .str (k.tasks k.current).name,
      .str " reason=no_valid_capability\n"] [(.capDenied, some (k.tasks k.current).name)] := by
    have hreason : Solid "no_valid_capability" := by decide
    refine (printed_denied (List.mem_cons_self : "CAP_DENIED" ∈ deniedKinds) hname
      hreason).congr ?_
    simp [serialChars, Tx.chars]
  have hboth := hdenied.and_plain (printed_literal (s := "IPC state=unchanged\n") (by decide))
  refine .of_shown (rfl : _ = k.log.push .capDenied k.current) rfl ?_
  exact .then_core (.shows (.then_push (.of_uart rfl)) hboth)

theorem denyAuthority_told (hn : SolidNames k) {what : String} (hwhat : Solid what) :
    Told k (k.denyAuthority k.current what) := by
  have hdenied : Printed [.str "CAP_DENIED task=", .str (k.tasks k.current).name, .str " reason=",
      .str what, .str "\n"] [(.capDenied, some (k.tasks k.current).name)] := by
    refine (printed_denied (List.mem_cons_self : "CAP_DENIED" ∈ deniedKinds) (hn k.current)
      hwhat).congr ?_
    simp [serialChars, Tx.chars]
  refine .of_shown (rfl : _ = k.log.push .capDenied k.current) rfl ?_
  exact .then_core (.shows (.then_push (.of_uart rfl)) hdenied)

theorem denyDeviceOp_told (hn : SolidNames k) {kind reason : String} {code : Int}
    (hkind : kind ∈ deniedKinds) (hreason : Solid reason) :
    Told k ((k.denyDeviceOp k.current kind reason).core (·.setA0 code)) := by
  refine .of_shown (rfl : _ = k.log.push .capDenied k.current) rfl ?_
  exact .then_core (.shows (.then_push (.of_uart rfl))
    (printed_denied hkind (hn k.current) hreason))

theorem denyDevice_told (hn : SolidNames k) {kind : String} (hkind : kind ∈ deniedKinds)
    (check : CapCheck) : Told k (k.denyDevice k.current kind check) := by
  refine denyDeviceOp_told hn hkind ?_
  cases check with
  | ok id => exact (by decide : Solid "unexpected")
  | invalidCap => exact (by decide : Solid "no_valid_capability")
  | wrongType => exact (by decide : Solid "no_valid_capability")
  | insufficientRights => exact (by decide : Solid "insufficient_rights")

/-! ## IPC -/

theorem ipcDenied_told {k₁ : Kernel} (hlog : k₁.log = k.log) (huart : k₁.uart = k.uart)
    {code : Int} {what name : String} (hwhat : plainHead what = true) (hname : Solid name) :
    Told k (k₁.ipcDenied code what name) :=
  .of_same hlog (.then_emit (.then_core (.of_uart huart)) hwhat hname)

theorem ipcSend_told (hn : SolidNames k) (h : k.ipcSend img = .ok k') : Told k k' := by
  have hname : Solid k.curName := hn k.current
  simp only [Kernel.ipcSend] at h
  split at h
  · split_ifs at h
    · cases h
      exact ipcDenied_told rfl rfl (by decide) hname
    · cases h
      exact ipcDenied_told rfl rfl (by decide) hname
    · rw [bind_eq_ok] at h
      obtain ⟨e, -, h⟩ := h
      split at h
      · rw [bind_eq_ok] at h
        obtain ⟨k₁, hstage, h⟩ := h
        cases h
        have hsend : Printed [.str "IPC endpoint=log op=send\n"] [] := printed_literal (by decide)
        have hsent : Writes [] k (((k.core (·.copyFromUser (k.frame.arg 1) (k.frame.arg 2))).emit
            "IPC send task=" k.curName).puts [.str "IPC endpoint=log op=send\n"]) :=
          .then_puts (.then_emit (.of_uart rfl) (by decide) hname) hsend
        rw [stageFor_eq_ok hstage]
        exact .of_same rfl (.then_core (.then_core hsent))
      · have hblock : Printed [.str "IPC endpoint=log op=send state=blocked\n"] [] :=
          printed_literal (by decide)
        refine blockAndSwitch_told ?_ ?_ ?_ h
        · rfl
        · exact hn
        · exact .then_puts (.then_emit (.of_uart rfl) (by decide) hname) hblock
      · cases h
        refine ipcDenied_told ?_ ?_ (by decide) hname
        · rfl
        · rfl
  · cases h
    exact denyCap_told hn _

theorem emitIrqDelivered_printed {receiver : String} (hreceiver : Solid receiver) (dev : DevId) :
    Printed [.str "IRQ delivered to=", .str receiver, .str " source=", .str (devices dev).name,
      .str "\n"] [] := by
  have hdev : Solid (devices dev).name := by revert dev; decide
  refine printed_plain (by decide) [.str receiver, .str " source=", .str (devices dev).name] ?_
  simp only [List.forall_mem_cons]
  exact ⟨hreceiver.flat, flat_of_contains (by decide), hdev.flat, flat_nil⟩

theorem ipcRecv_told (hn : SolidNames k) (h : k.ipcRecv = .ok k') : Told k k' := by
  have hname : Solid k.curName := hn k.current
  simp only [Kernel.ipcRecv] at h
  split at h
  · split at h
    · next dev _ =>
      split_ifs at h
      · cases h
        exact ipcDenied_told rfl rfl (by decide) hname
      · cases h
        refine .of_same ?_ (.then_core ?_)
        · simp only [Kernel.log_emitIrqDelivered, Kernel.log_core]
        · exact .then_puts (.then_core (.of_uart rfl)) (emitIrqDelivered_printed hname dev)
    · rw [bind_eq_ok] at h
      obtain ⟨e, -, h⟩ := h
      split at h
      · next tid len _ =>
        split_ifs at h
        · cases h
          exact ipcDenied_told rfl rfl (by decide) hname
        · rw [bind_eq_ok] at h
          obtain ⟨bytes, -, h⟩ := h
          cases h
          have hline : Printed [.str "IPC delivered bytes=", .dec len, .str "\n"] [] :=
            printed_plain (by decide) [.dec len] (List.forall_mem_singleton.2 (flat_dec _))
          refine .of_same ?_ (.then_puts (.then_emit ?_ (by decide) hname) hline)
          · simp only [Kernel.log_puts, Kernel.log_emit, Kernel.log_core]
          · exact .then_core (.then_core (.of_uart rfl))
      · split_ifs at h
        · cases h
          exact ipcDenied_told rfl rfl (by decide) hname
        · have hblock : Printed [.str "IPC endpoint=log op=recv state=blocked\n"] [] :=
            printed_literal (by decide)
          refine blockAndSwitch_told ?_ ?_ ?_ h
          · rfl
          · exact hn
          · exact .then_puts (.then_emit (.of_uart rfl) (by decide) hname) hblock
      · cases h
        exact ipcDenied_told rfl rfl (by decide) hname
  · cases h
    exact denyCap_told hn _

theorem recoveryPolicy_solid (decision : ℕ) : Solid (Kernel.recoveryPolicy decision) := by
  unfold Kernel.recoveryPolicy
  split <;> decide

theorem faultAck_told (hn : SolidNames k) : Told k k.faultAck := by
  have hpolicy := recoveryPolicy_solid (k.frame.arg 1)
  have hpieces : ∀ t ∈ [Tx.str (Kernel.recoveryPolicy (k.frame.arg 1)), .str " by=",
      .str k.curName], Flat t := by
    simp only [List.forall_mem_cons]
    exact ⟨hpolicy.flat, flat_of_contains (by decide), (hn k.current).flat, flat_nil⟩
  have hdecision := printed_plain (s := "SUPERVISOR decision=") (by decide) _ hpieces
  have hboth := hdecision.plain_and (printed_recovery hpolicy)
  refine .of_shown (rfl : _ = k.log.push .recovery k.current) rfl ?_
  exact .then_core (.then_push (.shows (.of_uart rfl) hboth))

/-! ## Task control -/

theorem devices_solid (dev : DevId) : Solid (devices dev).name ∧ Solid (devices dev).mmioName ∧
    Solid (devices dev).dmaName := by
  revert dev
  decide

theorem announceGrant_writes {slot : Slot} (hname : Solid (k.tasks slot).name)
    (i : Fin capsPerTask) : Writes [] k (k.announceGrant slot i) := by
  simp only [Kernel.announceGrant]
  split
  · exact .of_uart rfl
  · next c _ =>
    refine .ite (.of_uart rfl) ?_
    by_cases hid : c.objectId < numDevices
    · rw [dif_pos hid]
      obtain ⟨hdev, hmmio, hdma⟩ := devices_solid ⟨c.objectId, hid⟩
      refine .then_if (.then_if (.ite (.of_uart rfl) (.of_uart rfl)) ?_) ?_
      · refine printed_plain (by decide) [.str _, .str " device=", .str _, .str " region=",
          .str _] ?_
        simp only [List.forall_mem_cons]
        exact ⟨hname.flat, flat_of_contains (by decide), hdev.flat, flat_of_contains (by decide),
          hmmio.flat, flat_nil⟩
      · refine printed_plain (by decide) [.str _, .str " buffer=", .str _, .str " size=",
          .dec _] ?_
        simp only [List.forall_mem_cons]
        exact ⟨hname.flat, flat_of_contains (by decide), hdma.flat, flat_of_contains (by decide),
          flat_dec _, flat_nil⟩
    · rw [dif_neg hid]
      exact .of_uart rfl

theorem announceGrant_names (k : Kernel) (slot : Slot) (i : Fin capsPerTask) :
    (k.announceGrant slot i).names = k.names := by
  rw [announceGrant_core]
  rfl

theorem announceDeviceGrants_writes {slot : Slot} (hname : Solid (k.tasks slot).name) :
    Writes [] k (k.announceDeviceGrants slot) := by
  simp only [Kernel.announceDeviceGrants]
  generalize List.finRange capsPerTask = l
  induction l generalizing k with
  | nil => exact .of_uart rfl
  | cons i l ih =>
    have hname' : Solid ((k.announceGrant slot i).tasks slot).name := by
      have hsame : ((k.announceGrant slot i).tasks slot).name = (k.tasks slot).name :=
        congrFun (announceGrant_names k slot i) slot
      rw [hsame]
      exact hname
    exact (announceGrant_writes hname i).plain_and (ih hname')

/-- Every name in the service table is one word. -/
def SolidTable (k : Kernel) : Prop :=
  ∀ table, k.serviceTable = some table → ∀ d ∈ table, Solid d.name

theorem startService_told {index : ℕ} {v w : Int} (htable : SolidTable k)
    (h : k.startService img env index = .ok (k', v)) : Told k (k'.core (·.setA0 w)) := by
  simp only [Kernel.startService] at h
  split at h
  · cases h
    exact .of_same rfl (.of_uart rfl)
  · next table htab =>
    split at h
    · cases h
      exact .of_same rfl (.of_uart rfl)
    · next d hd =>
      have hname : Solid d.name := htable table htab d (List.mem_of_getElem? hd)
      rw [bind_eq_ok] at h
      obtain ⟨slot, -, h⟩ := h
      split at h
      · split at h
        · cases h
        · cases h
          refine .of_hidden (?_ : _ = k.log.push .started slot) rfl
            (.then_core (.then_emit (.then_push ?_) (by decide) hname))
          · simp only [Kernel.log_core, Kernel.log_emit, Kernel.log_ringPush,
              announceDeviceGrants_log, Kernel.registerTask]
          · refine .core_and (.core_and (announceDeviceGrants_writes ?_))
            simpa [Kernel.core, Core.modTask, Core.setTask, registeredTcb] using hname
      · cases h
        refine .of_hidden rfl rfl (.then_core (.then_emit (.then_push ?_) (by decide) hname))
        exact .of_uart rfl
      · cases h
        refine .of_hidden rfl rfl (.then_core (.then_emit (.then_push ?_) (by decide) hname))
        exact .of_uart rfl
      · cases h
        exact .of_same rfl (.of_uart rfl)
      · cases h
        exact .of_same rfl (.of_uart rfl)
      · cases h
        exact .of_same rfl (.of_uart rfl)

theorem sysTaskStart_told (hn : SolidNames k) (htable : SolidTable k)
    (h : k.sysTaskStart img env = .ok k') : Told k k' := by
  simp only [Kernel.sysTaskStart] at h
  split_ifs at h
  · cases h
    exact denyAuthority_told hn (by decide)
  · rw [bind_eq_ok] at h
    obtain ⟨⟨k₁, v⟩, hst, h⟩ := h
    cases h
    exact startService_told htable hst

theorem names_epClearForTask (c : Core) (slot : Slot) :
    (c.epClearForTask slot).names = c.names := rfl

theorem names_rearm (k : Kernel) (env : Env) (slot : Slot) :
    (k.rearm env slot).names = k.names := by
  rw [Kernel.rearm, names_core, names_setState, names_epClearForTask, names_core,
    names_modTask _ _ (by intro _; rfl)]

theorem names_kill (k : Kernel) (slot : Slot) :
    ((k.core fun c => (c.modTask slot ({ · with
      state := .killed, pendingIpc := none })).epClearForTask slot).irqDropForTask slot).names =
      k.names := by
  rw [irqDropForTask_names, names_core, names_epClearForTask, names_modTask _ _ (by intro _; rfl)]

theorem sysTaskKill_told (hn : SolidNames k) (h : k.sysTaskKill = .ok k') : Told k k' := by
  simp only [Kernel.sysTaskKill] at h
  split_ifs at h with hctl hlt hempty hself
  · cases h
    exact denyAuthority_told hn (by decide)
  · cases h
    exact .of_same rfl (.of_uart rfl)
  · have hnames := names_kill k ⟨k.frame.arg 0, hlt⟩
    refine .of_hidden (?_ : _ = k.log.push .killed ⟨k.frame.arg 0, hlt⟩) rfl
      (Writes.and_plain ?_ (dispatchNext_writes ?_ h))
    · rw [dispatchNext_log h]
      simp only [Kernel.log_emit, Kernel.log_ringPush, irqDropForTask_log, Kernel.log_core]
    · refine .then_emit (.then_push (.core_and (irqDropForTask_writes _ _))) (by decide) ?_
      exact hn.of_names hnames _
    · exact hn.of_names hnames
  · cases h
    have hnames := names_kill k ⟨k.frame.arg 0, hlt⟩
    refine .of_hidden (?_ : _ = k.log.push .killed ⟨k.frame.arg 0, hlt⟩) rfl (.then_core ?_)
    · simp only [Kernel.log_emit, Kernel.log_ringPush, irqDropForTask_log, Kernel.log_core]
    · refine .then_emit (.then_push (.core_and (irqDropForTask_writes _ _))) (by decide) ?_
      exact hn.of_names hnames _
  · cases h
    exact .of_same rfl (.of_uart rfl)

theorem sysTaskRestart_told (hn : SolidNames k) (h : k.sysTaskRestart env = .ok k') :
    Told k k' := by
  simp only [Kernel.sysTaskRestart] at h
  split_ifs at h with hctl hlt hbad
  · cases h
    exact denyAuthority_told hn (by decide)
  · cases h
    exact .of_same rfl (.of_uart rfl)
  · cases h
    refine .of_hidden (rfl : _ = k.log.push .restarted ⟨k.frame.arg 0, hlt⟩) rfl
      (.then_core (.then_emit (.then_push (.of_uart rfl)) (by decide) ?_))
    exact hn.of_names (names_rearm k env _) _
  · cases h
    exact .of_same rfl (.of_uart rfl)

theorem sysShutdown_told (hn : SolidNames k) (h : k.sysShutdown = .ok k') : Told k k' := by
  simp only [Kernel.sysShutdown] at h
  split_ifs at h
  cases h
  exact denyAuthority_told hn (by decide)

/-! ## Devices, console and introspection -/

theorem irqRaise_writes (hn : SolidNames k) (dev : DevId) : Writes [] k (k.irqRaise dev).1 := by
  simp only [Kernel.irqRaise]
  split
  · exact .then_puts (.of_uart rfl) (printed_literal (by decide))
  · split
    · split_ifs
      · exact .then_puts (.of_uart rfl) (emitIrqDelivered_printed (hn _) dev)
      · exact .puts (printed_literal (by decide))
    · exact .of_uart rfl

theorem sysIrqRaise_told (hn : SolidNames k) (h : k.sysIrqRaise = .ok k') : Told k k' := by
  simp only [Kernel.sysIrqRaise] at h
  split at h
  · rw [bind_eq_ok] at h
    obtain ⟨dev, -, h⟩ := h
    cases h
    refine .of_same ?_ (.then_core (irqRaise_writes hn dev))
    rw [Kernel.log_core, irqRaise_log]
  · cases h
    exact denyDevice_told hn (by decide) _

theorem sysInfo_told (hn : SolidNames k) : Told k k.sysInfo := by
  simp only [Kernel.sysInfo]
  split_ifs
  · exact denyAuthority_told hn (by decide)
  · exact .of_same rfl (.of_uart rfl)
  · split
    · exact .of_same rfl (.of_uart rfl)
    · exact .of_same rfl (.of_uart rfl)

theorem sysConRead_told (hn : SolidNames k) : Told k (k.sysConRead env) := by
  simp only [Kernel.sysConRead]
  split_ifs
  · exact denyAuthority_told hn (by decide)
  · exact .of_same rfl (.of_uart rfl)
  · exact .of_same rfl (.of_uart rfl)

theorem stubDispatch_told (k : Kernel) : Told k k.stubDispatch := by
  simp only [Kernel.stubDispatch]
  split
  · refine .of_same rfl (.then_core (.puts ?_))
    refine (printed_literal (s :=
      "SYSCALL name=sys_reply status=stub result=ERR_NOT_IMPLEMENTED\n") (by decide)).congr ?_
    decide
  · refine .of_same rfl (.then_core (.puts ?_))
    refine (printed_literal (s :=
      "SYSCALL name=sys_cap_query status=stub result=ERR_NOT_IMPLEMENTED\n") (by decide)).congr ?_
    decide
  · exact .of_same rfl (.then_core (.puts (printed_literal (by decide))))

theorem sysDeviceInfo_told (hn : SolidNames k) (h : k.sysDeviceInfo = .ok k') : Told k k' := by
  simp only [Kernel.sysDeviceInfo] at h
  split at h
  · split_ifs at h
    · cases h
      exact .of_same rfl (.of_uart rfl)
    · rw [bind_eq_ok] at h
      obtain ⟨dev, -, h⟩ := h
      cases h
      exact .of_same rfl (.of_uart rfl)
  · cases h
    exact denyDevice_told hn (by decide) _

theorem sysConWrite_told (hn : SolidNames k) (hsys : k.frame.sys = some .conWrite)
    (hw : ∀ bytes, ConWriteReq img k.toCore bytes → Harmless bytes) :
    Told k (k.sysConWrite img) := by
  simp only [Kernel.sysConWrite]
  split_ifs with hcap hbad
  · exact denyAuthority_told hn (by decide)
  · exact .of_same rfl (.of_uart rfl)
  · simp only [Bool.or_eq_true, decide_eq_true_eq, Bool.not_eq_true', not_or, Nat.not_lt,
      Bool.not_eq_false] at hcap hbad
    have hharmless := hw _ ⟨hsys, hcap, hbad.1, hbad.2, rfl⟩
    have hbytes : (List.range (k.frame.arg 1)).flatMap
        (fun i => Kernel.conByte (k.readUser (k.frame.arg 0 + i))) =
        (k.seen (k.frame.arg 0) (k.frame.arg 1)).flatMap Kernel.conByte := by
      rw [Core.seen, window, List.flatMap_map]
    refine .of_same rfl (.then_core (.then_puts (.of_uart rfl) ?_))
    rw [hbytes]
    exact hharmless.lines

/-- The denials of the device calls. -/
theorem deviceCall_told {required : UInt16} {kind : String} {size : DevId → ℕ}
    {f : DevId → Except Stop Kernel} (hn : SolidNames k) (hkind : kind ∈ deniedKinds)
    (hf : ∀ dev, f dev = .ok k' → Told k k')
    (h : (match k.deviceCapCheck k.current (k.frame.arg 0) required with
      | .ok id => devIndex id >>= fun dev =>
        if !Kernel.accessInBounds (size dev) (k.frame.arg 1) (k.frame.arg 2) then
          .ok ((k.denyDeviceOp k.current kind "out_of_range").core (·.setA0 errInvalidArg))
        else f dev
      | other => .ok (k.denyDevice k.current kind other)) = .ok k') : Told k k' := by
  split at h
  · rw [bind_eq_ok] at h
    obtain ⟨dev, -, h⟩ := h
    split_ifs at h with hacc
    · cases h
      exact denyDeviceOp_told hn hkind (by decide)
    · exact hf dev h
  · cases h
    exact denyDevice_told hn hkind _

/-- The record of a register access. -/
theorem printed_mmio {s name : String} (hs : plainHead s = true) (hname : Solid name)
    (dev : DevId) (offset value : ℕ) :
    Printed [.str s, .str name, .str " device=", .str (devices dev).name, .str " offset=",
      .dec offset, .str " value=", .hex value, .str "\n"] [] := by
  obtain ⟨hdev, -, -⟩ := devices_solid dev
  refine printed_plain hs [.str name, .str " device=", .str (devices dev).name, .str " offset=",
    .dec offset, .str " value=", .hex value] ?_
  simp only [List.forall_mem_cons]
  exact ⟨hname.flat, flat_of_contains (by decide), hdev.flat, flat_of_contains (by decide),
    flat_dec _, flat_of_contains (by decide), flat_hex _, flat_nil⟩

theorem sysMmioRead_told (hn : SolidNames k) (h : k.sysMmioRead env = .ok k') : Told k k' := by
  unfold Kernel.sysMmioRead at h
  refine deviceCall_told hn (by decide) ?_ h
  intro dev hdev
  cases hdev
  refine .quiet ⟨rfl, rfl⟩ (.then_core (.then_puts (.of_uart rfl) ?_))
  exact printed_mmio (by decide) (hn k.current) dev _ _

theorem sysMmioWrite_told (hn : SolidNames k) (h : k.sysMmioWrite = .ok k') : Told k k' := by
  unfold Kernel.sysMmioWrite at h
  refine deviceCall_told hn (by decide) ?_ h
  intro dev hdev
  cases hdev
  refine .quiet ⟨rfl, rfl⟩ (.then_core (.then_puts (.of_uart rfl) ?_))
  exact printed_mmio (by decide) (hn k.current) dev _ _

theorem dmaAccess_told {required : UInt16} {write : Bool} (hn : SolidNames k)
    (h : k.dmaAccess img required write = .ok k') : Told k k' := by
  unfold Kernel.dmaAccess at h
  refine deviceCall_told hn (by decide) ?_ h
  intro dev hdev
  split_ifs at hdev
  · cases hdev
    exact .quiet ⟨rfl, rfl⟩ (.of_uart rfl)
  · cases hdev
    exact .quiet ⟨rfl, rfl⟩ (.of_uart rfl)

/-! ## Steps -/

theorem onSyscall_told (hn : SolidNames k) (htable : SolidTable k)
    (hw : ∀ bytes, ConWriteReq img k.toCore bytes → Harmless bytes)
    (h : k.onSyscall img env = .ok k') : Told k k' := by
  simp only [Kernel.onSyscall] at h
  refine Told.after (k.core ({ · with watchdogMiss := 0 })) rfl rfl rfl (.of_uart rfl) ?_
  have hw₁ : ∀ bytes, ConWriteReq img (k.core ({ · with watchdogMiss := 0 })).toCore bytes →
      Harmless bytes :=
    fun bytes hreq => hw bytes ⟨hreq.sys, hreq.holds, hreq.short, hreq.readable, hreq.bytes_eq⟩
  have hn₁ : SolidNames (k.core ({ · with watchdogMiss := 0 })) := hn
  have htable₁ : SolidTable (k.core ({ · with watchdogMiss := 0 })) := htable
  generalize k.core ({ · with watchdogMiss := 0 }) = k₁ at *
  cases hs : k₁.frame.sys with
  | none =>
    rw [hs] at h
    cases h
    exact stubDispatch_told k₁
  | some call =>
    rw [hs] at h
    cases call with
    | yield => exact switch_told hn₁ h
    | exit => exact switch_told hn₁ h
    | send => exact ipcSend_told hn₁ h
    | recv => exact ipcRecv_told hn₁ h
    | faultAck =>
      cases h
      exact faultAck_told hn₁
    | taskStart => exact sysTaskStart_told hn₁ htable₁ h
    | conWrite =>
      cases h
      exact sysConWrite_told hn₁ hs hw₁
    | conRead =>
      cases h
      exact sysConRead_told hn₁
    | info =>
      cases h
      exact sysInfo_told hn₁
    | taskKill => exact sysTaskKill_told hn₁ h
    | taskRestart => exact sysTaskRestart_told hn₁ h
    | shutdown => exact sysShutdown_told hn₁ h
    | deviceInfo => exact sysDeviceInfo_told hn₁ h
    | mmioRead => exact sysMmioRead_told hn₁ h
    | mmioWrite => exact sysMmioWrite_told hn₁ h
    | dmaRead => exact dmaAccess_told hn₁ h
    | dmaWrite => exact dmaAccess_told hn₁ h
    | irqRaise => exact sysIrqRaise_told hn₁ h

/-- The reasons that the trap layer gives for a fault. -/
theorem faultReport_solid (r : TrapRegs) : Solid (faultReport r).2 := by
  unfold faultReport
  split_ifs
  · decide
  · dsimp only
    unfold pageFaultReason
    split_ifs <;> decide
  · decide

/-- A step tells of the entry it pushes. -/
theorem step_told {ev : Event} (hn : SolidNames k) (htable : SolidTable k)
    (hreason : ∀ reason, ev.trap = .fault reason → Solid reason) (hw : WritesHarmless img k ev)
    (h : step img k ev = .ok k') : Told k k' := by
  simp only [step] at h
  cases ht : ev.trap with
  | ecall =>
    rw [ht] at h
    refine Told.after ((k.core (·.enter ev)).core (·.advance)) rfl rfl rfl (.of_uart rfl)
      (onSyscall_told hn htable ?_ h)
    intro bytes hreq
    exact hw ht bytes ⟨hreq.sys, hreq.holds, hreq.short, hreq.readable, hreq.bytes_eq⟩
  | timer =>
    rw [ht] at h
    exact Told.after (k.core (·.enter ev)) rfl rfl rfl (.of_uart rfl)
      (onTimerInterrupt_told hn h)
  | fault reason =>
    rw [ht] at h
    exact Told.after (k.core (·.enter ev)) rfl rfl rfl (.of_uart rfl)
      (containFault_told hn (hreason reason ht) h)

end AxiomRT.Dispatch
