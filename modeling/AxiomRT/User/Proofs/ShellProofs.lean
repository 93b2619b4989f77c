import AxiomRT.User.Proofs.CallProofs
import AxiomRT.User.Proofs.TextProofs
import AxiomRT.User.Shell

/-!
# Proofs: task control from the shell

Which task control calls a line can lead to, whatever the other services and the kernel answer.
-/

namespace AxiomRT.User

open Lib Prog

/-- The line is the command word followed by a numeral that denotes `k`. -/
def NamesSlot (word line : List UInt8) (k : UInt64) : Prop :=
  ∃ d, line = word ++ d ∧ IsNumeral d ∧ numeralValue d = k.toNat

/-- A task control call on one of the sixteen slots is for the slot that the line names. -/
def OperatorNames (line : List UInt8) : Call → Prop
  | .taskKill k => k < 16 → NamesSlot (umsg "kill ") line k
  | .taskRestart k => k < 16 → NamesSlot (umsg "restart ") line k
  | _ => True

/-! ## Lines that control no task -/

section Plain

variable {line : List UInt8}

theorem uput_names (s : String) : (uput s).Only (OperatorNames line) :=
  uput_only (fun _ => trivial) s

theorem uwritePtr_names (bytes : List UInt8) : (uwritePtr bytes).Only (OperatorNames line) :=
  uwritePtr_only (fun _ => trivial) bytes

theorem shellForward_names (cap room : ℕ) (msg : List UInt8) :
    (shellForward cap room msg).Only (OperatorNames line) := by
  unfold shellForward
  rw [sysSend_bind]
  refine ⟨trivial, fun (sent : Int) => ?_⟩
  dsimp only
  split_ifs
  · exact uput_names _
  · rw [sysRecv_bind]
    refine ⟨trivial, fun answer => ?_⟩
    dsimp only
    split
    · exact (uwritePtr_names _).bind fun _ => uput_names _
    · exact uput_names _

theorem shellInfo_names (kind : ℕ) : (shellInfo kind).Only (OperatorNames line) := by
  unfold shellInfo
  rw [sysInfo_bind]
  refine ⟨trivial, fun answer => ?_⟩
  dsimp only
  split
  · exact uwritePtr_names _
  · exact uput_names _

theorem shellRunDemo_names : shellRunDemo.Only (OperatorNames line) := by
  refine (uput_names _).bind fun _ => ?_
  rw [sysTaskStart_bind]
  refine ⟨trivial, fun (r : Int) => ?_⟩
  dsimp only
  split_ifs
  · exact uput_names _
  · exact .ret ()

theorem shellShutdown_names : shellShutdown.Only (OperatorNames line) := by
  refine (uput_names _).bind fun _ => ?_
  rw [sysShutdown_bind]
  exact ⟨trivial, fun _ => .ret _⟩

end Plain

/-! ## Lines that control a task -/

/-- The numeral behind a command word does not pass for the number of a slot by wrapping around. -/
def NoSlotWraps (word line : List UInt8) : Prop :=
  ∀ d, line = word ++ d → IsNumeral d → wordValue d < 16 → numeralValue d < 2 ^ 64

/-- A slot that is parsed behind the command word is the one the line names, unless it wraps. -/
theorem parseDec_names {line word d : List UInt8} (hline : line = word ++ d)
    (hwraps : NoSlotWraps word line) (hne : parseDec line word.length ≠ u64Max)
    (hslot : parseDec line word.length < 16) :
    NamesSlot word line (parseDec line word.length) := by
  obtain ⟨hnum, hval⟩ := parseDec_ne_max hne
  rw [hline, List.drop_left] at hnum
  rw [hline, List.drop_left] at hval
  rw [hline] at hslot ⊢
  rw [hval, UInt64.lt_iff_toNat_lt, toNat_wordValue] at hslot
  have hfit := hwraps d hline hnum hslot
  refine ⟨d, rfl, hnum, ?_⟩
  rw [hval, UInt64.toNat_ofNat_of_lt' hfit]

/-- A control command makes its call for the parsed slot and prints the outcome. -/
theorem shellControl_only {P : Call → Prop} (hput : ∀ bytes, P (.conWrite bytes))
    {line word : List UInt8} {control : UInt64 → UserProg Int} {c : UInt64 → Call}
    (hcontrol : ∀ k (f : Int → UserProg Unit), (control k >>= f).Only P ↔
      P (c k) ∧ ∀ r, (f r).Only P)
    (hslot : parseDec line word.length ≠ u64Max → P (c (parseDec line word.length))) :
    (shellControl line word control).Only P := by
  unfold shellControl
  dsimp only
  split_ifs with hmax
  · exact uput_only hput _
  · rw [hcontrol]
    refine ⟨hslot hmax, fun r => ?_⟩
    split_ifs
    · exact uput_only hput _
    · exact uput_only hput _

/-- The call a control command makes for the slot behind its word. -/
theorem shellControl_calls {P : Call → Prop} {word d : List UInt8}
    {control : UInt64 → UserProg Int} {c : UInt64 → Call}
    (hcontrol : ∀ k (f : Int → UserProg Unit), (control k >>= f).Only P ↔
      P (c k) ∧ ∀ r, (f r).Only P)
    (h : (shellControl (word ++ d) word control).Only P) (hd : IsNumeral d)
    (hslot : wordValue d < 16) : P (c (UInt64.ofNat (numeralValue d))) := by
  have hne : UInt64.ofNat (numeralValue d) ≠ u64Max := by
    rw [Ne, ofNat_eq_iff]
    intro hmax
    rw [hmax] at hslot
    exact absurd hslot (by decide)
  unfold shellControl at h
  dsimp only at h
  rw [parseDec_append hd, if_neg hne, hcontrol] at h
  exact h.1

/-- A slot that is named with its number fits a word. -/
theorem NamesSlot.fits {word d : List UInt8}
    (h : NamesSlot word (word ++ d) (UInt64.ofNat (numeralValue d))) : numeralValue d < 2 ^ 64 := by
  obtain ⟨d', hline, -, hval⟩ := h
  obtain rfl := List.append_cancel_left hline
  rw [toNat_wordValue] at hval
  rw [hval]
  exact wordValue_lt d

theorem ofNat_lt_sixteen {d : List UInt8} (h : wordValue d < 16) :
    UInt64.ofNat (numeralValue d) < 16 := by
  rw [UInt64.lt_iff_toNat_lt, toNat_wordValue]
  exact h

theorem shellHandle_kill (d : List UInt8) : shellHandle (umsg "kill " ++ d) =
    shellControl (umsg "kill " ++ d) (umsg "kill ") sysTaskKill := by
  simp (disch := decide) only [shellHandle, eqs_append_ne, startsWith_append_ne, startsWith_append,
    if_true, Bool.false_eq_true, if_false, Bool.or_self]

theorem shellHandle_restart (d : List UInt8) : shellHandle (umsg "restart " ++ d) =
    shellControl (umsg "restart " ++ d) (umsg "restart ") sysTaskRestart := by
  simp (disch := decide) only [shellHandle, eqs_append_ne, startsWith_append_ne, startsWith_append,
    if_true, Bool.false_eq_true, if_false, Bool.or_self]

theorem shellHandle_only {line : List UInt8} (hk : NoSlotWraps (umsg "kill ") line)
    (hr : NoSlotWraps (umsg "restart ") line) : (shellHandle line).Only (OperatorNames line) := by
  have hkill : startsWith line (umsg "kill ") = true →
      (shellControl line (umsg "kill ") sysTaskKill).Only (OperatorNames line) := by
    intro hstart
    obtain ⟨d, hline⟩ := startsWith_iff.mp hstart
    exact shellControl_only (c := .taskKill) (fun _ => trivial) (fun k f => Iff.rfl)
      (parseDec_names hline hk)
  have hrestart : startsWith line (umsg "restart ") = true →
      (shellControl line (umsg "restart ") sysTaskRestart).Only (OperatorNames line) := by
    intro hstart
    obtain ⟨d, hline⟩ := startsWith_iff.mp hstart
    exact shellControl_only (c := .taskRestart) (fun _ => trivial) (fun k f => Iff.rfl)
      (parseDec_names hline hr)
  -- the branches in their order: texts, snapshots, the demo, forwarded lines, task control and the
  -- rest
  unfold shellHandle
  iterate 2 refine .ite (fun _ => uput_names _) fun _ => ?_
  iterate 7 refine .ite (fun _ => shellInfo_names _) fun _ => ?_
  refine .ite (fun _ => shellRunDemo_names) fun _ => ?_
  iterate 19 refine .ite (fun _ => shellForward_names _ _ _) fun _ => ?_
  refine .ite hkill fun _ => ?_
  refine .ite hrestart fun _ => ?_
  refine .ite (fun _ => uput_names _) fun _ => ?_
  exact .ite (fun _ => shellShutdown_names) fun _ => uput_names _

/-- The shell kills or restarts only the slot the operator named, exactly unless the numeral behind
`kill` or `restart` wraps around to the number of a slot. -/
theorem shellHandle_names_iff (line : List UInt8) :
    (shellHandle line).Only (OperatorNames line) ↔
      NoSlotWraps (umsg "kill ") line ∧ NoSlotWraps (umsg "restart ") line := by
  constructor
  · intro h
    constructor
    · rintro d rfl hd hslot
      rw [shellHandle_kill] at h
      have hcall := shellControl_calls (c := .taskKill) (fun k f => Iff.rfl) h hd hslot
      exact (hcall (ofNat_lt_sixteen hslot)).fits
    · rintro d rfl hd hslot
      rw [shellHandle_restart] at h
      have hcall := shellControl_calls (c := .taskRestart) (fun k f => Iff.rfl) h hd hslot
      exact (hcall (ofNat_lt_sixteen hslot)).fits
  · rintro ⟨hk, hr⟩
    exact shellHandle_only hk hr

/-- The word wraps around: a number that names no slot kills slot 1. -/
theorem shellHandle_wraps :
    (∃ next, shellHandle (umsg "kill 18446744073709551617") = .call (.taskKill 1) next) ∧
      ¬ NamesSlot (umsg "kill ") (umsg "kill 18446744073709551617") 1 ∧
      ¬ NamesSlot (umsg "restart ") (umsg "kill 18446744073709551617") 1 := by
  refine ⟨⟨_, rfl⟩, ?_, ?_⟩
  · rintro ⟨d, hline, -, hval⟩
    obtain rfl : umsg "18446744073709551617" = d :=
      @List.append_cancel_left _ (umsg "kill ") (umsg "18446744073709551617") d hline
    exact absurd hval (by decide)
  · rintro ⟨d, hline, -, -⟩
    have hstart := startsWith_iff.mpr ⟨d, hline⟩
    exact absurd hstart (by decide)

end AxiomRT.User
