import Mathlib.Data.Nat.Count
import AxiomRT.Dispatch.Invariant
import AxiomRT.Dispatch.Proofs.EvidenceProofs
import AxiomRT.Dispatch.Proofs.HostIpcProofs

/-!
# Proofs: recovery records

The kernel appends a recovery record on every `sys_fault_ack`, whoever issues it and whether or not
a fault is waiting for a decision. The records of a run are therefore authentic exactly if its
acknowledgements are.
-/

namespace AxiomRT.Dispatch

open Lib

variable {img : Image} {k k' : Kernel}

/-- The running task holds an endpoint capability for the fault channel with the control right. -/
def Supervises (k : Kernel) : Prop :=
  (k.tasks k.current).caps.holds .endpoint Kernel.epFault.val rightControl = true

/-- A receiver parked here can take a one-byte notification. -/
def Ep.takesFault : Ep → Bool
  | .receiverWaiting _ dst cap => decide (1 ≤ cap) && validUserBuf dst 1
  | _ => false

/-- The step appends a recovery entry to the event ring. -/
def Records (k k' : Kernel) : Prop :=
  k'.ringHead ≠ k.ringHead ∧ (k'.ring (Fin.ofNat ringLen k.ringHead)).1 = .recovery

/-- The trap faults the running task while a receiver on the fault channel can take the
notification. -/
def HandsFault (k : Kernel) (ev : Event) : Prop :=
  k.faults ev = true ∧ (k.endpoints Kernel.epFault).takesFault = true

instance (k k' : Kernel) : Decidable (Records k k') := inferInstanceAs (Decidable (_ ∧ _))
instance (k : Kernel) (ev : Event) : Decidable (HandsFault k ev) :=
  inferInstanceAs (Decidable (_ ∧ _))
instance (ev : Event) : Decidable (Acks ev) := inferInstanceAs (Decidable (_ ∧ _))

/-- Recovery records before step `i`. -/
def recordCount (x : Run img) (i : ℕ) : ℕ :=
  Nat.count (fun j => Records (x.st j) (x.st (j + 1))) i

/-- Acknowledgements issued before step `i`. -/
def ackCount (x : Run img) (i : ℕ) : ℕ := Nat.count (fun j => Acks (x.ev j)) i

/-- Fault notifications handed to a receiver on the fault channel before step `i`. -/
def noticeCount (x : Run img) (i : ℕ) : ℕ :=
  Nat.count (fun j => HandsFault (x.st j) (x.ev j)) i

/-- Recovery records come only from a supervisor, and there are never more of them than fault
notifications handed over. -/
def RecoveryAuthentic (x : Run img) : Prop :=
  (∀ i, i < x.len → Records (x.st i) (x.st (i + 1)) → Supervises (x.st i)) ∧
    ∀ i, i ≤ x.len → recordCount x i ≤ noticeCount x i

/-! ## Records are acknowledgements -/

theorem wrappingInc_ne (n : Nat) : wrappingInc n ≠ n := by
  unfold wrappingInc
  intro h
  have hlt : (n + 1) % 2 ^ 64 < 2 ^ 64 := Nat.mod_lt _ (by decide)
  rw [h] at hlt
  by_cases hn : n + 1 < 2 ^ 64
  · rw [Nat.mod_eq_of_lt hn] at h
    omega
  · have heq : n + 1 = 2 ^ 64 := by omega
    rw [heq, Nat.mod_self] at h
    omega

theorem step_records_iff {ev : Event} (h : step img k ev = .ok k') : Records k k' ↔ Acks ev := by
  constructor
  · rintro ⟨hhead, hring⟩
    rcases (step_ring_cases h).2 with ⟨-, hsame⟩ | ⟨e, hrec, hr, -⟩
    · exact absurd hsame hhead
    · rw [hr, Function.update_self] at hring
      exact hrec hring
  · intro hack
    have hlog := step_log_ack hack h
    have hhead : k'.ringHead = wrappingInc k.ringHead := congrArg Log.ringHead hlog
    have hr : k'.ring = Function.update k.ring (Fin.ofNat ringLen k.ringHead)
        (.recovery, k.current) := congrArg Log.ring hlog
    refine ⟨?_, ?_⟩
    · rw [hhead]
      exact wrappingInc_ne _
    · rw [hr, Function.update_self]

/-- An acknowledgement hands over no fault. -/
theorem Acks.not_handsFault {ev : Event} (h : Acks ev) : ¬ HandsFault k ev := by
  rintro ⟨hf, -⟩
  simp [Kernel.faults, h.1] at hf

theorem recordCount_eq (x : Run img) : ∀ i, i ≤ x.len → recordCount x i = ackCount x i := by
  intro i
  induction i with
  | zero => intro _; rfl
  | succ i ih =>
    intro hi
    have hiff := step_records_iff (x.step_st i (by omega))
    simp only [recordCount, ackCount, Nat.count_succ] at ih ⊢
    rw [ih (by omega)]
    simp only [hiff]

/-! ## Notifications -/

/-- What is counted is handed over: the receiver gets the notification for its buffer, or has it
there already. -/
theorem HandsFault.hands (x : Run img) {i : ℕ} (hi : i < x.len) (h : HandsFault (x.st i) (x.ev i)) :
    ∃ t dst cap, (x.st i).endpoints Kernel.epFault = .receiverWaiting t dst cap ∧ 1 ≤ cap ∧
      Hands (x.st (i + 1)).toCore t dst cap (notice Kernel.faultCodeWatchdog) := by
  obtain ⟨hfaults, htakes⟩ := h
  cases hep : (x.st i).endpoints Kernel.epFault with
  | idle =>
    rw [hep] at htakes
    cases htakes
  | senderWaiting t len =>
    rw [hep] at htakes
    cases htakes
  | receiverWaiting t dst cap =>
    rw [hep, Ep.takesFault, Bool.and_eq_true, decide_eq_true_eq] at htakes
    refine ⟨t, dst, cap, rfl, htakes.1, ?_⟩
    exact (run_move x hi).hands_report (run_entry_inv x (Nat.le_of_lt hi))
      (Kernel.faults_iff.mp hfaults) (Or.inl rfl) hep htakes

/-! ## Runs -/

/-- The records of a run are authentic exactly if every acknowledgement comes from a supervisor that
still has a notification to answer. The kernel checks neither. -/
theorem recoveryAuthentic_iff (x : Run img) :
    RecoveryAuthentic x ↔
      ∀ i, i < x.len → Acks (x.ev i) → Supervises (x.st i) ∧ ackCount x i < noticeCount x i := by
  constructor
  · rintro ⟨hsup, hcount⟩ i hi hack
    refine ⟨hsup i hi ((step_records_iff (x.step_st i hi)).mpr hack), ?_⟩
    have hle := hcount (i + 1) hi
    rw [recordCount_eq x (i + 1) hi] at hle
    simp only [ackCount, noticeCount, Nat.count_succ, hack, if_true,
      hack.not_handsFault (k := x.st i), if_false] at hle
    simp only [ackCount, noticeCount]
    omega
  · intro hcond
    refine ⟨fun i hi hrec => (hcond i hi ((step_records_iff (x.step_st i hi)).mp hrec)).1, ?_⟩
    intro i
    induction i with
    | zero => intro _; exact Nat.zero_le _
    | succ i ih =>
      intro hi
      have hle := ih (by omega)
      rw [recordCount_eq x i (by omega)] at hle
      rw [recordCount_eq x (i + 1) hi]
      have hmono : noticeCount x i ≤ noticeCount x (i + 1) := Nat.count_monotone _ (Nat.le_succ i)
      by_cases hack : Acks (x.ev i)
      · have hlt := (hcond i (by omega) hack).2
        have hsucc : ackCount x (i + 1) = ackCount x i + 1 := by
          simp [ackCount, Nat.count_succ, hack]
        omega
      · have hsucc : ackCount x (i + 1) = ackCount x i := by
          simp [ackCount, Nat.count_succ, hack]
        omega

/-- `init_service` acknowledges a fault that never happened. -/
def forgedAck : List Event := [sampleCall 7 0 2 0 0]

theorem survives_forgedAck : survives forgedAck = true := rfl

/-- A task without any endpoint capability produces a recovery record. -/
theorem forgedAck_recorded : ¬ ∀ x : Run sampleImage, RecoveryAuthentic x := by
  intro h
  have hrec : Records (sampleState forgedAck 0) (sampleState forgedAck 1) := by decide
  have hsup : Supervises (sampleState forgedAck 0) :=
    (h (sampleRun forgedAck survives_forgedAck)).1 0 (by decide) hrec
  have hnone : ¬ Supervises (sampleState forgedAck 0) := by
    unfold Supervises
    decide
  exact hnone hsup

end AxiomRT.Dispatch
