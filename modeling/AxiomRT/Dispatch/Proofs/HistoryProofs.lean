import AxiomRT.Dispatch.Proofs.RendezvousProofs

/-!
# Proofs: messages along a run

A record on an endpoint was put there by the call it describes and has stood there since, and a task
that is off the CPU keeps what was staged for it.
-/

namespace AxiomRT.Dispatch

open Lib

variable {img : Image} {x : Run img}

theorem run_move (x : Run img) {i : ℕ} (hi : i < x.len) :
    Move img ((x.st i).serviceTable.getD []) (entry x i) (x.ev i).trap (x.st (i + 1)).toCore :=
  step_move (x.step_st i hi)

theorem run_entry_inv (x : Run img) {i : ℕ} (hi : i ≤ x.len) : Inv (entry x i) :=
  (run_inv x i hi).enter (x.ev i)

/-! ## Parked records -/

theorem Parked.succ {e : EpId} {w : Ep} {a b : ℕ} (h : Parked x e w a b)
    (hb : (x.st (b + 1)).endpoints e = w) : Parked x e w a (b + 1) := by
  intro m hm hmb
  rcases Nat.lt_or_ge b m with hlt | hge
  · obtain rfl : m = b + 1 := by omega
    exact hb
  · exact h m hm hge

theorem Parked.start {e : EpId} {w : Ep} {a : ℕ} (h : (x.st (a + 1)).endpoints e = w) :
    Parked x e w a (a + 1) := by
  intro m hm hma
  obtain rfl : m = a + 1 := by omega
  exact h

/-- Where the record on an endpoint comes from. -/
inductive Origin (x : Run img) (e : EpId) (m : ℕ) : Ep → Prop where
  | idle : Origin x e m .idle
  | sender {i : ℕ} {s : Slot} {buf len : Nat} (lt : i < m) (call : SendAt x i s e buf len)
      (since : Parked x e (.senderWaiting s len) i m) : Origin x e m (.senderWaiting s len)
  | receiver {p : ℕ} {r : Slot} {dst cap : Nat} (lt : p < m) (call : RecvAt x p r e dst cap)
      (since : Parked x e (.receiverWaiting r dst cap) p m) :
      Origin x e m (.receiverWaiting r dst cap)

/-- A record that a step leaves alone keeps its origin. -/
theorem Origin.succ {e : EpId} {m : ℕ} {w : Ep} (h : Origin x e m w)
    (hm : (x.st (m + 1)).endpoints e = w) : Origin x e (m + 1) w := by
  cases h with
  | idle => exact .idle
  | sender lt call since => exact .sender (by omega) call (since.succ hm)
  | receiver lt call since => exact .receiver (by omega) call (since.succ hm)

theorem run_origin (x : Run img) (e : EpId) :
    ∀ m, m ≤ x.len → Origin x e m ((x.st m).endpoints e) := by
  refine x.induct ?_ ?_
  · have hidle : (x.st 0).endpoints e = .idle := x.init_st.started.idle e
    rw [hidle]
    exact .idle
  · intro m hm ih
    cases (run_move x hm).epChange e with
    | same h =>
      rw [h]
      exact ih.succ h
    | cleared h =>
      rw [h]
      exact .idle
    | sender htr req h kmsg =>
      rw [h]
      exact .sender (Nat.lt_succ_self m) ⟨⟨hm, rfl, htr, req.sys⟩, req⟩ (.start h)
    | receiver htr req h =>
      rw [h]
      exact .receiver (Nat.lt_succ_self m) ⟨⟨hm, rfl, htr, req.sys⟩, req⟩ (.start h)

/-! ## Tasks off the CPU -/

/-- A ready or dead task that does not run and is not made to start over keeps its control block,
unless it dies. -/
theorem run_settled (x : Run img) {t : Slot} {a b : ℕ} (hb : b ≤ x.len)
    (hrest : ((x.st a).tasks t).state = .ready ∨ ((x.st a).tasks t).state.Dead)
    (haway : ∀ m, a ≤ m → m ≤ b → (x.st m).current ≠ t)
    (hkept : ∀ m, a ≤ m → m < b →
      ¬ Renews ((x.st m).serviceTable.getD []) (entry x m) (x.ev m).trap t) :
    ∀ m, a ≤ m → m ≤ b →
      (x.st m).tasks t = (x.st a).tasks t ∨ ((x.st m).tasks t).state.Dead := by
  intro m ham
  induction m, ham using Nat.le_induction with
  | base => intro _; exact Or.inl rfl
  | succ m ham ih =>
    intro hmb
    have hm : m < x.len := by omega
    have hinv := run_entry_inv x (Nat.le_of_lt hm)
    have hne : t ≠ (entry x m).current := (haway m ham (by omega)).symm
    have hoff : t ≠ (x.st (m + 1)).current := (haway (m + 1) (by omega) hmb).symm
    have hrest' : ((entry x m).tasks t).state = .ready ∨ ((entry x m).tasks t).state.Dead := by
      rcases ih (by omega) with h | h
      · have hst : ((entry x m).tasks t).state = ((x.st a).tasks t).state := congrArg Tcb.state h
        rw [hst]
        exact hrest
      · exact Or.inr h
    have hblk : ((entry x m).tasks t).state ≠ .blocked := by
      rcases hrest' with h | h | h <;> simp [h]
    rcases (run_move x hm).settled hinv hblk hne hoff with h | ⟨h, -⟩ | ⟨-, -, h⟩ | ⟨h, -⟩
    · rcases ih (by omega) with h' | h'
      · exact Or.inl (h.trans h')
      · rw [h]
        exact Or.inr h'
    · exact Or.inr (Or.inr h)
    · exact absurd h (hkept m ham (by omega))
    · rcases hrest' with h' | h' | h' <;> rw [h] at h' <;> cases h'

/-- The task that gets the CPU by a step resumes from the control block it had. -/
theorem run_resumes (x : Run img) {t : Slot} {q : ℕ} (hq : q < x.len)
    (hblk : ((x.st q).tasks t).state ≠ .blocked) (haway : (x.st q).current ≠ t)
    (hback : (x.st (q + 1)).current = t) :
    ((x.st q).tasks t).state = .ready ∧
      ∃ d : Core, d.tasks t = (x.st q).tasks t ∧ (x.st (q + 1)).toCore = d.resume t := by
  obtain ⟨d, hs⟩ :=
    (run_move x hq).switched (run_entry_inv x (Nat.le_of_lt hq)) haway.symm hback
  have hd : d.tasks t = (x.st q).tasks t := hs.kept t haway.symm hblk
  exact ⟨hd ▸ hs.ready, d, hd, hs.resumed⟩

/-- A task with a pending delivery has it completed when it gets the CPU. -/
theorem run_completes (x : Run img) {t : Slot} {q : ℕ} {pm : PendingMsg} (hq : q < x.len)
    (haway : (x.st q).current ≠ t) (hback : (x.st (q + 1)).current = t)
    (hpm : ((x.st q).tasks t).pendingIpc = some pm) :
    (x.st (q + 1)).frame.a0 = pm.len ∧
      (x.st (q + 1)).seen pm.dst pm.len = bytesOf pm.data pm.len := by
  obtain ⟨hready, hbuf⟩ := (run_inv x q (Nat.le_of_lt hq)).wf.pending_ready t pm hpm
  have hblk : ((x.st q).tasks t).state ≠ .blocked := by simp [hready]
  obtain ⟨-, d, hd, hres⟩ := run_resumes x hq hblk haway hback
  rw [hres]
  exact Core.resume_pending (hd ▸ hpm) (validUserBuf_iff.mp hbuf).1

/-! ## Calls and their ends -/

/-- A call after which its caller runs has ended. -/
theorem EndsAt.at_once {t : Slot} {a b : ℕ} (h : EndsAt x t a b)
    (hcur : (x.st (a + 1)).current = t) : b = a := by
  rcases Nat.eq_or_lt_of_le h.le with heq | hlt
  · exact heq.symm
  · exact absurd hcur (h.away (a + 1) (Nat.lt_succ_self a) hlt)

/-- A task that is ready or dead at `a + 1` and gets the CPU with step `b` was alive all the
time. -/
theorem EndsAt.settled {t : Slot} {a a' b : ℕ} (h : EndsAt x t a b) (ha : a ≤ a') (hb : a' < b)
    (hrest : ((x.st (a' + 1)).tasks t).state = .ready ∨
      ((x.st (a' + 1)).tasks t).state.Dead) :
    (x.st b).tasks t = (x.st (a' + 1)).tasks t ∧ ((x.st b).tasks t).state = .ready := by
  have hlt := h.lt
  have hset := run_settled x (Nat.le_of_lt hlt) hrest
    (fun m h₁ h₂ => h.away m (by omega) h₂)
    (fun m h₁ h₂ => h.kept m (by omega) (by omega)) b hb (Nat.le_refl b)
  have hblk : ((x.st b).tasks t).state ≠ .blocked := by
    rcases hset with hs | hs
    · rw [hs]
      rcases hrest with hr | hr | hr <;> simp [hr]
    · rcases hs with hs | hs <;> simp [hs]
  obtain ⟨hready, -⟩ :=
    run_resumes x hlt hblk (h.away b (by omega) (Nat.le_refl b)) h.back
  refine ⟨?_, hready⟩
  rcases hset with hs | hs
  · exact hs
  · rw [hready] at hs
    rcases hs with hs | hs <;> cases hs

end AxiomRT.Dispatch
