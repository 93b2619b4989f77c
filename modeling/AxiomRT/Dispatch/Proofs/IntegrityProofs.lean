import AxiomRT.Dispatch.Proofs.HistoryProofs

/-!
# Proofs: message integrity

A message staged for a waiting receiver has a buffer of its own. The message of a parked sender lies
in the one staging buffer that every send writes first, so that it arrives as it was sent only if no
later send changes it there.
-/

namespace AxiomRT.Dispatch

open Lib

variable {img : Image} {x : Run img}

/-! ## Parked senders -/

/-- A step that keeps what is staged keeps the message of every parked sender. -/
theorem KeepsStaged.bytes {m : ℕ} (hm : m < x.len) (hkeep : KeepsStaged img (x.st m) (x.ev m))
    {e : EpId} {s : Slot} {len : Nat} (ep : (x.st m).endpoints e = .senderWaiting s len) :
    bytesOf (x.st (m + 1)).kmsg len = bytesOf (x.st m).kmsg len := by
  rcases (run_move x hm).kmsg_cases with h | ⟨e', buf, len', htr, req, h⟩
  · rw [h]
    rfl
  · rw [bytesOf_eq_iff, h]
    intro i hi
    by_cases hi' : i.val < len'
    · exact (if_pos hi').trans (hkeep htr e' buf len' req e s len ep i hi' hi)
    · exact if_neg hi'

/-- A send after which its caller is parked has staged its bytes. -/
theorem SendAt.staged {i : ℕ} {s : Slot} {e : EpId} {buf len : Nat} (h : SendAt x i s e buf len)
    (hp : (x.st (i + 1)).endpoints e = .senderWaiting s len) :
    bytesOf (x.st (i + 1)).kmsg len = (entry x i).seen buf len := by
  have hi := h.call.lt
  have hinv := run_entry_inv x (Nat.le_of_lt hi)
  cases (run_move x hi).sendOutcome h.call.trap h.call.sys with
  | refused endpoints tasks current neg =>
    -- the caller would have been parked while it was running
    have hw : ((entry x i).endpoints e).waiter = some s := by
      rw [← endpoints, hp]
      rfl
    exact absurd h.call.caller.symm (hinv.waiter_ne_current hw)
  | staged hst others =>
    obtain ⟨rfl, -, -⟩ := h.req.unique hst.req
    rw [hst.cleared] at hp
    cases hp
  | dropped req parked small cleared pending =>
    obtain ⟨rfl, -, -⟩ := h.req.unique req
    rw [cleared] at hp
    cases hp
  | parks req idle parked current kmsg pending =>
    obtain ⟨rfl, rfl, rfl⟩ := h.req.unique req
    rw [kmsg]
    exact bytesOf_copyFromUser (entry x i) buf req.len_le

/-- While a sender is parked, the staging buffer holds its message. -/
theorem run_staged (x : Run img) (hkeep : x.EveryStep (KeepsStaged img)) {i : ℕ} {s : Slot}
    {e : EpId} {buf len : Nat} (h : SendAt x i s e buf len) :
    ∀ m, i + 1 ≤ m → m ≤ x.len → Parked x e (.senderWaiting s len) i m →
      bytesOf (x.st m).kmsg len = (entry x i).seen buf len := by
  intro m him
  induction m, him using Nat.le_induction with
  | base =>
    intro _ hp
    exact h.staged (hp (i + 1) (Nat.lt_succ_self i) (Nat.le_refl _))
  | succ m him ih =>
    intro hm hp
    have hprev : Parked x e (.senderWaiting s len) i m := fun m' h₁ h₂ => hp m' h₁ (by omega)
    rw [(hkeep m (by omega)).bytes (by omega) (hprev m (by omega) (Nat.le_refl m))]
    exact ih (by omega) hprev

/-! ## Waiting receivers -/

/-- A pending delivery that is never dropped stays what it is. -/
theorem run_pending_kept (x : Run img) {r : Slot} {j q : ℕ} (hq : q ≤ x.len)
    (haway : ∀ m, j < m → m ≤ q → (x.st m).current ≠ r)
    (hsome : ∀ m, j < m → m ≤ q → ((x.st m).tasks r).pendingIpc ≠ none) :
    ∀ m, j + 1 ≤ m → m ≤ q → (x.st m).tasks r = (x.st (j + 1)).tasks r := by
  intro m hjm
  induction m, hjm using Nat.le_induction with
  | base => intro _; rfl
  | succ m hjm ih =>
    intro hmq
    have hm : m < x.len := by omega
    have hinv := run_entry_inv x (Nat.le_of_lt hm)
    obtain ⟨pm, hpm⟩ := Option.ne_none_iff_exists'.mp (hsome m (by omega) (by omega))
    obtain ⟨hready, -⟩ := hinv.wf.pending_ready r pm hpm
    have hne : r ≠ (entry x m).current := (haway m (by omega) (by omega)).symm
    have hoff : r ≠ (x.st (m + 1)).current := (haway (m + 1) (by omega) hmq).symm
    have hnext := hsome (m + 1) (by omega) hmq
    rcases (run_move x hm).settled hinv (by simp [hready]) hne hoff with
      h | ⟨-, h, -⟩ | ⟨-, h, -⟩ | ⟨h, -⟩
    · exact h.trans (ih (by omega))
    · exact absurd h hnext
    · exact absurd h hnext
    · rw [hready] at h
      cases h

/-- A send after which a message is pending for `r` has staged it. -/
theorem CallAt.stages {j : ℕ} {s r : Slot} (h : CallAt x j s .send)
    (hnone : ((x.st j).tasks r).pendingIpc = none)
    (hsome : ((x.st (j + 1)).tasks r).pendingIpc ≠ none) :
    ∃ e buf len dst cap, Stages img (entry x j) (x.st (j + 1)).toCore e r buf len dst cap := by
  have hsame : ((x.st (j + 1)).tasks r).pendingIpc ≠ ((x.st j).tasks r).pendingIpc := by
    rw [hnone]
    exact hsome
  cases (run_move x h.lt).sendOutcome h.trap h.sys with
  | refused endpoints tasks current neg => exact absurd (by rw [tasks]; rfl) hsame
  | @staged e r' buf len dst cap hst others =>
    by_cases hr : r = r'
    · subst hr
      exact ⟨e, buf, len, dst, cap, hst⟩
    · exact absurd (congrArg Tcb.pendingIpc (others r hr)) hsame
  | dropped req parked small cleared pending => exact absurd (pending r) hsame
  | parks req idle parked current kmsg pending =>
    rcases pending r with hp | hp
    · exact absurd hp hsome
    · exact absurd hp hsame

/-- A message staged for `r` belongs to the last receive `r` issued. -/
theorem Stages.recvAt {j p q : ℕ} {r : Slot} {e e' : EpId} {buf len dst cap dst' cap' : Nat}
    (h : Stages img (entry x j) (x.st (j + 1)).toCore e' r buf len dst' cap')
    (hrecv : RecvAt x p r e dst cap) (hq : q < x.len) (hj : j < q) (hpq : p < q)
    (haway : ∀ m, p < m → m ≤ q → (x.st m).current ≠ r)
    (hsome : ∀ m, j < m → m ≤ q → ((x.st m).tasks r).pendingIpc ≠ none) :
    p < j ∧ e' = e ∧ dst' = dst ∧ Parked x e (.receiverWaiting r dst cap) p j := by
  have horigin := run_origin x e' j (by omega)
  have hparked : (x.st j).endpoints e' = .receiverWaiting r dst' cap' := h.parked
  rw [hparked] at horigin
  cases horigin with
  | @receiver p' _ _ _ lt call since =>
    have hcur := hrecv.call.caller
    have hinv := run_inv x p (Nat.le_of_lt hrecv.call.lt)
    -- `r` ran at `p` and at `p'`: neither lies in a stretch in which it waited
    have hpp : p' = p := by
      rcases Nat.lt_trichotomy p' p with hlt | heq | hgt
      · exfalso
        rcases Nat.lt_or_ge j p with hjp | hjp
        · obtain ⟨pm, hpm⟩ := Option.ne_none_iff_exists'.mp (hsome p hjp (by omega))
          have hready := (hinv.wf.pending_ready r pm hpm).1
          have hrun := (hinv.wf.running r).mpr (congrArg some hcur)
          rw [hrun] at hready
          cases hready
        · exact hinv.waiter_ne_current (Core.waiter_of_receiver (since p hlt hjp)) hcur.symm
      · exact heq
      · exact absurd call.call.caller (haway p' hgt (by omega))
    subst hpp
    obtain ⟨rfl, rfl, rfl⟩ := call.req.unique hrecv.req
    exact ⟨lt, rfl, rfl, since⟩

/-! ## Integrity -/

/-- No send meets two receives. -/
theorem Meets.unique {e e' : EpId} {i p p' : ℕ} (h : Meets x e i p) (h' : Meets x e' i p') :
    p = p' := by
  obtain ⟨s, buf, len, r, dst, cap, hs, hr, hmeet⟩ := h
  obtain ⟨s', buf', len', r', dst', cap', hs', hr', hmeet'⟩ := h'
  obtain ⟨rfl, rfl, rfl⟩ := hs.req.unique hs'.req
  -- a receiver that stands on `e` up to `i` does not issue another receive in between
  have hrecv : ∀ {p₁ p₂ : ℕ} {r₁ r₂ : Slot} {d₁ d₂ n₁ n₂ : Nat}, RecvAt x p₂ r₂ e d₂ n₂ →
      Parked x e (.receiverWaiting r₁ d₁ n₁) p₁ i → Parked x e (.receiverWaiting r₂ d₂ n₂) p₂ i →
      p₂ < i → ¬ p₁ < p₂ := by
    intro p₁ p₂ r₁ r₂ d₁ d₂ n₁ n₂ hr₂ hp₁ hp₂ hlt₂ hlt
    have heq := (hp₁ i (by omega) (Nat.le_refl i)).symm.trans (hp₂ i hlt₂ (Nat.le_refl i))
    obtain ⟨rfl, -, -⟩ := Ep.receiverWaiting.inj heq
    have hinv := run_inv x p₂ (Nat.le_of_lt hr₂.call.lt)
    exact hinv.waiter_ne_current (Core.waiter_of_receiver (hp₁ p₂ hlt (by omega)))
      hr₂.call.caller.symm
  rcases hmeet with ⟨hlt, hpark, hgone⟩ | ⟨hlt, hpark, hgone⟩ <;>
    rcases hmeet' with ⟨hlt', hpark', hgone'⟩ | ⟨hlt', hpark', hgone'⟩
  · -- the record of the sender is gone after the first of the two receives
    rcases Nat.lt_trichotomy p p' with h | h | h
    · have hstill := hpark' (p + 1) (by omega) (by omega)
      rw [hgone] at hstill
      cases hstill
    · exact h
    · have hstill := hpark (p' + 1) (by omega) (by omega)
      rw [hgone'] at hstill
      cases hstill
  · have hstill := hpark (i + 1) (by omega) (by omega)
    rw [hgone'] at hstill
    cases hstill
  · have hstill := hpark' (i + 1) (by omega) (by omega)
    rw [hgone] at hstill
    cases hstill
  · have h₁ := hrecv hr' hpark hpark' hlt'
    have h₂ := hrecv hr hpark' hpark hlt
    omega

/-- In every run whose sends leave what is staged for a parked sender as it is, every message
arrives as it was sent. -/
theorem run_messageIntegrity (x : Run img) (hkeep : x.EveryStep (KeepsStaged img)) :
    MessageIntegrity x := by
  refine ⟨?_, fun e e' i p p' h h' => h.unique h'⟩
  rintro p q r e dst cap hrecv ⟨hback, ⟨rfl, hirq, s, len, ep⟩ | ⟨hpq, hq, haway, hstaged⟩⟩ hpos
  · -- copied at once from the staging buffer
    have hlt := hrecv.call.lt
    have hirq' : (entry x q).irqPendingFor e.val (entry x q).current = none := by
      have hcur : (entry x q).current = r := hrecv.call.caller
      rw [hcur]
      exact hirq
    have htake := (run_move x hlt).takes hrecv.call.trap hrecv.req hirq' ep hpos
    have horigin := run_origin x e q (Nat.le_of_lt hlt)
    rw [ep] at horigin
    cases horigin with
    | @sender i _ buf _ lt call since =>
      refine ⟨i, s, buf, len, call, ?_, htake.result, ?_⟩
      · exact ⟨s, buf, len, r, dst, cap, call, hrecv, Or.inl ⟨lt, since, htake.cleared⟩⟩
      · exact htake.bytes.trans (run_staged x hkeep call q lt (Nat.le_of_lt hlt) since)
  · -- staged by a send while `r` was waiting
    obtain ⟨j, s, hj, hcall, hnone, hsome⟩ := hstaged
    obtain ⟨e', buf, len, dst', cap', hst⟩ :=
      hcall.stages hnone (hsome (j + 1) (by omega) (by omega))
    obtain ⟨hpj, rfl, rfl, hparked⟩ := hst.recvAt hrecv hq hj hpq haway hsome
    obtain ⟨pm, hpm, hdst, hlen, hbytes⟩ := hst.staged
    have hsend : SendAt x j s e' buf len := ⟨hcall, hst.req⟩
    have hkept := run_pending_kept x (Nat.le_of_lt hq)
      (fun m h₁ h₂ => haway m (by omega) h₂) hsome q (by omega) (Nat.le_refl q)
    have hpending : ((x.st q).tasks r).pendingIpc = some pm := by
      rw [hkept]
      exact hpm
    obtain ⟨ha0, hseen⟩ := run_completes x hq (haway q hpq (Nat.le_refl q)) hback hpending
    rw [hlen] at ha0 hseen
    rw [hdst] at hseen
    refine ⟨j, s, buf, len, hsend, ?_, ha0, hseen.trans hbytes⟩
    exact ⟨s, buf, len, r, dst', cap, hsend, hrecv, Or.inr ⟨hpj, hparked, hst.cleared⟩⟩

/-! ## Sample runs -/

/-- Only a send that finds a task parked can change what is staged. -/
theorem keepsStaged_of_unparked {k : Kernel} {ev : Event}
    (h : (k.toCore.enter ev).frame.sys ≠ some .send ∨ ∀ e, (k.endpoints e).waiter = none) :
    KeepsStaged img k ev := by
  intro _ e buf len req e' s len' ep
  rcases h with h | h
  · exact absurd req.sys h
  · have hw := h e'
    rw [ep] at hw
    cases hw

/-- `app_loader_service` parks on the file-system endpoint with the byte 65 and `fs_service`
receives. -/
def parkedTaken : List Event :=
  [sampleCall 8 5 0 0 0, sampleCall 8 9 0 0 0, sampleCall 2 0 0 0 0,
    sampleCall 3 2 0x200000 1 65, sampleCall 4 0 0x200010 1 67]

theorem survives_parkedTaken : survives parkedTaken = true := rfl

theorem parkedTaken_integrity :
    (sampleRun parkedTaken survives_parkedTaken).EveryStep (KeepsStaged sampleImage) ∧
      MessageIntegrity (sampleRun parkedTaken survives_parkedTaken) := by
  have hquiet : ∀ i < 5, ((sampleState parkedTaken i).toCore.enter
        (parkedTaken.getD i sampleTick)).frame.sys ≠ some .send ∨
      ∀ e, ((sampleState parkedTaken i).endpoints e).waiter = none := by
    decide
  have hkeep : (sampleRun parkedTaken survives_parkedTaken).EveryStep (KeepsStaged sampleImage) :=
    fun i hi => keepsStaged_of_unparked (hquiet i hi)
  exact ⟨hkeep, run_messageIntegrity _ hkeep⟩

/-- `fs_service` receives from `app_loader_service` a byte that it was not sent: its own, which the
kernel had refused to send. -/
theorem stagedOver_not_integrity : ¬ ∀ x : Run sampleImage, MessageIntegrity x := by
  intro h
  set x := sampleRun stagedOver survives_stagedOver with hx
  have hst : ∀ i, x.st i = sampleState stagedOver i := fun _ => rfl
  have hcur : ∀ i < 6,
      (sampleState stagedOver i).current = ([0, 0, 0, 6, 10, 10] : List Slot).getD i 0 := by
    decide
  have hrecv : RecvAt x 5 10 4 0x200010 1 := by
    refine ⟨⟨by decide, hcur 5 (by decide), rfl, by decide⟩, ?_⟩
    constructor <;> decide
  have hparked : (sampleState stagedOver 5).endpoints 4 = .senderWaiting 6 1 := rfl
  have hfrom : FromSender x 5 5 10 4 := by
    refine ⟨?_, Or.inl ⟨rfl, ?_, 6, 1, hparked⟩⟩
    · rw [hst]
      decide
    · decide
  have ha0 : (sampleState stagedOver 6).frame.a0 = 1 := rfl
  obtain ⟨i, s, buf, len, hsend, hmeet, hlen, hbytes⟩ :=
    (h x).bytes 5 5 10 4 0x200010 1 hrecv hfrom (by rw [hst, ha0]; decide)
  -- the only send that can have met this receive is the one of `app_loader_service`
  obtain ⟨s', buf', len', r', dst', cap', hsend', -, ⟨hlt, hp, -⟩ | ⟨hlt, -, -⟩⟩ := hmeet
  · have hs' := hp 5 hlt (Nat.le_refl 5)
    rw [hst, hparked, Ep.senderWaiting.injEq] at hs'
    have hi3 : i = 3 := by
      have hci := hcur i (by omega)
      have hcall := hsend'.call.caller
      rw [hst, hci, ← hs'.1] at hcall
      revert hcall
      have hcases : ∀ i < 5, ([0, 0, 0, 6, 10, 10] : List Slot).getD i 0 = 6 → i = 3 := by decide
      exact hcases i hlt
    subst hi3
    have hlen1 : len = 1 := by
      rw [hst, ha0] at hlen
      exact_mod_cast hlen.symm
    subst hlen1
    have hbuf : buf = 0x200000 := by
      rw [← hsend.req.buf_eq]
      decide
    subst hbuf
    have hgot : (sampleState stagedOver 6).seen 0x200010 1 = [66] := rfl
    have hhad : (entry x 3).seen 0x200000 1 = [65] := rfl
    rw [hst, hgot, hhad] at hbytes
    exact absurd hbytes (by decide)
  · have hi : i < 6 := hsend'.call.lt
    omega

end AxiomRT.Dispatch
