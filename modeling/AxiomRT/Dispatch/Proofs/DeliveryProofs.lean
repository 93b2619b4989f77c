import AxiomRT.Dispatch.Proofs.IntegrityProofs

/-!
# Proofs: delivery of messages

A send that reports success has handed its message over, with two exceptions. A receiver that waits
with too small a buffer is woken with an error while the sender is told that the message arrived;
and the message of a parked sender can be overwritten in the staging buffer before it is taken.
-/

namespace AxiomRT.Dispatch

open Lib

variable {img : Image} {x : Run img}

/-! ## Waiting receivers -/

/-- A receiver for which a message was staged gets it when it next runs. -/
theorem Stages.delivered {i q : ℕ} {e : EpId} {r : Slot} {buf len dst cap : Nat} (hi : i < x.len)
    (h : Stages img (entry x i) (x.st (i + 1)).toCore e r buf len dst cap) (hend : EndsAt x r i q) :
    (x.st (q + 1)).frame.a0 = len ∧ (x.st (q + 1)).seen dst len = (entry x i).seen buf len := by
  have hne : r ≠ (entry x i).current :=
    (run_entry_inv x (Nat.le_of_lt hi)).waiter_ne_current (Core.waiter_of_receiver h.parked)
  have hiq : i < q := by
    rcases Nat.eq_or_lt_of_le hend.le with rfl | hlt
    · exact absurd (hend.back.symm.trans h.current) hne
    · exact hlt
  obtain ⟨hsame, -⟩ := hend.settled (Nat.le_refl i) hiq (Or.inl h.ready)
  obtain ⟨pm, hpm, hdst, hlen, hbytes⟩ := h.staged
  have hpending : ((x.st q).tasks r).pendingIpc = some pm := by
    rw [hsame]
    exact hpm
  obtain ⟨ha0, hseen⟩ :=
    run_completes x hend.lt (hend.away q hiq (Nat.le_refl q)) hend.back hpending
  rw [hlen] at ha0 hseen
  rw [hdst] at hseen
  exact ⟨ha0, hseen.trans hbytes⟩

/-- A receiver that waits with room for the message is not dropped. -/
theorem SendFits.fits {i : ℕ} (hi : i < x.len) (hfit : SendFits img (x.st i) (x.ev i))
    (htr : (x.ev i).trap = .ecall) {e : EpId} {r : Slot} {buf len dst cap : Nat}
    (req : SendReq img (entry x i) e buf len)
    (ep : (x.st i).endpoints e = .receiverWaiting r dst cap) :
    len ≤ cap ∧ validUserBuf dst len = true := by
  have hle : len ≤ cap := by
    simpa [ep, Ep.hasRoom] using hfit htr e buf len req
  have hbuf := (run_inv x i (Nat.le_of_lt hi)).wf.receiver_buf e r dst cap ep
  exact ⟨hle, validUserBuf_mono hbuf hle⟩

/-! ## Parked senders -/

/-- A record stands, or there was a first step that removed it. -/
theorem parked_or_leaves {e : EpId} {w : Ep} {i : ℕ} (hp : (x.st (i + 1)).endpoints e = w) :
    ∀ b, i + 1 ≤ b → Parked x e w i b ∨
      ∃ p, i < p ∧ p < b ∧ Parked x e w i p ∧ (x.st (p + 1)).endpoints e ≠ w := by
  intro b hb
  induction b, hb using Nat.le_induction with
  | base => exact Or.inl (.start hp)
  | succ b hb ih =>
    rcases ih with h | ⟨p, h₁, h₂, h₃⟩
    · by_cases hw : (x.st (b + 1)).endpoints e = w
      · exact Or.inl (h.succ hw)
      · exact Or.inr ⟨b, by omega, Nat.lt_succ_self b, h, hw⟩
    · exact Or.inr ⟨p, h₁, by omega, h₃⟩

/-- A sender that parked and returns had its message taken by a receive. -/
theorem EndsAt.taken {i q : ℕ} {s : Slot} {e : EpId} {len : Nat} (hend : EndsAt x s i q)
    (hp : (x.st (i + 1)).endpoints e = .senderWaiting s len) :
    ∃ p r dst cap, i < p ∧ p < q ∧ RecvAt x p r e dst cap ∧
      Parked x e (.senderWaiting s len) i p ∧
      Takes (entry x p) (x.ev p).trap (x.st (p + 1)).toCore e s len dst cap ∧
      (x.st (q + 1)).frame.a0 = len := by
  have hq := hend.lt
  have hle := hend.le
  rcases parked_or_leaves hp (q + 1) (by omega) with hstill | ⟨p, hip, hpq, hparked, hleft⟩
  · -- the sender would be parked and running
    have hw := Core.waiter_of_sender (hstill (q + 1) (by omega) (Nat.le_refl _))
    exact absurd hend.back.symm ((run_inv x (q + 1) hq).waiter_ne_current hw)
  have hpl : p < x.len := by omega
  have ep := hparked p hip (Nat.le_refl p)
  have hinv := run_entry_inv x (Nat.le_of_lt hpl)
  have hwait : ((entry x p).endpoints e).waiter = some s := Core.waiter_of_sender ep
  rcases (run_move x hpl).sender_leaves hinv ep hleft with ⟨dst, cap, htake⟩ | ⟨-, hk | hr⟩
  · have hpq' : p < q := by
      rcases Nat.eq_or_lt_of_le (Nat.le_of_lt_succ hpq) with rfl | hlt
      · exact absurd (hend.back.symm.trans htake.current) (hinv.waiter_ne_current hwait)
      · exact hlt
    obtain ⟨hsame, hready⟩ := hend.settled (Nat.le_of_lt hip) hpq' (Or.inl htake.woken)
    have hnone : ((x.st q).tasks s).pendingIpc = none := by
      rw [hsame, htake.pending]
      exact hinv.wf.waiter_pending hwait
    obtain ⟨-, d, hd, hres⟩ := run_resumes x hq (by simp [hready])
      (hend.away q (by omega) (Nat.le_refl q)) hend.back
    refine ⟨p, (x.st p).current, dst, cap, hip, hpq', ?_, hparked, htake, ?_⟩
    · exact ⟨⟨hpl, rfl, htake.trap, htake.req.sys⟩, htake.req⟩
    · rw [hres, Core.resume_frame (hd ▸ hnone), hd, hsame]
      exact htake.returned
  · -- killed, it does not run again
    exfalso
    rcases Nat.eq_or_lt_of_le (Nat.le_of_lt_succ hpq) with rfl | hlt
    · have hrun := ((run_inv x (p + 1) hpl).wf.running s).mpr (congrArg some hend.back)
      rw [hk] at hrun
      cases hrun
    · obtain ⟨hsame, hready⟩ := hend.settled (Nat.le_of_lt hip) hlt (Or.inr (Or.inr hk))
      rw [hsame, hk] at hready
      cases hready
  · exact absurd hr (hend.kept p hip (by omega))

/-! ## Delivery -/

/-- A receive that fails meets no send. -/
theorem run_refused (x : Run img) (hfit : x.EveryStep (SendFits img)) {p q : ℕ} {r : Slot}
    (hcall : CallAt x p r .recv) (hend : EndsAt x r p q) (hneg : (x.st (q + 1)).frame.a0 < 0)
    {e : EpId} {i : ℕ} : ¬ Meets x e i p := by
  rintro ⟨s, buf, len, r', dst, cap, hs, hr, ⟨hip, hpark, hgone⟩ | ⟨hpi, hpark, hgone⟩⟩
  · have hp := hcall.lt
    have ep := hpark p hip (Nat.le_refl p)
    have hleft : (x.st (p + 1)).endpoints e ≠ .senderWaiting s len := by simp [hgone]
    rcases (run_move x hp).sender_leaves (run_entry_inv x (Nat.le_of_lt hp)) ep hleft with
      ⟨dst', cap', htake⟩ | ⟨hsys, -⟩
    · obtain rfl := hend.at_once (htake.current.trans hcall.caller)
      rw [htake.result] at hneg
      omega
    · exact absurd hcall.sys hsys
  · have hi := hs.call.lt
    obtain rfl : r' = r := hr.call.caller.symm.trans hcall.caller
    have ep := hpark i hpi (Nat.le_refl i)
    -- the receiver stands on the endpoint up to `i`, so that its call ends later
    have hiq : i ≤ q := by
      by_contra hlt
      have hw := Core.waiter_of_receiver (hpark (q + 1) (by have := hend.le; omega) (by omega))
      exact absurd hend.back.symm ((run_inv x (q + 1) hend.lt).waiter_ne_current hw)
    have hend' : EndsAt x r' i q :=
      ⟨hiq, hend.lt, fun m h₁ h₂ => hend.away m (by omega) h₂,
        fun m h₁ h₂ => hend.kept m (by omega) h₂, hend.back⟩
    cases (run_move x hi).sendOutcome hs.call.trap hs.call.sys with
    | refused endpoints tasks current neg =>
      have hsame : (x.st (i + 1)).endpoints e = (x.st i).endpoints e := congrFun endpoints e
      rw [hgone, ep] at hsame
      cases hsame
    | staged hst others =>
      obtain ⟨rfl, -, -⟩ := hs.req.unique hst.req
      obtain ⟨rfl, -, -⟩ := Ep.receiverWaiting.inj (ep.symm.trans hst.parked)
      rw [(hst.delivered hi hend').1] at hneg
      omega
    | dropped req parked small cleared pending =>
      exact small ((hfit i hi).fits hi hs.call.trap req parked)
    | parks req idle parked current kmsg pending =>
      obtain ⟨rfl, -, -⟩ := hs.req.unique req
      cases ep.symm.trans idle

/-- In every run whose sends find room with the receivers that wait for them and leave the staged
message of a parked sender as it is, every message that was reported as sent is delivered, and a
receive that fails consumes none. -/
theorem run_messagesDelivered (x : Run img) (hfit : x.EveryStep (SendFits img))
    (hkeep : x.EveryStep (KeepsStaged img)) : MessagesDelivered x := by
  refine ⟨?_, ?_⟩
  · intro i q s hcall hend hpos
    have hi := hcall.lt
    cases (run_move x hi).sendOutcome hcall.trap hcall.sys with
    | refused endpoints tasks current neg =>
      obtain rfl := hend.at_once (current.trans hcall.caller)
      omega
    | @staged e r buf len dst cap hst others =>
      obtain rfl := hend.at_once (hst.current.trans hcall.caller)
      have hsend : SendAt x q s e buf len := ⟨hcall, hst.req⟩
      have horigin := run_origin x e q (Nat.le_of_lt hi)
      have hparked : (x.st q).endpoints e = .receiverWaiting r dst cap := hst.parked
      rw [hparked] at horigin
      cases horigin with
      | @receiver p _ _ _ lt call since =>
        refine ⟨e, buf, len, hsend, hst.result, p, r, dst, cap, call, ?_, Or.inr ⟨lt, ?_⟩⟩
        · exact ⟨s, buf, len, r, dst, cap, hsend, call, Or.inr ⟨lt, since, hst.cleared⟩⟩
        · intro q' hend'
          exact hst.delivered hi hend'
    | dropped req parked small cleared pending =>
      exact absurd ((hfit i hi).fits hi hcall.trap req parked) small
    | @parks e buf len req idle parked current kmsg pending =>
      have hsend : SendAt x i s e buf len := ⟨hcall, req⟩
      have hstands : (x.st (i + 1)).endpoints e = .senderWaiting s len := by
        have hcur : (entry x i).current = s := hcall.caller
        rw [parked, hcur]
      obtain ⟨p, r, dst, cap, hip, hpq, hrecv, hpark, htake, hret⟩ := hend.taken hstands
      refine ⟨e, buf, len, hsend, hret, p, r, dst, cap, hrecv, ?_, Or.inl ⟨hip, hpq, ?_, ?_, ?_⟩⟩
      · exact ⟨s, buf, len, r, dst, cap, hsend, hrecv, Or.inl ⟨hip, hpark, htake.cleared⟩⟩
      · exact htake.current.trans hrecv.call.caller
      · exact htake.result
      · have hp := Nat.le_of_lt hrecv.call.lt
        exact htake.bytes.trans (run_staged x hkeep hsend p hip hp hpark)
  · intro p q r hcall hend hneg
    refine ⟨fun e i => run_refused x hfit hcall hend hneg, ?_⟩
    rintro rfl
    have hfails : IpcFails (entry x q) (x.ev q).trap (x.st (q + 1)).toCore :=
      ⟨hcall.trap, Or.inr hcall.sys, hend.back.trans hcall.caller.symm, hneg⟩
    exact ((run_move x hcall.lt).ipcFails hfails).1

/-! ## Sample runs -/

/-- Only a send can meet a receiver that has no room for it. -/
theorem sendFits_of_room {k : Kernel} {ev : Event}
    (h : (k.toCore.enter ev).frame.sys ≠ some .send ∨
      ∀ e, (k.endpoints e).hasRoom ((k.toCore.enter ev).frame.arg 2) = true) :
    SendFits img k ev := by
  intro _ e buf len req
  rcases h with h | h
  · exact absurd req.sys h
  · rw [← req.len_eq]
    exact h e

/-- `fs_service` waits with room for `cap` bytes, `app_loader_service` sends it two and yields. -/
def twoBytesTo (cap : UInt64) : List Event :=
  [sampleCall 8 5 0 0 0, sampleCall 8 9 0 0 0, sampleCall 2 0 0 0 0, sampleCall 1 0 0 0 0,
    sampleCall 4 0 0x200010 cap 0, sampleCall 3 2 0x200000 2 65, sampleCall 1 0 0 0 0]

theorem survives_twoBytesTo_two : survives (twoBytesTo 2) = true := rfl

theorem survives_twoBytesTo_one : survives (twoBytesTo 1) = true := rfl

/-- With room for both bytes they are delivered. -/
theorem twoBytesTo_two_delivered :
    (sampleRun (twoBytesTo 2) survives_twoBytesTo_two).EveryStep (SendFits sampleImage) ∧
      (sampleRun (twoBytesTo 2) survives_twoBytesTo_two).EveryStep (KeepsStaged sampleImage) ∧
      MessagesDelivered (sampleRun (twoBytesTo 2) survives_twoBytesTo_two) := by
  have hroom : ∀ i < 7, ((sampleState (twoBytesTo 2) i).toCore.enter
        ((twoBytesTo 2).getD i sampleTick)).frame.sys ≠ some .send ∨
      ∀ e, ((sampleState (twoBytesTo 2) i).endpoints e).hasRoom
        (((sampleState (twoBytesTo 2) i).toCore.enter
          ((twoBytesTo 2).getD i sampleTick)).frame.arg 2) = true := by
    decide
  have hfit : (sampleRun (twoBytesTo 2) survives_twoBytesTo_two).EveryStep
      (SendFits sampleImage) :=
    fun i hi => sendFits_of_room (hroom i hi)
  have hparked : ∀ i < 7, ∀ e, (sampleState (twoBytesTo 2) i).endpoints e = .idle ∨
      (sampleState (twoBytesTo 2) i).endpoints e = .receiverWaiting 10 0x200010 2 := by
    decide
  have hkeep : (sampleRun (twoBytesTo 2) survives_twoBytesTo_two).EveryStep
      (KeepsStaged sampleImage) := by
    -- no sender is ever parked
    intro i hi _ _ _ _ _ e s len ep
    rcases hparked i hi e with h | h <;> cases ep.symm.trans h
  exact ⟨hfit, hkeep, run_messagesDelivered _ hfit hkeep⟩

/-- `app_loader_service` is told that its two bytes were sent, and `fs_service`, which has room for
one, gets an error instead of them. -/
theorem twoBytesTo_one_lost :
    ¬ ∀ x : Run sampleImage, MessagesDelivered x := by
  intro h
  set x := sampleRun (twoBytesTo 1) survives_twoBytesTo_one with hx
  have hst : ∀ i, x.st i = sampleState (twoBytesTo 1) i := fun _ => rfl
  have hcall : CallAt x 5 6 .send := by
    refine ⟨by decide, ?_, rfl, ?_⟩
    · rw [hst]
      decide
    · decide
  have hback : (sampleState (twoBytesTo 1) 6).current = 6 := rfl
  have hends : EndsAt x 6 5 5 :=
    ⟨Nat.le_refl 5, by decide, fun m h₁ h₂ => by omega, fun m h₁ h₂ => by omega, hback⟩
  have hsent : (sampleState (twoBytesTo 1) 6).frame.a0 = 2 := rfl
  obtain ⟨e, buf, len, hsend, hlen, p, r, dst, cap, hrecv, hmeet, hplaced⟩ :=
    (h x).sent 5 5 6 hcall hends (by rw [hst, hsent]; decide)
  -- the receive it met is the one `fs_service` waits with
  have hep : e = 4 := by
    have hres : (entry x 5).capCheck (entry x 5).current ((entry x 5).frame.arg 0) rightSend =
        .ok 4 := rfl
    have heq := hsend.req.resolves.symm.trans hres
    rw [CapCheck.ok.injEq] at heq
    exact Fin.ext heq
  subst hep
  rcases hplaced with ⟨h₁, h₂, -⟩ | ⟨hp, hnext⟩
  · omega
  · have hparked : (sampleState (twoBytesTo 1) 5).endpoints 4 = .receiverWaiting 10 0x200010 1 := by
      rfl
    obtain ⟨-, -, -, r', dst', cap', -, hrecv', ⟨h₁, -⟩ | ⟨-, hpark, -⟩⟩ := hmeet
    · omega
    · have hr' := hpark 5 hp (Nat.le_refl 5)
      rw [hst, hparked, Ep.receiverWaiting.injEq] at hr'
      have hr : r = 10 := by
        rw [← hrecv.call.caller, hrecv'.call.caller, ← hr'.1]
      subst hr
      have haway : ∀ m, 5 < m → m ≤ 6 → (x.st m).current ≠ 10 := by
        intro m h₁ h₂
        obtain rfl : m = 6 := by omega
        rw [hst, hback]
        decide
      have hkept : ∀ m, 5 < m → m ≤ 6 →
          ¬ Renews ((x.st m).serviceTable.getD []) (entry x m) (x.ev m).trap 10 := by
        intro m h₁ h₂
        obtain rfl : m = 6 := by omega
        have hsys : (entry x 6).frame.sys = some .yield := rfl
        rintro ⟨-, -, ⟨hs, -⟩ | ⟨hs, -⟩⟩ <;> rw [hsys] at hs <;> cases hs
      have hon : (sampleState (twoBytesTo 1) 7).current = 10 := rfl
      obtain ⟨hres, -⟩ := hnext 6 ⟨by decide, by decide, haway, hkept, hon⟩
      have hgot : (sampleState (twoBytesTo 1) 7).frame.a0 = -6 := rfl
      rw [hst, hgot] at hres
      omega

end AxiomRT.Dispatch
