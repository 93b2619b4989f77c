import Mathlib.Tactic.IntervalCases
import AxiomRT.Fault.Channel
import AxiomRT.Fault.Proofs.WireProofs
import AxiomRT.Ipc.Rendezvous

/-!
# Proofs: sender identity and loss on the fault channel

The channel follows the rendezvous. A message is taken off it by the sender it came with, so a
header is genuine if it was genuine when it was sent; and an event is lost exactly when it is handed
to a parked receiver, because nothing keeps it for the next poll.
-/

namespace AxiomRT.Fault

open Lib
open Threads (ThreadId)
open Caps (CapTable)
open Ipc (Endpoint EndpointId Message Rendezvous)

variable {id : EndpointId}

/-! ## What the checked calls do to a rendezvous -/

section Checked

variable {r : Rendezvous} {table : CapTable} {k : ℕ} {s t : ThreadId} {m : Message}

theorem sendChecked_authorized (h : (r.endpoint id).authorize table k .send = .ok ()) :
    (r.endpoint id).sendChecked table k s m =
      .ok ((r.send s m).1.endpoint id, (r.send s m).2.mapError .ipc) := by
  unfold Endpoint.sendChecked
  simp only [h, Rendezvous.send_endpoint, ok_bind]

theorem recvChecked_authorized (h : (r.endpoint id).authorize table k .receive = .ok ()) :
    (r.endpoint id).recvChecked table k t =
      .ok ((r.recv t).1.endpoint id, (r.recv t).2.mapError .ipc) := by
  unfold Endpoint.recvChecked
  simp only [h, Rendezvous.recv_endpoint, ok_bind]

theorem sendChecked_cases (r : Rendezvous) (table : CapTable) (k : ℕ) (s : ThreadId) (m : Message) :
    (∃ e, (r.endpoint id).sendChecked table k s m = .ok (r.endpoint id, .error e)) ∨
    ((r.endpoint id).authorize table k .send = .ok () ∧
      (r.endpoint id).sendChecked table k s m =
        .ok ((r.send s m).1.endpoint id, (r.send s m).2.mapError .ipc)) := by
  cases h : (r.endpoint id).authorize table k .send with
  | error e => exact Or.inl ⟨e, by simp only [Endpoint.sendChecked, h]⟩
  | ok u => exact Or.inr ⟨rfl, sendChecked_authorized h⟩

theorem recvChecked_cases (r : Rendezvous) (table : CapTable) (k : ℕ) (t : ThreadId) :
    (∃ e, (r.endpoint id).recvChecked table k t = .ok (r.endpoint id, .error e)) ∨
    (r.endpoint id).recvChecked table k t =
      .ok ((r.recv t).1.endpoint id, (r.recv t).2.mapError .ipc) := by
  cases h : (r.endpoint id).authorize table k .receive with
  | error e => exact Or.inl ⟨e, by simp only [Endpoint.recvChecked, h]⟩
  | ok u => exact Or.inr (recvChecked_authorized h)

/-- A send that is answered with an outcome was authorized, and it is a send of the rendezvous. -/
theorem sendChecked_ok {ch : Endpoint} {o : Ipc.SendOutcome}
    (h : (r.endpoint id).sendChecked table k s m = .ok (ch, .ok o)) :
    (r.endpoint id).authorize table k .send = .ok () ∧ (r.send s m).2 = .ok o := by
  rcases sendChecked_cases r table k s m with ⟨e, he⟩ | ⟨hauth, he⟩
  · rw [he] at h
    cases h
  · rw [he] at h
    refine ⟨hauth, ?_⟩
    cases ho : (r.send s m).2 with
    | error e =>
      rw [ho] at h
      cases h
    | ok o' =>
      rw [ho] at h
      cases h
      rfl

/-- A receive is refused, or it is a receive of the rendezvous. -/
theorem recvChecked_channel {ch : Endpoint} {q : Except Endpoint.IpcCapError Ipc.RecvOutcome}
    (h : (r.endpoint id).recvChecked table k t = .ok (ch, q)) :
    ch = r.endpoint id ∨ ch = (r.recv t).1.endpoint id := by
  rcases recvChecked_cases r table k t with ⟨e, he⟩ | he
  · rw [he] at h
    cases h
    exact Or.inl rfl
  · rw [he] at h
    cases h
    exact Or.inr rfl

/-- What is received is what waits, with the sender it waits with. -/
theorem recvChecked_received {ch : Endpoint} {u : ThreadId}
    (h : (r.endpoint id).recvChecked table k t = .ok (ch, .ok (.received m u))) :
    r = .sending u m := by
  rcases recvChecked_cases r table k t with ⟨e, he⟩ | he
  · rw [he] at h
    cases h
  · rw [he] at h
    cases r with
    | idle => cases h
    | receiving t' => cases h
    | sending u' m' =>
      cases h
      rfl

theorem notifySupervisor_channel {e e' : FaultEvent} {ch : Endpoint} {o : NotifyOutcome}
    (h : notifySupervisor (r.endpoint id) e = .ok (ch, e', o)) :
    ch = (r.send kernelSender (encode e)).1.endpoint id := by
  unfold notifySupervisor at h
  rw [Rendezvous.send_endpoint, Except.mapError, ok_bind] at h
  cases r with
  | idle =>
    obtain ⟨e₁, -, h⟩ := bind_eq_ok.mp h
    cases h
    rfl
  | receiving t =>
    obtain ⟨e₁, -, h⟩ := bind_eq_ok.mp h
    obtain ⟨e₂, -, h⟩ := bind_eq_ok.mp h
    cases h
    rfl
  | sending s m =>
    cases h
    rfl

/-- A poll does to the channel what its `recv_checked` does, and reports only what it received. -/
theorem pollFaultChannel_recv {ch ch' : Endpoint}
    {res : Except PollError (FaultReport × RecoveryDecision)}
    (h : pollFaultChannel table k ch t = .ok (ch', res)) :
    ∃ q, ch.recvChecked table k t = .ok (ch', q) ∧ ∀ report d, res = .ok (report, d) →
      ∃ m u, q = .ok (.received m u) ∧ decode m = .ok report := by
  unfold pollFaultChannel at h
  obtain ⟨⟨ch₁, q⟩, hq, h⟩ := bind_eq_ok.mp h
  -- an answer without a report says nothing about what was received
  have hnone : ∀ {e}, (Except.ok (ch₁, .error e) :
      Except Ipc.Panic (Endpoint × Except PollError (FaultReport × RecoveryDecision))) =
      .ok (ch', res) → ∃ q, ch.recvChecked table k t = .ok (ch', q) ∧ ∀ report d,
        res = .ok (report, d) → ∃ m u, q = .ok (.received m u) ∧ decode m = .ok report := by
    intro e he
    cases he
    exact ⟨_, hq, fun _ _ hr => by cases hr⟩
  cases q with
  | error e =>
    cases e with
    | cap c => exact hnone h
    | wrongEndpoint => exact hnone h
    | ipc c => exact hnone h
  | ok o =>
    cases o with
    | blocked => exact hnone h
    | received m u =>
      cases hd : decode m with
      | error e =>
        simp only [hd] at h
        exact hnone h
      | ok report =>
        simp only [hd] at h
        cases h
        refine ⟨_, hq, fun report' d hr => ⟨m, u, rfl, ?_⟩⟩
        cases hr
        exact hd

/-- The call offers the message `m` of the sender `s` to the channel. -/
def Offers (ch : Endpoint) (c : ChannelCall) (s : ThreadId) (m : Message) : Prop :=
  (∃ table k, c = .send table k s m ∧ ch.authorize table k .send = .ok ()) ∨
  ∃ e, c = .notify e ∧ s = kernelSender ∧ m = encode e

/-- A step of the channel is refused, offers a message or receives. -/
theorem channelStep_cases {c : ChannelCall} {ch : Endpoint}
    (h : channelStep (r.endpoint id) c = .ok ch) :
    ch = r.endpoint id ∨
    (∃ s m, Offers (r.endpoint id) c s m ∧ ch = (r.send s m).1.endpoint id) ∨
    ∃ t, ch = (r.recv t).1.endpoint id := by
  cases c with
  | send table k s m =>
    obtain ⟨⟨ch', o⟩, ho, rfl⟩ := map_eq_ok.mp h
    rw [mapError_eq_ok] at ho
    rcases sendChecked_cases r table k s m with ⟨e, he⟩ | ⟨hauth, he⟩
    · rw [he] at ho
      cases ho
      exact Or.inl rfl
    · rw [he] at ho
      cases ho
      exact Or.inr (Or.inl ⟨s, m, Or.inl ⟨table, k, rfl, hauth⟩, rfl⟩)
  | recv table k t =>
    obtain ⟨⟨ch', o⟩, ho, rfl⟩ := map_eq_ok.mp h
    rw [mapError_eq_ok] at ho
    rcases recvChecked_channel ho with hch | hch
    · exact Or.inl hch
    · exact Or.inr (Or.inr ⟨t, hch⟩)
  | notify e =>
    obtain ⟨⟨ch', e', o⟩, ho, rfl⟩ := map_eq_ok.mp h
    exact Or.inr (Or.inl ⟨kernelSender, encode e, Or.inr ⟨e, rfl, rfl, rfl⟩,
      notifySupervisor_channel ho⟩)
  | poll table k t =>
    obtain ⟨⟨ch', o⟩, ho, rfl⟩ := map_eq_ok.mp h
    rw [mapError_eq_ok] at ho
    obtain ⟨q, hq, -⟩ := pollFaultChannel_recv ho
    rcases recvChecked_channel hq with hch | hch
    · exact Or.inl hch
    · exact Or.inr (Or.inr ⟨t, hch⟩)

end Checked

/-! ## Who put the message on the channel -/

section Genuine

variable {x : ChannelRun id} {i j n : ℕ} {s : ThreadId} {m : Message}

/-- An accepted offer. -/
theorem SentAt.of_offers {r : Rendezvous} (hst : x.st n = r.endpoint id)
    (h : Offers (r.endpoint id) (x.ev n) s m) {o : Ipc.SendOutcome} (ho : (r.send s m).2 = .ok o) :
    SentAt x n s m := by
  rcases h with ⟨table, k, hev, hauth⟩ | ⟨e, hev, rfl, rfl⟩
  · refine Or.inl ⟨table, k, (r.send s m).1.endpoint id, o, hev, ?_⟩
    rw [hst, sendChecked_authorized hauth, ho]
    rfl
  · refine Or.inr ⟨e, (r.send kernelSender (encode e)).1.endpoint id, o, hev, rfl, rfl, ?_⟩
    rw [hst, Rendezvous.send_endpoint, ho]

theorem WaitsFor.succ (h : WaitsFor x i n s m)
    (hst : x.st (n + 1) = (Rendezvous.sending s m).endpoint id) : WaitsFor x i (n + 1) s m := by
  refine ⟨Nat.lt_succ_of_lt h.1, fun k hik hkn => ?_⟩
  rcases Nat.lt_or_eq_of_le hkn with hk | rfl
  · exact h.2 k hik (Nat.le_of_lt_succ hk)
  · rw [hst]
    exact ⟨rfl, rfl⟩

theorem WaitsFor.start (hst : x.st (n + 1) = (Rendezvous.sending s m).endpoint id) :
    WaitsFor x n (n + 1) s m := by
  refine ⟨Nat.lt_succ_self n, fun k hnk hkn => ?_⟩
  have hk : k = n + 1 := by omega
  rw [hk, hst]
  exact ⟨rfl, rfl⟩

/-- Before step `n` the channel is in one of the three situations, and a message that waits was sent
by the thread it waits with. -/
def Traced (x : ChannelRun id) (n : ℕ) : Prop :=
  ∃ r : Rendezvous, x.st n = r.endpoint id ∧
    ∀ s m, r = .sending s m → ∃ i, SentAt x i s m ∧ WaitsFor x i n s m

theorem Traced.step (hn : n < x.len) (h : Traced x n) : Traced x (n + 1) := by
  obtain ⟨r, hst, htr⟩ := h
  have hstep := x.step_st n hn
  rw [hst] at hstep
  have hkeep : ∀ s m, r = .sending s m → x.st (n + 1) = (Rendezvous.sending s m).endpoint id →
      Traced x (n + 1) := by
    intro s m hr hst'
    refine ⟨.sending s m, hst', fun s' m' heq => ?_⟩
    cases heq
    obtain ⟨i, hsent, hw⟩ := htr s m hr
    exact ⟨i, hsent, hw.succ hst'⟩
  rcases channelStep_cases hstep with hch | ⟨s, m, hoff, hch⟩ | ⟨t, hch⟩
  · cases r with
    | idle => exact ⟨.idle, hch, fun _ _ h => by cases h⟩
    | receiving t => exact ⟨.receiving t, hch, fun _ _ h => by cases h⟩
    | sending s m => exact hkeep s m rfl hch
  · cases r with
    | idle =>
      refine ⟨.sending s m, hch, fun s' m' heq => ?_⟩
      cases heq
      exact ⟨n, .of_offers hst hoff rfl, .start hch⟩
    | receiving t => exact ⟨.idle, hch, fun _ _ h => by cases h⟩
    | sending s' m' => exact hkeep s' m' rfl hch
  · cases r with
    | idle => exact ⟨.receiving t, hch, fun _ _ h => by cases h⟩
    | receiving t' => exact ⟨.receiving t', hch, fun _ _ h => by cases h⟩
    | sending s m => exact ⟨.idle, hch, fun _ _ h => by cases h⟩

theorem run_traced (x : ChannelRun id) : ∀ n, n ≤ x.len → Traced x n := by
  refine x.induct (P := Traced x) ?_ ?_
  · exact ⟨.idle, x.init_st, fun _ _ h => by cases h⟩
  · exact fun n hn h => h.step hn

/-- An honest send carries the identity of its sender; a message that names the kernel comes from a
notification. -/
theorem SentAt.genuine (h : SentAt x i s m) (htr : Traced x i)
    (hon : HonestSend (x.st i) (x.ev i)) : m.header.sender = s ∧
      (s = kernelSender → ∃ e, x.ev i = .notify e ∧ m = encode e) := by
  obtain ⟨r, hst, -⟩ := htr
  rcases h with ⟨table, k, ch, o, hev, hsend⟩ | ⟨e, ch, o, hev, rfl, rfl, -⟩
  · rw [hst] at hsend
    obtain ⟨hauth, -⟩ := sendChecked_ok hsend
    rw [hev, hst] at hon
    obtain ⟨hheader, hne⟩ := hon hauth
    exact ⟨hheader, fun hs => absurd hs hne⟩
  · exact ⟨rfl, fun _ => ⟨e, hev, rfl⟩⟩

theorem ReceivedAt.traced (hj : j ≤ x.len) (h : ReceivedAt x j m) :
    ∃ i s, SentAt x i s m ∧ WaitsFor x i j s m := by
  obtain ⟨table, k, t, ch, u, -, hrecv⟩ := h
  obtain ⟨r, hst, htr⟩ := run_traced x j hj
  rw [hst] at hrecv
  obtain ⟨i, hsent, hw⟩ := htr u m (recvChecked_received hrecv)
  exact ⟨i, u, hsent, hw⟩

theorem DeliveredAt.sent (hj : j ≤ x.len) (h : DeliveredAt x j m) : ∃ s, SentAt x j s m := by
  obtain ⟨r, hst, -⟩ := run_traced x j hj
  rcases h with ⟨table, k, s, m', ch, t, hev, hsend⟩ | ⟨e, ch, t, hev, hsend⟩
  · have hm : m' = m := by
      have hsend' := hsend
      rw [hst] at hsend'
      obtain ⟨-, ho⟩ := sendChecked_ok hsend'
      cases r <;> cases ho
      rfl
    subst hm
    exact ⟨s, Or.inl ⟨table, k, ch, _, hev, hsend⟩⟩
  · have hm : m = encode e := by
      rw [hst, Rendezvous.send_endpoint] at hsend
      cases r <;> cases hsend
      rfl
    subst hm
    exact ⟨kernelSender, Or.inr ⟨e, ch, _, hev, rfl, rfl, hsend⟩⟩

/-- In a run of honest sends no sender identity is forged. -/
theorem run_unforged (x : ChannelRun id) (hon : x.EveryStep HonestSend) : Unforged x := by
  have hgen : ∀ {i s m}, i < x.len → SentAt x i s m → m.header.sender = s ∧
      (s = kernelSender → ∃ e, x.ev i = .notify e ∧ m = encode e) := fun hi h =>
    h.genuine (run_traced x _ (Nat.le_of_lt hi)) (hon _ hi)
  refine ⟨fun j hj m h => ?_, fun j hj m h => ?_, fun j hj table k t ch report d hev hpoll => ?_⟩
  · obtain ⟨s, hsent⟩ := h.sent (Nat.le_of_lt hj)
    exact ⟨s, hsent, (hgen hj hsent).1⟩
  · obtain ⟨i, s, hsent, hw⟩ := h.traced (Nat.le_of_lt hj)
    exact ⟨i, s, hsent, hw, (hgen (hw.1.trans hj) hsent).1⟩
  · obtain ⟨q, hq, hrep⟩ := pollFaultChannel_recv hpoll
    obtain ⟨m, u, rfl, hdec⟩ := hrep report d rfl
    have hrecv : ReceivedAt x j m := ⟨table, k, t, ch, u, Or.inr hev, hq⟩
    obtain ⟨i, s, hsent, hw⟩ := hrecv.traced (Nat.le_of_lt hj)
    obtain ⟨hs, hker⟩ := hgen (hw.1.trans hj) hsent
    -- `decode` accepts only what names the kernel as its sender
    have hsk : s = kernelSender := hs.symm.trans (decode_ok hdec).1
    obtain ⟨e, hev', rfl⟩ := hker hsk
    refine ⟨i, e, hev', hsk ▸ hw, ?_⟩
    have heq := (decode_encode e).symm.trans hdec
    cases heq
    rfl

end Genuine

/-! ### Sample runs on the channel 9 -/

/-- A table with one capability, for the channel 9. -/
def channelTable (right : Caps.Rights) : CapTable :=
  CapTable.new.set ⟨0, by decide⟩ (some ⟨⟨.endpoint, 9⟩, right⟩)

/-- A page fault of thread 3. -/
def sampleEvent : FaultEvent := .new 1 .pageFault 3 0x10000 0x2000

/-- Thread 7 sends under its own name, its message is received by thread 8, and then the kernel
notifies the supervisor. -/
def honestRun : ChannelRun 9 :=
  .ofEvents channelStep _ (.new 9)
    [.send (channelTable .send) 0 7 (.ofBytes 7 [1, 2] (by decide)),
      .recv (channelTable .receive) 0 8, .notify sampleEvent, .poll (channelTable .receive) 0 10]
    (.notify sampleEvent) rfl ⟨_, rfl⟩

theorem honestRun_unforged : honestRun.EveryStep HonestSend ∧ Unforged honestRun := by
  have hon : honestRun.EveryStep HonestSend := by
    intro i hi
    have hlt : i < 4 := hi
    interval_cases i
    · exact fun _ => ⟨rfl, by decide⟩
    · trivial
    · trivial
    · trivial
  exact ⟨hon, run_unforged honestRun hon⟩

/-- Thread 7 holds the Send right and writes the kernel as the sender into its message: the
supervisor takes a report that the kernel never made. -/
def forgedRun : ChannelRun 9 :=
  .ofEvents channelStep _ (.new 9)
    [.send (channelTable .send) 0 7 (encode sampleEvent), .poll (channelTable .receive) 0 10]
    (.notify sampleEvent) rfl ⟨_, rfl⟩

theorem forgedRun_forged : ¬ Unforged forgedRun := by
  intro h
  obtain ⟨i, e, hev, hw, -⟩ := h.polled 1 (by decide) (channelTable .receive) 0 10 _
    sampleEvent.report .kill rfl rfl
  have hi : i = 0 := by
    have := hw.1
    omega
  subst hi
  cases hev

/-! ## Which events reach the supervisor -/

section Watch

variable {sup : Supervisor id} {w w' : Watch} {r : Rendezvous}

theorem Supervisor.authorized (sup : Supervisor id) (r : Rendezvous) :
    (r.endpoint id).authorize sup.table sup.capIndex .receive = .ok () := by
  obtain ⟨obj, hl, hid⟩ := sup.holds
  simp [Endpoint.authorize, hl, hid]

/-- The channel is in one of the three situations, and what waits on it is an encoded event. -/
def Encoded (id : EndpointId) (w : Watch) (r : Rendezvous) : Prop :=
  w.channel = r.endpoint id ∧ ∀ s m, r = .sending s m → ∃ e, m = encode e

/-- A fresh event on an idle channel is parked, on a channel that holds an event it is refused, and
to a parked receiver it is handed over: then only the answer stays. -/
theorem notifySupervisor_fresh (id : EndpointId) (r : Rendezvous) {e : FaultEvent}
    (he : e.state = .created) : ∃ e', notifySupervisor (r.endpoint id) e =
      .ok ((r.send kernelSender (encode e)).1.endpoint id, e',
        match r with
        | .idle => .queued
        | .receiving _ => .delivered
        | .sending _ _ => .channelFull) := by
  have hq : e.advance .queued = .ok { e with state := .queued } := by
    simp only [FaultEvent.advance, he]
  unfold notifySupervisor
  rw [Rendezvous.send_endpoint, Except.mapError, ok_bind]
  cases r with
  | idle =>
    refine ⟨{ e with state := .queued }, ?_⟩
    simp only [Rendezvous.send, hq, Except.mapError, ok_bind]
  | receiving t =>
    refine ⟨{ e with state := .delivered }, ?_⟩
    simp only [Rendezvous.send, hq, Except.mapError, ok_bind]
    rfl
  | sending s m => exact ⟨e, rfl⟩

theorem watchStep_notify (hch : w.channel = r.endpoint id) {e : FaultEvent}
    (he : e.state = .created) : watchStep sup w (.notify e he) =
      .ok ⟨(r.send kernelSender (encode e)).1.endpoint id,
        match r with
        | .sending _ _ => w.answered
        | _ => w.answered ++ [e.report], w.polled⟩ := by
  obtain ⟨e', hn⟩ := notifySupervisor_fresh id r he
  simp only [watchStep, hch, hn, ok_bind]
  cases r <;> rfl

/-- A poll returns what waits on the channel, if anything, and leaves the supervisor parked
otherwise. -/
theorem watchStep_poll (hch : w.channel = r.endpoint id) : watchStep sup w .poll =
    .ok ⟨(r.recv sup.tid).1.endpoint id, w.answered,
      w.polled ++ pendingReports (r.endpoint id)⟩ := by
  simp only [watchStep, hch, pollFaultChannel, recvChecked_authorized (sup.authorized r), ok_bind]
  cases r with
  | idle => simp [Rendezvous.recv, Except.mapError, pendingReports, Rendezvous.endpoint, ok_bind]
  | receiving t =>
    simp [Rendezvous.recv, Except.mapError, pendingReports, Rendezvous.endpoint, ok_bind]
  | sending s m =>
    cases hd : decode m with
    | error e =>
      simp [Rendezvous.recv, Except.mapError, pendingReports, Rendezvous.endpoint, ok_bind, hd,
        Except.toOption]
    | ok report =>
      simp [Rendezvous.recv, Except.mapError, pendingReports, Rendezvous.endpoint, ok_bind, hd,
        Except.toOption]

theorem pendingReports_encode (s : ThreadId) (e : FaultEvent) :
    pendingReports ((Rendezvous.sending s (encode e)).endpoint id) = [e.report] := by
  simp [pendingReports, Rendezvous.endpoint, decode_encode, Except.toOption]

theorem Encoded.step (h : Encoded id w r) {op : WatchOp} (hs : watchStep sup w op = .ok w') :
    ∃ r', Encoded id w' r' := by
  obtain ⟨hch, henc⟩ := h
  cases op with
  | notify e he =>
    rw [watchStep_notify hch he] at hs
    cases hs
    refine ⟨_, rfl, fun s m hr => ?_⟩
    cases r with
    | idle =>
      cases hr
      exact ⟨e, rfl⟩
    | receiving t => cases hr
    | sending s' m' => exact henc s m hr
  | poll =>
    rw [watchStep_poll hch] at hs
    cases hs
    refine ⟨_, rfl, fun s m hr => ?_⟩
    cases r <;> cases hr

theorem run_encoded (x : WatchRun sup) : x.Always fun w => ∃ r, Encoded id w r := by
  refine x.invariant (fun w hw => ⟨.idle, ?_, fun _ _ h => by cases h⟩) fun w op w' ⟨r, h⟩ hs =>
    h.step hs
  rw [hw]
  rfl

theorem NothingLost.notify (h : NothingLost w) (henc : Encoded id w r) {e : FaultEvent}
    {he : e.state = .created} (hno : ∀ t, w.channel.state ≠ .receiverWaiting t)
    (hs : watchStep sup w (.notify e he) = .ok w') : NothingLost w' := by
  obtain ⟨hch, -⟩ := henc
  rw [watchStep_notify hch he] at hs
  unfold NothingLost at h ⊢
  rw [hch] at h hno
  cases r with
  | idle =>
    cases hs
    show w.answered ++ [e.report] = w.polled ++
      pendingReports ((Rendezvous.sending kernelSender (encode e)).endpoint id)
    rw [pendingReports_encode, h]
    simp [pendingReports, Rendezvous.endpoint]
  | receiving t => exact absurd rfl (hno t)
  | sending s m =>
    cases hs
    exact h

theorem NothingLost.poll (h : NothingLost w) (henc : Encoded id w r)
    (hs : watchStep sup w .poll = .ok w') : NothingLost w' := by
  obtain ⟨hch, -⟩ := henc
  rw [watchStep_poll hch] at hs
  cases hs
  have hnone : pendingReports ((r.recv sup.tid).1.endpoint id) = [] := by
    cases r <;> rfl
  show w.answered = w.polled ++ pendingReports (r.endpoint id) ++
    pendingReports ((r.recv sup.tid).1.endpoint id)
  rw [hnone, List.append_nil, ← hch]
  exact h

/-- An event handed to a parked receiver is lost. -/
theorem NothingLost.not_of_parked (h : NothingLost w) {t : ThreadId}
    (henc : Encoded id w (.receiving t)) {e : FaultEvent} {he : e.state = .created}
    (hs : watchStep sup w (.notify e he) = .ok w') : ¬ NothingLost w' := by
  obtain ⟨hch, -⟩ := henc
  rw [watchStep_notify hch he] at hs
  cases hs
  unfold NothingLost at h ⊢
  rw [hch] at h
  intro h'
  have hlen := congrArg List.length h
  have hlen' := congrArg List.length h'
  simp [pendingReports, Rendezvous.endpoint, Rendezvous.send] at hlen hlen'
  omega

/-- Nothing is lost along a run exactly if no notification finds the supervisor parked. -/
theorem run_nothingLost_iff (x : WatchRun sup) :
    x.Always NothingLost ↔ x.EveryStep NoReceiverParked := by
  have henc := run_encoded x
  constructor
  · intro h i hi
    obtain ⟨r, hr⟩ := henc i (Nat.le_of_lt hi)
    have hstep := x.step_st i hi
    cases hev : x.ev i with
    | poll => trivial
    | notify e he =>
      intro t ht
      rw [hev] at hstep
      have hrt : r = .receiving t := by
        rw [hr.1] at ht
        cases r <;> cases ht
        rfl
      subst hrt
      exact (h i (Nat.le_of_lt hi)).not_of_parked hr hstep (h (i + 1) hi)
  · intro hno
    refine x.induct (P := fun i => NothingLost (x.st i)) ?_ fun i hi h => ?_
    · rw [x.init_st]
      rfl
    · obtain ⟨r, hr⟩ := henc i (Nat.le_of_lt hi)
      have hstep := x.step_st i hi
      have hstay := hno i hi
      cases hev : x.ev i with
      | notify e he =>
        rw [hev] at hstep hstay
        exact h.notify hr hstay hstep
      | poll =>
        rw [hev] at hstep
        exact h.poll hr hstep

end Watch

/-! ### A lost event -/

/-- Thread 10 with the Receive capability of channel 9. -/
def sampleSupervisor : Supervisor 9 :=
  ⟨channelTable .receive, 0, 10, ⟨⟨.endpoint, 9⟩, rfl, rfl⟩⟩

/-- The supervisor polls the empty channel, the kernel notifies, the supervisor polls again. -/
def lostRun : WatchRun sampleSupervisor :=
  .ofEvents (watchStep sampleSupervisor) _ ⟨.new 9, [], []⟩
    [.poll, .notify sampleEvent rfl, .poll] .poll rfl ⟨_, rfl⟩

/-- The notification is answered with `Delivered`, but no poll returns the event and it is not on
the channel. -/
theorem lostRun_loses : (lostRun.st 3).answered = [sampleEvent.report] ∧
    (lostRun.st 3).polled = [] ∧ (lostRun.st 3).channel.pending = none ∧
    ¬ lostRun.Always NothingLost := by
  refine ⟨rfl, rfl, rfl, fun h => ?_⟩
  have h3 := h 3 (Nat.le_refl 3)
  cases h3

end AxiomRT.Fault
