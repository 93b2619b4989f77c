import AxiomRT.Lib.Execution
import AxiomRT.Ipc.Rendezvous

/-!
# Proofs: exactly-once delivery

Every accepted send has one fate: its message was handed out, its parked sender was cancelled, or it
is the one still parked. A ledger records the fates in the order of the sends.
-/

namespace AxiomRT.Ipc

open Lib
open Threads (ThreadId)

/-! ## What a log of calls shows -/

/-- A sender and its message. -/
abbrev Sent : Type := ThreadId × Message

namespace Entry

/-- The send this call made, if it was accepted. -/
def accepted (e : Entry) : Option Sent :=
  match e.call, e.reply with
  | .send s m, .send (.ok _) => some (s, m)
  | _, _ => none

/-- The message this call handed out. A `Received` is attributed to the thread it unblocks, a
`Delivered` to the thread that sends. -/
def handedOut (e : Entry) : Option Sent :=
  match e.call, e.reply with
  | .send s _, .send (.ok (.delivered _ m)) => some (s, m)
  | .recv _, .recv (.ok (.received m s)) => some (s, m)
  | _, _ => none

/-- The parked send this call cancelled. -/
def cancelled (e : Entry) : Option Sent :=
  match e.call, e.reply, e.before.state, e.before.pending with
  | .cancel _, .cancel .cancelled, .senderWaiting s, some m => some (s, m)
  | _, _, _, _ => none

/-- The call was refused. -/
def failed (e : Entry) : Prop :=
  (∃ err, e.reply = .send (.error err)) ∨ ∃ err, e.reply = .recv (.error err)

end Entry

/-- The send that is parked on the endpoint. -/
def Endpoint.parked (ep : Endpoint) : List Sent :=
  match ep.state, ep.pending with
  | .senderWaiting s, some m => [(s, m)]
  | _, _ => []

/-! ## The ledger -/

/-- What has become of an accepted send. -/
inductive Fate
  | handedOut
  | cancelled
  | parked
  deriving DecidableEq

/-- The accepted sends in order, each with its fate. -/
abbrev Ledger : Type := List (Fate × Sent)

/-- The sends with fate `f`, in order. -/
def Ledger.ofFate (l : Ledger) (f : Fate) : List Sent := (l.filter fun e => e.1 = f).map Prod.snd

/-- Exactly-once delivery. The messages handed out are a subsequence of the accepted sends, each
taken once: they are the ones the ledger marks. Those it does not mark were cancelled or are still
parked. -/
structure ExactlyOnce (t : Trace) : Prop where
  pending_iff : t.ep.pending.isSome = true ↔ ∃ s, t.ep.state = .senderWaiting s
  fates : ∃ l : Ledger, l.map Prod.snd = t.log.filterMap Entry.accepted ∧
    l.ofFate .handedOut = t.log.filterMap Entry.handedOut ∧
    l.ofFate .cancelled = t.log.filterMap Entry.cancelled ∧
    l.ofFate .parked = t.ep.parked
  subsequence : (t.log.filterMap Entry.handedOut).Sublist (t.log.filterMap Entry.accepted)
  unchanged : ∀ e ∈ t.log, e.failed → e.after = e.before

theorem Ledger.ofFate_append (l l' : Ledger) (f : Fate) :
    (l ++ l').ofFate f = l.ofFate f ++ l'.ofFate f := by
  unfold ofFate
  rw [List.filter_append, List.map_append]

theorem Ledger.ofFate_sublist (l : Ledger) (f : Fate) : (l.ofFate f).Sublist (l.map Prod.snd) :=
  List.filter_sublist.map _

/-- The entry of the ledger that is still open while a sender waits. -/
def Rendezvous.waiting : Rendezvous → Ledger
  | .sending s m => [(.parked, s, m)]
  | _ => []

theorem Rendezvous.parked_endpoint (r : Rendezvous) (id : EndpointId) :
    (r.endpoint id).parked = r.waiting.ofFate .parked := by
  cases r <;> rfl

/-- The settled sends `l` and the one that waits account for the log. -/
structure Accounts (t : Trace) (id : EndpointId) (r : Rendezvous) (l : Ledger) : Prop where
  ep : t.ep = r.endpoint id
  settled : l.ofFate .parked = []
  accepted : (l ++ r.waiting).map Prod.snd = t.log.filterMap Entry.accepted
  handedOut : l.ofFate .handedOut = t.log.filterMap Entry.handedOut
  cancelled : l.ofFate .cancelled = t.log.filterMap Entry.cancelled
  unchanged : ∀ e ∈ t.log, e.failed → e.after = e.before

theorem Trace.filterMap_record {β : Type*} (t : Trace) (e : Entry) (f : Entry → Option β) :
    (t.record e).log.filterMap f = t.log.filterMap f ++ (f e).toList := by
  show (t.log ++ [e]).filterMap f = _
  rw [List.filterMap_append]
  cases h : f e <;> simp [h]

section Step

variable {t : Trace} {id : EndpointId} {r r' : Rendezvous} {l l' : Ledger} {e : Entry}
  {s : ThreadId} {m : Message}

/-- One more call: the ledger grows by what the call accepted, handed out and cancelled. -/
theorem Accounts.snoc (h : Accounts t id r l) (hep : e.after = r'.endpoint id)
    (hset : l'.ofFate .parked = [])
    (hacc : (l' ++ r'.waiting).map Prod.snd = (l ++ r.waiting).map Prod.snd ++ e.accepted.toList)
    (hout : l'.ofFate .handedOut = l.ofFate .handedOut ++ e.handedOut.toList)
    (hcan : l'.ofFate .cancelled = l.ofFate .cancelled ++ e.cancelled.toList)
    (hfail : e.failed → e.after = e.before) :
    Accounts (t.record e) id r' l' := by
  refine ⟨hep, hset, ?_, ?_, ?_, ?_⟩
  · rw [hacc, h.accepted, Trace.filterMap_record]
  · rw [hout, h.handedOut, Trace.filterMap_record]
  · rw [hcan, h.cancelled, Trace.filterMap_record]
  · intro e' he'
    rcases List.mem_append.mp he' with he' | he'
    · exact h.unchanged e' he'
    · rw [List.mem_singleton.mp he']
      exact hfail

/-- A call that accepts, hands out and cancels nothing leaves the ledger as it is. -/
theorem Accounts.quiet (h : Accounts t id r l) (hep : e.after = r'.endpoint id)
    (hw : r'.waiting = r.waiting) (hacc : e.accepted = none) (hout : e.handedOut = none)
    (hcan : e.cancelled = none) (hfail : e.failed → e.after = e.before) :
    Accounts (t.record e) id r' l := by
  refine h.snoc hep h.settled ?_ ?_ ?_ hfail
  · rw [hacc, hw, Option.toList_none, List.append_nil]
  · rw [hout, Option.toList_none, List.append_nil]
  · rw [hcan, Option.toList_none, List.append_nil]

/-- The waiting sender's entry is settled with fate `f`. -/
theorem Accounts.settle (h : Accounts t id (.sending s m) l) {f : Fate} (hf : f ≠ .parked)
    (hep : e.after = Rendezvous.idle.endpoint id) (hacc : e.accepted = none)
    (hout : e.handedOut = if f = .handedOut then some (s, m) else none)
    (hcan : e.cancelled = if f = .cancelled then some (s, m) else none)
    (hfail : e.failed → e.after = e.before) :
    Accounts (t.record e) id .idle (l ++ [(f, s, m)]) := by
  refine h.snoc hep ?_ ?_ ?_ ?_ hfail
  · rw [Ledger.ofFate_append, h.settled]
    simp [Ledger.ofFate, hf]
  · rw [hacc]
    simp [Rendezvous.waiting]
  · rw [Ledger.ofFate_append, hout]
    by_cases hh : f = .handedOut <;> simp [Ledger.ofFate, hh]
  · rw [Ledger.ofFate_append, hcan]
    by_cases hh : f = .cancelled <;> simp [Ledger.ofFate, hh]

theorem Accounts.send (h : Accounts t id r l) (s : ThreadId) (m : Message) :
    ∃ l', Accounts (t.record ⟨t.ep, .send s m, .send (r.send s m).2,
      (r.send s m).1.endpoint id⟩) id (r.send s m).1 l' := by
  cases r with
  | idle =>
    refine ⟨l, h.snoc rfl h.settled ?_ ?_ ?_ ?_⟩
    · simp [Entry.accepted, Rendezvous.send, Rendezvous.waiting]
    · simp [Entry.handedOut, Rendezvous.send]
    · simp [Entry.cancelled]
    · simp [Entry.failed, Rendezvous.send]
  | receiving r =>
    refine ⟨l ++ [(.handedOut, s, m)], h.snoc rfl ?_ ?_ ?_ ?_ ?_⟩
    · rw [Ledger.ofFate_append, h.settled]
      rfl
    · simp [Entry.accepted, Rendezvous.send, Rendezvous.waiting]
    · rw [Ledger.ofFate_append]
      simp [Entry.handedOut, Rendezvous.send, Ledger.ofFate]
    · rw [Ledger.ofFate_append]
      simp [Entry.cancelled, Ledger.ofFate]
    · simp [Entry.failed, Rendezvous.send]
  | sending s' m' =>
    refine ⟨l, h.quiet rfl rfl ?_ ?_ ?_ fun _ => h.ep.symm⟩
    · simp [Entry.accepted, Rendezvous.send]
    · simp [Entry.handedOut, Rendezvous.send]
    · simp [Entry.cancelled]

theorem Accounts.recv (h : Accounts t id r l) (c : ThreadId) :
    ∃ l', Accounts (t.record ⟨t.ep, .recv c, .recv (r.recv c).2,
      (r.recv c).1.endpoint id⟩) id (r.recv c).1 l' := by
  cases r with
  | idle =>
    refine ⟨l, h.quiet rfl rfl ?_ ?_ ?_ ?_⟩
    · simp [Entry.accepted]
    · simp [Entry.handedOut, Rendezvous.recv]
    · simp [Entry.cancelled]
    · simp [Entry.failed, Rendezvous.recv]
  | receiving r =>
    refine ⟨l, h.quiet rfl rfl ?_ ?_ ?_ fun _ => h.ep.symm⟩
    · simp [Entry.accepted]
    · simp [Entry.handedOut, Rendezvous.recv]
    · simp [Entry.cancelled]
  | sending s m =>
    refine ⟨l ++ [(.handedOut, s, m)], h.settle (by decide) rfl ?_ ?_ ?_ ?_⟩
    · simp [Entry.accepted]
    · simp [Entry.handedOut, Rendezvous.recv]
    · simp [Entry.cancelled]
    · simp [Entry.failed, Rendezvous.recv]

theorem Accounts.cancel (h : Accounts t id r l) (c : ThreadId) :
    ∃ l', Accounts (t.record ⟨t.ep, .cancel c, .cancel (r.cancel c).2,
      (r.cancel c).1.endpoint id⟩) id (r.cancel c).1 l' := by
  have hfail : ∀ {e : Entry} {o}, e.reply = .cancel o → e.failed → e.after = e.before := by
    rintro e o ho (⟨err, he⟩ | ⟨err, he⟩) <;> rw [ho] at he <;> cases he
  cases r with
  | idle =>
    refine ⟨l, h.quiet rfl rfl ?_ ?_ ?_ (hfail rfl)⟩
    · simp [Entry.accepted]
    · simp [Entry.handedOut]
    · simp [Entry.cancelled, Rendezvous.cancel]
  | receiving r =>
    have hw : ((Rendezvous.receiving r).cancel c).1.waiting = [] := by
      by_cases hr : r = c <;> simp [Rendezvous.cancel, Rendezvous.waiting, hr]
    refine ⟨l, h.quiet rfl hw ?_ ?_ ?_ (hfail rfl)⟩
    · simp [Entry.accepted]
    · simp [Entry.handedOut]
    · simp [Entry.cancelled, h.ep, Rendezvous.endpoint]
  | sending s m =>
    by_cases hs : s = c
    · have hc : (Rendezvous.sending s m).cancel c = (.idle, .cancelled) := if_pos hs
      rw [hc]
      refine ⟨l ++ [(.cancelled, s, m)], h.settle (by decide) rfl ?_ ?_ ?_ (hfail rfl)⟩
      · simp [Entry.accepted]
      · simp [Entry.handedOut]
      · simp [Entry.cancelled, h.ep, Rendezvous.endpoint]
    · have hc : (Rendezvous.sending s m).cancel c = (.sending s m, .notWaiting) := if_neg hs
      rw [hc]
      refine ⟨l, h.quiet rfl rfl ?_ ?_ ?_ (hfail rfl)⟩
      · simp [Entry.accepted]
      · simp [Entry.handedOut]
      · simp [Entry.cancelled]

theorem Accounts.step (h : Accounts t id r l) (c : Call) :
    ∃ t' r' l', t.step c = .ok t' ∧ Accounts t' id r' l' := by
  cases c with
  | send s m =>
    obtain ⟨l', h'⟩ := h.send s m
    refine ⟨_, _, l', ?_, h'⟩
    simp only [Trace.step, Endpoint.call, h.ep, Rendezvous.send_endpoint, Except.map]
  | recv c =>
    obtain ⟨l', h'⟩ := h.recv c
    refine ⟨_, _, l', ?_, h'⟩
    simp only [Trace.step, Endpoint.call, h.ep, Rendezvous.recv_endpoint, Except.map]
  | cancel c =>
    obtain ⟨l', h'⟩ := h.cancel c
    refine ⟨_, _, l', ?_, h'⟩
    simp only [Trace.step, Endpoint.call, h.ep, Rendezvous.cancel_endpoint, Except.map]

theorem Accounts.exactlyOnce (h : Accounts t id r l) : ExactlyOnce t := by
  have hsettled : ∀ f, f ≠ .parked → (l ++ r.waiting).ofFate f = l.ofFate f := by
    intro f hf
    have hw : r.waiting.ofFate f = [] := by
      cases r <;> simp [Rendezvous.waiting, Ledger.ofFate, hf.symm]
    rw [Ledger.ofFate_append, hw, List.append_nil]
  have hout : (l ++ r.waiting).ofFate .handedOut = t.log.filterMap Entry.handedOut :=
    (hsettled _ (by simp)).trans h.handedOut
  refine ⟨?_, ⟨l ++ r.waiting, h.accepted, hout, (hsettled _ (by simp)).trans h.cancelled, ?_⟩, ?_,
    h.unchanged⟩
  · rw [h.ep]
    exact r.pending_iff
  · rw [Ledger.ofFate_append, h.settled, h.ep, Rendezvous.parked_endpoint, List.nil_append]
  · rw [← hout, ← h.accepted]
    exact Ledger.ofFate_sublist _ _

end Step

/-- Whatever is called on an endpoint, no call panics and delivery is exactly once. -/
theorem feed_exactlyOnce (id : EndpointId) (calls : List Call) :
    ∃ t, Execution.feed Trace.step (.start id) calls = .ok t ∧ ExactlyOnce t := by
  have hstart : ∃ r l, Accounts (.start id) id r l :=
    ⟨.idle, [], rfl, rfl, rfl, rfl, rfl, fun e he => absurd he List.not_mem_nil⟩
  obtain ⟨t, ht, r, l, hacc⟩ := Execution.feed_total (P := fun t => ∃ r l, Accounts t id r l)
    (fun t c ⟨r, l, h⟩ => by
      obtain ⟨t', r', l', ht', h'⟩ := h.step c
      exact ⟨t', ht', r', l', h'⟩) calls hstart
  exact ⟨t, ht, hacc.exactlyOnce⟩

end AxiomRT.Ipc
