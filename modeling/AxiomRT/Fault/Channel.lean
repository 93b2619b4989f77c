import AxiomRT.Lib.Execution
import AxiomRT.Fault.Supervisor

/-!
# Runs on the fault channel

The fault channel is an endpoint on which any thread may call `send_checked` and `recv_checked`, the
kernel notifies and the supervisor polls. Two views of its runs: who put a message on the channel,
and which events reach the supervisor.
-/

namespace AxiomRT.Fault

open Lib
open Threads (ThreadId)
open Caps (CapTable)
open Ipc (Endpoint EndpointId Message)

/-! ## Any threads, any capability tables, any messages -/

/-- A call on the fault channel, of the kernel, the supervisor or any other thread. -/
inductive ChannelCall
  | send (table : CapTable) (capIndex : ℕ) (sender : ThreadId) (msg : Message)
  | recv (table : CapTable) (capIndex : ℕ) (receiver : ThreadId)
  | notify (event : FaultEvent)
  | poll (table : CapTable) (capIndex : ℕ) (supervisor : ThreadId)

/-- The channel after a call. -/
def channelStep (ch : Endpoint) : ChannelCall → Except Panic Endpoint
  | .send table i s m => ((ch.sendChecked table i s m).mapError .ipc).map Prod.fst
  | .recv table i t => ((ch.recvChecked table i t).mapError .ipc).map Prod.fst
  | .notify e => (notifySupervisor ch e).map Prod.fst
  | .poll table i t => ((pollFaultChannel table i ch t).mapError .ipc).map Prod.fst

/-- The runs of a channel from its creation on. -/
abbrev ChannelRun (id : EndpointId) : Type := Execution channelStep (· = .new id)

section Genuine

variable {id : EndpointId}

/-- Step `i` is an accepted send of `m` in which `s` is passed as the sender. -/
def SentAt (x : ChannelRun id) (i : ℕ) (s : ThreadId) (m : Message) : Prop :=
  (∃ table k ch o, x.ev i = .send table k s m ∧
    (x.st i).sendChecked table k s m = .ok (ch, .ok o)) ∨
  (∃ e ch o, x.ev i = .notify e ∧ s = kernelSender ∧ m = encode e ∧
    (x.st i).send kernelSender (encode e) = .ok (ch, .ok o))

/-- Step `j` hands `m` to a receiver that was waiting. -/
def DeliveredAt (x : ChannelRun id) (j : ℕ) (m : Message) : Prop :=
  (∃ table k s m' ch t, x.ev j = .send table k s m' ∧
    (x.st j).sendChecked table k s m' = .ok (ch, .ok (.delivered t m))) ∨
  (∃ e ch t, x.ev j = .notify e ∧
    (x.st j).send kernelSender (encode e) = .ok (ch, .ok (.delivered t m)))

/-- Step `j` takes `m` off the channel, by `recv_checked` or by a poll. -/
def ReceivedAt (x : ChannelRun id) (j : ℕ) (m : Message) : Prop :=
  ∃ table k t ch u, (x.ev j = .recv table k t ∨ x.ev j = .poll table k t) ∧
    (x.st j).recvChecked table k t = .ok (ch, .ok (.received m u))

/-- From the end of step `i` to the beginning of step `j` the message waits with its sender. -/
def WaitsFor (x : ChannelRun id) (i j : ℕ) (s : ThreadId) (m : Message) : Prop :=
  i < j ∧ ∀ k, i < k → k ≤ j → (x.st k).state = .senderWaiting s ∧ (x.st k).pending = some m

/-- Sender identities are genuine: a message is delivered in a step whose sender its header names,
or received after it waited since such a step; and what a poll reports was put there by
`notify_supervisor`. -/
structure Unforged (x : ChannelRun id) : Prop where
  delivered : ∀ j, j < x.len → ∀ m, DeliveredAt x j m → ∃ s, SentAt x j s m ∧ m.header.sender = s
  received : ∀ j, j < x.len → ∀ m, ReceivedAt x j m →
    ∃ i s, SentAt x i s m ∧ WaitsFor x i j s m ∧ m.header.sender = s
  polled : ∀ j, j < x.len → ∀ table k t ch report d, x.ev j = .poll table k t →
    pollFaultChannel table k (x.st j) t = .ok (ch, .ok (report, d)) →
    ∃ i e, x.ev i = .notify e ∧ WaitsFor x i j kernelSender (encode e) ∧ e.report = report

end Genuine

/-- A send that passes its capability check carries the caller's own identity, and the caller is not
the kernel. -/
def HonestSend (ch : Endpoint) : ChannelCall → Prop
  | .send table i s m => ch.authorize table i .send = .ok () →
    m.header.sender = s ∧ s ≠ kernelSender
  | _ => True

/-! ## The kernel and the supervisor -/

/-- A supervisor that holds the Receive capability of the channel. -/
structure Supervisor (id : EndpointId) where
  table : CapTable
  capIndex : ℕ
  tid : ThreadId
  holds : ∃ obj, table.lookup capIndex .endpoint .receive = .ok obj ∧ obj.objectId = id

/-- What happens on a channel with a single supervisor: the kernel notifies a fresh event, or the
supervisor polls. -/
inductive WatchOp
  | notify (e : FaultEvent) (fresh : e.state = .created)
  | poll

/-- The channel with its history: what was notified with the answer `Delivered` or `Queued`, and
what the polls returned. -/
structure Watch where
  channel : Endpoint
  answered : List FaultReport
  polled : List FaultReport

/-- One notification or poll, written to the history. -/
def watchStep {id : EndpointId} (sup : Supervisor id) (w : Watch) : WatchOp → Except Panic Watch
  | .notify e _ => do
    let (channel, _, o) ← notifySupervisor w.channel e
    .ok { w with
      channel := channel
      answered := if o = .channelFull then w.answered else w.answered ++ [e.report] }
  | .poll => do
    let (channel, r) ← (pollFaultChannel sup.table sup.capIndex w.channel sup.tid).mapError .ipc
    .ok { w with
      channel := channel
      polled := match r with
        | .ok (report, _) => w.polled ++ [report]
        | .error _ => w.polled }

/-- The event still on the channel. -/
def pendingReports (channel : Endpoint) : List FaultReport :=
  channel.pending.toList.filterMap fun m => (decode m).toOption

/-- Every event that was answered was returned by exactly one poll, in the order of notification, or
is pending. -/
def NothingLost (w : Watch) : Prop := w.answered = w.polled ++ pendingReports w.channel

/-- A notification comes when no receiver is parked on the channel. -/
def NoReceiverParked (w : Watch) : WatchOp → Prop
  | .notify _ _ => ∀ t, w.channel.state ≠ .receiverWaiting t
  | .poll => True

/-- The runs of a watched channel from its creation on. -/
abbrev WatchRun {id : EndpointId} (sup : Supervisor id) : Type :=
  Execution (watchStep sup) (· = ⟨.new id, [], []⟩)

end AxiomRT.Fault
