import AxiomRT.Caps.Capability
import AxiomRT.Threads.State

/-!
# Synchronous IPC

Messages, endpoints and the rendezvous operations of `kernel/src/ipc`. An endpoint holds at most one
party and at most one message; what the source calls blocking is an outcome the caller acts on.

A failed `expect` or `debug_assert` is a panic.
-/

namespace AxiomRT.Ipc

open Threads (ThreadId)
open Caps (CapTable CapError Rights)

/-! ## Messages -/

/-- Length of the payload buffer. -/
abbrev msgMaxBytes : ℕ := 128

/-- Why a message cannot be built. -/
inductive MessageError
  | tooLarge
  deriving DecidableEq, Repr

/-- The sender and the length, both set by the kernel. -/
structure MessageHeader where
  sender : ThreadId
  len : ℕ
  deriving DecidableEq, Repr

/-- A message is built by `Message.new` only, so its buffer holds `len` bytes of payload and zeros
after them. -/
structure Message where
  header : MessageHeader
  payload : List UInt8
  len_le : header.len ≤ msgMaxBytes
  length_payload : payload.length = msgMaxBytes
  padding : payload.drop header.len = List.replicate (msgMaxBytes - header.len) 0
  deriving DecidableEq, Repr

namespace Message

/-- The message that carries a copy of `data`. -/
def ofBytes (sender : ThreadId) (data : List UInt8) (h : data.length ≤ msgMaxBytes) : Message where
  header := ⟨sender, data.length⟩
  payload := data ++ List.replicate (msgMaxBytes - data.length) 0
  len_le := h
  length_payload := by
    rw [List.length_append, List.length_replicate]
    omega
  padding := List.drop_left

/-- A message with a copy of `data`, which has to fit. -/
def new (sender : ThreadId) (data : List UInt8) : Except MessageError Message :=
  if h : data.length ≤ msgMaxBytes then .ok (ofBytes sender data h) else .error .tooLarge

/-- The payload without the padding. -/
def data (m : Message) : List UInt8 := m.payload.take m.header.len

end Message

/-! ## Endpoints -/

/-- The identifier of an endpoint. -/
abbrev EndpointId : Type := UInt32

/-- Who waits on the endpoint. -/
inductive EndpointState
  | idle
  | senderWaiting (sender : ThreadId)
  | receiverWaiting (receiver : ThreadId)
  deriving DecidableEq, Repr

/-- A rendezvous point, with the message of the waiting sender. -/
structure Endpoint where
  id : EndpointId
  state : EndpointState
  pending : Option Message
  deriving DecidableEq, Repr

/-- The checks that could fail. -/
inductive Panic
  /-- `put_pending` with a message in flight. -/
  | inFlight
  /-- `recv` without the message of the waiting sender. -/
  | noPending
  deriving DecidableEq, Repr

/-- Why a call is refused: another thread waits already, or the caller itself does. -/
inductive IpcError
  | busy
  | alreadyWaiting
  deriving DecidableEq, Repr

/-- What a send comes to: the sender blocks, or a waiting receiver gets the message. -/
inductive SendOutcome
  | blocked
  | delivered (receiver : ThreadId) (msg : Message)
  deriving DecidableEq, Repr

/-- What a receive comes to: the receiver blocks, or it gets a message whose sender is to be
unblocked. -/
inductive RecvOutcome
  | blocked
  | received (msg : Message) (unblock : ThreadId)
  deriving DecidableEq, Repr

/-- What a cancellation comes to. -/
inductive CancelOutcome
  | notWaiting
  | cancelled
  deriving DecidableEq, Repr

namespace Endpoint

/-- An endpoint on which nobody waits. -/
def new (id : EndpointId) : Endpoint := ⟨id, .idle, none⟩

/-- Store the message of a sender that blocks. -/
def putPending (ep : Endpoint) (msg : Message) : Except Panic Endpoint :=
  if ep.pending.isNone then .ok { ep with pending := some msg } else .error .inFlight

/-- Send `msg` from `sender`. -/
def send (ep : Endpoint) (sender : ThreadId) (msg : Message) :
    Except Panic (Endpoint × Except IpcError SendOutcome) :=
  match ep.state with
  | .idle => do
    let ep ← ep.putPending msg
    .ok ({ ep with state := .senderWaiting sender }, .ok .blocked)
  | .receiverWaiting receiver => .ok ({ ep with state := .idle }, .ok (.delivered receiver msg))
  | .senderWaiting s =>
    if s = sender then .ok (ep, .error .alreadyWaiting) else .ok (ep, .error .busy)

/-- Receive as `receiver`. -/
def recv (ep : Endpoint) (receiver : ThreadId) :
    Except Panic (Endpoint × Except IpcError RecvOutcome) :=
  match ep.state with
  | .idle => .ok ({ ep with state := .receiverWaiting receiver }, .ok .blocked)
  | .senderWaiting sender =>
    match ep.pending with
    | none => .error .noPending
    | some msg => .ok ({ ep with pending := none, state := .idle }, .ok (.received msg sender))
  | .receiverWaiting r =>
    if r = receiver then .ok (ep, .error .alreadyWaiting) else .ok (ep, .error .busy)

/-- Remove the parked party `tid`; its message is dropped. -/
def cancel (ep : Endpoint) (tid : ThreadId) : Endpoint × CancelOutcome :=
  match ep.state with
  | .senderWaiting sender =>
    if sender = tid then ({ ep with pending := none, state := .idle }, .cancelled)
    else (ep, .notWaiting)
  | .receiverWaiting receiver =>
    if receiver = tid then ({ ep with state := .idle }, .cancelled) else (ep, .notWaiting)
  | .idle => (ep, .notWaiting)

/-! ## Capability-checked entry points -/

/-- Why a checked call is refused. -/
inductive IpcCapError
  | cap (e : CapError)
  | wrongEndpoint
  | ipc (e : IpcError)
  deriving DecidableEq, Repr

/-- The capability check of both entry points: an endpoint capability with the right, for this
endpoint. -/
def authorize (ep : Endpoint) (table : CapTable) (capIndex : ℕ) (right : Rights) :
    Except IpcCapError Unit :=
  match table.lookup capIndex .endpoint right with
  | .error e => .error (.cap e)
  | .ok obj => if obj.objectId ≠ ep.id then .error .wrongEndpoint else .ok ()

/-- `send` behind the check of a Send capability. -/
def sendChecked (table : CapTable) (capIndex : ℕ) (ep : Endpoint) (sender : ThreadId)
    (msg : Message) : Except Panic (Endpoint × Except IpcCapError SendOutcome) :=
  match ep.authorize table capIndex .send with
  | .error e => .ok (ep, .error e)
  | .ok () => do
    let (ep, r) ← ep.send sender msg
    .ok (ep, r.mapError .ipc)

/-- `recv` behind the check of a Receive capability. -/
def recvChecked (table : CapTable) (capIndex : ℕ) (ep : Endpoint) (receiver : ThreadId) :
    Except Panic (Endpoint × Except IpcCapError RecvOutcome) :=
  match ep.authorize table capIndex .receive with
  | .error e => .ok (ep, .error e)
  | .ok () => do
    let (ep, r) ← ep.recv receiver
    .ok (ep, r.mapError .ipc)

end Endpoint

/-! ## Sequences of calls on an endpoint -/

/-- A call on an endpoint. -/
inductive Call
  | send (sender : ThreadId) (msg : Message)
  | recv (receiver : ThreadId)
  | cancel (tid : ThreadId)

/-- What a call returned. -/
inductive Reply
  | send (r : Except IpcError SendOutcome)
  | recv (r : Except IpcError RecvOutcome)
  | cancel (r : CancelOutcome)

/-- The endpoint after a call, and what it returned. -/
def Endpoint.call (ep : Endpoint) : Call → Except Panic (Endpoint × Reply)
  | .send sender msg => (ep.send sender msg).map fun (ep, r) => (ep, .send r)
  | .recv receiver => (ep.recv receiver).map fun (ep, r) => (ep, .recv r)
  | .cancel tid => let (ep, r) := ep.cancel tid; .ok (ep, .cancel r)

/-- A call that was made: the endpoint before it, what it returned and what it left. -/
structure Entry where
  before : Endpoint
  call : Call
  reply : Reply
  after : Endpoint

/-- An endpoint with the calls made on it, oldest first. -/
structure Trace where
  ep : Endpoint
  log : List Entry

namespace Trace

/-- A fresh endpoint, on which no call has been made. -/
def start (id : EndpointId) : Trace := ⟨.new id, []⟩

/-- Append a call that was made. -/
def record (t : Trace) (e : Entry) : Trace := ⟨e.after, t.log ++ [e]⟩

/-- Make a call and write it down. -/
def step (t : Trace) (c : Call) : Except Panic Trace :=
  (t.ep.call c).map fun (ep, r) => t.record ⟨t.ep, c, r, ep⟩

end Trace

end AxiomRT.Ipc
