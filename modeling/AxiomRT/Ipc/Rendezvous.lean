import AxiomRT.Ipc.Endpoint

/-!
# The rendezvous, abstractly

What an endpoint is for: one party waits at a time, and a message exists exactly while its sender
waits. In the source the state and the message are two fields; here an inconsistent pair cannot be
written down, and every call returns.
-/

namespace AxiomRT.Ipc

open Threads (ThreadId)

/-- Nobody waits, a sender waits with its message, or a receiver waits. -/
inductive Rendezvous
  | idle
  | sending (sender : ThreadId) (msg : Message)
  | receiving (receiver : ThreadId)

namespace Rendezvous

/-- A sender meets the waiting receiver, or waits itself. -/
def send (s : ThreadId) (m : Message) : Rendezvous → Rendezvous × Except IpcError SendOutcome
  | .idle => (.sending s m, .ok .blocked)
  | .receiving r => (.idle, .ok (.delivered r m))
  | .sending s' m' => (.sending s' m', .error (if s' = s then .alreadyWaiting else .busy))

/-- A receiver meets the waiting sender, or waits itself. -/
def recv (t : ThreadId) : Rendezvous → Rendezvous × Except IpcError RecvOutcome
  | .idle => (.receiving t, .ok .blocked)
  | .sending s m => (.idle, .ok (.received m s))
  | .receiving r => (.receiving r, .error (if r = t then .alreadyWaiting else .busy))

/-- The thread waits no longer. -/
def cancel (t : ThreadId) : Rendezvous → Rendezvous × CancelOutcome
  | .idle => (.idle, .notWaiting)
  | .sending s m => if s = t then (.idle, .cancelled) else (.sending s m, .notWaiting)
  | .receiving r => if r = t then (.idle, .cancelled) else (.receiving r, .notWaiting)

/-- The endpoint in this situation. -/
def endpoint (id : EndpointId) : Rendezvous → Endpoint
  | .idle => ⟨id, .idle, none⟩
  | .sending s m => ⟨id, .senderWaiting s, some m⟩
  | .receiving r => ⟨id, .receiverWaiting r, none⟩

variable {id : EndpointId}

@[simp] theorem endpoint_id (r : Rendezvous) : (r.endpoint id).id = id := by cases r <;> rfl

/-- A message is pending exactly while a sender waits. -/
theorem pending_iff (r : Rendezvous) :
    (r.endpoint id).pending.isSome = true ↔ ∃ s, (r.endpoint id).state = .senderWaiting s := by
  cases r <;> simp [endpoint]

/-! ## The endpoint follows the rendezvous

None of the operations panics on an endpoint that is in one of the three situations. -/

theorem send_endpoint (r : Rendezvous) (s : ThreadId) (m : Message) :
    (r.endpoint id).send s m = .ok ((r.send s m).1.endpoint id, (r.send s m).2) := by
  cases r with
  | idle => rfl
  | receiving r => rfl
  | sending s' m' =>
    by_cases hs : s' = s
    · simp [send, endpoint, Endpoint.send, hs]
    · simp [send, endpoint, Endpoint.send, hs]

theorem recv_endpoint (r : Rendezvous) (t : ThreadId) :
    (r.endpoint id).recv t = .ok ((r.recv t).1.endpoint id, (r.recv t).2) := by
  cases r with
  | idle => rfl
  | sending s m => rfl
  | receiving r' =>
    by_cases hr : r' = t
    · simp [recv, endpoint, Endpoint.recv, hr]
    · simp [recv, endpoint, Endpoint.recv, hr]

theorem cancel_endpoint (r : Rendezvous) (t : ThreadId) :
    (r.endpoint id).cancel t = ((r.cancel t).1.endpoint id, (r.cancel t).2) := by
  cases r with
  | idle => rfl
  | sending s m =>
    by_cases hs : s = t
    · simp [cancel, endpoint, Endpoint.cancel, hs]
    · simp [cancel, endpoint, Endpoint.cancel, hs]
  | receiving r' =>
    by_cases hr : r' = t
    · simp [cancel, endpoint, Endpoint.cancel, hr]
    · simp [cancel, endpoint, Endpoint.cancel, hr]

end Rendezvous

end AxiomRT.Ipc
