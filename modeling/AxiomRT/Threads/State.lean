import AxiomRT.Memory.Frame

/-!
# Threads

Thread identity and the thread state machine of `kernel/src/thread`.
-/

namespace AxiomRT.Threads

/-- Kernel-assigned, never reused within a boot. -/
abbrev ThreadId : Type := UInt32

/-- The lifecycle of a thread. -/
inductive ThreadState
  | ready
  | running
  | blocked
  | faulted
  | killed
  | suspended
  deriving DecidableEq, Repr

/-- Everything not listed is an invalid operation: `killed` is terminal, and a faulted thread does
not return to execution directly. -/
def isLegalTransition : ThreadState → ThreadState → Bool
  | .ready, .running | .running, .ready
  | .running, .blocked | .blocked, .ready
  | .ready, .faulted | .running, .faulted | .blocked, .faulted
  | .ready, .killed | .running, .killed | .blocked, .killed | .faulted, .killed
  | .suspended, .killed
  | .ready, .suspended | .running, .suspended | .blocked, .suspended | .faulted, .suspended
  | .suspended, .ready => true
  | _, _ => false

/-- The fields `from` and `to` of the source. -/
structure IllegalTransition where
  source : ThreadState
  target : ThreadState
  deriving DecidableEq, Repr

/-- A thread of the host model. -/
structure Thread where
  id : ThreadId
  state : ThreadState
  addressSpace : Memory.AddressSpaceId
  deriving DecidableEq, Repr

namespace Thread

/-- Threads are born ready. -/
def new (id : ThreadId) (addressSpace : Memory.AddressSpaceId) : Thread :=
  ⟨id, .ready, addressSpace⟩

/-- Change the state, if that is legal. -/
def transition (t : Thread) (target : ThreadState) : Except IllegalTransition Thread :=
  if isLegalTransition t.state target then .ok { t with state := target }
  else .error ⟨t.state, target⟩

end Thread

end AxiomRT.Threads
