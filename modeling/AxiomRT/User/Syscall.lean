import AxiomRT.Lib.Interaction

/-!
# System calls of the user services

The user side of `kernel/src/arch/riscv64/os_boot.rs` is code that makes system calls. A service is
modelled as a program over those calls; a buffer is passed as its contents, and a call that fills a
buffer answers with what the kernel has put there.
-/

namespace AxiomRT.User

open Lib

/-- The system calls the modelled services make. -/
inductive Call
  | send (cap : ℕ) (msg : List UInt8)
  | recv (cap room : ℕ)
  | conWrite (bytes : List UInt8)
  | info (kind room slot : ℕ)
  | taskStart (idx : UInt64)
  | taskKill (slot : UInt64)
  | taskRestart (slot : UInt64)
  | shutdown
  deriving DecidableEq, Repr

/-- The answer to a call that fills a buffer of `room` bytes: an error code, or the bytes that stand
at the start of the buffer, whose number is the result. -/
inductive Filled (room : ℕ)
  | error (code : Int) (neg : code < 0)
  | ok (bytes : List UInt8) (fits : bytes.length ≤ room)

/-- The bytes a call has received, unless its result is zero or negative. -/
def Filled.received {room : ℕ} : Filled room → Option (List UInt8)
  | .error _ _ => none
  | .ok [] _ => none
  | .ok (b :: bs) _ => some (b :: bs)

/-- What a call is answered with: the contents of the buffer it fills, or the result in `a0`. -/
@[reducible] def Call.Answer : Call → Type
  | .recv _ room => Filled room
  | .info _ room _ => Filled room
  | _ => Int

/-- A user program. -/
abbrev UserProg (α : Type) : Type := Prog Call Call.Answer α

/-- Send a message. -/
def sysSend (cap : ℕ) (msg : List UInt8) : UserProg Int := .call (.send cap msg) .ret

/-- Receive a message into a buffer of `room` bytes. -/
def sysRecv (cap room : ℕ) : UserProg (Filled room) := .call (.recv cap room) .ret

/-- Ask for a snapshot of the kernel state. -/
def sysInfo (kind room slot : ℕ) : UserProg (Filled room) := .call (.info kind room slot) .ret

/-- Start a service of the service table. -/
def sysTaskStart (idx : UInt64) : UserProg Int := .call (.taskStart idx) .ret

/-- Kill a task. -/
def sysTaskKill (slot : UInt64) : UserProg Int := .call (.taskKill slot) .ret

/-- Restart a task. -/
def sysTaskRestart (slot : UInt64) : UserProg Int := .call (.taskRestart slot) .ret

/-- Stop the system. -/
def sysShutdown : UserProg Int := .call .shutdown .ret

section Bind

variable {β : Type}

@[simp] theorem sysSend_bind (cap : ℕ) (msg : List UInt8) (f : Int → UserProg β) :
    (sysSend cap msg >>= f) = .call (.send cap msg) f := rfl

@[simp] theorem sysRecv_bind (cap room : ℕ) (f : Filled room → UserProg β) :
    (sysRecv cap room >>= f) = .call (.recv cap room) f := rfl

@[simp] theorem sysInfo_bind (kind room slot : ℕ) (f : Filled room → UserProg β) :
    (sysInfo kind room slot >>= f) = .call (.info kind room slot) f := rfl

@[simp] theorem sysTaskStart_bind (idx : UInt64) (f : Int → UserProg β) :
    (sysTaskStart idx >>= f) = .call (.taskStart idx) f := rfl

@[simp] theorem sysShutdown_bind (f : Int → UserProg β) :
    (sysShutdown >>= f) = .call .shutdown f := rfl

end Bind

/-- Write to the console, chunked to the syscall cap. -/
def uwritePtr (bytes : List UInt8) : UserProg Unit :=
  if bytes = [] then .ret ()
  else .call (.conWrite (bytes.take 256)) fun (r : Int) =>
    if r ≤ 0 then .ret () else uwritePtr (bytes.drop 256)
termination_by bytes.length
decreasing_by
  have := List.length_pos_iff.mpr ‹_›
  rw [List.length_drop]
  omega

/-- One message on capability 0, whose result is not looked at. -/
def reply (msg : List UInt8) : UserProg Unit := .call (.send 0 msg) fun _ => .ret ()

end AxiomRT.User
