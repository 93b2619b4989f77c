import AxiomRT.Lib.Buffer
import AxiomRT.Dispatch.Runs
import AxiomRT.Dispatch.Moves

/-!
# Messages along a run

A message travels over several traps: the send and the receive are issued at two moments, whoever
comes first is parked on the endpoint, and a receiver that waited completes when it next runs. What
is said about messages is therefore said about the indexes of a run.
-/

namespace AxiomRT.Dispatch

open Lib

variable {img : Image}

/-- The `len` bytes the running task sees at `va`. -/
def Core.seen (c : Core) (va len : Nat) : List UInt8 := window c.readUser va len

/-! ## Calls -/

/-- At step `i` task `t` issues the system call `sys`. -/
structure CallAt (x : Run img) (i : ℕ) (t : Slot) (sys : Sys) : Prop where
  lt : i < x.len
  caller : (x.st i).current = t
  trap : (x.ev i).trap = .ecall
  sys : (entry x i).frame.sys = some sys

/-- At step `i` task `s` issues a `sys_send` of the `len` bytes at `buf` that resolves to `e` and
passes its length and buffer checks. -/
structure SendAt (x : Run img) (i : ℕ) (s : Slot) (e : EpId) (buf len : Nat) : Prop where
  call : CallAt x i s .send
  req : SendReq img (entry x i) e buf len

/-- At step `p` task `r` issues a `sys_recv` into the `cap` bytes at `dst` that resolves to `e`. -/
structure RecvAt (x : Run img) (p : ℕ) (r : Slot) (e : EpId) (dst cap : Nat) : Prop where
  call : CallAt x p r .recv
  req : RecvReq (entry x p) e dst cap

/-- The call that `t` issued at `a` ends with step `b`: `t` runs again after it for the first time,
and was not made to start over in between. -/
structure EndsAt (x : Run img) (t : Slot) (a b : ℕ) : Prop where
  le : a ≤ b
  lt : b < x.len
  away : ∀ m, a < m → m ≤ b → (x.st m).current ≠ t
  kept : ∀ m, a < m → m ≤ b →
    ¬ Renews ((x.st m).serviceTable.getD []) (entry x m) (x.ev m).trap t
  back : (x.st (b + 1)).current = t

/-- A life of `t` begins with step `i`. -/
def BeginsAt (x : Run img) (i : ℕ) (t : Slot) : Prop :=
  Begins ((x.st i).serviceTable.getD []) (entry x i) (x.ev i).trap t

/-- The record `w` stands on `e` from after step `a` up to step `b`. -/
def Parked (x : Run img) (e : EpId) (w : Ep) (a b : ℕ) : Prop :=
  ∀ m, a < m → m ≤ b → (x.st m).endpoints e = w

/-- The send issued at `i` and the receive issued at `p` meet on `e`: whoever came first is parked
there until the other one comes and removes the record. -/
def Meets (x : Run img) (e : EpId) (i p : ℕ) : Prop :=
  ∃ s buf len r dst cap, SendAt x i s e buf len ∧ RecvAt x p r e dst cap ∧
    ((i < p ∧ Parked x e (.senderWaiting s len) i p ∧ (x.st (p + 1)).endpoints e = .idle) ∨
      (p < i ∧ Parked x e (.receiverWaiting r dst cap) p i ∧ (x.st (i + 1)).endpoints e = .idle))

/-! ## Integrity -/

/-- A `sys_send` staged the message that is pending for `r` before step `q`. -/
def StagedBySend (x : Run img) (r : Slot) (q : ℕ) : Prop :=
  ∃ j s, j < q ∧ CallAt x j s .send ∧ ((x.st j).tasks r).pendingIpc = none ∧
    ∀ m, j < m → m ≤ q → ((x.st m).tasks r).pendingIpc ≠ none

/-- The receive that `r` issued at `p` on `e` completes with step `q` from a user sender: copied at
once from a parked sender, or, when `r` next runs, from what a `sys_send` staged. -/
def FromSender (x : Run img) (p q : ℕ) (r : Slot) (e : EpId) : Prop :=
  (x.st (q + 1)).current = r ∧
    ((q = p ∧ (entry x p).irqPendingFor e.val r = none ∧
        ∃ s len, (x.st p).endpoints e = .senderWaiting s len) ∨
      (p < q ∧ q < x.len ∧ (∀ m, p < m → m ≤ q → (x.st m).current ≠ r) ∧ StagedBySend x r q))

/-- What a receive gets from a user sender is what the send it meets had in its buffer when it was
issued, and no send meets two receives. -/
structure MessageIntegrity (x : Run img) : Prop where
  bytes : ∀ p q r e dst cap, RecvAt x p r e dst cap → FromSender x p q r e →
    0 ≤ (x.st (q + 1)).frame.a0 →
    ∃ i s buf len, SendAt x i s e buf len ∧ Meets x e i p ∧ (x.st (q + 1)).frame.a0 = len ∧
      (x.st (q + 1)).seen dst len = (entry x i).seen buf len
  once : ∀ e e' i p p', Meets x e i p → Meets x e' i p' → p = p'

/-- A send that passes its checks finds in the staging buffer, where it overlaps the message of a
parked sender, the bytes it is about to write. -/
def KeepsStaged (img : Image) (k : Kernel) (ev : Event) : Prop :=
  ev.trap = .ecall → ∀ e buf len, SendReq img (k.toCore.enter ev) e buf len →
    ∀ e' s len', k.endpoints e' = .senderWaiting s len' →
      ∀ i : Fin ipcMsgMax, i.val < len → i.val < len' →
        (k.toCore.enter ev).readUser (buf + i.val) = k.kmsg i

/-! ## Delivery -/

/-- The message of the send issued at `i` is in the hands of a receiver: it was copied by a receive
that returned its length, before the sender got its own result at `q`; or a receiver was waiting for
it and gets it, with its length as result, when it next runs. The bytes are those that the sender
had in its buffer when it issued the send. -/
def Delivered (x : Run img) (i q : ℕ) (e : EpId) (buf len : Nat) : Prop :=
  ∃ p r dst cap, RecvAt x p r e dst cap ∧ Meets x e i p ∧
    ((i < p ∧ p < q ∧ (x.st (p + 1)).current = r ∧ (x.st (p + 1)).frame.a0 = len ∧
        (x.st (p + 1)).seen dst len = (entry x i).seen buf len) ∨
      (p < i ∧ ∀ q', EndsAt x r i q' → (x.st (q' + 1)).frame.a0 = len ∧
        (x.st (q' + 1)).seen dst len = (entry x i).seen buf len))

/-- A send that reports success has its message delivered, and a receive that fails consumes
none. -/
structure MessagesDelivered (x : Run img) : Prop where
  sent : ∀ i q s, CallAt x i s .send → EndsAt x s i q → 0 ≤ (x.st (q + 1)).frame.a0 →
    ∃ e buf len, SendAt x i s e buf len ∧ (x.st (q + 1)).frame.a0 = len ∧
      Delivered x i q e buf len
  refused : ∀ p q r, CallAt x p r .recv → EndsAt x r p q → (x.st (q + 1)).frame.a0 < 0 →
    (∀ e i, ¬ Meets x e i p) ∧ (q = p → (x.st (p + 1)).endpoints = (x.st p).endpoints)

/-- A send that passes its checks finds room for its message with the receiver parked on its
endpoint, if there is one. -/
def SendFits (img : Image) (k : Kernel) (ev : Event) : Prop :=
  ev.trap = .ecall → ∀ e buf len, SendReq img (k.toCore.enter ev) e buf len →
    (k.endpoints e).hasRoom len = true

end AxiomRT.Dispatch
