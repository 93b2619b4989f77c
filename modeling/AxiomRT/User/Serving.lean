import AxiomRT.Dispatch.History
import AxiomRT.User.Fs
import AxiomRT.User.Loader
import AxiomRT.User.Net
import AxiomRT.User.Storage

/-!
# Services on the dispatcher

Four services answer requests on an endpoint of their own: each receives on its capability 0,
handles what it got and replies on the same capability. Here their programs are put on the
dispatcher: which trap frame asks for which call, which state carries the answer, and how the
position of a service in its program moves along a run.
-/

namespace AxiomRT.User

open Lib Dispatch

/-! ## Services -/

/-- A service: what it does before its loop, the size of its request buffer, and what it does with a
request. -/
structure Service where
  State : Type
  room : ℕ
  start : UserProg State
  handle : State → List UInt8 → UserProg State

namespace Service

variable (svc : Service)

/-- The next call of a service: at the head of its loop, a receive on capability 0. -/
def next : UserProg svc.State → Call
  | .ret _ => .recv 0 svc.room
  | .call c _ => c

/-- Where the answer leads. A receive that fails or gets nothing leads back to the head. -/
def goOn : (p : UserProg svc.State) → (svc.next p).Answer → UserProg svc.State
  | .ret s, answer =>
    match Filled.received answer with
    | none => .ret s
    | some req => svc.handle s req
  | .call _ k, answer => k answer

end Service

/-- The services with an endpoint for requests. -/
inductive ServiceName
  | storage
  | fs
  | appLoader
  | net
  deriving DecidableEq, Repr

namespace ServiceName

/-- `storage_body`, `fs_body`, `app_loader_body` and `net_service_body`. -/
def program : ServiceName → Service
  | .storage => ⟨Unit, 64, .ret (), fun _ => storageHandle⟩
  | .fs => ⟨Unit, 64, .ret (), fun _ => fsHandle⟩
  | .appLoader => ⟨AppStates, 64, .ret ⟨fun _ => 0, []⟩, appLoaderHandle⟩
  | .net => ⟨NetState, 128,
      do
        uput "NET_SERVICE state=up mode=synthetic\n"
        return ⟨0, 0, true⟩,
      netHandle⟩

/-- The slot of the service: its index in the service table plus one. -/
def slot : ServiceName → Slot
  | .storage => ⟨11, by decide⟩
  | .fs => ⟨10, by decide⟩
  | .appLoader => ⟨6, by decide⟩
  | .net => ⟨15, by decide⟩

/-- The endpoint of its capability 0. -/
def endpoint : ServiceName → EpId
  | .storage => ⟨epStor, by decide⟩
  | .fs => ⟨epFs, by decide⟩
  | .appLoader => ⟨epApp, by decide⟩
  | .net => ⟨epNet, by decide⟩

end ServiceName

/-! ## Calls as traps -/

/-- The trap asks for the call. The buffers are the task's own: they lie in its stack page or, for a
message to send, in the mapped user region. -/
def Call.Asked (img : Image) (c : Core) : Call → Prop
  | .send cap msg => c.frame.sys = some .send ∧ c.frame.arg 0 = cap ∧
      c.frame.arg 2 = msg.length ∧ c.seen (c.frame.arg 1) msg.length = msg ∧
      inReadableWindow img (c.frame.arg 1) msg.length = true
  | .recv cap room => c.frame.sys = some .recv ∧ c.frame.arg 0 = cap ∧ c.frame.arg 2 = room ∧
      inStackWindow (c.frame.arg 1) room = true
  | .conWrite bytes => c.frame.sys = some .conWrite ∧ c.frame.arg 1 = bytes.length ∧
      c.seen (c.frame.arg 0) bytes.length = bytes ∧
      inReadableWindow img (c.frame.arg 0) bytes.length = true
  | .info kind room slot => c.frame.sys = some .info ∧ c.frame.arg 0 = kind ∧
      c.frame.arg 2 = room ∧ c.frame.arg 3 = slot ∧ inStackWindow (c.frame.arg 1) room = true
  | .taskStart idx => c.frame.sys = some .taskStart ∧ c.frame.arg 0 = idx.toNat
  | .taskKill slot => c.frame.sys = some .taskKill ∧ c.frame.arg 0 = slot.toNat
  | .taskRestart slot => c.frame.sys = some .taskRestart ∧ c.frame.arg 0 = slot.toNat
  | .shutdown => c.frame.sys = some .shutdown

/-- The result and the buffer at `dst` hold the answer. -/
def Filled.Held {room : ℕ} (c : Core) (dst : ℕ) : Filled room → Prop
  | .error code _ => c.frame.a0 = code
  | .ok bytes _ => c.frame.a0 = bytes.length ∧ c.seen dst bytes.length = bytes

/-- The state holds the answer to the call that was made with frame `f`. -/
def Call.Held (f : TrapFrame) (c : Core) : (call : Call) → call.Answer → Prop
  | .send _ _, answer => c.frame.a0 = answer
  | .recv _ _, answer => answer.Held c (f.arg 1)
  | .conWrite _, answer => c.frame.a0 = answer
  | .info _ _ _, answer => answer.Held c (f.arg 1)
  | .taskStart _, answer => c.frame.a0 = answer
  | .taskKill _, answer => c.frame.a0 = answer
  | .taskRestart _, answer => c.frame.a0 = answer
  | .shutdown, answer => c.frame.a0 = answer

/-! ## Services along a run -/

/-- Where a service stands: at a position of its program, or waiting for the answer to the call it
made there with frame `f`. -/
inductive Stand (σ : Type)
  | here (p : UserProg σ)
  | waits (p : UserProg σ) (f : TrapFrame)

variable {img : Image}

/-- How step `i` of a run moves the service in slot `t`. -/
inductive Proceeds (svc : Service) (x : Run img) (t : Slot) (i : ℕ) :
    Stand svc.State → Stand svc.State → Prop
  /-- It is started, or made to start over. -/
  | begins (s : Stand svc.State) (life : BeginsAt x i t) : Proceeds svc x t i s (.here svc.start)
  /-- It makes its next call, which is answered at once. -/
  | returns {p : UserProg svc.State} {a : (svc.next p).Answer} (same : ¬ BeginsAt x i t)
      (on : (x.st i).current = t) (ecall : (x.ev i).trap = .ecall)
      (asked : (svc.next p).Asked img (entry x i)) (back : (x.st (i + 1)).current = t)
      (held : (svc.next p).Held (entry x i).frame (x.st (i + 1)).toCore a) :
      Proceeds svc x t i (.here p) (.here (svc.goOn p a))
  /-- It makes its next call and has to wait. -/
  | leaves {p : UserProg svc.State} (same : ¬ BeginsAt x i t) (on : (x.st i).current = t)
      (ecall : (x.ev i).trap = .ecall) (asked : (svc.next p).Asked img (entry x i))
      (off : (x.st (i + 1)).current ≠ t) :
      Proceeds svc x t i (.here p) (.waits p (entry x i).frame)
  /-- It is interrupted between two calls. -/
  | interrupted {p : UserProg svc.State} (same : ¬ BeginsAt x i t) (on : (x.st i).current = t)
      (trap : (x.ev i).trap ≠ .ecall) : Proceeds svc x t i (.here p) (.here p)
  /-- It gets the CPU back with the answer it waits for. -/
  | resumes {p : UserProg svc.State} {f : TrapFrame} {a : (svc.next p).Answer}
      (same : ¬ BeginsAt x i t) (off : (x.st i).current ≠ t) (back : (x.st (i + 1)).current = t)
      (held : (svc.next p).Held f (x.st (i + 1)).toCore a) :
      Proceeds svc x t i (.waits p f) (.here (svc.goOn p a))
  /-- Others run while it waits. -/
  | waits {p : UserProg svc.State} {f : TrapFrame} (same : ¬ BeginsAt x i t)
      (off : (x.st i).current ≠ t) (off' : (x.st (i + 1)).current ≠ t) :
      Proceeds svc x t i (.waits p f) (.waits p f)
  /-- Others run between two of its calls. -/
  | stays {p : UserProg svc.State} (same : ¬ BeginsAt x i t) (off : (x.st i).current ≠ t) :
      Proceeds svc x t i (.here p) (.here p)

/-- Along the run, the task in slot `t` executes the service; `m i` is where it stands before
step `i`. -/
structure Executes (svc : Service) (x : Run img) (t : Slot) (m : ℕ → Stand svc.State) : Prop where
  init : m 0 = .here svc.start
  step : ∀ i, i < x.len → Proceeds svc x t i (m i) (m (i + 1))

/-! ## Requests and replies -/

section Requests

variable (x : Run img) (n : ServiceName) (m : ℕ → Stand n.program.State)

/-- At step `p` the service asks for its next request. -/
structure HeadAt (p : ℕ) : Prop where
  call : CallAt x p n.slot .recv
  head : ∃ s, m p = .here (.ret s)

/-- At step `l` the service sends a reply, which the kernel takes. -/
structure ReplyAt (l : ℕ) : Prop where
  sends : ∃ p msg buf, m l = .here p ∧ n.program.next p = .send 0 msg ∧
    SendAt x l n.slot n.endpoint buf msg.length ∧ (entry x l).seen buf msg.length = msg
  taken : ∀ s len, (x.st l).endpoints n.endpoint ≠ .senderWaiting s len

/-- Every send of another task on the endpoint of the service that reports success is a request: it
is taken by the service at the head of its loop, and the service sends exactly one reply before it
asks for its next request in the same life. -/
def RepliesOnce : Prop :=
  ∀ i q c buf len, c ≠ n.slot → SendAt x i c n.endpoint buf len → EndsAt x c i q →
    0 ≤ (x.st (q + 1)).frame.a0 →
    ∃ p, HeadAt x n m p ∧ Meets x n.endpoint i p ∧
      ∀ p', p < p' → HeadAt x n m p' → (∀ l, p < l → l < p' → ¬ HeadAt x n m l) →
        (∀ l, p ≤ l → l < p' → ¬ BeginsAt x l n.slot) →
        ∃! l, p < l ∧ l < p' ∧ ReplyAt x n m l

end Requests

/-- The trap does not disturb the exchange between the service and its clients. A request is not
empty, fits the request buffer and does not go to a client that waits for its reply; a client that
asks for its reply does not take the request of another; and the service replies when no request is
parked. -/
structure Undisturbed (img : Image) (n : ServiceName) (k : Kernel) (ev : Event) : Prop where
  request : ∀ buf len, ev.trap = .ecall → k.current ≠ n.slot →
    SendReq img (k.toCore.enter ev) n.endpoint buf len →
    1 ≤ len ∧ len ≤ n.program.room ∧
      ∀ r dst cap, k.endpoints n.endpoint = .receiverWaiting r dst cap → r = n.slot
  answer : ∀ dst cap, ev.trap = .ecall → k.current ≠ n.slot →
    RecvReq (k.toCore.enter ev) n.endpoint dst cap →
    ∀ s len, k.endpoints n.endpoint = .senderWaiting s len → s = n.slot
  reply : ∀ buf len, ev.trap = .ecall → k.current = n.slot →
    SendReq img (k.toCore.enter ev) n.endpoint buf len →
    ∀ s len', k.endpoints n.endpoint ≠ .senderWaiting s len'

end AxiomRT.User
