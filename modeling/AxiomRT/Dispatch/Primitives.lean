import AxiomRT.Dispatch.State

/-!
# Dispatcher primitives

The small operations every syscall is built from: serial output and the event ring, capability
lookup, endpoint access, user-buffer validation and copies, and the scheduler's selection.
-/

namespace AxiomRT.Dispatch

/-! ## Updates of the core state -/

namespace Core

/-- Overwrite one task control block. -/
def setTask (c : Core) (t : Slot) (b : Tcb) : Core :=
  { c with tasks := Function.update c.tasks t b }

/-- Change fields of one task control block. -/
def modTask (c : Core) (t : Slot) (f : Tcb → Tcb) : Core := c.setTask t (f (c.tasks t))

/-- `tasks[t].state = s`. -/
def setState (c : Core) (t : Slot) (s : RtState) : Core := c.modTask t ({ · with state := s })

/-- `ep_set`. -/
def epSet (c : Core) (e : EpId) (w : Ep) : Core :=
  { c with endpoints := Function.update c.endpoints e w }

/-- `irq_route_set`. -/
def irqRouteSet (c : Core) (d : DevId) (r : IrqRoute) : Core :=
  { c with routes := Function.update c.routes d r }

/-- Store a result in the live frame. -/
def setA0 (c : Core) (v : Int) : Core := { c with frame := c.frame.setA0 v }

/-- Clear every rendezvous wait state owned by task `slot`, endpoint by endpoint. -/
def epClearForTask (c : Core) (slot : Slot) : Core :=
  { c with endpoints := fun id =>
      match c.endpoints id with
      | .senderWaiting tid len => if tid = slot then .idle else .senderWaiting tid len
      | .receiverWaiting tid dst cap => if tid = slot then .idle else .receiverWaiting tid dst cap
      | .idle => .idle }

end Core

namespace Kernel

/-- Apply an update to the core state. -/
def core (k : Kernel) (f : Core → Core) : Kernel := { k with toCore := f k.toCore }

/-! ## Evidence -/

/-- A sequence of serial output calls. -/
def puts (k : Kernel) (out : List Tx) : Kernel := { k with uart := k.uart ++ out }

/-- A prefixed one-line report. -/
def emit (k : Kernel) (pre name : String) : Kernel := k.puts [.str pre, .str name, .str "\n"]

/-- Append an entry to the kernel event ring. -/
def ringPush (k : Kernel) (kind : EvKind) (slot : Slot) : Kernel :=
  { k with
    ring := Function.update k.ring (Fin.ofNat ringLen k.ringHead) (kind, slot)
    ringHead := wrappingInc k.ringHead }

/-- The name of the running task. -/
def curName (k : Kernel) : String := (k.tasks k.current).name

end Kernel

/-! ## Capability lookup -/

/-- Resolve `capIndex` in task `cur`'s table for an endpoint capability with the `required` right:
bounds, occupancy, object type, rights, in this order. -/
def Core.capCheck (c : Core) (cur : Slot) (capIndex : Nat) (required : UInt16) : CapCheck :=
  if h : capIndex < capsPerTask then
    match (c.tasks cur).caps ⟨capIndex, h⟩ with
    | none => .invalidCap
    | some cap =>
      if cap.otype ≠ .endpoint then .wrongType
      else if !cap.grants required then .insufficientRights
      else .ok cap.objectId
  else .invalidCap

/-- Map a failed capability check to an error code and emit the denial evidence. -/
def Kernel.denyCap (k : Kernel) (cur : Slot) (check : CapCheck) : Kernel × Int :=
  ((k.ringPush .capDenied cur).puts
      [.str "CAP_DENIED task=", .str (k.tasks cur).name, .str " reason=no_valid_capability\n",
        .str "IPC state=unchanged\n"],
    match check with
    | .invalidCap => errInvalidCap
    | .wrongType => errWrongObjectType
    | .insufficientRights => errInsufficientRights
    | .ok _ => 0)

/-- The caller holds a capability of type `otype` with the `required` rights. -/
def Core.capFind (c : Core) (cur : Slot) (otype : OType) (required : UInt16) : Bool :=
  (List.finRange capsPerTask).any fun i =>
    match (c.tasks cur).caps i with
    | some cap => cap.otype == otype && cap.grants required
    | none => false

/-- Report a missing authority; the caller gets `ERR_INVALID_CAP`. -/
def Kernel.denyAuthority (k : Kernel) (cur : Slot) (what : String) : Kernel :=
  ((k.ringPush .capDenied cur).puts
    [.str "CAP_DENIED task=", .str (k.tasks cur).name, .str " reason=", .str what,
      .str "\n"]).core (·.setA0 errInvalidCap)

/-! ## Array accesses that can be out of range -/

/-- Index of an array of `n` entries. -/
def arrayIndex (n id : Nat) : Except Stop (Fin n) :=
  if h : id < n then .ok ⟨id, h⟩ else .error .panicked

/-- Index of `ENDPOINTS`. -/
abbrev epIndex (id : Nat) : Except Stop EpId := arrayIndex numEndpoints id

/-- Index of `DEVICES`. -/
abbrev devIndex (id : Nat) : Except Stop DevId := arrayIndex numDevices id

/-- Index of `TASKS`. -/
abbrev taskIndex (id : Nat) : Except Stop Slot := arrayIndex maxTasks id

/-- The first `len` bytes of a message buffer. -/
def bytesOf (data : Fin ipcMsgMax → UInt8) (len : Nat) : List UInt8 := (List.ofFn data).take len

/-- The slice `&data[..len]` of a message buffer. -/
def sliceTo (data : Fin ipcMsgMax → UInt8) (len : Nat) : Except Stop (List UInt8) :=
  if len ≤ ipcMsgMax then .ok (bytesOf data len) else .error .panicked

/-! ## User memory -/

/-- `[va, va + len)` is a valid user IPC buffer of the data window. -/
def validUserBuf (va len : Nat) : Bool :=
  decide (len ≤ ipcMsgMax) && decide (userDataVa ≤ va) &&
    match checkedAdd va len with
    | some e => decide (e ≤ userDataEnd)
    | none => false

/-- `[va, va + len)` lies in the caller's stack page. -/
def inStackWindow (va len : Nat) : Bool :=
  decide (userDataVa ≤ va) &&
    match checkedAdd va len with
    | some e => decide (e ≤ userDataEnd)
    | none => false

/-- Virtual span the mapped user region occupies in every service address space. -/
def Image.userRegionVaSpan (img : Image) : Nat × Nat :=
  (userCodeVa, userCodeVa + (img.userRodataEnd - img.userTextStart))

/-- Readable user source ranges: the stack page or the mapped user region. -/
def inReadableWindow (img : Image) (va len : Nat) : Bool :=
  inStackWindow va len ||
    (decide (img.userRegionVaSpan.1 ≤ va) &&
      match checkedAdd va len with
      | some e => decide (e ≤ img.userRegionVaSpan.2)
      | none => false)

namespace Core

/-- A byte of the active user address space. -/
def readUser (c : Core) (va : Nat) : UInt8 := c.mem c.satp va

/-- The kernel accesses the `len` bytes at `va` of the active user address space, byte by byte. -/
def touch (c : Core) (write : Bool) (va len : Nat) : Core :=
  { c with touched := c.touched ++ (List.range len).map fun i => ⟨write, c.satp, va + i⟩ }

/-- Copy `len` bytes of the running task's buffer into the staging buffer. -/
def copyFromUser (c : Core) (va len : Nat) : Core :=
  { c.touch false va (min len ipcMsgMax) with
    kmsg := fun i => if i.val < len then c.readUser (va + i.val) else c.kmsg i }

/-- Copy a byte slice into the active user address space. -/
def copyBytesToUser (c : Core) (va : Nat) (bytes : List UInt8) : Core :=
  { c.touch true va bytes.length with mem := Function.update c.mem c.satp fun a =>
      if va ≤ a ∧ a < va + bytes.length then bytes.getD (a - va) 0 else c.mem c.satp a }

/-! ## Selection -/

/-- The slot `step` places after `cur`, cyclically. -/
def slotAfter (cur : Slot) (step : Nat) : Slot := Fin.ofNat maxTasks (cur.val + step)

/-- One iteration of `selectHighest`: keep the best candidate so far. -/
def selectStep (c : Core) (cur : Slot) (best : Option Slot) (step : Nat) : Option Slot :=
  let idx := slotAfter cur step
  if (c.tasks idx).state ≠ .ready then best
  else match best with
    | none => some idx
    | some b => if (c.tasks b).prio < (c.tasks idx).prio then some idx else some b

/-- Select the highest-priority ready task, round-robin among equals. -/
def selectHighest (c : Core) (cur : Slot) : Option Slot :=
  (List.range' 1 maxTasks).foldl (c.selectStep cur) none

end Core

end AxiomRT.Dispatch
