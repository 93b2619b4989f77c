import AxiomRT.User.DriverManager

/-!
# The network service with its driver and the driver manager

The three tasks composed over request-reply calls that lose nothing: a message that was accepted is
handled by the task it was sent to, and the reply is what the sender receives next. A send may be
refused, which changes nothing. Kernel answers are otherwise arbitrary; a successful restart starts
the driver again with zero counters, and a driver that has faulted serves nothing until then.
-/

namespace AxiomRT.User

open Lib

/-! ## The driver -/

/-- The driver task: its counters, which a dead task keeps, and whether it serves requests. -/
structure DriverTask where
  counters : DriverCounters
  alive : Bool
  deriving DecidableEq, Repr

/-- The task after one request; without counters it has faulted. -/
def DriverTask.after (d : DriverTask) : Option DriverCounters → DriverTask
  | some counters => ⟨counters, true⟩
  | none => { d with alive := false }

/-- The driver's calls: a send is its reply. -/
def driverStep (out : Option (List UInt8)) : (c : Call) → c.Answer → Option (List UInt8) → Prop
  | .send _ msg, _, out' => out' = some msg
  | _, _, out' => out' = out

/-- The driver handles one request, with this reply if it does not fault. -/
def DriverServes (d : DriverTask) (cmd : List UInt8) (d' : DriverTask)
    (out : Option (List UInt8)) : Prop :=
  d.alive = true ∧
    ∃ r, Prog.Exec driverStep (netDriverHandle d.counters cmd) none r out ∧ d' = d.after r

/-! ## The driver manager -/

/-- What the calls of the manager act on: the network driver and its own reply. -/
structure ManagerWorld where
  driver : DriverTask
  out : Option (List UInt8)

/-- Capability 0 replies, 5 reaches the network driver, and all others the block driver, whose
answers are arbitrary. -/
def managerStep (w : ManagerWorld) : (c : ManagerCall) → c.Answer → ManagerWorld → Prop
  | .sys (.send cap msg), r, w' =>
    if cap = 0 then w' = { w with out := some msg }
    else if cap = 5 then
      (r < 0 ∧ w' = w) ∨ (0 ≤ r ∧ ∃ d out, DriverServes w.driver msg d out ∧
        w' = { w with driver := d })
    else w' = w
  | .sys (.taskRestart slot), r, w' =>
    if r < 0 then w' = w
    else if slot = slotNetDriver then w' = { w with driver := ⟨⟨0, 0⟩, true⟩ }
    else w' = w
  | _, _, w' => w' = w

/-- The manager handles one request of the network service. -/
def ManagerServes (m : ManagerState) (d : DriverTask) (cmd : List UInt8) (m' : ManagerState)
    (d' : DriverTask) (out : Option (List UInt8)) : Prop :=
  Prog.Exec managerStep (driverManagerHandle m cmd) ⟨d, none⟩ m' ⟨d', out⟩

/-! ## The service -/

/-- What the calls of the service act on: the other two tasks, the replies of theirs that it has not
received yet, and its own answer to the shell. -/
structure ServiceWorld where
  manager : ManagerState
  driver : DriverTask
  fromDriver : Option (List UInt8)
  fromManager : Option (List UInt8)
  answer : Option (List UInt8)

/-- A receive from a task that has sent a reply gets that reply; there is no other way on. -/
def Receives (waiting : Option (List UInt8)) (room : ℕ) (r : Filled room) : Prop :=
  ∃ text fits, waiting = some text ∧ r = .ok (text.take room) fits

/-- What a call of the service does: it answers the shell on capability 0, asks the driver on
capability 1 and the manager on the other one. -/
def serviceStep (w : ServiceWorld) : (c : Call) → c.Answer → ServiceWorld → Prop
  | .send cap msg, r, w' =>
    if cap = 0 then w' = { w with answer := some msg }
    else if cap = 1 then
      (r < 0 ∧ w' = w) ∨ (0 ≤ r ∧ ∃ d out, DriverServes w.driver msg d out ∧
        w' = { w with driver := d, fromDriver := out })
    else
      (r < 0 ∧ w' = w) ∨ (0 ≤ r ∧ ∃ m d out, ManagerServes w.manager w.driver msg m d out ∧
        w' = { w with manager := m, driver := d, fromManager := out })
  | .recv cap room, r, w' =>
    if cap = 1 then Receives w.fromDriver room r ∧ w' = { w with fromDriver := none }
    else Receives w.fromManager room r ∧ w' = { w with fromManager := none }
  | _, _, w' => w' = w

/-- The three tasks between requests. -/
structure NetSystem where
  service : NetState
  manager : ManagerState
  driver : DriverTask
  deriving DecidableEq, Repr

/-- The service handles one request of the shell. -/
def NetServes (s : NetSystem) (request : List UInt8) (s' : NetSystem) (answer : List UInt8) :
    Prop :=
  ∃ w, Prog.Exec serviceStep (netHandle s.service request)
      ⟨s.manager, s.driver, none, none, none⟩ s'.service w ∧
    s'.manager = w.manager ∧ s'.driver = w.driver ∧ w.answer = some answer

/-! ## Runs -/

/-- A request of the shell with its answer. -/
structure Exchange where
  request : List UInt8
  answer : Option (List UInt8)
  deriving DecidableEq, Repr

/-- The answer starts with the text. -/
def Exchange.answered (e : Exchange) (text : String) : Bool :=
  e.answer.any fun answer => startsWith answer (umsg text)

/-- `NET_SEND_TEST`, answered `OK sent`. -/
def Exchange.sent (e : Exchange) : Bool :=
  eqs e.request (umsg "NET_SEND_TEST") && e.answered "OK sent"

/-- A successful `NET_RESTART`. -/
def Exchange.restarted (e : Exchange) : Bool :=
  eqs e.request (umsg "NET_RESTART") && e.answered "OK"

/-- The packets sent since the last successful restart, or since boot; the last exchange stands
first. -/
def sentSinceRestart : List Exchange → ℕ
  | [] => 0
  | e :: history =>
    if e.restarted then 0 else if e.sent then sentSinceRestart history + 1
    else sentSinceRestart history

/-- The counters of a boot are zero. Nothing is assumed of the manager, or of whether the driver
has been started. -/
def NetSystem.Boot (s : NetSystem) : Prop :=
  s.service = ⟨0, 0, true⟩ ∧ s.driver.counters = ⟨0, 0⟩

/-- Any sequence of requests; the loop of the service drops an empty one. -/
inductive NetRun (boot : NetSystem) : List Exchange → NetSystem → Prop
  | start : NetRun boot [] boot
  | empty {history : List Exchange} {s : NetSystem} (h : NetRun boot history s) :
      NetRun boot (⟨[], none⟩ :: history) s
  | served {history : List Exchange} {s s' : NetSystem} {request answer : List UInt8}
      (h : NetRun boot history s) (hrequest : request ≠ [])
      (hserves : NetServes s request s' answer) :
      NetRun boot (⟨request, some answer⟩ :: history) s'

end AxiomRT.User
