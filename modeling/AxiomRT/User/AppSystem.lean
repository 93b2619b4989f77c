import AxiomRT.Dispatch.Device
import AxiomRT.User.Fs
import AxiomRT.User.Loader
import AxiomRT.User.NetSystem
import AxiomRT.User.Storage

/-!
# The app loader with the file service and the storage service

The three tasks composed over request-reply calls that lose nothing, as the network tasks are: a
message that was accepted is handled by the task it was sent to, and the reply is what the sender
receives next; a send may be refused. The kernel prints what it is given, starts a task unless it is
alive, and answers for the state of a task truthfully.

Above it stands what the three are for, in terms of apps and their phases.
-/

namespace AxiomRT.User

open Lib Dispatch

/-! ## The tasks -/

/-- `storage_service` handles one request, with this reply; like the network driver it only
replies. -/
def StorageServes (req : List UInt8) (out : Option (List UInt8)) : Prop :=
  Prog.Exec driverStep (storageHandle req) none () out

/-- What the calls of the file service act on: the reply of storage that it has not received yet,
and its own reply. -/
structure FsWorld where
  fromStorage : Option (List UInt8)
  out : Option (List UInt8)

/-- What a call of the file service does: on capability 0 it replies, on the other one it asks
storage. -/
def fsStep (w : FsWorld) : (c : Call) → c.Answer → FsWorld → Prop
  | .send cap msg, r, w' =>
    if cap = 0 then w' = { w with out := some msg }
    else (r < 0 ∧ w' = w) ∨
      (0 ≤ r ∧ ∃ out, StorageServes msg out ∧ w' = { w with fromStorage := out })
  | .recv _ room, r, w' => Receives w.fromStorage room r ∧ w' = { w with fromStorage := none }
  | _, _, w' => w' = w

/-- `fs_service` handles one request, with this reply. -/
def FsServes (req : List UInt8) (out : Option (List UInt8)) : Prop :=
  ∃ w, Prog.Exec fsStep (fsHandle req) ⟨none, none⟩ () w ∧ w.out = out

/-- The states of all tasks. -/
abbrev TaskStates : Type := ℕ → RtState

/-- `sys_task_start` finds the task in a state it can start it from. -/
def canStart : RtState → Bool
  | .empty | .killed | .faulted => true
  | .ready | .running | .blocked => false

/-- What the calls of the loader act on: the tasks, the reply of the file service that it has not
received yet, its own reply and the console. -/
structure LoaderWorld where
  tasks : TaskStates
  fromFs : Option (List UInt8)
  answer : Option (List UInt8)
  console : List UInt8

/-- What a call of the loader does: on capability 0 it replies, on the other one it asks the file
service; it writes to the console, and it starts and asks for tasks. -/
def loaderStep (w : LoaderWorld) : (c : Call) → c.Answer → LoaderWorld → Prop
  | .send cap msg, r, w' =>
    if cap = 0 then w' = { w with answer := some msg }
    else (r < 0 ∧ w' = w) ∨ (0 ≤ r ∧ ∃ out, FsServes msg out ∧ w' = { w with fromFs := out })
  | .recv _ room, r, w' => Receives w.fromFs room r ∧ w' = { w with fromFs := none }
  | .conWrite bytes, r, w' => r = bytes.length ∧ w' = { w with console := w.console ++ bytes }
  | .taskStart idx, r, w' =>
    if canStart (w.tasks (idx.toNat + 1)) then
      0 ≤ r ∧ w' = { w with tasks := Function.update w.tasks (idx.toNat + 1) .ready }
    else r < 0 ∧ w' = w
  | .info _ room slot, r, w' => Receives (some (umsg (stateName (w.tasks slot)))) room r ∧ w' = w
  | _, _, w' => w' = w

/-- One request to the loader with all that comes of it. -/
structure AppExchange where
  /-- The tasks before and after. -/
  tasks : TaskStates
  tasks' : TaskStates
  request : List UInt8
  answer : List UInt8
  /-- What the loader prints. -/
  console : List UInt8

/-- The request is one the loop of the loader takes: it drops an empty one, and its buffer holds 64
bytes. -/
def AppExchange.Taken (e : AppExchange) : Prop := e.request ≠ [] ∧ e.request.length ≤ 64

/-- The loader handles the request. -/
def AppServes (st : AppStates) (e : AppExchange) (st' : AppStates) : Prop :=
  Prog.Exec loaderStep (appLoaderHandle st e.request) ⟨e.tasks, none, none, []⟩ st'
    ⟨e.tasks', none, some e.answer, e.console⟩

/-- Any sequence of requests, from the cleared state array on. Between two requests the tasks may do
anything; the last exchange stands first. -/
inductive AppRun : List AppExchange → AppStates → Prop
  | start : AppRun [] ⟨fun _ => 0, []⟩
  | served {history : List AppExchange} {st st' : AppStates} {e : AppExchange}
      (h : AppRun history st) (taken : e.Taken) (serves : AppServes st e st') :
      AppRun (e :: history) st'

/-! ## What they are for -/

/-- The apps of the store. -/
inductive App
  | hello
  | counter
  | faultDemo
  deriving DecidableEq, Repr

/-- How far an app has come since it was last unloaded. -/
inductive Phase
  | available
  | loaded
  | started
  deriving DecidableEq, Repr

namespace App

/-- The name of the app. -/
def name : App → String
  | .hello => "hello"
  | .counter => "counter"
  | .faultDemo => "fault_demo"

/-- The slot of its task. -/
def slot : App → ℕ
  | .hello => 7
  | .counter => 9
  | .faultDemo => 8

/-- The answer to a question about the app. -/
def manifest : App → String
  | .hello => "hello: greeter prio=2 caps=console restart=rerun"
  | .counter => "counter: progress demo prio=2 caps=console"
  | .faultDemo => "fault_demo: containment demo prio=2 caps=none"

/-- The app of this name. -/
def named (text : List UInt8) : Option App :=
  [hello, counter, faultDemo].find? fun a => umsg a.name == text

end App

/-- The images that no check lets pass, with the check that stops them. -/
def badImages : List (String × String) :=
  [("invalid_bad_magic", "bad_image"), ("invalid_bad_cap", "denied_capability"),
    ("invalid_bad_checksum", "bad_checksum")]

/-- The requests of the protocol. -/
inductive AppRequest
  | list
  | info (name : List UInt8)
  | load (name : List UInt8)
  | run (name : List UInt8)
  | unload (name : List UInt8)
  | state (name : List UInt8)
  /-- Start an app without its image. -/
  | runBare (name : List UInt8)
  | unknown
  deriving DecidableEq, Repr

/-- The words that start a request about one app. -/
def requestWords : List (String × (List UInt8 → AppRequest)) :=
  [("app info ", .info), ("APP_INFO ", .info), ("APP_LOAD ", .load), ("APP_RUN ", .run),
    ("APP_UNLOAD ", .unload), ("APP_STATE ", .state), ("run ", .runBare)]

/-- The request that the bytes stand for. -/
def AppRequest.read (req : List UInt8) : AppRequest :=
  if req = umsg "apps" ∨ req = umsg "APP_LIST" then .list
  else match requestWords.find? fun w => startsWith req (umsg w.1) with
    | some (word, ask) => ask (after req (umsg word))
    | none => .unknown

/-- The apps with their phases, and the tasks. -/
structure AppManager where
  phase : App → Phase
  tasks : TaskStates

/-- What a request comes to: the next state, the answer and the line on the console. -/
structure AppEffect where
  next : AppManager
  answer : String
  console : String

namespace AppManager

variable (m : AppManager)

/-- Change the phase of one app. -/
def enter (a : App) (p : Phase) : AppManager := { m with phase := Function.update m.phase a p }

/-- Start the task of an app. -/
def start (a : App) : AppManager := { m with tasks := Function.update m.tasks a.slot .ready }

/-- An answer and nothing else. -/
def answers (text : String) : AppEffect := ⟨m, text, ""⟩

/-- Take an image from the store, if the store is reached. -/
def load (reached : Bool) (name : List UInt8) : AppEffect :=
  match App.named name with
  | some a =>
    if m.phase a ≠ .available then m.answers "ERR already_loaded"
    else if reached then
      ⟨m.enter a .loaded, "OK loaded " ++ a.name,
        "APP_IMAGE loaded=" ++ a.name ++ " source=/bin/" ++ a.name ++ ".app\n"⟩
    else m.answers "ERR not_found"
  | none =>
    match badImages.find? fun image => umsg image.1 == name with
    | some (image, reason) =>
      if reached then
        ⟨m, "ERR " ++ reason, "APP_IMAGE rejected=" ++ image ++ " reason=" ++ reason ++ "\n"⟩
      else m.answers "ERR not_found"
    | none => m.answers "ERR not_found"

/-- Start an app that is loaded. -/
def run (a : App) : AppEffect :=
  if m.phase a = .available then m.answers "ERR not_loaded"
  else if canStart (m.tasks a.slot) then
    ((m.start a).enter a .started).answers ("OK running " ++ a.name)
  else m.answers "error: cannot start"

/-- Forget the image of an app. -/
def unload (a : App) : AppEffect :=
  if m.phase a = .available then m.answers "ERR not_loaded"
  else (m.enter a .available).answers ("OK unloaded " ++ a.name)

/-- Once started, the phase of an app is that of its task. -/
def state (a : App) : AppEffect :=
  match m.phase a with
  | .available => m.answers "state=available"
  | .loaded => m.answers "state=loaded"
  | .started =>
    match m.tasks a.slot with
    | .killed => m.answers "state=exited"
    | .faulted => m.answers "state=faulted"
    | _ => m.answers "state=running"

/-- Start the task whatever the phase, which stays. -/
def runBare (a : App) : AppEffect :=
  if canStart (m.tasks a.slot) then (m.start a).answers "started"
  else m.answers "error: cannot start"

/-- Do something with an app, if there is one of this name. -/
def withApp (name : List UInt8) (other : String) (f : App → AppEffect) : AppEffect :=
  match App.named name with
  | some a => f a
  | none => m.answers other

/-- What a request comes to; `reached` says whether the store is reached. -/
def serve (reached : Bool) : AppRequest → AppEffect
  | .list => m.answers "apps: hello fault_demo counter"
  | .info name => m.withApp name "unknown app" fun a => m.answers a.manifest
  | .load name => m.load reached name
  | .run name => m.withApp name "ERR not_found" m.run
  | .unload name => m.withApp name "ERR not_found" m.unload
  | .state name => m.withApp name "ERR not_found" m.state
  | .runBare name => m.withApp name "unknown app" m.runBare
  | .unknown => m.answers "unknown app command"

end AppManager

/-- An exchange as the manager has it. -/
def PhaseServes (phase : App → Phase) (e : AppExchange) (phase' : App → Phase) : Prop :=
  ∃ reached answer console,
    AppManager.serve ⟨phase, e.tasks⟩ reached (.read e.request) =
        ⟨⟨phase', e.tasks'⟩, answer, console⟩ ∧
      e.answer = umsg answer ∧ e.console = umsg console

/-- The same sequences of requests, answered by the manager: at first every app is available. -/
inductive PhaseRun : List AppExchange → (App → Phase) → Prop
  | start : PhaseRun [] fun _ => .available
  | served {history : List AppExchange} {phase phase' : App → Phase} {e : AppExchange}
      (h : PhaseRun history phase) (taken : e.Taken) (serves : PhaseServes phase e phase') :
      PhaseRun (e :: history) phase'

/-- The state byte of a phase. -/
def Phase.code : Phase → UInt8
  | .available => 0
  | .loaded => 1
  | .started => 2

/-- The state bytes stand for the phases. -/
def AppStates.Represents (st : AppStates) (phase : App → Phase) : Prop :=
  ∀ a : App, st.bytes (ldAppId (umsg a.name)) = (phase a).code

end AxiomRT.User
