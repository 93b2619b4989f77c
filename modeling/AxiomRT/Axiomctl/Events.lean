import AxiomRT.Lib.Text

/-!
# The host's event parser

`tools/axiomctl/src/events.rs`: one serial line becomes a categorized event, or is skipped; a log is
parsed line by line.
-/

namespace AxiomRT.Axiomctl

open AxiomRT.Lib

/-- What part of the system an event is about. -/
inductive Category
  | task
  | scheduler
  | syscall
  | ipc
  | capability
  | fault
  | watchdog
  | recovery
  | timer
  | service
  | boot
  | driver
  | network
  | loader
  deriving DecidableEq, Repr

/-- One parsed line: its place in the log, category and kind, the bare words and the fields behind
the kind, and the line itself. -/
structure Event where
  seq : ℕ
  category : Category
  kind : String
  flags : List String
  fields : List (String × String)
  raw : String
  deriving DecidableEq, Repr

/-- Unknown kinds have no category; their lines are skipped. -/
def categorize (kind : String) (fields : List (String × String)) : Option Category :=
  let field (k : String) : Option String := (fields.find? fun f => f.1 == k).map Prod.snd
  match kind with
  | "TASK_STARTED" | "TASK_EXITED" | "TASK_FAULTED" => some .task
  | "SCHED" => some .scheduler
  | "SYSCALL" => some .syscall
  | "IPC" | "IPC_DENIED" => some .ipc
  | "CAP_DENIED" => some .capability
  | "FAULT" => if field "type" = some "WatchdogTimeout" then some .watchdog else some .fault
  | "PAGE_FAULT" | "DEADLINE_MISSED" | "CONTAIN" => some .fault
  | "WATCHDOG_TIMEOUT" => some .watchdog
  | "RECOVERY_APPLIED" => some .recovery
  | "TIMER" => some .timer
  | "SUPERVISOR" | "LOGGER" => some .service
  | "MMU" | "BOOT" | "BOOT_INFO" => some .boot
  | "DEVICE" | "DEVICE_DENIED" | "MMIO" | "MMIO_DENIED" | "DMA" | "DMA_DENIED" | "IRQ"
  | "IRQ_DENIED" | "IRQ_DROPPED" | "DRIVER" | "DRIVER_MANAGER" => some .driver
  | "NET_DRIVER" | "NET_SERVICE" | "NET_TX" | "NET_RX" | "NET_DENIED" => some .network
  | "APP_IMAGE" => some .loader
  | _ => none

/-- The kind of a line and the tokens its flags and fields are taken from. A bare `key=value` line
is a boot line and keeps its first token. -/
def lineKind (first : String) (tokens : List String) : Option (String × List String) :=
  match splitOnce first '=' with
  | some (k, v) => if k.isEmpty || v.isEmpty then none else some ("BOOT_INFO", first :: tokens)
  | none => some (first, tokens)

/-- One turn of the token loop: a token with a key is a field, any other one is a flag. -/
def addToken (acc : List String × List (String × String)) (tok : String) :
    List String × List (String × String) :=
  match splitOnce tok '=' with
  | some (k, v) => if k.isEmpty then (acc.1 ++ [tok], acc.2) else (acc.1, acc.2 ++ [(k, v)])
  | none => (acc.1 ++ [tok], acc.2)

/-- The kind of a monitor line is the value of its first `type` field, which is taken out. -/
def effectiveKind (kind : String) (fields : List (String × String)) :
    Option (String × List (String × String)) :=
  if kind = "EVT" then do
    let pos ← fields.findIdx? fun f => f.1 == "type"
    let type ← fields[pos]?
    some (type.2, fields.eraseIdx pos)
  else some (kind, fields)

/-- One line of the serial log as an event; `none` for a line that is none. -/
def parseLine (line : String) : Option Event :=
  let trimmed := trimEnd line
  if (trim trimmed).isEmpty then none
  else if trimmed = "AxiomRT kernel booted" then
    some { seq := 0, category := .boot, kind := "BOOT", flags := [], fields := [], raw := trimmed }
  else
    match splitWhitespace trimmed with
    | [] => none
    | first :: tokens => do
      let (kind, rest) ← lineKind first tokens
      let (flags, fields) := rest.foldl addToken ([], [])
      let (kind, fields) ← effectiveKind kind fields
      let category ← categorize kind fields
      some { seq := 0, category, kind, flags, fields, raw := trimmed }

/-! ## Whole logs -/

/-- The events of a log, and how many of its lines were none. -/
structure ParsedLog where
  events : List Event
  skipped : ℕ
  deriving DecidableEq, Repr

/-- One turn of the loop over the lines. -/
def logLine (out : ParsedLog) (line : String) : ParsedLog :=
  match parseLine line with
  | some ev => { out with events := out.events ++ [{ ev with seq := out.events.length + 1 }] }
  | none => if (trim line).isEmpty then out else { out with skipped := out.skipped + 1 }

/-- `seq` is 1-based over parsed events. -/
def parseLog (text : String) : ParsedLog := (lines text).foldl logLine ⟨[], 0⟩

end AxiomRT.Axiomctl
