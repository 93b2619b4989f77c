import AxiomRT.User.Text

/-!
# The shell

`shell_service` takes one line, compares it with its commands in a fixed order, and executes the
first that matches: it prints texts, forwards lines to other services, and controls tasks.
-/

namespace AxiomRT.User

open Lib

/-- Send `msg` on capability `cap` and print the bounded reply, of at most `room` bytes. -/
def shellForward (cap room : ℕ) (msg : List UInt8) : UserProg Unit := do
  let sent ← sysSend cap msg
  if sent < 0 then uput "error\n"
  else
    let answer ← sysRecv cap room
    match answer.received with
    | some text =>
      uwritePtr text
      uput "\n"
    | none => uput "error\n"

/-- Forward one raw app command line to the app loader. -/
def shellAppForward (line : List UInt8) : UserProg Unit := shellForward 4 64 line

/-- Translate one shell loader command into its protocol message. -/
def shellAppProto (line : List UInt8) (tailAt : ℕ) (proto : List UInt8) : UserProg Unit :=
  shellForward 4 64 (proto ++ (line.drop tailAt).take (63 - proto.length))

/-- Forward one raw driver command line to the driver manager. -/
def shellDrvForward (line : List UInt8) : UserProg Unit := shellForward 7 64 line

/-- Forward one protocol frame to the network service. -/
def shellNetForward (frame : List UInt8) : UserProg Unit := shellForward 8 64 frame

/-- Build `LS <path>` or `CAT <path>` and forward it to the file service; a bare `ls` asks for the
root. -/
def shellFsCmd (line : List UInt8) (tailAt : ℕ) (cat : Bool) : UserProg Unit :=
  let pfx := if cat then umsg "CAT " else umsg "LS "
  let query :=
    if line.length ≤ tailAt then pfx ++ umsg "/"
    else pfx ++ (line.drop tailAt).take (63 - pfx.length)
  shellForward 5 128 query

/-- Build `INFO` or `READ block=<n>` and forward it to the storage service. -/
def shellStorCmd (line : List UInt8) (tailAt : ℕ) : UserProg Unit :=
  let query :=
    if line.length ≤ tailAt then umsg "INFO"
    else umsg "READ block=" ++ (line.drop tailAt).take (63 - (umsg "READ block=").length)
  shellForward 6 64 query

/-- Print one kernel snapshot. -/
def shellInfo (kind : ℕ) : UserProg Unit := do
  let answer ← sysInfo kind 640 0
  match answer.received with
  | some text => uwritePtr text
  | none => uput "error\n"

/-- Parse the slot behind the command word and apply a task control to it. -/
def shellControl (line word : List UInt8) (control : UInt64 → UserProg Int) : UserProg Unit := do
  let idx := parseDec line word.length
  if idx = u64Max then uput "error\n"
  else
    let r ← control idx
    if r < 0 then uput "error\n" else uput "ok\n"

/-- The answer to `help`. -/
def shellHelp : String :=
  "commands: help version tasks faults ipc caps memory uptime events\n" ++
  "          run demo | kill <idx> | restart <idx> | clear | shutdown\n" ++
  "          drivers | driver <info|restart|fault> block\n" ++
  "          bin | app <load|unload|state> <name> | run loaded <name>\n" ++
  "          net <status|stats|send-test|rx-count|fault|restart>\n"

/-- Service-table index of the faulty demo task. -/
def svcFaulty : UInt64 := 4

/-- `run demo`: start the faulty task. -/
def shellRunDemo : UserProg Unit := do
  uput "demo: starting faulty_task (watch containment + recovery)\n"
  let r ← sysTaskStart svcFaulty
  if r < 0 then uput "error\n" else .ret ()

/-- `shutdown`. -/
def shellShutdown : UserProg Unit := do
  uput "shutting down\n"
  let _ ← sysShutdown

/-- One iteration of `shell_body`: execute one received line. -/
def shellHandle (line : List UInt8) : UserProg Unit :=
  if eqs line (umsg "help") then uput shellHelp
  else if eqs line (umsg "version") then
    uput "AxiomRT v1.7-minimal-network-service RISC-V 64 (QEMU eval)\n"
  else if eqs line (umsg "tasks") then shellInfo 0
  else if eqs line (umsg "faults") then shellInfo 1
  else if eqs line (umsg "ipc") then shellInfo 2
  else if eqs line (umsg "caps") then shellInfo 3
  else if eqs line (umsg "memory") then shellInfo 4
  else if eqs line (umsg "uptime") then shellInfo 5
  else if eqs line (umsg "events") then shellInfo 6
  else if eqs line (umsg "run demo") then shellRunDemo
  else if eqs line (umsg "bin") then shellFsCmd (umsg "/bin") 0 false
  else if startsWith line (umsg "app load ") then
    shellAppProto line (umsg "app load ").length (umsg "APP_LOAD ")
  else if startsWith line (umsg "app unload ") then
    shellAppProto line (umsg "app unload ").length (umsg "APP_UNLOAD ")
  else if startsWith line (umsg "app state ") then
    shellAppProto line (umsg "app state ").length (umsg "APP_STATE ")
  else if startsWith line (umsg "run loaded ") then
    shellAppProto line (umsg "run loaded ").length (umsg "APP_RUN ")
  else if eqs line (umsg "net status") then shellNetForward (umsg "NET_STATUS")
  else if eqs line (umsg "net stats") then shellNetForward (umsg "NET_STATS")
  else if eqs line (umsg "net send-test") then shellNetForward (umsg "NET_SEND_TEST")
  else if eqs line (umsg "net rx-count") then shellNetForward (umsg "NET_RX_COUNT")
  else if eqs line (umsg "net fault") then shellNetForward (umsg "NET_FAULT")
  else if eqs line (umsg "net restart") then shellNetForward (umsg "NET_RESTART")
  else if startsWith line (umsg "net ") then shellNetForward line
  else if eqs line (umsg "drivers") || startsWith line (umsg "driver ") then shellDrvForward line
  else if eqs line (umsg "storage info") then shellStorCmd line line.length
  else if startsWith line (umsg "storage read ") then
    shellStorCmd line (umsg "storage read ").length
  else if eqs line (umsg "ls") then shellFsCmd line line.length false
  else if startsWith line (umsg "ls ") then shellFsCmd line (umsg "ls ").length false
  else if startsWith line (umsg "cat ") then shellFsCmd line (umsg "cat ").length true
  else if eqs line (umsg "apps") || startsWith line (umsg "app info ") ||
      startsWith line (umsg "run ") then
    shellAppForward line
  else if startsWith line (umsg "kill ") then shellControl line (umsg "kill ") sysTaskKill
  else if startsWith line (umsg "restart ") then
    shellControl line (umsg "restart ") sysTaskRestart
  else if eqs line (umsg "clear") then uput "\x1b[2J\x1b[H"
  else if eqs line (umsg "shutdown") then shellShutdown
  else uput "unknown command (try: help)\n"

end AxiomRT.User
