import AxiomRT.User.Text

/-!
# The file service

A read-only tree of bounded texts; the records under `/bin` and `/storage` are fetched from the
storage service on capability 1.
-/

namespace AxiomRT.User

/-- One bounded reply over the fs channel. -/
def fsReply (msg : List UInt8) : UserProg Unit := reply msg

/-- Fetch one storage block and forward the payload without its `OK data=` frame. -/
def fsStorRecord (query : List UInt8) : UserProg Unit := do
  let sent ← sysSend 1 query
  if sent < 0 then fsReply (umsg "ERR not_found")
  else
    let answer ← sysRecv 1 64
    match answer.received with
    | none => fsReply (umsg "ERR not_found")
    | some text =>
      if (umsg "OK data=").length < text.length ∧ startsWith text (umsg "OK data=") then
        fsReply (text.drop (umsg "OK data=").length)
      else fsReply (umsg "ERR not_found")

/-- `/storage/version`: forward the storage reply as it is. -/
def fsStorVersion : UserProg Unit := do
  let sent ← sysSend 1 (umsg "READ block=1")
  if sent < 0 then fsReply (umsg "ERR not_found")
  else
    let answer ← sysRecv 1 64
    match answer.received with
    | some text => fsReply text
    | none => fsReply (umsg "ERR not_found")

/-- `LS`: the names in a directory. -/
def fsLs (path : List UInt8) : UserProg Unit :=
  if eqs path (umsg "/") then fsReply (umsg "OK etc apps docs bin")
  else if eqs path (umsg "/etc") then fsReply (umsg "OK version limitations")
  else if eqs path (umsg "/apps") then
    fsReply (umsg "OK hello.manifest counter.manifest fault_demo.manifest")
  else if eqs path (umsg "/docs") then fsReply (umsg "OK about")
  else if eqs path (umsg "/bin") then
    fsReply (umsg ("OK hello.app counter.app fault_demo.app invalid_bad_magic.app " ++
      "invalid_bad_cap.app invalid_bad_checksum.app"))
  else fsReply (umsg "ERR not_found")

/-- `CAT`: the contents of a file. -/
def fsCat (path : List UInt8) : UserProg Unit :=
  if eqs path (umsg "/etc/version") then
    fsReply (umsg "OK AxiomRT v1.6-storage-backed-loader RISC-V 64 eval stage")
  else if eqs path (umsg "/etc/limitations") then
    fsReply (umsg "OK emulator-only read-only evaluation build no cert claim")
  else if eqs path (umsg "/apps/hello.manifest") then
    fsReply (umsg "OK hello: prio=2 caps=console restart=rerun")
  else if eqs path (umsg "/apps/counter.manifest") then
    fsReply (umsg "OK counter: prio=2 caps=console restart=rerun")
  else if eqs path (umsg "/apps/fault_demo.manifest") then
    fsReply (umsg "OK fault_demo: prio=2 caps=none restart=rerun")
  else if eqs path (umsg "/docs/about") then
    fsReply (umsg "OK AxiomRT v1.6-storage-backed-loader see docs/INDEX.md")
  else if eqs path (umsg "/bin/hello.app") then fsStorRecord (umsg "READ block=4")
  else if eqs path (umsg "/bin/counter.app") then fsStorRecord (umsg "READ block=5")
  else if eqs path (umsg "/bin/fault_demo.app") then fsStorRecord (umsg "READ block=6")
  else if eqs path (umsg "/bin/invalid_bad_magic.app") then
    fsReply (umsg "BXAPP1 invalid_bad_magic 0 4096 4096 1 none 8192 0000")
  else if eqs path (umsg "/bin/invalid_bad_cap.app") then
    fsReply (umsg "AXAPP1 invalid_bad_cap 0 4096 4096 1 mmio 8192 0d18")
  else if eqs path (umsg "/bin/invalid_bad_checksum.app") then
    fsReply (umsg "AXAPP1 invalid_bad_checksum 0 4096 4096 1 none 8192 0000")
  else if eqs path (umsg "/storage/version") then fsStorVersion
  else fsReply (umsg "ERR not_found")

/-- One iteration of `fs_body`: answer one received request. -/
def fsHandle (req : List UInt8) : UserProg Unit :=
  if startsWith req (umsg "LS ") then fsLs (req.drop (umsg "LS ").length)
  else if startsWith req (umsg "CAT ") then fsCat (req.drop (umsg "CAT ").length)
  else fsReply (umsg "ERR bad_path")

end AxiomRT.User
