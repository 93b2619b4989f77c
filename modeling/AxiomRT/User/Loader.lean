import AxiomRT.User.Image

/-!
# The app loader

`app_loader_service` owns the app policy: it fetches image records through the file service,
validates them, keeps one state byte per app and starts validated apps.
-/

namespace AxiomRT.User

open Lib

/-! ## App states -/

/-- The loaded-app state bytes as a memory that starts at the state array, and the indexes written
since the array was cleared. State 0 is available, 1 loaded, 2 run requested. -/
structure AppStates where
  bytes : UInt64 → UInt8
  writes : List UInt64

/-- `write_volatile(st.add(id), v)`. -/
def AppStates.write (st : AppStates) (id : UInt64) (v : UInt8) : AppStates :=
  { bytes := Function.update st.bytes id v, writes := st.writes ++ [id] }

/-! ## Replies -/

/-- Copy `src` behind `dst`, bounded by the 64-byte loader buffers. -/
def ldAppend (dst src : List UInt8) : List UInt8 := dst ++ src.take (63 - dst.length)

/-- One bounded reply over the app channel. -/
def appReply (msg : List UInt8) : UserProg Unit := reply msg

/-- Reply `<prefix><name>` on the app channel. -/
def ldReplyName (pre name : List UInt8) : UserProg Unit :=
  reply (ldAppend (ldAppend [] pre) name)

/-- Rejection: one console evidence line and the bounded error reply. -/
def ldReject (name word msg : List UInt8) : UserProg Unit := do
  uput "APP_IMAGE rejected="
  uwritePtr name
  uput " reason="
  uwritePtr word
  uput "\n"
  appReply msg

/-- The rejection of an image for the code that `ldValidate` returned. -/
def ldEmitReject (code : UInt8) (name : List UInt8) : UserProg Unit :=
  if code = 1 then ldReject name (umsg "bad_image") (umsg "ERR bad_image")
  else if code = 2 then ldReject name (umsg "bad_checksum") (umsg "ERR bad_checksum")
  else if code = 3 then ldReject name (umsg "denied_capability") (umsg "ERR denied_capability")
  else ldReject name (umsg "malformed") (umsg "ERR malformed")

/-! ## Commands -/

/-- Fetch `/bin/<name>.app` through the file service on capability 2. The record, or `none` for any
transport failure or `ERR` reply. -/
def ldFetch (name : List UInt8) : UserProg (Option (List UInt8)) :=
  if name.length = 0 ∨ 27 < name.length then .ret none
  else do
    let q := ldAppend (ldAppend (ldAppend [] (umsg "CAT /bin/")) name) (umsg ".app")
    let sent ← sysSend 2 q
    if sent < 0 then .ret none
    else do
      let answer ← sysRecv 2 64
      match answer.received with
      | none => .ret none
      | some record => if startsWith record (umsg "ERR") then .ret none else .ret (some record)

/-- Loaded-app id: 0 = hello, 1 = counter, 2 = fault_demo; `u64Max` = not a runnable app. -/
def ldAppId (name : List UInt8) : UInt64 :=
  if eqs name (umsg "hello") then 0
  else if eqs name (umsg "counter") then 1
  else if eqs name (umsg "fault_demo") then 2
  else u64Max

/-- Service-table index of `hello`. -/
def appHello : UInt64 := 6

/-- Service-table index of `fault_demo`. -/
def appFault : UInt64 := 7

/-- Service-table index of `counter`. -/
def appCounter : UInt64 := 8

/-- Service-table index of a loaded-app id. -/
def ldTblIdx (id : UInt64) : UInt64 :=
  if id = 0 then appHello else if id = 1 then appCounter else appFault

/-- The console line of a loaded image. -/
def ldEvidence (name : List UInt8) : UserProg Unit := do
  uput "APP_IMAGE loaded="
  uwritePtr name
  uput " source=/bin/"
  uwritePtr name
  uput ".app"
  uput "\n"

/-- `APP_LOAD <name>`: fetch, validate, answer. -/
def ldLoad (st : AppStates) (name : List UInt8) : UserProg AppStates := do
  let id := ldAppId name
  if id ≠ u64Max ∧ st.bytes id ≠ 0 then
    appReply (umsg "ERR already_loaded")
    return st
  match ← ldFetch name with
  | none =>
    appReply (umsg "ERR not_found")
    return st
  | some record =>
    let code := ldValidate record name
    if code = 5 then
      appReply (umsg "ERR not_found")
      return st
    if code ≠ 0 then
      ldEmitReject code name
      return st
    ldEvidence name
    let st := st.write id 1
    ldReplyName (umsg "OK loaded ") name
    return st

/-- `APP_RUN <name>`: start a loaded app. -/
def ldRun (st : AppStates) (name : List UInt8) : UserProg AppStates := do
  let id := ldAppId name
  if id = u64Max then
    appReply (umsg "ERR not_found")
    return st
  if st.bytes id = 0 then
    appReply (umsg "ERR not_loaded")
    return st
  let r ← sysTaskStart (ldTblIdx id)
  if r < 0 then
    appReply (umsg "error: cannot start")
    return st
  let st := st.write id 2
  ldReplyName (umsg "OK running ") name
  return st

/-- `APP_UNLOAD <name>`: any loaded state becomes available. -/
def ldUnload (st : AppStates) (name : List UInt8) : UserProg AppStates := do
  let id := ldAppId name
  if id = u64Max then
    appReply (umsg "ERR not_found")
    return st
  if st.bytes id = 0 then
    appReply (umsg "ERR not_loaded")
    return st
  let st := st.write id 0
  ldReplyName (umsg "OK unloaded ") name
  return st

/-- `APP_STATE <name>`: the loader's view, or once run the kernel's task state. -/
def ldState (st : AppStates) (name : List UInt8) : UserProg Unit := do
  let id := ldAppId name
  if id = u64Max then appReply (umsg "ERR not_found")
  else if st.bytes id = 0 then appReply (umsg "state=available")
  else if st.bytes id = 1 then appReply (umsg "state=loaded")
  else
    -- the slot of a task is its table index + 1
    let answer ← sysInfo 7 16 (ldTblIdx id + 1).toNat
    match answer.received with
    | none => appReply (umsg "state=running")
    | some word =>
      if eqs word (umsg "killed") then appReply (umsg "state=exited")
      else if eqs word (umsg "faulted") then appReply (umsg "state=faulted")
      else appReply (umsg "state=running")

/-- `APP_INFO <name>`: manifest one-liner. -/
def ldInfo (name : List UInt8) : UserProg Unit :=
  if eqs name (umsg "hello") then
    appReply (umsg "hello: greeter prio=2 caps=console restart=rerun")
  else if eqs name (umsg "fault_demo") then
    appReply (umsg "fault_demo: containment demo prio=2 caps=none")
  else if eqs name (umsg "counter") then
    appReply (umsg "counter: progress demo prio=2 caps=console")
  else appReply (umsg "unknown app")

/-- The legacy `run <name>` line: start an app without its image. -/
def ldRunLegacy (name : List UInt8) : UserProg Unit := do
  let idx :=
    if eqs name (umsg "hello") then appHello
    else if eqs name (umsg "fault_demo") then appFault
    else if eqs name (umsg "counter") then appCounter
    else u64Max
  if idx = u64Max then appReply (umsg "unknown app")
  else
    let r ← sysTaskStart idx
    if r < 0 then appReply (umsg "error: cannot start") else appReply (umsg "started")

/-- The rest of a request behind the word it starts with. -/
def after (req word : List UInt8) : List UInt8 := req.drop word.length

/-- One iteration of `app_loader_body`: answer one received request. -/
def appLoaderHandle (st : AppStates) (req : List UInt8) : UserProg AppStates :=
  if eqs req (umsg "apps") then do
    appReply (umsg "apps: hello fault_demo counter")
    return st
  else if startsWith req (umsg "app info ") then do
    ldInfo (after req (umsg "app info "))
    return st
  else if eqs req (umsg "APP_LIST") then do
    appReply (umsg "apps: hello fault_demo counter")
    return st
  else if startsWith req (umsg "APP_INFO ") then do
    ldInfo (after req (umsg "APP_INFO "))
    return st
  else if startsWith req (umsg "APP_LOAD ") then ldLoad st (after req (umsg "APP_LOAD "))
  else if startsWith req (umsg "APP_RUN ") then ldRun st (after req (umsg "APP_RUN "))
  else if startsWith req (umsg "APP_UNLOAD ") then ldUnload st (after req (umsg "APP_UNLOAD "))
  else if startsWith req (umsg "APP_STATE ") then do
    ldState st (after req (umsg "APP_STATE "))
    return st
  else if startsWith req (umsg "run ") then do
    ldRunLegacy (after req (umsg "run "))
    return st
  else do
    appReply (umsg "unknown app command")
    return st

end AxiomRT.User
