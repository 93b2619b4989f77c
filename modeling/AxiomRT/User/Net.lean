import AxiomRT.User.Text

/-!
# The network service

Shell-facing policy over the synthetic network driver: it probes the driver on capability 1, asks
the driver manager on capability 2 for lifecycle changes, and keeps two counters of its own.
-/

namespace AxiomRT.User

open Lib

/-- Service-owned counters and whether the driver is believed up. -/
structure NetState where
  tx : UInt64
  rx : UInt64
  up : Bool
  deriving DecidableEq, Repr

/-! ## Reply texts -/

/-- Copy one constant behind `dst`, bounded by the 64-byte buffers. -/
def ndCopy (dst src : List UInt8) : List UInt8 := dst ++ src.take (64 - dst.length)

/-- The digit loop of `nd_dec`: at most `room` digits, least significant first in the source's
scratch buffer, most significant first here. -/
def ndDigits : (room : ℕ) → UInt64 → List UInt8 → List UInt8
  | 0, _, tmp => tmp
  | room + 1, v, tmp =>
    if v = 0 then tmp else ndDigits room (v / 10) ((48 + v % 10).toUInt8 :: tmp)

/-- Append one decimal number. -/
def ndDec (dst : List UInt8) (value : UInt64) : List UInt8 :=
  if value = 0 then ndCopy dst [48] else ndCopy dst (ndDigits 20 value [])

/-- Send one command to the driver and receive its bounded reply, `none` on failure. -/
def nsDriver (cmd : List UInt8) : UserProg (Option (List UInt8)) := do
  let sent ← sysSend 1 cmd
  if sent < 0 then .ret none
  else
    let answer ← sysRecv 1 64
    .ret answer.received

/-- Ask the driver manager to apply lifecycle policy. -/
def nsManager (cmd : List UInt8) : UserProg (Option (List UInt8)) := do
  let sent ← sysSend 2 cmd
  if sent < 0 then .ret none
  else
    let answer ← sysRecv 2 64
    .ret answer.received

/-- One bounded reply to the shell-facing endpoint. -/
def nsReply (msg : List UInt8) : UserProg Unit := reply msg

/-- Append a newline to an event text and emit it. -/
def nsEvent (text : List UInt8) : UserProg Unit := uwritePtr (ndCopy text [10])

/-- The status line, from the counters of the service. -/
def nsStatus (tx rx : UInt64) : UserProg Unit :=
  let text := ndDec (ndCopy [] (umsg "OK net state=up driver=running tx=")) tx
  let text := ndDec (ndCopy text (umsg " rx=")) rx
  nsReply (ndCopy text (umsg " mode=synthetic"))

/-- The counters alone. -/
def nsStats (tx rx : UInt64) : UserProg Unit :=
  let text := ndDec (ndCopy [] (umsg "OK tx=")) tx
  nsReply (ndDec (ndCopy text (umsg " rx=")) rx)

/-- The two events of a packet that was sent and came back. -/
def nsPacketEvents (tx rx : UInt64) : UserProg Unit := do
  nsEvent (ndDec (ndCopy [] (umsg "NET_TX bytes=64 tx=")) tx)
  nsEvent (ndDec (ndCopy [] (umsg "NET_RX rx=")) rx)

/-! ## Commands -/

/-- `NET_STATUS` and `NET_STATS`: probe the driver, then answer from the counters. -/
def nsProbe (st : NetState) (answer : UInt64 → UInt64 → UserProg Unit) : UserProg NetState := do
  if !st.up then
    nsReply (umsg "ERR driver_down")
    return st
  match ← nsDriver (umsg "DRV_STATUS") with
  | some _ =>
    answer st.tx st.rx
    return st
  | none =>
    nsReply (umsg "ERR driver_down")
    return st

/-- `NET_SEND_TEST`: let the driver account one synthetic packet. -/
def nsSendTest (st : NetState) : UserProg NetState := do
  if !st.up then
    nsReply (umsg "ERR driver_down")
    return st
  match ← nsDriver (umsg "DRV_TX_TEST") with
  | some answer =>
    if st.tx = u64Max ∨ st.rx = u64Max then
      nsReply (umsg "ERR too_large")
      return st
    let st := { st with tx := st.tx + 1, rx := st.rx + 1 }
    nsPacketEvents st.tx st.rx
    nsReply answer
    return st
  | none =>
    nsReply (umsg "ERR driver_down")
    return st

/-- `NET_RX_COUNT`: forward the driver's own count. -/
def nsRxCount (st : NetState) : UserProg NetState := do
  if !st.up then
    nsReply (umsg "ERR driver_down")
    return st
  match ← nsDriver (umsg "DRV_RX_COUNT") with
  | some answer =>
    nsReply answer
    return st
  | none =>
    nsReply (umsg "ERR driver_down")
    return st

/-- `NET_FAULT`: a confirmed driver fault takes the service down. -/
def nsFault (st : NetState) : UserProg NetState := do
  if !st.up then
    nsReply (umsg "ERR driver_down")
    return st
  match ← nsManager (umsg "NET_MGR_FAULT") with
  | some answer =>
    let st := if startsWith answer (umsg "OK") then { st with up := false } else st
    nsReply answer
    return st
  | none =>
    nsReply (umsg "ERR driver_down")
    return st

/-- `NET_RESTART`: a confirmed restart clears the counters. -/
def nsRestart (st : NetState) : UserProg NetState := do
  match ← nsManager (umsg "NET_MGR_RESTART") with
  | some answer =>
    let st := if startsWith answer (umsg "OK") then ⟨0, 0, true⟩ else st
    nsReply answer
    return st
  | none =>
    nsReply (umsg "ERR driver_down")
    return st

/-- One iteration of `net_service_body`: answer one received request. -/
def netHandle (st : NetState) (req : List UInt8) : UserProg NetState :=
  if eqs req (umsg "NET_STATUS") then nsProbe st nsStatus
  else if eqs req (umsg "NET_STATS") then nsProbe st nsStats
  else if eqs req (umsg "NET_SEND_TEST") then nsSendTest st
  else if eqs req (umsg "NET_RX_COUNT") then nsRxCount st
  else if eqs req (umsg "NET_FAULT") then nsFault st
  else if eqs req (umsg "NET_RESTART") then nsRestart st
  else do
    uput "NET_DENIED reason=malformed\n"
    nsReply (umsg "ERR malformed")
    return st

end AxiomRT.User
