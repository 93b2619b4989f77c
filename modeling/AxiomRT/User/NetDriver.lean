import AxiomRT.User.Net

/-!
# The synthetic network driver

One request in, one bounded reply out: the driver keeps two counters and no packet. `DRV_FAULT` ends
it with a page fault, which is how a fault is injected.
-/

namespace AxiomRT.User

open Lib

/-- The counters of the driver. -/
structure DriverCounters where
  tx : UInt64
  rx : UInt64
  deriving DecidableEq, Repr

/-- Reply with driver state and both bounded counters. -/
def ndStatus (tx rx : UInt64) : UserProg Unit :=
  let text := ndDec (ndCopy [] (umsg "OK driver=running tx=")) tx
  let text := ndDec (ndCopy text (umsg " rx=")) rx
  reply (ndCopy text (umsg " mode=synthetic"))

/-- Emit the RX event, then return the bounded RX reply. -/
def ndRxCount (rx : UInt64) : UserProg Unit := do
  uwritePtr (ndCopy (ndDec (ndCopy [] (umsg "NET_DRIVER rx_count=")) rx) [10])
  reply (ndDec (ndCopy [] (umsg "OK rx_count=")) rx)

/-- `DRV_TX_TEST`: account one synthetic packet. -/
def ndTxTest (st : DriverCounters) : UserProg DriverCounters := do
  if st.tx = u64Max ∨ st.rx = u64Max then
    reply (umsg "ERR too_large")
    return st
  let st := { st with tx := st.tx + 1, rx := st.rx + 1 }
  uput "NET_DRIVER tx_test bytes=64\n"
  reply (umsg "OK sent test_packet bytes=64")
  return st

/-- One iteration of `net_driver_body`: answer one received request. There is no state after
`DRV_FAULT`, whose branch does not return. -/
def netDriverHandle (st : DriverCounters) (cmd : List UInt8) : UserProg (Option DriverCounters) :=
  if eqs cmd (umsg "DRV_STATUS") then do
    ndStatus st.tx st.rx
    return some st
  else if eqs cmd (umsg "DRV_TX_TEST") then do
    return some (← ndTxTest st)
  else if eqs cmd (umsg "DRV_RX_COUNT") then do
    ndRxCount st.rx
    return some st
  else if eqs cmd (umsg "DRV_FAULT") then
    return none
  else if eqs cmd (umsg "DRV_RESTART") then do
    reply (umsg "ERR unsupported")
    return some st
  else do
    reply (umsg "ERR malformed")
    return some st

end AxiomRT.User
