import AxiomRT.Dispatch.Sched

/-!
# IPC syscalls

Synchronous, bounded, copy-based rendezvous over the endpoints, and the supervisor's
acknowledgement of a fault.
-/

namespace AxiomRT.Dispatch

/-- The message staged for a parked receiver: the first `len` bytes of the staging buffer, embedded
in an otherwise zero payload. -/
def PendingMsg.stage (dst len : Nat) (kmsg : Fin ipcMsgMax → UInt8) : Except Stop PendingMsg := do
  -- `pm.data[..len].copy_from_slice(&kmsg[..len])`: either slice can be out of range
  let _ ← sliceTo (fun _ => 0) len
  let bytes ← sliceTo kmsg len
  .ok { dst := dst, len := len, data := fun i => bytes.getD i.val 0 }

namespace Kernel

/-- A refused IPC call: the error code for the caller and the evidence line. -/
def ipcDenied (k : Kernel) (code : Int) (what name : String) : Kernel :=
  (k.core (·.setA0 code)).emit what name

/-- The staged bytes for the receiver `tid` that waits with room for `cap` bytes at `dst`: embedded
in its control block until it next runs, or an error code if they do not fit. -/
def stageFor (k : Kernel) (tid : Slot) (dst cap len : Nat) : Except Stop Kernel :=
  if len ≤ cap ∧ validUserBuf dst len then do
    let pm ← PendingMsg.stage dst len k.kmsg
    .ok (k.core (·.modTask tid ({ · with pendingIpc := some pm })))
  else .ok (k.core (·.modTask tid fun t => { t with frame := t.frame.setA0 errMsgTooLarge }))

/-- `sys_send`: `a0` = capability index, `a1` = buffer, `a2` = length. -/
def ipcSend (img : Image) (k : Kernel) : Except Stop Kernel :=
  let cur := k.current
  let capIndex := k.frame.arg 0
  let buf := k.frame.arg 1
  let len := k.frame.arg 2
  let name := k.curName
  match k.capCheck cur capIndex rightSend with
  | .ok epId =>
    if ipcMsgMax < len then
      .ok (k.ipcDenied errMsgTooLarge "IPC_DENIED op=send reason=msg_too_large task=" name)
    else if !(decide (len ≤ ipcMsgMax) && inReadableWindow img buf len) then
      .ok (k.ipcDenied errInvalidArg "IPC_DENIED op=send reason=bad_buffer task=" name)
    else do
      -- the sender's address space is active: stage its bytes now
      let k := k.core (·.copyFromUser buf len)
      let e ← epIndex epId
      match k.endpoints e with
      | .receiverWaiting tid dst cap =>
        let k := (k.emit "IPC send task=" name).puts [.str "IPC endpoint=log op=send\n"]
        let k ← k.stageFor tid dst cap len
        .ok (k.core fun c => ((c.setState tid .ready).epSet e .idle).setA0 len)
      | .idle =>
        let k := (k.core (·.epSet e (.senderWaiting cur len))).emit "IPC send task=" name
        (k.puts [.str "IPC endpoint=log op=send state=blocked\n"]).blockAndSwitch
      | .senderWaiting _ _ =>
        .ok (k.ipcDenied errInvalidArg "IPC_DENIED op=send reason=busy task=" name)
  | other =>
    let (k, code) := k.denyCap cur other
    .ok (k.core (·.setA0 code))

/-- `sys_recv`: `a0` = capability index, `a1` = buffer, `a2` = capacity. -/
def ipcRecv (k : Kernel) : Except Stop Kernel :=
  let cur := k.current
  let capIndex := k.frame.arg 0
  let dst := k.frame.arg 1
  let cap := k.frame.arg 2
  let name := k.curName
  match k.capCheck cur capIndex rightRecv with
  | .ok epId =>
    match k.irqPendingFor epId cur with
    | some dev =>
      if cap < 1 ∨ !validUserBuf dst 1 then
        .ok (k.ipcDenied errInvalidArg "IPC_DENIED op=recv reason=bad_buffer task=" name)
      else
        let k := k.core fun c =>
          (c.irqRouteSet dev ⟨cur.val, false⟩).copyBytesToUser dst [irqEventCode]
        .ok ((k.emitIrqDelivered name (devices dev).name).core (·.setA0 1))
    | none => do
      let e ← epIndex epId
      match k.endpoints e with
      | .senderWaiting tid len =>
        if cap < len ∨ !validUserBuf dst len then
          .ok (k.ipcDenied errInvalidArg "IPC_DENIED op=recv reason=bad_buffer task=" name)
        else
          let bytes ← sliceTo k.kmsg len
          let k := k.core fun c => (c.copyBytesToUser dst bytes).setA0 len
          let k := k.core fun c => (c.modTask tid fun t =>
            { t with state := .ready, frame := t.frame.setA0 len }).epSet e .idle
          .ok ((k.emit "IPC recv task=" name).puts
            [.str "IPC delivered bytes=", .dec len, .str "\n"])
      | .idle =>
        if ipcMsgMax < cap ∨ !validUserBuf dst (min cap ipcMsgMax) then
          .ok (k.ipcDenied errInvalidArg "IPC_DENIED op=recv reason=bad_buffer task=" name)
        else
          let k := (k.core (·.epSet e (.receiverWaiting cur dst cap))).emit "IPC recv task=" name
          (k.puts [.str "IPC endpoint=log op=recv state=blocked\n"]).blockAndSwitch
      | .receiverWaiting _ _ _ =>
        .ok (k.ipcDenied errInvalidArg "IPC_DENIED op=recv reason=busy task=" name)
  | other =>
    let (k, code) := k.denyCap cur other
    .ok (k.core (·.setA0 code))

/-- The policy named by a recovery decision code. -/
def recoveryPolicy (decision : Nat) : String :=
  match decision with
  | 2 => "Kill"
  | 1 => "Restart"
  | _ => "Escalate"

/-- `sys_fault_ack`: `a1` = recovery decision code. The kernel records the applied policy. -/
def faultAck (k : Kernel) : Kernel :=
  let cur := k.current
  let policy := recoveryPolicy (k.frame.arg 1)
  let k := k.puts [.str "SUPERVISOR decision=", .str policy, .str " by=", .str k.curName,
    .str "\n", .str "RECOVERY_APPLIED policy=", .str policy, .str "\n"]
  (k.ringPush .recovery cur).core (·.setA0 0)

end Kernel

end AxiomRT.Dispatch
