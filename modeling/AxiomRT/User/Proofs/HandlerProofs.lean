import AxiomRT.User.Proofs.CallProofs
import AxiomRT.User.Proofs.TextProofs
import AxiomRT.User.Serving

/-!
# Proofs: one reply for one request

Whatever the kernel and the other services answer, each handler makes exactly one send on
capability 0 for a request, never receives there, and sends no message that is too long for the
kernel.
-/

namespace AxiomRT.User

open Lib Dispatch Prog

/-- The call is a reply. -/
def isReply : Call → Bool
  | .send 0 _ => true
  | _ => false

/-- A call that a handler may make: its messages fit, and it takes no further request. -/
def Lawful : Call → Prop
  | .send _ msg => msg.length ≤ ipcMsgMax
  | .recv cap _ => cap ≠ 0
  | _ => True

/-- The handler part makes `n` replies. -/
abbrev Replies {α : Type} (n : ℕ) (p : UserProg α) : Prop := Does Lawful isReply n p

/-! ## Building blocks -/

theorem uwritePtr_replies (bytes : List UInt8) : Replies 0 (uwritePtr bytes) := by
  fun_induction uwritePtr bytes with
  | case1 => exact .ret ()
  | case2 bytes hne ih =>
    refine .skip trivial rfl fun (r : Int) => ?_
    exact .ite (.ret ()) ih

theorem uput_replies (s : String) : Replies 0 (uput s) := uwritePtr_replies _

theorem reply_replies {msg : List UInt8} (h : msg.length ≤ ipcMsgMax) : Replies 1 (reply msg) :=
  .count h rfl fun _ => .ret ()

theorem text_replies {cs : List Char} (h : cs.length ≤ ipcMsgMax) :
    Replies 1 (reply (umsg (String.ofList cs))) :=
  reply_replies (length_umsg_le h)

/-- What was received fits the buffer. -/
theorem Filled.length_received {room : ℕ} {a : Filled room} {text : List UInt8}
    (h : a.received = some text) : text.length ≤ room := by
  cases a with
  | error code neg => cases h
  | ok bytes fits =>
    cases bytes with
    | nil => cases h
    | cons b bs =>
      cases h
      exact fits

/-- A query to another service: a send and a receive on another capability. -/
theorem query_replies {α : Type} {n cap room : ℕ} {msg : List UInt8} {p : UserProg α}
    {f : Filled room → UserProg α} (hcap : cap ≠ 0) (hmsg : msg.length ≤ ipcMsgMax)
    (hp : Replies n p) (hf : ∀ a, Replies n (f a)) :
    Replies n (sysSend cap msg >>= fun sent => if sent < 0 then p else sysRecv cap room >>= f) := by
  have hsend : isReply (.send cap msg) = false := by
    unfold isReply
    split
    · next heq => exact absurd (Call.send.inj heq).1 hcap
    · rfl
  rw [sysSend_bind]
  refine .skip hmsg hsend fun (sent : Int) => ?_
  refine .ite hp ?_
  rw [sysRecv_bind]
  exact .skip hcap rfl hf

/-! ## The storage service -/

theorem storageSendBlock_replies (block : List UInt8) : Replies 1 (storageSendBlock block) := by
  refine reply_replies ?_
  rw [List.length_append, List.length_take]
  have hhdr : (umsg "OK data=").length = 8 := rfl
  have hmax : ipcMsgMax = 128 := rfl
  omega

theorem blockReply_replies (n : UInt64) : Replies 1 (blockReply n) := by
  have hsend := storageSendBlock_replies
  refine .ite (hsend _) (.ite (hsend _) (.ite (hsend _) (.ite (hsend _) (.ite ?_ ?_))))
  · exact .ite (hsend _) (.ite (hsend _) (.ite (hsend _) (hsend _)))
  · exact text_replies (by decide)

theorem storageRange_replies (req : List UInt8) : Replies 1 (storageRange req) := by
  have hmalformed : Replies 1 (reply (umsg "ERR malformed")) := text_replies (by decide)
  refine .ite hmalformed (.ite hmalformed (.ite (text_replies (by decide)) ?_))
  exact blockReply_replies _

theorem storageHandle_replies (req : List UInt8) : Replies 1 (storageHandle req) := by
  have hmalformed : Replies 1 (reply (umsg "ERR malformed")) := text_replies (by decide)
  refine .ite (text_replies (by decide)) (.ite (.ite hmalformed ?_) (.ite ?_ hmalformed))
  · exact blockReply_replies _
  · exact storageRange_replies _

/-! ## The file service -/

theorem fsStorRecord_replies {query : List UInt8} (h : query.length ≤ ipcMsgMax) :
    Replies 1 (fsStorRecord query) := by
  have hnot : Replies 1 (fsReply (umsg "ERR not_found")) := text_replies (by decide)
  refine query_replies (by decide) h hnot fun answer => ?_
  cases htext : answer.received with
  | none => exact hnot
  | some text =>
    have hlen := Filled.length_received htext
    have hmax : ipcMsgMax = 128 := rfl
    refine .ite (reply_replies ?_) hnot
    rw [List.length_drop]
    omega

theorem fsStorVersion_replies : Replies 1 fsStorVersion := by
  have hnot : Replies 1 (fsReply (umsg "ERR not_found")) := text_replies (by decide)
  refine query_replies (by decide) (length_umsg_le (by decide)) hnot fun answer => ?_
  cases htext : answer.received with
  | none => exact hnot
  | some text =>
    have hlen := Filled.length_received htext
    exact reply_replies (Nat.le_trans hlen (by decide))

theorem fsLs_replies (path : List UInt8) : Replies 1 (fsLs path) := by
  unfold fsLs
  iterate 4 refine .ite (text_replies (by decide)) ?_
  exact .ite (reply_replies (length_umsg_append_le (by decide))) (text_replies (by decide))

theorem fsCat_replies (path : List UInt8) : Replies 1 (fsCat path) := by
  unfold fsCat
  iterate 6 refine .ite (text_replies (by decide)) ?_
  iterate 3 refine .ite (fsStorRecord_replies (length_umsg_le (by decide))) ?_
  iterate 3 refine .ite (text_replies (by decide)) ?_
  exact .ite fsStorVersion_replies (text_replies (by decide))

theorem fsHandle_replies (req : List UInt8) : Replies 1 (fsHandle req) :=
  .ite (fsLs_replies _) (.ite (fsCat_replies _) (text_replies (by decide)))

/-! ## The app loader -/

theorem length_ldAppend {dst src : List UInt8} (h : dst.length ≤ 63) :
    (ldAppend dst src).length ≤ 63 := by
  rw [ldAppend, List.length_append, List.length_take]
  omega

theorem ldReplyName_replies (pre name : List UInt8) : Replies 1 (ldReplyName pre name) := by
  refine reply_replies (Nat.le_trans (length_ldAppend (length_ldAppend ?_)) (by decide))
  exact Nat.zero_le 63

theorem ldReject_replies {name word msg : List UInt8} (h : msg.length ≤ ipcMsgMax) :
    Replies 1 (ldReject name word msg) :=
  (uput_replies _).after fun _ => (uwritePtr_replies _).after fun _ =>
    (uput_replies _).after fun _ => (uwritePtr_replies _).after fun _ =>
      (uput_replies _).after fun _ => reply_replies h

theorem ldEmitReject_replies (code : UInt8) (name : List UInt8) :
    Replies 1 (ldEmitReject code name) := by
  unfold ldEmitReject
  iterate 3 refine .ite (ldReject_replies (length_umsg_le (by decide))) ?_
  exact ldReject_replies (length_umsg_le (by decide))

theorem ldFetch_replies (name : List UInt8) : Replies 0 (ldFetch name) := by
  have hquery : (ldAppend (ldAppend (ldAppend [] (umsg "CAT /bin/")) name)
      (umsg ".app")).length ≤ 63 :=
    length_ldAppend (length_ldAppend (length_ldAppend (Nat.zero_le 63)))
  refine .ite (.ret none) ?_
  refine query_replies (by decide) (Nat.le_trans hquery (by decide)) (.ret none) fun answer => ?_
  cases answer.received with
  | none => exact .ret none
  | some record => exact .ite (.ret none) (.ret _)

theorem ldEvidence_replies (name : List UInt8) : Replies 0 (ldEvidence name) :=
  (uput_replies _).after fun _ => (uwritePtr_replies _).after fun _ =>
    (uput_replies _).after fun _ => (uwritePtr_replies _).after fun _ =>
      (uput_replies _).after fun _ => uput_replies _

/-- A reply and the end of the handler. -/
theorem reply_then_ret {α β : Type} {p : UserProg α} (h : Replies 1 p) (b : β) :
    Replies 1 (p >>= fun _ => (Prog.ret b : UserProg β)) :=
  h.bind fun _ => .ret b

theorem ldLoad_replies (st : AppStates) (name : List UInt8) : Replies 1 (ldLoad st name) := by
  unfold ldLoad
  refine .ite (reply_then_ret (text_replies (by decide)) st) ?_
  refine (ldFetch_replies name).after fun record => ?_
  cases record with
  | none => exact reply_then_ret (text_replies (by decide)) st
  | some record =>
    refine .ite (reply_then_ret (text_replies (by decide)) st) ?_
    refine .ite (reply_then_ret (ldEmitReject_replies _ _) st) ?_
    exact (ldEvidence_replies name).after fun _ => reply_then_ret (ldReplyName_replies _ _) _

theorem ldRun_replies (st : AppStates) (name : List UInt8) : Replies 1 (ldRun st name) := by
  unfold ldRun
  refine .ite (reply_then_ret (text_replies (by decide)) st) ?_
  refine .ite (reply_then_ret (text_replies (by decide)) st) ?_
  rw [sysTaskStart_bind]
  refine .skip trivial rfl fun (r : Int) => ?_
  refine .ite (reply_then_ret (text_replies (by decide)) st) ?_
  exact reply_then_ret (ldReplyName_replies _ _) _

theorem ldUnload_replies (st : AppStates) (name : List UInt8) : Replies 1 (ldUnload st name) := by
  unfold ldUnload
  refine .ite (reply_then_ret (text_replies (by decide)) st) ?_
  refine .ite (reply_then_ret (text_replies (by decide)) st) ?_
  exact reply_then_ret (ldReplyName_replies _ _) _

theorem ldState_replies (st : AppStates) (name : List UInt8) : Replies 1 (ldState st name) := by
  unfold ldState
  iterate 3 refine .ite (text_replies (by decide)) ?_
  rw [sysInfo_bind]
  refine .skip trivial rfl fun (answer : Filled 16) => ?_
  cases answer.received with
  | none => exact text_replies (by decide)
  | some word =>
    exact .ite (text_replies (by decide))
      (.ite (text_replies (by decide)) (text_replies (by decide)))

theorem ldInfo_replies (name : List UInt8) : Replies 1 (ldInfo name) := by
  unfold ldInfo
  iterate 3 refine .ite (text_replies (by decide)) ?_
  exact text_replies (by decide)

theorem ldRunLegacy_replies (name : List UInt8) : Replies 1 (ldRunLegacy name) := by
  unfold ldRunLegacy
  refine .ite (text_replies (by decide)) ?_
  rw [sysTaskStart_bind]
  refine .skip trivial rfl fun (r : Int) => ?_
  exact .ite (text_replies (by decide)) (text_replies (by decide))

theorem appLoaderHandle_replies (st : AppStates) (req : List UInt8) :
    Replies 1 (appLoaderHandle st req) := by
  unfold appLoaderHandle
  refine .ite (reply_then_ret (text_replies (by decide)) st) ?_
  refine .ite (reply_then_ret (ldInfo_replies _) st) ?_
  refine .ite (reply_then_ret (text_replies (by decide)) st) ?_
  refine .ite (reply_then_ret (ldInfo_replies _) st) ?_
  refine .ite (ldLoad_replies st _) ?_
  refine .ite (ldRun_replies st _) ?_
  refine .ite (ldUnload_replies st _) ?_
  refine .ite (reply_then_ret (ldState_replies st _) st) ?_
  refine .ite (reply_then_ret (ldRunLegacy_replies _) st) ?_
  exact reply_then_ret (text_replies (by decide)) st

/-! ## The network service -/

theorem length_ndCopy {dst src : List UInt8} (h : dst.length ≤ 64) :
    (ndCopy dst src).length ≤ 64 := by
  rw [ndCopy, List.length_append, List.length_take]
  omega

theorem length_ndDec {dst : List UInt8} (h : dst.length ≤ 64) (value : UInt64) :
    (ndDec dst value).length ≤ 64 := by
  unfold ndDec
  split_ifs
  · exact length_ndCopy h
  · exact length_ndCopy h

/-- A bounded question on another capability, and what is done with the answer. -/
theorem ask_replies {α : Type} {n cap : ℕ} {cmd : List UInt8}
    {g : Option (List UInt8) → UserProg α} (hcap : cap ≠ 0) (hcmd : cmd.length ≤ ipcMsgMax)
    (hnone : Replies n (g none))
    (hsome : ∀ text : List UInt8, text.length ≤ 64 → Replies n (g (some text))) :
    Replies n ((sysSend cap cmd >>= fun sent =>
      if sent < 0 then (Prog.ret none : UserProg (Option (List UInt8)))
      else sysRecv cap 64 >>= fun answer => .ret answer.received) >>= g) := by
  have hanswer : ∀ answer : Filled 64, Replies n (g answer.received) := by
    intro answer
    cases htext : answer.received with
    | none => exact hnone
    | some text => exact hsome text (Filled.length_received htext)
  have hshape : ((sysSend cap cmd >>= fun sent =>
      if sent < 0 then (Prog.ret none : UserProg (Option (List UInt8)))
      else sysRecv cap 64 >>= fun answer => .ret answer.received) >>= g) =
      sysSend cap cmd >>= fun sent =>
        if sent < 0 then g none else sysRecv cap 64 >>= fun answer => g answer.received := by
    rw [sysSend_bind, sysSend_bind, call_bind]
    congr 1
    funext sent
    split_ifs
    · rfl
    · rfl
  rw [hshape]
  exact query_replies hcap hcmd hnone hanswer

theorem nsStatus_replies (tx rx : UInt64) : Replies 1 (nsStatus tx rx) := by
  refine reply_replies (Nat.le_trans (length_ndCopy (length_ndDec (length_ndCopy (length_ndDec
    (length_ndCopy ?_) _)) _)) (by decide))
  exact Nat.zero_le 64

theorem nsStats_replies (tx rx : UInt64) : Replies 1 (nsStats tx rx) := by
  refine reply_replies (Nat.le_trans (length_ndDec (length_ndCopy (length_ndDec
    (length_ndCopy ?_) _)) _) (by decide))
  exact Nat.zero_le 64

theorem nsPacketEvents_replies (tx rx : UInt64) : Replies 0 (nsPacketEvents tx rx) :=
  (uwritePtr_replies _).after fun _ => uwritePtr_replies _

theorem nsProbe_replies {answer : UInt64 → UInt64 → UserProg Unit}
    (h : ∀ tx rx, Replies 1 (answer tx rx)) (st : NetState) : Replies 1 (nsProbe st answer) := by
  have hdown : Replies 1 (nsReply (umsg "ERR driver_down")) := text_replies (by decide)
  refine .ite (reply_then_ret hdown st) ?_
  refine ask_replies (by decide) (length_umsg_le (by decide)) (reply_then_ret hdown st)
    fun text _ => ?_
  exact reply_then_ret (h _ _) st

theorem nsSendTest_replies (st : NetState) : Replies 1 (nsSendTest st) := by
  have hdown : Replies 1 (nsReply (umsg "ERR driver_down")) := text_replies (by decide)
  refine .ite (reply_then_ret hdown st) ?_
  refine ask_replies (by decide) (length_umsg_le (by decide)) (reply_then_ret hdown st)
    fun text htext => ?_
  refine .ite (reply_then_ret (text_replies (by decide)) st) ?_
  refine (nsPacketEvents_replies _ _).after fun _ => ?_
  exact reply_then_ret (reply_replies (Nat.le_trans htext (by decide))) _

theorem nsRxCount_replies (st : NetState) : Replies 1 (nsRxCount st) := by
  have hdown : Replies 1 (nsReply (umsg "ERR driver_down")) := text_replies (by decide)
  refine .ite (reply_then_ret hdown st) ?_
  refine ask_replies (by decide) (length_umsg_le (by decide)) (reply_then_ret hdown st)
    fun text htext => ?_
  exact reply_then_ret (reply_replies (Nat.le_trans htext (by decide))) _

theorem nsFault_replies (st : NetState) : Replies 1 (nsFault st) := by
  have hdown : Replies 1 (nsReply (umsg "ERR driver_down")) := text_replies (by decide)
  refine .ite (reply_then_ret hdown st) ?_
  refine ask_replies (by decide) (length_umsg_le (by decide)) (reply_then_ret hdown st)
    fun text htext => ?_
  exact reply_then_ret (reply_replies (Nat.le_trans htext (by decide))) _

theorem nsRestart_replies (st : NetState) : Replies 1 (nsRestart st) := by
  have hdown : Replies 1 (nsReply (umsg "ERR driver_down")) := text_replies (by decide)
  refine ask_replies (by decide) (length_umsg_le (by decide)) (reply_then_ret hdown st)
    fun text htext => ?_
  exact reply_then_ret (reply_replies (Nat.le_trans htext (by decide))) _

theorem netHandle_replies (st : NetState) (req : List UInt8) : Replies 1 (netHandle st req) := by
  refine .ite (nsProbe_replies nsStatus_replies st) ?_
  refine .ite (nsProbe_replies nsStats_replies st) ?_
  refine .ite (nsSendTest_replies st) ?_
  refine .ite (nsRxCount_replies st) ?_
  refine .ite (nsFault_replies st) ?_
  refine .ite (nsRestart_replies st) ?_
  refine (uput_replies _).after fun _ => ?_
  exact reply_then_ret (text_replies (by decide)) st

/-! ## All services -/

/-- A handler makes one reply. -/
theorem ServiceName.handle_replies (n : ServiceName) (s : n.program.State) (req : List UInt8) :
    Replies 1 (n.program.handle s req) := by
  cases n with
  | storage => exact storageHandle_replies req
  | fs => exact fsHandle_replies req
  | appLoader => exact appLoaderHandle_replies s req
  | net => exact netHandle_replies s req

/-- Before its loop a service makes none. -/
theorem ServiceName.start_replies (n : ServiceName) : Replies 0 n.program.start := by
  cases n with
  | storage => exact .ret ()
  | fs => exact .ret ()
  | appLoader => exact .ret _
  | net => exact (uput_replies _).after fun _ => .ret _

end AxiomRT.User
