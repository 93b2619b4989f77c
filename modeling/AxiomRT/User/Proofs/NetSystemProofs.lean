import AxiomRT.User.NetSystem
import AxiomRT.User.Proofs.TextProofs

/-!
# Proofs: the network counters agree

What a request does to the three tasks is found call by call: the driver's commands first, then the
lifecycle requests of the manager, then the requests of the service. The invariant is carried along
runs from there.
-/

namespace AxiomRT.User

open Lib
open Lib.Prog

/-! ## Console output and replies -/

section Output

variable {σ : Type} {step : σ → (c : Call) → c.Answer → σ → Prop}

/-- Console output does not matter to an environment that ignores it. -/
theorem exec_uwritePtr (hstep : ∀ {s bytes r s'}, step s (.conWrite bytes) r s' → s' = s)
    {bytes : List UInt8} {s t : σ} {a : Unit} (h : Exec step (uwritePtr bytes) s a t) : t = s := by
  induction hn : bytes.length using Nat.strong_induction_on generalizing bytes s with
  | _ n ih =>
    rw [uwritePtr] at h
    by_cases hnil : bytes = []
    · rw [if_pos hnil] at h
      exact (exec_ret.mp h).2
    · rw [if_neg hnil, exec_call] at h
      obtain ⟨r, s', hcall, h⟩ := h
      obtain rfl := hstep hcall
      by_cases hr : (r : Int) ≤ 0
      · rw [if_pos hr] at h
        exact (exec_ret.mp h).2
      · rw [if_neg hr] at h
        have hpos := List.length_pos_iff.mpr hnil
        exact ih (bytes.drop 256).length (by rw [List.length_drop]; omega) h rfl

theorem exec_reply {msg : List UInt8} {s t : σ} {a : Unit} :
    Exec step (reply msg) s a t ↔ ∃ r, step s (.send 0 msg) r t := by
  rw [reply, exec_call]
  constructor
  · rintro ⟨r, s', hcall, h⟩
    obtain ⟨-, rfl⟩ := exec_ret.mp h
    exact ⟨r, hcall⟩
  · rintro ⟨r, hcall⟩
    exact ⟨r, t, hcall, .ret _ _⟩

/-- Output first, then a result. -/
theorem exec_then_ret {α : Type} {p : UserProg Unit} {b a : α} {s t : σ} :
    Exec step (p >>= fun _ => pure b) s a t ↔ Exec step p s () t ∧ a = b := by
  rw [exec_bind]
  constructor
  · rintro ⟨_, s', h, hret⟩
    obtain ⟨rfl, rfl⟩ := exec_ret.mp hret
    exact ⟨h, rfl⟩
  · rintro ⟨h, rfl⟩
    exact ⟨(), t, h, .ret _ _⟩

end Output

/-! ## The driver -/

theorem exec_driver_reply {msg : List UInt8} {out out' : Option (List UInt8)} {a : Unit} :
    Exec driverStep (reply msg) out a out' ↔ out' = some msg := by
  rw [exec_reply]
  exact ⟨fun ⟨_, h⟩ => h, fun h => ⟨(0 : Int), h⟩⟩

/-- A command that reads the counters leaves them. -/
theorem driverServes_reads {d d' : DriverTask} {cmd : List UInt8} {out : Option (List UInt8)}
    {p : UserProg Unit}
    (hcmd : netDriverHandle d.counters cmd = p >>= fun _ => pure (some d.counters))
    (h : DriverServes d cmd d' out) : d' = d := by
  obtain ⟨halive, r, hexec, rfl⟩ := h
  rw [hcmd, exec_then_ret] at hexec
  rw [hexec.2]
  cases d
  cases halive
  rfl

theorem driverServes_status {d d' : DriverTask} {out : Option (List UInt8)}
    (h : DriverServes d (umsg "DRV_STATUS") d' out) : d' = d :=
  driverServes_reads (by rw [netDriverHandle, if_pos (by decide)]) h

theorem driverServes_rxCount {d d' : DriverTask} {out : Option (List UInt8)}
    (h : DriverServes d (umsg "DRV_RX_COUNT") d' out) : d' = d :=
  driverServes_reads
    (by rw [netDriverHandle, if_neg (by decide), if_neg (by decide), if_pos (by decide)]) h

/-- The driver's counters are full. -/
def DriverCounters.Full (c : DriverCounters) : Prop := c.tx = u64Max ∨ c.rx = u64Max

/-- `DRV_TX_TEST` counts one packet and says so, unless a counter is full. -/
theorem driverServes_txTest {d d' : DriverTask} {out : Option (List UInt8)}
    (h : DriverServes d (umsg "DRV_TX_TEST") d' out) :
    (d.counters.Full ∧ d'.counters = d.counters ∧ out = some (umsg "ERR too_large")) ∨
    (¬ d.counters.Full ∧ d'.counters = ⟨d.counters.tx + 1, d.counters.rx + 1⟩ ∧
      out = some (umsg "OK sent test_packet bytes=64")) := by
  obtain ⟨-, r, hexec, rfl⟩ := h
  rw [netDriverHandle, if_neg (by decide), if_pos (by decide), exec_bind] at hexec
  obtain ⟨counters, out', hexec, hret⟩ := hexec
  obtain ⟨rfl, rfl⟩ := exec_ret.mp hret
  rw [ndTxTest] at hexec
  by_cases hfull : d.counters.tx = u64Max ∨ d.counters.rx = u64Max
  · rw [if_pos hfull, exec_then_ret, exec_driver_reply] at hexec
    obtain ⟨rfl, rfl⟩ := hexec
    exact .inl ⟨hfull, rfl, rfl⟩
  · rw [if_neg hfull, exec_bind] at hexec
    obtain ⟨_, out'', _, hexec⟩ := hexec
    rw [exec_then_ret, exec_driver_reply] at hexec
    obtain ⟨rfl, rfl⟩ := hexec
    exact .inr ⟨hfull, rfl, rfl⟩

/-- `DRV_FAULT` kills the driver, which keeps its counters. -/
theorem driverServes_fault {d d' : DriverTask} {out : Option (List UInt8)}
    (h : DriverServes d (umsg "DRV_FAULT") d' out) : d'.counters = d.counters := by
  obtain ⟨-, r, hexec, rfl⟩ := h
  rw [netDriverHandle, if_neg (by decide), if_neg (by decide), if_neg (by decide),
    if_pos (by decide)] at hexec
  obtain ⟨rfl, rfl⟩ := exec_ret.mp hexec
  rfl

/-! ## The manager -/

theorem exec_liftUser {α σ : Type} {step : σ → (c : ManagerCall) → c.Answer → σ → Prop}
    {p : UserProg α} {s t : σ} {a : α} :
    Exec step (liftUser p) s a t ↔ Exec (fun s c r s' => step s (.sys c) r s') p s a t := by
  induction p generalizing s with
  | ret b => rw [liftUser, exec_ret, exec_ret]
  | call c next ih =>
    rw [liftUser, exec_call, exec_call]
    constructor
    · rintro ⟨r, s', hstep, h⟩
      exact ⟨r, s', hstep, (ih r).mp h⟩
    · rintro ⟨r, s', hstep, h⟩
      exact ⟨r, s', hstep, (ih r).mpr h⟩

theorem exec_dmReply {msg : List UInt8} {w w' : ManagerWorld} {a : Unit}
    (h : Exec managerStep (dmReply msg) w a w') : w' = { w with out := some msg } := by
  rw [dmReply, exec_liftUser, exec_reply] at h
  exact h.choose_spec

theorem exec_dmPut {text : String} {w w' : ManagerWorld} {a : Unit}
    (h : Exec managerStep (dmPut text) w a w') : w' = w := by
  rw [dmPut, exec_liftUser] at h
  exact exec_uwritePtr (fun h => h) h

/-- The manager answers and is done. -/
theorem exec_dmReply_then {msg : List UInt8} {m m' : ManagerState} {w w' : ManagerWorld}
    (h : Exec managerStep (dmReply msg >>= fun _ => pure m) w m' w') :
    w' = { w with out := some msg } := by
  obtain ⟨_, w'', hreply, hret⟩ := exec_bind.mp h
  obtain ⟨-, rfl⟩ := exec_ret.mp hret
  exact exec_dmReply hreply

/-- The probe touches neither the driver nor the reply. -/
theorem exec_dmProbe {cap rounds : ℕ} {w w' : ManagerWorld} {dead : Bool}
    (h : Exec managerStep (dmProbe cap rounds) w dead w') : w' = w := by
  induction rounds generalizing w with
  | zero => exact (exec_ret.mp h).2
  | succ rounds ih =>
    obtain ⟨_, w₁, hyield, hnext⟩ := exec_call.mp h
    obtain rfl : w₁ = w := hyield
    obtain ⟨r, w₂, hraise, hrest⟩ := exec_call.mp hnext
    obtain rfl : w₂ = w₁ := hraise
    by_cases hr : (r : Int) < 0
    · rw [if_pos hr] at hrest
      exact (exec_ret.mp hrest).2
    · rw [if_neg hr] at hrest
      exact ih hrest

/-- Whatever comes of an injected fault, the counters of the driver stay. -/
theorem managerServes_fault {m m' : ManagerState} {d d' : DriverTask} {out : Option (List UInt8)}
    (h : ManagerServes m d (umsg "NET_MGR_FAULT") m' d' out) : d'.counters = d.counters := by
  rw [ManagerServes, driverManagerHandle, if_pos (by decide), dmNetFault] at h
  by_cases hst : m.netSt ≠ .running
  · rw [if_pos hst] at h
    exact congrArg (fun w => w.driver.counters) (exec_dmReply_then h)
  · rw [if_neg hst] at h
    obtain ⟨sent, w, hsend, h⟩ := exec_bind.mp h
    rw [exec_liftUser, sysSend, exec_call] at hsend
    obtain ⟨r, w₁, hsend, hret⟩ := hsend
    obtain ⟨rfl, rfl⟩ := exec_ret.mp hret
    -- Refused or accepted, the counters are those from before.
    have hcounters : w.driver.counters = d.counters := by
      rcases hsend with ⟨-, rfl⟩ | ⟨-, d₁, out₁, hserves, rfl⟩
      · rfl
      · exact driverServes_fault hserves
    rw [← hcounters]
    by_cases hsent : sent < 0
    · rw [if_pos hsent] at h
      exact congrArg (fun w => w.driver.counters) (exec_dmReply_then h)
    · rw [if_neg hsent] at h
      obtain ⟨dead, w₂, hprobe, hprobed⟩ := exec_bind.mp h
      obtain rfl := exec_dmProbe hprobe
      cases dead with
      | true =>
        rw [if_pos rfl] at hprobed
        obtain ⟨_, w₃, hput, hobserved⟩ := exec_bind.mp hprobed
        obtain rfl := exec_dmPut hput
        obtain ⟨_, w₄, hput', hfaulted⟩ := exec_bind.mp hobserved
        obtain rfl := exec_dmPut hput'
        exact congrArg (fun w => w.driver.counters) (exec_dmReply_then hfaulted)
      | false =>
        rw [if_neg Bool.false_ne_true] at hprobed
        exact congrArg (fun w => w.driver.counters) (exec_dmReply_then hprobed)

/-- A restart is reported as it went: the driver's counters are cleared, or they stay. -/
theorem managerServes_restart {m m' : ManagerState} {d d' : DriverTask}
    {out : Option (List UInt8)} (h : ManagerServes m d (umsg "NET_MGR_RESTART") m' d' out) :
    (out = some (umsg "OK restarted") ∧ d'.counters = ⟨0, 0⟩) ∨
    (out = some (umsg "ERR unsupported") ∧ d'.counters = d.counters) := by
  rw [ManagerServes, driverManagerHandle, if_neg (by decide), if_pos (by decide),
    dmNetRestart] at h
  obtain ⟨restarted, w, hrestart, h⟩ := exec_bind.mp h
  rw [exec_liftUser, sysTaskRestart, exec_call] at hrestart
  obtain ⟨r, w₁, hrestart, hret⟩ := hrestart
  obtain ⟨rfl, rfl⟩ := exec_ret.mp hret
  have hworld : if restarted < 0 then w = ⟨d, none⟩ else w = ⟨⟨⟨0, 0⟩, true⟩, none⟩ := hrestart
  by_cases hneg : restarted < 0
  · rw [if_pos hneg] at h hworld
    subst hworld
    have hend := exec_dmReply_then h
    exact .inr ⟨congrArg ManagerWorld.out hend,
      congrArg (fun w => w.driver.counters) hend⟩
  · rw [if_neg hneg] at h hworld
    subst hworld
    obtain ⟨_, w₂, hput, hrestarted⟩ := exec_bind.mp h
    obtain rfl := exec_dmPut hput
    obtain ⟨_, w₃, hraise, hraised⟩ := exec_call.mp hrestarted
    obtain rfl : w₃ = _ := hraise
    have hend := exec_dmReply_then hraised
    exact .inl ⟨congrArg ManagerWorld.out hend,
      congrArg (fun w => w.driver.counters) hend⟩

/-! ## The service -/

theorem exec_nsReply {msg : List UInt8} {w w' : ServiceWorld} {a : Unit}
    (h : Exec serviceStep (nsReply msg) w a w') : w' = { w with answer := some msg } := by
  rw [nsReply, exec_reply] at h
  exact h.choose_spec

theorem exec_nsEvent {text : List UInt8} {w w' : ServiceWorld} {a : Unit}
    (h : Exec serviceStep (nsEvent text) w a w') : w' = w :=
  exec_uwritePtr (fun h => h) h

/-- The service answers and is done. -/
theorem exec_nsReply_then {msg : List UInt8} {st st' : NetState} {w w' : ServiceWorld}
    (h : Exec serviceStep (nsReply msg >>= fun _ => pure st) w st' w') :
    st' = st ∧ w' = { w with answer := some msg } := by
  rw [exec_then_ret] at h
  exact ⟨h.2, exec_nsReply h.1⟩

theorem received_ok {room : ℕ} {bytes : List UInt8} {fits : bytes.length ≤ room}
    (h : bytes ≠ []) : (Filled.ok bytes fits).received = some bytes := by
  cases bytes with
  | nil => exact absurd rfl h
  | cons b bs => rfl

/-- A command on a capability is refused, or its reply is received there. -/
theorem exec_ask {cap : ℕ} {cmd : List UInt8} {w w' : ServiceWorld} {r : Option (List UInt8)}
    (h : Exec serviceStep (do
      let sent ← sysSend cap cmd
      if sent < 0 then .ret none
      else
        let answer ← sysRecv cap 64
        .ret answer.received) w r w') :
    ∃ (sent : Int) (w₁ : ServiceWorld), serviceStep w (.send cap cmd) sent w₁ ∧
      ((sent < 0 ∧ r = none ∧ w' = w₁) ∨
      (0 ≤ sent ∧ ∃ answer : Filled 64, serviceStep w₁ (.recv cap 64) answer w' ∧
        r = answer.received)) := by
  obtain ⟨sent, w₁, hsend, hsent⟩ := exec_bind.mp h
  obtain ⟨sent', w₂, hstep, hret⟩ := exec_call.mp hsend
  obtain ⟨rfl, rfl⟩ := exec_ret.mp hret
  refine ⟨sent, w₁, hstep, ?_⟩
  by_cases hneg : sent < 0
  · rw [if_pos hneg] at hsent
    obtain ⟨rfl, rfl⟩ := exec_ret.mp hsent
    exact .inl ⟨hneg, rfl, rfl⟩
  · rw [if_neg hneg] at hsent
    obtain ⟨answer, w₃, hrecv, hend⟩ := exec_bind.mp hsent
    obtain ⟨answer', w₄, hstep', hret'⟩ := exec_call.mp hrecv
    obtain ⟨rfl, rfl⟩ := exec_ret.mp hret'
    obtain ⟨rfl, rfl⟩ := exec_ret.mp hend
    exact .inr ⟨Int.not_lt.mp hneg, answer, hstep', rfl⟩

/-- A question to the driver is refused, or the driver serves it and its reply is the result. -/
theorem exec_nsDriver {cmd : List UInt8} {w w' : ServiceWorld} {r : Option (List UInt8)}
    (h : Exec serviceStep (nsDriver cmd) w r w') :
    (r = none ∧ w' = w) ∨ ∃ d text fits, DriverServes w.driver cmd d (some text) ∧
      w' = { w with driver := d, fromDriver := none } ∧
      r = (@Filled.ok 64 (text.take 64) fits).received := by
  obtain ⟨sent, w₁, hsend, hsent⟩ := exec_ask h
  rcases hsend with ⟨hneg, rfl⟩ | ⟨hpos, d, out, hserves, rfl⟩
  · rcases hsent with ⟨-, rfl, rfl⟩ | ⟨hpos, -⟩
    · exact .inl ⟨rfl, rfl⟩
    · exact absurd hneg (Int.not_lt.mpr hpos)
  · rcases hsent with ⟨hneg, -⟩ | ⟨-, answer, ⟨⟨text, fits, rfl, rfl⟩, rfl⟩, rfl⟩
    · exact absurd hneg (Int.not_lt.mpr hpos)
    · exact .inr ⟨d, text, fits, hserves, rfl, rfl⟩

/-- The same for a question to the manager. -/
theorem exec_nsManager {cmd : List UInt8} {w w' : ServiceWorld} {r : Option (List UInt8)}
    (h : Exec serviceStep (nsManager cmd) w r w') :
    (r = none ∧ w' = w) ∨ ∃ m d text fits, ManagerServes w.manager w.driver cmd m d (some text) ∧
      w' = { w with manager := m, driver := d, fromManager := none } ∧
      r = (@Filled.ok 64 (text.take 64) fits).received := by
  obtain ⟨sent, w₁, hsend, hsent⟩ := exec_ask h
  rcases hsend with ⟨hneg, rfl⟩ | ⟨hpos, m, d, out, hserves, rfl⟩
  · rcases hsent with ⟨-, rfl, rfl⟩ | ⟨hpos, -⟩
    · exact .inl ⟨rfl, rfl⟩
    · exact absurd hneg (Int.not_lt.mpr hpos)
  · rcases hsent with ⟨hneg, -⟩ | ⟨-, answer, ⟨⟨text, fits, rfl, rfl⟩, rfl⟩, rfl⟩
    · exact absurd hneg (Int.not_lt.mpr hpos)
    · exact .inr ⟨m, d, text, fits, hserves, rfl, rfl⟩

/-! ### Requests that leave the counters -/

/-- The request changes neither the state of the service nor the counters of the driver. -/
def Keeps (p : UserProg NetState) (st : NetState) (w : ServiceWorld) : Prop :=
  ∀ st' w', Exec serviceStep p w st' w' → st' = st ∧ w'.driver.counters = w.driver.counters

theorem reply_keeps (msg : List UInt8) (st : NetState) (w : ServiceWorld) :
    Keeps (nsReply msg >>= fun _ => pure st) st w := by
  intro st' w' h
  obtain ⟨rfl, rfl⟩ := exec_nsReply_then h
  exact ⟨rfl, rfl⟩

/-- A question to the driver that reads its counters, and an answer to the shell. -/
theorem nsDriver_keeps {cmd : List UInt8} {g : Option (List UInt8) → UserProg NetState}
    {st : NetState} (w : ServiceWorld)
    (hcmd : ∀ {d d' out}, DriverServes d cmd d' out → d' = d) (hg : ∀ r w, Keeps (g r) st w) :
    Keeps (nsDriver cmd >>= g) st w := by
  intro st' w' h
  obtain ⟨r, w₁, hask, h⟩ := exec_bind.mp h
  obtain ⟨hst, hcounters⟩ := hg r w₁ st' w' h
  refine ⟨hst, ?_⟩
  rcases exec_nsDriver hask with ⟨-, rfl⟩ | ⟨d, text, fits, hserves, rfl, -⟩
  · exact hcounters
  · rw [hcounters, hcmd hserves]

theorem nsProbe_keeps (st : NetState) {answer : UInt64 → UInt64 → UserProg Unit}
    (hanswer : ∀ tx rx, ∃ msg, answer tx rx = nsReply msg) (w : ServiceWorld) :
    Keeps (nsProbe st answer) st w := by
  rw [nsProbe]
  by_cases hup : (!st.up) = true
  · rw [if_pos hup]
    exact reply_keeps _ st w
  · rw [if_neg hup]
    refine nsDriver_keeps w driverServes_status ?_
    intro r w
    cases r with
    | none => exact reply_keeps _ st w
    | some text =>
      obtain ⟨msg, hmsg⟩ := hanswer st.tx st.rx
      show Keeps (answer st.tx st.rx >>= fun _ => pure st) st w
      rw [hmsg]
      exact reply_keeps msg st w

theorem nsRxCount_keeps (st : NetState) (w : ServiceWorld) : Keeps (nsRxCount st) st w := by
  rw [nsRxCount]
  by_cases hup : (!st.up) = true
  · rw [if_pos hup]
    exact reply_keeps _ st w
  · rw [if_neg hup]
    refine nsDriver_keeps w driverServes_rxCount ?_
    intro r w
    cases r with
    | none => exact reply_keeps _ st w
    | some text => exact reply_keeps text st w

/-! ### Requests that change them -/

/-- `NET_FAULT` takes the service down or leaves it; the counters of the driver stay. -/
theorem exec_nsFault {st st' : NetState} {w w' : ServiceWorld}
    (h : Exec serviceStep (nsFault st) w st' w') :
    (st' = st ∨ st'.up = false) ∧ w'.driver.counters = w.driver.counters := by
  rw [nsFault] at h
  by_cases hup : (!st.up) = true
  · rw [if_pos hup] at h
    obtain ⟨rfl, rfl⟩ := exec_nsReply_then h
    exact ⟨.inl rfl, rfl⟩
  · rw [if_neg hup] at h
    obtain ⟨r, w₁, hask, h⟩ := exec_bind.mp h
    have hcounters : w₁.driver.counters = w.driver.counters := by
      rcases exec_nsManager hask with ⟨-, rfl⟩ | ⟨m, d, text, fits, hserves, rfl, -⟩
      · rfl
      · exact managerServes_fault hserves
    rw [← hcounters]
    cases r with
    | none =>
      obtain ⟨rfl, rfl⟩ := exec_nsReply_then h
      exact ⟨.inl rfl, rfl⟩
    | some text =>
      obtain ⟨hst, rfl⟩ := exec_nsReply_then h
      refine ⟨?_, rfl⟩
      rw [hst]
      by_cases hok : startsWith text (umsg "OK") = true
      · rw [if_pos hok]
        exact .inr rfl
      · rw [if_neg hok]
        exact .inl rfl

/-- `NET_RESTART` clears all counters and says so, or it leaves them and says something else. -/
theorem exec_nsRestart {st st' : NetState} {w w' : ServiceWorld}
    (h : Exec serviceStep (nsRestart st) w st' w') :
    ∃ msg, w'.answer = some msg ∧
      ((startsWith msg (umsg "OK") = true ∧ st' = ⟨0, 0, true⟩ ∧ w'.driver.counters = ⟨0, 0⟩) ∨
      (startsWith msg (umsg "OK") = false ∧ st' = st ∧
        w'.driver.counters = w.driver.counters)) := by
  rw [nsRestart] at h
  obtain ⟨r, w₁, hask, hasked⟩ := exec_bind.mp h
  rcases exec_nsManager hask with ⟨rfl, rfl⟩ | ⟨m, d, text, fits, hserves, rfl, rfl⟩
  · obtain ⟨rfl, rfl⟩ := exec_nsReply_then hasked
    exact ⟨_, rfl, .inr ⟨by decide, rfl, rfl⟩⟩
  · rcases managerServes_restart hserves with ⟨htext, hcounters⟩ | ⟨htext, hcounters⟩
    · obtain rfl := Option.some.inj htext
      obtain ⟨rfl, rfl⟩ := exec_nsReply_then hasked
      exact ⟨umsg "OK restarted", rfl, .inl ⟨by decide, rfl, hcounters⟩⟩
    · obtain rfl := Option.some.inj htext
      obtain ⟨rfl, rfl⟩ := exec_nsReply_then hasked
      exact ⟨umsg "ERR unsupported", rfl, .inr ⟨by decide, rfl, hcounters⟩⟩

/-- The counter of the service is full. -/
def NetState.Full (st : NetState) : Prop := st.tx = u64Max ∨ st.rx = u64Max

/-- `NET_SEND_TEST` is refused, or both the driver and the service count it, each unless it is full;
the driver's reply is passed on. -/
theorem exec_nsSendTest {st st' : NetState} {w w' : ServiceWorld} (hup : st.up = true)
    (hfull : st.Full ↔ w.driver.counters.Full) (h : Exec serviceStep (nsSendTest st) w st' w') :
    ∃ msg, w'.answer = some msg ∧
      ((startsWith msg (umsg "OK sent") = true ∧ ¬ st.Full ∧
        st' = { st with tx := st.tx + 1, rx := st.rx + 1 } ∧
        w'.driver.counters = ⟨w.driver.counters.tx + 1, w.driver.counters.rx + 1⟩) ∨
      (startsWith msg (umsg "OK sent") = false ∧ st' = st ∧
        w'.driver.counters = w.driver.counters)) := by
  rw [nsSendTest, if_neg (by rw [hup]; decide)] at h
  obtain ⟨r, w₁, hask, hasked⟩ := exec_bind.mp h
  rcases exec_nsDriver hask with ⟨rfl, rfl⟩ | ⟨d, text, fits, hserves, rfl, rfl⟩
  · obtain ⟨rfl, rfl⟩ := exec_nsReply_then hasked
    exact ⟨_, rfl, .inr ⟨by decide, rfl, rfl⟩⟩
  · rcases driverServes_txTest hserves with ⟨hd, hcounters, htext⟩ | ⟨hd, hcounters, htext⟩
    · obtain rfl := Option.some.inj htext
      have hst : st.tx = u64Max ∨ st.rx = u64Max := hfull.mpr hd
      rw [received_ok (by decide)] at hasked
      simp only [if_pos hst] at hasked
      obtain ⟨rfl, rfl⟩ := exec_nsReply_then hasked
      exact ⟨_, rfl, .inr ⟨by decide, rfl, hcounters⟩⟩
    · obtain rfl := Option.some.inj htext
      have hst : ¬ (st.tx = u64Max ∨ st.rx = u64Max) := fun hst => hd (hfull.mp hst)
      rw [received_ok (by decide)] at hasked
      simp only [if_neg hst] at hasked
      obtain ⟨_, w₂, hevents, hcounted⟩ := exec_bind.mp hasked
      obtain ⟨_, w₃, htx, hrx⟩ := exec_bind.mp hevents
      obtain rfl := exec_nsEvent htx
      obtain rfl := exec_nsEvent hrx
      obtain ⟨rfl, rfl⟩ := exec_nsReply_then hcounted
      exact ⟨_, rfl, .inl ⟨by decide, hst, rfl, hcounters⟩⟩

/-! ## Runs -/

/-- The counters of the service and of the driver all count the same `n` packets. -/
structure Agree (st : NetState) (c : DriverCounters) (n : ℕ) : Prop where
  tx : st.tx = c.tx
  rx : st.rx = c.rx
  both : st.tx = st.rx
  count : st.tx.toNat = n

theorem Agree.zero : Agree ⟨0, 0, true⟩ ⟨0, 0⟩ 0 := ⟨rfl, rfl, rfl, rfl⟩

theorem Agree.full_iff {st : NetState} {c : DriverCounters} {n : ℕ} (h : Agree st c n) :
    st.Full ↔ c.Full := by
  rw [NetState.Full, DriverCounters.Full, h.tx, h.rx]

theorem toNat_add_one {v : UInt64} (h : v ≠ u64Max) : (v + 1).toNat = v.toNat + 1 := by
  have hne : v.toNat ≠ u64Max.toNat := fun heq => h (UInt64.toNat_inj.mp heq)
  have hlt := v.toNat_lt
  have hmax : u64Max.toNat = 2 ^ 64 - 1 := rfl
  have hone : (1 : UInt64).toNat = 1 := rfl
  rw [UInt64.toNat_add, hone]
  omega

/-- One more packet. -/
theorem Agree.succ {st : NetState} {c : DriverCounters} {n : ℕ} (h : Agree st c n)
    (hfull : ¬ st.Full) :
    Agree { st with tx := st.tx + 1, rx := st.rx + 1 } ⟨c.tx + 1, c.rx + 1⟩ (n + 1) where
  tx := congrArg (· + 1) h.tx
  rx := congrArg (· + 1) h.rx
  both := congrArg (· + 1) h.both
  count := by
    rw [toNat_add_one (fun heq => hfull (.inl heq)), h.count]

/-- Whenever the service believes the driver up, the counters agree. -/
def Agrees (s : NetSystem) (n : ℕ) : Prop :=
  s.service.up = true → Agree s.service s.driver.counters n

theorem Agrees.kept {s s' : NetSystem} {n : ℕ} (h : Agrees s n)
    (hservice : s'.service = s.service) (hcounters : s'.driver.counters = s.driver.counters) :
    Agrees s' n := by
  intro hup
  rw [hservice] at hup ⊢
  rw [hcounters]
  exact h hup

/-- An exchange of another kind sends nothing and restarts nothing. -/
theorem sentSinceRestart_other {request : List UInt8} {answer : Option (List UInt8)}
    (hsend : eqs request (umsg "NET_SEND_TEST") = false)
    (hrestart : eqs request (umsg "NET_RESTART") = false) (history : List Exchange) :
    sentSinceRestart (⟨request, answer⟩ :: history) = sentSinceRestart history := by
  rw [sentSinceRestart, Exchange.restarted, Exchange.sent, hsend, hrestart]
  rfl

theorem sentSinceRestart_sendTest (answer : List UInt8) (history : List Exchange) :
    sentSinceRestart (⟨umsg "NET_SEND_TEST", some answer⟩ :: history) =
      if startsWith answer (umsg "OK sent") = true then sentSinceRestart history + 1
      else sentSinceRestart history := by
  have hrestart : eqs (umsg "NET_SEND_TEST") (umsg "NET_RESTART") = false := by decide
  have hsend : eqs (umsg "NET_SEND_TEST") (umsg "NET_SEND_TEST") = true := eqs_iff.mpr rfl
  rw [sentSinceRestart, Exchange.restarted, Exchange.sent, hrestart, hsend]
  rfl

theorem sentSinceRestart_restart (answer : List UInt8) (history : List Exchange) :
    sentSinceRestart (⟨umsg "NET_RESTART", some answer⟩ :: history) =
      if startsWith answer (umsg "OK") = true then 0 else sentSinceRestart history := by
  have hrestart : eqs (umsg "NET_RESTART") (umsg "NET_RESTART") = true := eqs_iff.mpr rfl
  have hsend : eqs (umsg "NET_RESTART") (umsg "NET_SEND_TEST") = false := by decide
  rw [sentSinceRestart, Exchange.restarted, Exchange.sent, hrestart, hsend]
  rfl

/-- `NET_SEND_TEST` keeps the agreement. -/
theorem agrees_sendTest {s s' : NetSystem} {answer : List UInt8} {w : ServiceWorld} {n : ℕ}
    (hexec : Exec serviceStep (nsSendTest s.service) ⟨s.manager, s.driver, none, none, none⟩
      s'.service w)
    (hdriver : s'.driver = w.driver) (hanswer : w.answer = some answer) (h : Agrees s n) :
    Agrees s' (if startsWith answer (umsg "OK sent") = true then n + 1 else n) := by
  by_cases hup : s.service.up = true
  · have hag := h hup
    obtain ⟨msg, hmsg, hcases⟩ := exec_nsSendTest hup hag.full_iff hexec
    obtain rfl := Option.some.inj (hmsg.symm.trans hanswer)
    rcases hcases with ⟨hsent, hfull, hservice, hcounters⟩ | ⟨hsent, hservice, hcounters⟩
    · rw [if_pos hsent]
      intro _
      rw [hservice, hdriver, hcounters]
      exact hag.succ hfull
    · rw [if_neg (by rw [hsent]; decide)]
      exact h.kept hservice (by rw [hdriver, hcounters])
  · -- A service that is down answers without asking the driver.
    have hdown : (!s.service.up) = true := by
      rw [Bool.not_eq_true] at hup
      rw [hup]
      rfl
    rw [nsSendTest, if_pos hdown] at hexec
    obtain ⟨hservice, -⟩ := exec_nsReply_then hexec
    intro hup'
    rw [hservice] at hup'
    exact absurd hup' hup

/-- `NET_RESTART` keeps the agreement, whether it succeeds or not. -/
theorem agrees_restart {s s' : NetSystem} {answer : List UInt8} {w : ServiceWorld} {n : ℕ}
    (hexec : Exec serviceStep (nsRestart s.service) ⟨s.manager, s.driver, none, none, none⟩
      s'.service w)
    (hdriver : s'.driver = w.driver) (hanswer : w.answer = some answer) (h : Agrees s n) :
    Agrees s' (if startsWith answer (umsg "OK") = true then 0 else n) := by
  obtain ⟨msg, hmsg, hcases⟩ := exec_nsRestart hexec
  obtain rfl := Option.some.inj (hmsg.symm.trans hanswer)
  rcases hcases with ⟨hok, hservice, hcounters⟩ | ⟨hok, hservice, hcounters⟩
  · rw [if_pos hok]
    intro _
    rw [hservice, hdriver, hcounters]
    exact .zero
  · rw [if_neg (by rw [hok]; decide)]
    exact h.kept hservice (by rw [hdriver, hcounters])

/-- One request: the agreement is kept, with the count of the longer history. -/
theorem NetServes.agrees {s s' : NetSystem} {request answer : List UInt8}
    {history : List Exchange} (hserves : NetServes s request s' answer)
    (h : Agrees s (sentSinceRestart history)) :
    Agrees s' (sentSinceRestart (⟨request, some answer⟩ :: history)) := by
  obtain ⟨w, hexec, -, hdriver, hanswer⟩ := hserves
  -- What keeps the counters keeps the agreement, if the request is of another kind.
  have hother : ∀ {p : UserProg NetState}, (∀ w, Keeps p s.service w) →
      eqs request (umsg "NET_SEND_TEST") = false → eqs request (umsg "NET_RESTART") = false →
      netHandle s.service request = p →
      Agrees s' (sentSinceRestart (⟨request, some answer⟩ :: history)) := by
    intro p hkeeps hsend hrestart hp
    rw [hp] at hexec
    obtain ⟨hservice, hcounters⟩ := hkeeps _ _ _ hexec
    rw [sentSinceRestart_other hsend hrestart]
    exact h.kept hservice (by rw [hdriver, hcounters])
  by_cases hstatus : eqs request (umsg "NET_STATUS") = true
  · obtain rfl := eqs_iff.mp hstatus
    exact hother (@nsProbe_keeps s.service nsStatus fun tx rx => ⟨_, rfl⟩) (by decide) (by decide)
      (by rw [netHandle, if_pos hstatus])
  by_cases hstats : eqs request (umsg "NET_STATS") = true
  · obtain rfl := eqs_iff.mp hstats
    exact hother (@nsProbe_keeps s.service nsStats fun tx rx => ⟨_, rfl⟩) (by decide) (by decide)
      (by rw [netHandle, if_neg hstatus, if_pos hstats])
  by_cases hsend : eqs request (umsg "NET_SEND_TEST") = true
  · obtain rfl := eqs_iff.mp hsend
    rw [netHandle, if_neg hstatus, if_neg hstats, if_pos hsend] at hexec
    rw [sentSinceRestart_sendTest]
    exact agrees_sendTest hexec hdriver hanswer h
  by_cases hrx : eqs request (umsg "NET_RX_COUNT") = true
  · obtain rfl := eqs_iff.mp hrx
    exact hother (nsRxCount_keeps s.service) (by decide) (by decide)
      (by rw [netHandle, if_neg hstatus, if_neg hstats, if_neg hsend, if_pos hrx])
  by_cases hfault : eqs request (umsg "NET_FAULT") = true
  · obtain rfl := eqs_iff.mp hfault
    rw [netHandle, if_neg hstatus, if_neg hstats, if_neg hsend, if_neg hrx,
      if_pos hfault] at hexec
    rw [sentSinceRestart_other (by decide) (by decide)]
    obtain ⟨hservice | hdown, hcounters⟩ := exec_nsFault hexec
    · exact h.kept hservice (by rw [hdriver, hcounters])
    · intro hup
      rw [hdown] at hup
      cases hup
  by_cases hrestart : eqs request (umsg "NET_RESTART") = true
  · obtain rfl := eqs_iff.mp hrestart
    rw [netHandle, if_neg hstatus, if_neg hstats, if_neg hsend, if_neg hrx, if_neg hfault,
      if_pos hrestart] at hexec
    rw [sentSinceRestart_restart]
    exact agrees_restart hexec hdriver hanswer h
  · rw [netHandle, if_neg hstatus, if_neg hstats, if_neg hsend, if_neg hrx, if_neg hfault,
      if_neg hrestart] at hexec
    rw [sentSinceRestart_other (Bool.not_eq_true _ ▸ hsend) (Bool.not_eq_true _ ▸ hrestart)]
    obtain ⟨_, w₁, hput, hreply⟩ := exec_bind.mp hexec
    obtain rfl := exec_uwritePtr (fun h => h) hput
    obtain ⟨hservice, rfl⟩ := exec_nsReply_then hreply
    exact h.kept hservice (by rw [hdriver])

/-- Along every run. -/
theorem NetRun.agrees {boot s : NetSystem} {history : List Exchange} (hboot : boot.Boot)
    (hrun : NetRun boot history s) : Agrees s (sentSinceRestart history) := by
  induction hrun with
  | start =>
    intro _
    rw [hboot.1, hboot.2]
    exact .zero
  | empty h ih =>
    rw [sentSinceRestart_other (by decide) (by decide)]
    exact ih
  | served h hrequest hserves ih => exact hserves.agrees ih

/-- Whatever is requested of the network service from boot on: whenever it believes the driver up,
its two counters, the two counters of the driver and the number of packets it has reported sent
since boot or the last successful restart are one number. -/
theorem netCounters_agree {boot s : NetSystem} {history : List Exchange} (hboot : boot.Boot)
    (hrun : NetRun boot history s) (hup : s.service.up = true) :
    s.service.tx.toNat = sentSinceRestart history ∧
      s.service.rx.toNat = sentSinceRestart history ∧
      s.driver.counters.tx.toNat = sentSinceRestart history ∧
      s.driver.counters.rx.toNat = sentSinceRestart history := by
  have h := hrun.agrees hboot hup
  refine ⟨h.count, ?_, ?_, ?_⟩
  · rw [← h.both, h.count]
  · rw [← h.tx, h.count]
  · rw [← h.rx, ← h.both, h.count]

/-! ### A run that sends one packet -/

/-- All three tasks are up. -/
def netBoot : NetSystem := ⟨⟨0, 0, true⟩, ⟨.running, .running⟩, ⟨⟨0, 0⟩, true⟩⟩

/-- One packet has been sent and come back. -/
def netAfterSend : NetSystem := ⟨⟨1, 1, true⟩, ⟨.running, .running⟩, ⟨⟨1, 1⟩, true⟩⟩

theorem exec_put {σ : Type} {step : σ → (c : Call) → c.Answer → σ → Prop}
    (hstep : ∀ s bytes r, step s (.conWrite bytes) r s) (bytes : List UInt8) (s : σ) :
    Exec step (uwritePtr bytes) s () s := by
  rw [uwritePtr]
  by_cases hnil : bytes = []
  · rw [if_pos hnil]
    exact .ret _ _
  · rw [if_neg hnil]
    exact .call (0 : Int) (hstep s _ _) (.ret _ _)

theorem netBoot_driverServes :
    DriverServes netBoot.driver (umsg "DRV_TX_TEST") netAfterSend.driver
      (some (umsg "OK sent test_packet bytes=64")) := by
  refine ⟨rfl, some ⟨1, 1⟩, ?_, rfl⟩
  rw [netDriverHandle, if_neg (by decide), if_pos (by decide)]
  refine exec_bind.mpr ⟨⟨1, 1⟩, _, ?_, .ret _ _⟩
  rw [ndTxTest, if_neg (by decide)]
  refine exec_bind.mpr ⟨(), _, exec_put (fun _ _ _ => rfl) _ _, ?_⟩
  exact exec_then_ret.mpr ⟨exec_driver_reply.mpr rfl, rfl⟩

theorem netBoot_netServes :
    NetServes netBoot (umsg "NET_SEND_TEST") netAfterSend
      (umsg "OK sent test_packet bytes=64") := by
  refine ⟨⟨netAfterSend.manager, netAfterSend.driver, none, none,
    some (umsg "OK sent test_packet bytes=64")⟩, ?_, rfl, rfl, rfl⟩
  rw [netHandle, if_neg (by decide), if_neg (by decide), if_pos (by decide), nsSendTest,
    if_neg (by decide)]
  refine exec_bind.mpr ⟨some (umsg "OK sent test_packet bytes=64"),
    ⟨netBoot.manager, netAfterSend.driver, none, none, none⟩, ?_, ?_⟩
  · refine exec_bind.mpr ⟨(0 : Int), ⟨netBoot.manager, netAfterSend.driver,
      some (umsg "OK sent test_packet bytes=64"), none, none⟩, ?_, ?_⟩
    · exact .call (0 : Int) (.inr ⟨by decide, _, _, netBoot_driverServes, rfl⟩) (.ret _ _)
    · refine exec_bind.mpr ⟨.ok ((umsg "OK sent test_packet bytes=64").take 64) (by decide),
        _, .call _ ⟨⟨_, by decide, rfl, rfl⟩, rfl⟩ (.ret _ _), ?_⟩
      exact .ret _ _
  · refine exec_bind.mpr ⟨(), ⟨netBoot.manager, netAfterSend.driver, none, none, none⟩, ?_,
      exec_then_ret.mpr ⟨exec_reply.mpr ⟨(0 : Int), rfl⟩, rfl⟩⟩
    exact exec_bind.mpr ⟨(), _, exec_put (fun _ _ _ => rfl) _ _, exec_put (fun _ _ _ => rfl) _ _⟩

theorem netCounters_agree_send :
    netBoot.Boot ∧ netAfterSend.service.up = true ∧
    netAfterSend.driver.counters.tx.toNat =
      sentSinceRestart [⟨umsg "NET_SEND_TEST", some (umsg "OK sent test_packet bytes=64")⟩] := by
  have hboot : netBoot.Boot := ⟨rfl, rfl⟩
  have hrun : NetRun netBoot
      [⟨umsg "NET_SEND_TEST", some (umsg "OK sent test_packet bytes=64")⟩] netAfterSend :=
    .served .start (by decide) netBoot_netServes
  exact ⟨hboot, rfl, (netCounters_agree hboot hrun rfl).2.2.1⟩

end AxiomRT.User
