import AxiomRT.User.Loader
import AxiomRT.User.Proofs.CallProofs
import AxiomRT.User.Proofs.ImageProofs

/-!
# Proofs: the loader state machine

What the loader does over any sequence of requests, whatever the file service and the kernel answer.
One handled request is a path of the handler; a history is a sequence of handled requests, each one
started in the state the one before it has left.
-/

namespace AxiomRT.User

open Lib Prog

/-! ## Histories -/

/-- The calls of a run and their answers. -/
abbrev CallTrace : Type := Trace Call Call.Answer

/-- The run sends `msg` on capability 0. -/
def Answered (tr : CallTrace) (msg : List UInt8) : Prop := ∃ ev ∈ tr, ev.1 = .send 0 msg

/-- One handled request. -/
structure Handled where
  req : List UInt8
  trace : CallTrace

/-- An `APP_LOAD` of `name` that got a valid record. -/
def Handled.Loads (h : Handled) (name : List UInt8) : Prop :=
  h.req = umsg "APP_LOAD " ++ name ∧ ∃ record fits,
    (⟨.recv 2 64, .ok record fits⟩ : (c : Call) × c.Answer) ∈ h.trace ∧ ldValidate record name = 0

/-- An `APP_UNLOAD` of `name` that is answered `OK`. -/
def Handled.Unloads (h : Handled) (name : List UInt8) : Prop :=
  h.req = umsg "APP_UNLOAD " ++ name ∧
    ∃ msg, Answered h.trace msg ∧ startsWith msg (umsg "OK") = true

/-- The requests handled from state `st₀` on, and the state they have led to. -/
inductive LoaderRun (st₀ : AppStates) : List Handled → AppStates → Prop
  | start : LoaderRun st₀ [] st₀
  | next {hist : List Handled} {st st' : AppStates} {req : List UInt8} {tr : CallTrace}
      (run : LoaderRun st₀ hist st) (path : Path (appLoaderHandle st req) tr st') :
      LoaderRun st₀ (hist ++ [⟨req, tr⟩]) st'

/-- The history has loaded a valid image of `name` and not unloaded it since. -/
def LoadedSince (hist : List Handled) (name : List UInt8) : Prop :=
  ∃ before load later, hist = before ++ load :: later ∧ load.Loads name ∧
    ∀ u ∈ later, ¬ u.Unloads name

/-- The message reports an error. -/
def isErrorReply (msg : List UInt8) : Bool :=
  startsWith msg (umsg "ERR") || eqs msg (umsg "error: cannot start") ||
    eqs msg (umsg "unknown app") || eqs msg (umsg "unknown app command")

/-- What holds of the loader after a history. -/
structure LoaderSafe (hist : List Handled) (st : AppStates) : Prop where
  states : ∀ id < 3, st.bytes id = 0 ∨ st.bytes id = 1 ∨ st.bytes id = 2
  indexes : ∀ id ∈ st.writes, id < 3
  runs : ∀ name, (appLoaderHandle st (umsg "APP_RUN " ++ name)).Only fun c =>
    ∀ idx, c = .taskStart idx → LoadedSince hist name
  errors : ∀ req tr st', Path (appLoaderHandle st req) tr st' →
    (∃ msg, Answered tr msg ∧ isErrorReply msg = true) → st'.bytes = st.bytes

/-! ## App ids -/

/-- The names of the runnable apps. -/
theorem ldAppId_ne_max {name : List UInt8} (h : ldAppId name ≠ u64Max) :
    (name = umsg "hello" ∧ ldAppId name = 0) ∨ (name = umsg "counter" ∧ ldAppId name = 1) ∨
      (name = umsg "fault_demo" ∧ ldAppId name = 2) := by
  unfold ldAppId at h ⊢
  simp only [eqs_iff] at h ⊢
  split_ifs at h ⊢ with h0 h1 h2
  · exact Or.inl ⟨h0, rfl⟩
  · exact Or.inr (Or.inl ⟨h1, rfl⟩)
  · exact Or.inr (Or.inr ⟨h2, rfl⟩)
  · exact absurd rfl h

theorem ldAppId_lt {name : List UInt8} (h : ldAppId name ≠ u64Max) : ldAppId name < 3 := by
  rcases ldAppId_ne_max h with ⟨-, he⟩ | ⟨-, he⟩ | ⟨-, he⟩ <;> rw [he] <;> decide

/-- The id tells the app. -/
theorem getElem?_ldAppId {name : List UInt8} (h : ldAppId name ≠ u64Max) :
    [umsg "hello", umsg "counter", umsg "fault_demo"][(ldAppId name).toNat]? = some name := by
  rcases ldAppId_ne_max h with ⟨rfl, he⟩ | ⟨rfl, he⟩ | ⟨rfl, he⟩
  · rw [he]
    rfl
  · rw [he]
    rfl
  · rw [he]
    rfl

theorem ldAppId_inj {name name' : List UInt8} (h : ldAppId name ≠ u64Max)
    (heq : ldAppId name = ldAppId name') : name = name' := by
  have hname := getElem?_ldAppId h
  have hname' := getElem?_ldAppId (heq ▸ h)
  rw [heq] at hname
  exact Option.some.inj (hname.symm.trans hname')

/-- The validator knows only runnable apps. -/
theorem ldAppId_of_valid {record name : List UInt8} (h : ldValidate record name = 0) :
    ldAppId name ≠ u64Max := by
  rcases ldPolicy_eq_zero.mp (ldValidate_eq_zero.mp h).policy with
    ⟨rfl | rfl, -⟩ | ⟨rfl, -⟩ <;> decide

/-! ## Requests by their first word -/

theorem after_append (word rest : List UInt8) : after (word ++ rest) word = rest := List.drop_left

theorem appLoaderHandle_load (st : AppStates) (name : List UInt8) :
    appLoaderHandle st (umsg "APP_LOAD " ++ name) = ldLoad st name := by
  rw [appLoaderHandle, eqs_append_ne (by decide), startsWith_append_ne (by decide),
    eqs_append_ne (by decide), startsWith_append_ne (by decide), startsWith_append, after_append]
  rfl

theorem appLoaderHandle_run (st : AppStates) (name : List UInt8) :
    appLoaderHandle st (umsg "APP_RUN " ++ name) = ldRun st name := by
  rw [appLoaderHandle, eqs_append_ne (by decide), startsWith_append_ne (by decide),
    eqs_append_ne (by decide), startsWith_append_ne (by decide), startsWith_append_ne (by decide),
    startsWith_append, after_append]
  rfl

theorem appLoaderHandle_unload (st : AppStates) (name : List UInt8) :
    appLoaderHandle st (umsg "APP_UNLOAD " ++ name) = ldUnload st name := by
  rw [appLoaderHandle, eqs_append_ne (by decide), startsWith_append_ne (by decide),
    eqs_append_ne (by decide), startsWith_append_ne (by decide), startsWith_append_ne (by decide),
    startsWith_append_ne (by decide), startsWith_append, after_append]
  rfl

/-- The other requests leave the states alone. -/
theorem appLoaderHandle_other {req : List UInt8} (hload : startsWith req (umsg "APP_LOAD ") = false)
    (hrun : startsWith req (umsg "APP_RUN ") = false)
    (hunload : startsWith req (umsg "APP_UNLOAD ") = false) (st : AppStates) :
    ∃ p : UserProg Unit, appLoaderHandle st req = p >>= fun _ => .ret st := by
  unfold appLoaderHandle
  simp only [hload, hrun, hunload, Bool.false_eq_true, if_false]
  split_ifs <;> exact ⟨_, rfl⟩

/-! ## One request -/

/-- Every reply of the run reports success. -/
def RepliesOk (tr : CallTrace) : Prop := ∀ msg, Answered tr msg → startsWith msg (umsg "OK") = true

/-- What a handled request does to the states. -/
inductive LoaderStep (st : AppStates) (h : Handled) : AppStates → Prop
  /-- Nothing is written. -/
  | idle (kept : ∀ name, ¬ h.Unloads name) : LoaderStep st h st
  | load {name : List UInt8} (loads : h.Loads name) (ok : RepliesOk h.trace) :
      LoaderStep st h (st.write (ldAppId name) 1)
  | run {name : List UInt8} (req : h.req = umsg "APP_RUN " ++ name) (known : ldAppId name ≠ u64Max)
      (loaded : st.bytes (ldAppId name) ≠ 0) (ok : RepliesOk h.trace) :
      LoaderStep st h (st.write (ldAppId name) 2)
  | unload {name : List UInt8} (req : h.req = umsg "APP_UNLOAD " ++ name)
      (known : ldAppId name ≠ u64Max) (ok : RepliesOk h.trace) :
      LoaderStep st h (st.write (ldAppId name) 0)

theorem RepliesOk.of_only {α : Type} {p : UserProg α} {tr : CallTrace} {a : α} (h : Path p tr a)
    (hp : p.Only fun c => ∀ msg, c = .send 0 msg → startsWith msg (umsg "OK") = true) :
    RepliesOk tr := by
  rintro msg ⟨ev, hev, hmsg⟩
  exact h.only hp ev hev msg hmsg

theorem RepliesOk.append {tr tr' : CallTrace} (h : RepliesOk tr) (h' : RepliesOk tr') :
    RepliesOk (tr ++ tr') := by
  rintro msg ⟨ev, hev, hmsg⟩
  rcases List.mem_append.mp hev with hev | hev
  · exact h msg ⟨ev, hev, hmsg⟩
  · exact h' msg ⟨ev, hev, hmsg⟩

/-- A successful reply names the app behind its word. -/
theorem ldReplyName_ok {word : List UInt8} (hword : startsWith word (umsg "OK") = true)
    (hlen : word.length ≤ 63) (name : List UInt8) :
    (ldReplyName word name).Only fun c =>
      ∀ msg, c = .send 0 msg → startsWith msg (umsg "OK") = true := by
  refine reply_only ?_
  rintro msg hmsg
  obtain ⟨rest, rfl⟩ := startsWith_iff.mp hword
  cases hmsg
  rw [ldAppend, ldAppend, List.nil_append, List.take_of_length_le (by simpa using hlen),
    List.append_assoc]
  exact startsWith_append _ _

theorem ldFetch_quiet (name : List UInt8) :
    (ldFetch name).Only fun c => ∀ msg, c = .send 0 msg → startsWith msg (umsg "OK") = true := by
  unfold ldFetch
  split_ifs
  · exact .ret _
  · rw [sysSend_bind]
    refine ⟨fun msg h => (by cases h), fun (sent : Int) => ?_⟩
    dsimp only
    split_ifs
    · exact .ret _
    · rw [sysRecv_bind]
      refine ⟨fun msg h => (by cases h), fun answer => ?_⟩
      dsimp only
      split
      · exact .ret _
      · split_ifs
        · exact .ret _
        · exact .ret _

/-- The record that is fetched is one that was received. -/
theorem ldFetch_path {name : List UInt8} {tr : CallTrace} {record : List UInt8}
    (h : Path (ldFetch name) tr (some record)) :
    ∃ fits, (⟨.recv 2 64, .ok record fits⟩ : (c : Call) × c.Answer) ∈ tr := by
  unfold ldFetch at h
  split_ifs at h
  · cases (path_ret.mp h).2
  · rw [sysSend_bind] at h
    obtain ⟨sent, tr', rfl, hsent⟩ := path_call.mp h
    split_ifs at hsent
    · cases (path_ret.mp hsent).2
    · rw [sysRecv_bind] at hsent
      obtain ⟨answer, tr'', rfl, hrecv⟩ := path_call.mp hsent
      cases answer with
      | error code neg => cases (path_ret.mp hrecv).2
      | ok bytes fits =>
        cases bytes with
        | nil => cases (path_ret.mp hrecv).2
        | cons b bs =>
          simp only [Filled.received] at hrecv
          split_ifs at hrecv
          · cases (path_ret.mp hrecv).2
          · obtain rfl : record = b :: bs := Option.some.inj (path_ret.mp hrecv).2
            exact ⟨fits, by simp⟩

theorem ldEvidence_only {P : Call → Prop} (hP : ∀ bytes, P (.conWrite bytes)) (name : List UInt8) :
    (ldEvidence name).Only P :=
  (uput_only hP _).bind fun _ => (uwritePtr_only hP _).bind fun _ => (uput_only hP _).bind fun _ =>
    (uwritePtr_only hP _).bind fun _ => (uput_only hP _).bind fun _ => uput_only hP _

/-- A request that is not an `APP_UNLOAD` unloads nothing. -/
theorem not_unloads {word rest : List UInt8} (tr : CallTrace)
    (hne : word.take (umsg "APP_UNLOAD ").length ≠ (umsg "APP_UNLOAD ").take word.length)
    (name : List UInt8) : ¬ (⟨word ++ rest, tr⟩ : Handled).Unloads name := by
  rintro ⟨hreq, -⟩
  have hstart := startsWith_append (umsg "APP_UNLOAD ") name
  rw [← hreq, startsWith_append_ne hne] at hstart
  cases hstart

theorem ldLoad_step {st st' : AppStates} {name : List UInt8} {tr : CallTrace}
    (h : Path (ldLoad st name) tr st') :
    LoaderStep st ⟨umsg "APP_LOAD " ++ name, tr⟩ st' := by
  have hkept : ∀ other, ¬ (⟨umsg "APP_LOAD " ++ name, tr⟩ : Handled).Unloads other :=
    not_unloads tr (by decide)
  unfold ldLoad at h
  dsimp only at h
  split_ifs at h with hbusy
  · obtain rfl := path_then_ret h
    exact .idle hkept
  · obtain ⟨tr₁, tr₂, answer, rfl, hfetch, h⟩ := path_bind.mp h
    cases answer with
    | none =>
      obtain rfl := path_then_ret h
      exact .idle hkept
    | some record =>
      dsimp only at h
      split_ifs at h with hunknown hcode
      · obtain rfl := path_then_ret h
        exact .idle hkept
      · obtain rfl := path_then_ret h
        exact .idle hkept
      · obtain ⟨fits, hrecv⟩ := ldFetch_path hfetch
        have hok : RepliesOk tr₂ := RepliesOk.of_only h
          ((ldEvidence_only (fun _ _ hc => by cases hc) name).bind fun _ =>
            (ldReplyName_ok (by decide) (by decide) name).bind fun _ => .ret _)
        obtain ⟨tr₃, tr₄, -, rfl, -, hlast⟩ := path_bind.mp h
        obtain rfl := path_then_ret hlast
        refine .load ⟨rfl, record, fits, List.mem_append_left _ hrecv, not_not.mp hcode⟩ ?_
        exact (RepliesOk.of_only hfetch (ldFetch_quiet name)).append hok

theorem ldRun_step {st st' : AppStates} {name : List UInt8} {tr : CallTrace}
    (h : Path (ldRun st name) tr st') : LoaderStep st ⟨umsg "APP_RUN " ++ name, tr⟩ st' := by
  have hkept : ∀ other, ¬ (⟨umsg "APP_RUN " ++ name, tr⟩ : Handled).Unloads other :=
    not_unloads tr (by decide)
  unfold ldRun at h
  dsimp only at h
  split_ifs at h with hunknown hidle
  · obtain rfl := path_then_ret h
    exact .idle hkept
  · obtain rfl := path_then_ret h
    exact .idle hkept
  · rw [sysTaskStart_bind] at h
    obtain ⟨r, tr', rfl, hstart⟩ := path_call.mp h
    split_ifs at hstart
    · obtain rfl := path_then_ret hstart
      exact .idle hkept
    · have hok : RepliesOk tr' := RepliesOk.of_only hstart
        ((ldReplyName_ok (by decide) (by decide) name).bind fun _ => .ret _)
      obtain rfl := path_then_ret hstart
      refine .run rfl hunknown hidle ?_
      rintro msg ⟨ev, hev, hmsg⟩
      rcases List.mem_cons.mp hev with rfl | hev
      · cases hmsg
      · exact hok msg ⟨ev, hev, hmsg⟩

/-- A refused `APP_UNLOAD` is not answered `OK`. -/
theorem not_unloads_of_reply {st st' : AppStates} {msg : List UInt8} {tr : CallTrace}
    (req : List UInt8) (h : Path (appReply msg >>= fun _ => ret st) tr st')
    (hmsg : startsWith msg (umsg "OK") = false) (name : List UInt8) :
    ¬ (⟨req, tr⟩ : Handled).Unloads name := by
  rintro ⟨-, answer, ⟨ev, hev, hsend⟩, hok⟩
  have honly : (appReply msg >>= fun _ => ret st).Only fun c =>
      ∀ m, c = .send 0 m → startsWith m (umsg "OK") = false := by
    refine (reply_only ?_).bind fun _ => .ret _
    intro m hm
    cases hm
    exact hmsg
  rw [h.only honly ev hev answer hsend] at hok
  cases hok

theorem ldUnload_step {st st' : AppStates} {name : List UInt8} {tr : CallTrace}
    (h : Path (ldUnload st name) tr st') : LoaderStep st ⟨umsg "APP_UNLOAD " ++ name, tr⟩ st' := by
  unfold ldUnload at h
  dsimp only at h
  split_ifs at h with hunknown hidle
  · have hkept := not_unloads_of_reply (umsg "APP_UNLOAD " ++ name) h (by decide)
    obtain rfl := path_then_ret h
    exact .idle hkept
  · have hkept := not_unloads_of_reply (umsg "APP_UNLOAD " ++ name) h (by decide)
    obtain rfl := path_then_ret h
    exact .idle hkept
  · have hok : RepliesOk tr := RepliesOk.of_only h
      ((ldReplyName_ok (by decide) (by decide) name).bind fun _ => .ret _)
    obtain rfl := path_then_ret h
    exact .unload rfl hunknown hok

/-- Every handled request is one of these steps. -/
theorem appLoaderHandle_step {st st' : AppStates} {req : List UInt8} {tr : CallTrace}
    (h : Path (appLoaderHandle st req) tr st') : LoaderStep st ⟨req, tr⟩ st' := by
  by_cases hload : startsWith req (umsg "APP_LOAD ") = true
  · obtain ⟨name, rfl⟩ := startsWith_iff.mp hload
    rw [appLoaderHandle_load] at h
    exact ldLoad_step h
  by_cases hrun : startsWith req (umsg "APP_RUN ") = true
  · obtain ⟨name, rfl⟩ := startsWith_iff.mp hrun
    rw [appLoaderHandle_run] at h
    exact ldRun_step h
  by_cases hunload : startsWith req (umsg "APP_UNLOAD ") = true
  · obtain ⟨name, rfl⟩ := startsWith_iff.mp hunload
    rw [appLoaderHandle_unload] at h
    exact ldUnload_step h
  · obtain ⟨p, hp⟩ := appLoaderHandle_other (Bool.eq_false_iff.mpr hload)
      (Bool.eq_false_iff.mpr hrun) (Bool.eq_false_iff.mpr hunload) st
    rw [hp] at h
    obtain rfl := path_then_ret h
    refine .idle fun name hname => hunload ?_
    have hreq : req = umsg "APP_UNLOAD " ++ name := hname.1
    rw [hreq]
    exact startsWith_append _ _

/-! ## Whole histories -/

theorem Handled.Loads.since {h : Handled} {name : List UInt8} (hl : h.Loads name)
    (hist : List Handled) : LoadedSince (hist ++ [h]) name :=
  ⟨hist, h, [], rfl, hl, by simp⟩

theorem LoadedSince.snoc {hist : List Handled} {name : List UInt8} (hs : LoadedSince hist name)
    {h : Handled} (hu : ¬ h.Unloads name) : LoadedSince (hist ++ [h]) name := by
  obtain ⟨before, load, later, rfl, hload, hlater⟩ := hs
  refine ⟨before, load, later ++ [h], by simp, hload, ?_⟩
  intro u hmem
  rcases List.mem_append.mp hmem with hmem | hmem
  · exact hlater u hmem
  · rw [List.mem_singleton.mp hmem]
    exact hu

/-- The invariant: a state byte tells what the history has done for its app. -/
structure LoaderInv (hist : List Handled) (st : AppStates) : Prop where
  states : ∀ id < 3, st.bytes id = 0 ∨ st.bytes id = 1 ∨ st.bytes id = 2
  indexes : ∀ id ∈ st.writes, id < 3
  loaded : ∀ name, ldAppId name ≠ u64Max → st.bytes (ldAppId name) ≠ 0 → LoadedSince hist name

/-- Writing one state byte keeps the invariant, if the history accounts for the new value. -/
theorem LoaderInv.write {hist hist' : List Handled} {st : AppStates} (hi : LoaderInv hist st)
    {name : List UInt8} {v : UInt8} (hv : v = 0 ∨ v = 1 ∨ v = 2) (hid : ldAppId name ≠ u64Max)
    (hsame : v ≠ 0 → LoadedSince hist' name)
    (hother : ∀ other, other ≠ name → LoadedSince hist other → LoadedSince hist' other) :
    LoaderInv hist' (st.write (ldAppId name) v) := by
  constructor
  case states =>
    intro id hlt
    show Function.update st.bytes _ _ _ = 0 ∨ _
    by_cases heq : id = ldAppId name
    · subst heq
      simpa [AppStates.write] using hv
    · simpa [AppStates.write, heq] using hi.states id hlt
  case indexes =>
    intro id hmem
    rcases List.mem_append.mp hmem with hmem | hmem
    · exact hi.indexes id hmem
    · rw [List.mem_singleton.mp hmem]
      exact ldAppId_lt hid
  case loaded =>
    intro other hother' hbyte
    by_cases heq : ldAppId other = ldAppId name
    · obtain rfl := ldAppId_inj hother' heq
      exact hsame (by simpa [AppStates.write] using hbyte)
    · have hbyte' : st.bytes (ldAppId other) ≠ 0 := by simpa [AppStates.write, heq] using hbyte
      exact hother other (fun h => heq (by rw [h])) (hi.loaded other hother' hbyte')

theorem LoaderInv.step {hist : List Handled} {st st' : AppStates} {h : Handled}
    (hi : LoaderInv hist st) (hstep : LoaderStep st h st') : LoaderInv (hist ++ [h]) st' := by
  cases hstep with
  | idle kept =>
    exact ⟨hi.states, hi.indexes, fun name hid hbyte => (hi.loaded name hid hbyte).snoc (kept name)⟩
  | @load name loads ok =>
    obtain ⟨hreq, record, fits, hrecv, hvalid⟩ := loads
    have hkept : ∀ other, ¬ h.Unloads other := by
      obtain ⟨req, tr⟩ := h
      obtain rfl : req = _ := hreq
      exact not_unloads tr (by decide)
    refine hi.write (Or.inr (Or.inl rfl)) (ldAppId_of_valid hvalid) (fun _ => ?_)
      fun other _ hs => hs.snoc (hkept other)
    exact Handled.Loads.since ⟨hreq, record, fits, hrecv, hvalid⟩ hist
  | @run name req known loaded ok =>
    have hkept : ∀ other, ¬ h.Unloads other := by
      obtain ⟨req', tr⟩ := h
      obtain rfl : req' = _ := req
      exact not_unloads tr (by decide)
    exact hi.write (Or.inr (Or.inr rfl)) known
      (fun _ => (hi.loaded name known loaded).snoc (hkept name))
      fun other _ hs => hs.snoc (hkept other)
  | @unload name req known ok =>
    refine hi.write (Or.inl rfl) known (fun hne => absurd rfl hne) fun other hne hs => hs.snoc ?_
    rintro ⟨hreq, -⟩
    rw [req] at hreq
    exact hne (List.append_cancel_left hreq).symm

theorem LoaderRun.inv {st₀ : AppStates} (hzero : ∀ id < 4, st₀.bytes id = 0)
    (hnone : st₀.writes = []) {hist : List Handled} {st : AppStates}
    (hrun : LoaderRun st₀ hist st) : LoaderInv hist st := by
  induction hrun with
  | start =>
    have hsmall : ∀ id : UInt64, id < 3 → st₀.bytes id = 0 := fun id hid =>
      hzero id (UInt64.lt_trans hid (by decide))
    refine ⟨fun id hid => Or.inl (hsmall id hid), ?_, fun name hid hbyte => ?_⟩
    · rw [hnone]
      simp
    · exact absurd (hsmall _ (ldAppId_lt hid)) hbyte
  | next run path ih => exact ih.step (appLoaderHandle_step path)

/-- An error message does not start like a success. -/
theorem isErrorReply_not_ok {msg : List UInt8} (h : isErrorReply msg = true) :
    startsWith msg (umsg "OK") = false := by
  simp only [isErrorReply, Bool.or_eq_true, eqs_iff] at h
  rcases h with ((h | rfl) | rfl) | rfl
  · obtain ⟨rest, rfl⟩ := startsWith_iff.mp h
    exact startsWith_append_ne (by decide)
  · decide
  · decide
  · decide

/-- Over any history from a cleared state array: the states stay in their range, only the bytes of
the three apps are written, `APP_RUN` starts a task only for an app with a validated image, and a
request that is answered with an error leaves every state as it is. -/
theorem loaderRun_safe (st₀ : AppStates) (hzero : ∀ id < 4, st₀.bytes id = 0)
    (hnone : st₀.writes = []) (hist : List Handled) (st : AppStates)
    (hrun : LoaderRun st₀ hist st) : LoaderSafe hist st := by
  have hinv := hrun.inv hzero hnone
  constructor
  case states => exact hinv.states
  case indexes => exact hinv.indexes
  case runs =>
    intro name
    rw [appLoaderHandle_run]
    unfold ldRun
    dsimp only
    split_ifs with hunknown hidle
    · exact (reply_only (fun idx h => by cases h)).bind fun _ => .ret _
    · exact (reply_only (fun idx h => by cases h)).bind fun _ => .ret _
    · rw [sysTaskStart_bind]
      refine ⟨fun idx _ => hinv.loaded name hunknown hidle, fun (r : Int) => ?_⟩
      dsimp only
      split_ifs
      · exact (reply_only (fun idx h => by cases h)).bind fun _ => .ret _
      · exact (reply_only (fun idx h => by cases h)).bind fun _ => .ret _
  case errors =>
    rintro req tr st' hpath ⟨msg, hmsg, herr⟩
    have hno : ¬ RepliesOk tr := by
      intro hok
      have hstart := hok msg hmsg
      rw [isErrorReply_not_ok herr] at hstart
      cases hstart
    cases appLoaderHandle_step hpath with
    | idle => rfl
    | load _ ok => exact absurd ok hno
    | run _ _ _ ok => exact absurd ok hno
    | unload _ _ ok => exact absurd ok hno

/-- The greeter is loaded from its stored image. -/
theorem loaderRun_safe_hello : ∃ hist st, hist ≠ [] ∧ st.bytes 0 = 1 ∧ LoaderSafe hist st := by
  have hfetch : Path (ldFetch (umsg "hello"))
      [⟨.send 2 (umsg "CAT /bin/hello.app"), (18 : Int)⟩,
        ⟨.recv 2 64, .ok (umsg "AXAPP1 hello 0 4096 4096 1 console 8192 0a6d") (by decide)⟩]
      (some (umsg "AXAPP1 hello 0 4096 4096 1 console 8192 0a6d")) := .call _ (.call _ (.ret _))
  have hvalid : ldValidate (umsg "AXAPP1 hello 0 4096 4096 1 console 8192 0a6d")
      (umsg "hello") = 0 :=
    by decide +kernel
  obtain ⟨tr, ⟨⟩, hline⟩ := exists_path nonempty_answer (ldEvidence (umsg "hello"))
  obtain ⟨tr', ⟨⟩, hreply⟩ := exists_path nonempty_answer
    (ldReplyName (umsg "OK loaded ") (umsg "hello"))
  have hload : ∃ tr, Path (ldLoad ⟨fun _ => 0, []⟩ (umsg "hello")) tr
      (AppStates.write ⟨fun _ => 0, []⟩ 0 1) := by
    refine ⟨_, path_bind.mpr ⟨_, tr ++ tr', _, rfl, hfetch, ?_⟩⟩
    simp only [hvalid]
    exact path_bind.mpr ⟨tr, tr', (), rfl, hline,
      path_bind.mpr ⟨tr', [], (), by simp, hreply, .ret _⟩⟩
  obtain ⟨tr, hpath⟩ := hload
  rw [← appLoaderHandle_load] at hpath
  exact ⟨_, _, by simp, rfl, loaderRun_safe _ (fun _ _ => rfl) rfl _ _ (.next .start hpath)⟩

end AxiomRT.User
