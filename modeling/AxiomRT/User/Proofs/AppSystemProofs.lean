import AxiomRT.User.AppSystem
import AxiomRT.User.Proofs.EnvironmentProofs
import AxiomRT.User.Proofs.LoaderProofs
import AxiomRT.User.Proofs.NetTextProofs

/-!
# Proofs: the app loader with the file service and the storage service

The answers of storage and of the file service come first; from them, what the loader can fetch
under a name. Then every request of the loader is shown to have exactly the effects that the manager
allows, and the sequences of exchanges are compared step by step.
-/

namespace AxiomRT.User

open Lib Dispatch
open Lib.Prog

/-! ## The image store -/

/-- The image records under `/bin`. -/
def imageRecords : List (String × String) :=
  [("hello", "AXAPP1 hello 0 4096 4096 1 console 8192 0a6d"),
    ("counter", "AXAPP1 counter 0 4096 4096 1 console 8192 0b59"),
    ("fault_demo", "AXAPP1 fault_demo 0 4096 4096 1 none 8192 0b36"),
    ("invalid_bad_magic", "BXAPP1 invalid_bad_magic 0 4096 4096 1 none 8192 0000"),
    ("invalid_bad_cap", "AXAPP1 invalid_bad_cap 0 4096 4096 1 mmio 8192 0d18"),
    ("invalid_bad_checksum", "AXAPP1 invalid_bad_checksum 0 4096 4096 1 none 8192 0000")]

/-- The record of this name. -/
def imageRecord (name : List UInt8) : Option String :=
  (imageRecords.find? fun r => umsg r.1 == name).map Prod.snd

theorem storageServes_reply {req msg : List UInt8} (h : storageHandle req = reply msg)
    {out : Option (List UInt8)} : StorageServes req out ↔ out = some msg := by
  rw [StorageServes, h]
  exact exec_driver_reply

theorem exec_fsReply {msg : List UInt8} {w w' : FsWorld} {a : Unit} :
    Exec fsStep (fsReply msg) w a w' ↔ w' = { w with out := some msg } := by
  rw [fsReply, exec_reply]
  exact ⟨fun ⟨_, h⟩ => h, fun h => ⟨(0 : Int), h⟩⟩

/-- A question of the file service to storage, whose answer is known: the file service goes on with
it, unless storage refuses the question. -/
theorem exec_fsQuestion {α : Type} {q text : List UInt8} {out : Option (List UInt8)} {w' : FsWorld}
    {refused p : UserProg α} {go : Filled 64 → UserProg α} {a : α}
    (h : storageHandle q = reply text) (hne : text ≠ []) (hlen : text.length ≤ 64)
    (hgo : ∀ answer, answer.received = some text → go answer = p) :
    Exec fsStep (do
      let sent ← sysSend 1 q
      if sent < 0 then refused
      else
        let answer ← sysRecv 1 64
        go answer) ⟨none, out⟩ a w' ↔
      Exec fsStep refused ⟨none, out⟩ a w' ∨ Exec fsStep p ⟨none, out⟩ a w' := by
  rw [exec_question (p := fun reply => ⟨reply, out⟩) (fun _ _ => Iff.rfl) fun _ _ _ => Iff.rfl]
  refine or_congr_right ⟨?_, fun hp => ?_⟩
  · rintro ⟨answered, fits, hserves, hx⟩
    obtain rfl := Option.some.inj ((storageServes_reply h).mp hserves)
    rw [hgo _ (received_take hne hlen)] at hx
    exact hx
  · refine ⟨text, List.length_take_le 64 text, (storageServes_reply h).mpr rfl, ?_⟩
    rw [hgo _ (received_take hne hlen)]
    exact hp

/-- A record that storage holds is forwarded without its frame, unless storage refuses. -/
theorem exec_fsStorRecord {query record : List UInt8}
    (h : storageHandle query = reply (umsg "OK data=" ++ record)) (hne : record ≠ [])
    (hlen : record.length ≤ 56) {w' : FsWorld} {a : Unit} :
    Exec fsStep (fsStorRecord query) ⟨none, none⟩ a w' ↔
      w' = ⟨none, some (umsg "ERR not_found")⟩ ∨ w' = ⟨none, some record⟩ := by
  have hfits : (umsg "OK data=" ++ record).length ≤ 64 := by
    rw [List.length_append]
    exact Nat.add_le_add (show (umsg "OK data=").length ≤ 8 by decide) hlen
  have hlong : (umsg "OK data=").length < (umsg "OK data=" ++ record).length := by
    rw [List.length_append]
    exact Nat.lt_add_of_pos_right (List.length_pos_iff.mpr hne)
  have hsome := List.ne_nil_of_length_pos (Nat.zero_lt_of_lt hlong)
  rw [fsStorRecord, exec_fsQuestion (p := fsReply record) h hsome hfits, exec_fsReply, exec_fsReply]
  -- the frame is recognised and dropped
  intro answer hgot
  rw [hgot]
  dsimp only
  rw [if_pos ⟨hlong, startsWith_append _ _⟩, List.drop_left]

/-- The records of the apps, which storage holds. -/
theorem storageHandle_records :
    storageHandle (umsg "READ block=4") =
        reply (umsg "OK data=" ++ umsg "AXAPP1 hello 0 4096 4096 1 console 8192 0a6d") ∧
      storageHandle (umsg "READ block=5") =
        reply (umsg "OK data=" ++ umsg "AXAPP1 counter 0 4096 4096 1 console 8192 0b59") ∧
      storageHandle (umsg "READ block=6") =
        reply (umsg "OK data=" ++ umsg "AXAPP1 fault_demo 0 4096 4096 1 none 8192 0b36") :=
  ⟨rfl, rfl, rfl⟩

/-- The path of an image. -/
def binPath (name : List UInt8) : List UInt8 := umsg "/bin/" ++ (name ++ umsg ".app")

theorem eqs_binPath {name other : List UInt8} :
    eqs (binPath name) (binPath other) = true ↔ name = other := by
  rw [eqs_iff, binPath, binPath, List.append_right_inj, List.append_left_inj]

theorem fsCat_binPath (name : List UInt8) : fsCat (binPath name) =
    if name = umsg "hello" then fsStorRecord (umsg "READ block=4")
    else if name = umsg "counter" then fsStorRecord (umsg "READ block=5")
    else if name = umsg "fault_demo" then fsStorRecord (umsg "READ block=6")
    else if name = umsg "invalid_bad_magic" then
      fsReply (umsg "BXAPP1 invalid_bad_magic 0 4096 4096 1 none 8192 0000")
    else if name = umsg "invalid_bad_cap" then
      fsReply (umsg "AXAPP1 invalid_bad_cap 0 4096 4096 1 mmio 8192 0d18")
    else if name = umsg "invalid_bad_checksum" then
      fsReply (umsg "AXAPP1 invalid_bad_checksum 0 4096 4096 1 none 8192 0000")
    else fsReply (umsg "ERR not_found") := by
  have hother : ∀ path, startsWith path (umsg "/bin/") = false → eqs (binPath name) path = false :=
    fun path h => eqs_append_ne h
  rw [fsCat, hother _ (by decide), hother _ (by decide), hother _ (by decide), hother _ (by decide),
    hother _ (by decide), hother _ (by decide), hother (umsg "/storage/version") (by decide)]
  simp only [Bool.false_eq_true, if_false]
  rw [show umsg "/bin/hello.app" = binPath (umsg "hello") from rfl,
    show umsg "/bin/counter.app" = binPath (umsg "counter") from rfl,
    show umsg "/bin/fault_demo.app" = binPath (umsg "fault_demo") from rfl,
    show umsg "/bin/invalid_bad_magic.app" = binPath (umsg "invalid_bad_magic") from rfl,
    show umsg "/bin/invalid_bad_cap.app" = binPath (umsg "invalid_bad_cap") from rfl,
    show umsg "/bin/invalid_bad_checksum.app" = binPath (umsg "invalid_bad_checksum") from rfl]
  simp only [eqs_binPath]

theorem fsHandle_cat (path : List UInt8) : fsHandle (umsg "CAT " ++ path) = fsCat path := by
  rw [fsHandle, startsWith_append_ne (by decide), startsWith_append, List.drop_left]
  rfl

theorem fsServes_cat {path : List UInt8} {out : Option (List UInt8)} :
    FsServes (umsg "CAT " ++ path) out ↔
      ∃ w, Exec fsStep (fsCat path) ⟨none, none⟩ () w ∧ w.out = out := by
  rw [FsServes, fsHandle_cat]

/-- What the file service answers for the image of this name: its record, or that there is none. The
record is answered if there is one. -/
structure Fetches (name : List UInt8) : Prop where
  sound : ∀ text, FsServes (umsg "CAT " ++ binPath name) (some text) →
    text = umsg "ERR not_found" ∨ ∃ r, imageRecord name = some r ∧ text = umsg r
  complete : ∀ r, imageRecord name = some r →
    FsServes (umsg "CAT " ++ binPath name) (some (umsg r))

/-- An image in storage. -/
theorem Fetches.stored {name query : List UInt8} {r : String} (hr : imageRecord name = some r)
    (hcat : fsCat (binPath name) = fsStorRecord query)
    (hstore : storageHandle query = reply (umsg "OK data=" ++ umsg r)) (hne : umsg r ≠ [])
    (hlen : (umsg r).length ≤ 56) : Fetches name := by
  constructor
  · intro text h
    obtain ⟨w, h, hout⟩ := fsServes_cat.mp h
    rw [hcat, exec_fsStorRecord hstore hne hlen] at h
    rcases h with rfl | rfl
    · exact Or.inl (Option.some.inj hout).symm
    · exact Or.inr ⟨r, hr, (Option.some.inj hout).symm⟩
  · intro r' hr'
    obtain rfl := Option.some.inj (hr.symm.trans hr')
    refine fsServes_cat.mpr ⟨⟨none, some (umsg r)⟩, ?_, rfl⟩
    rw [hcat, exec_fsStorRecord hstore hne hlen]
    exact Or.inr rfl

/-- An image in the file service itself. -/
theorem Fetches.static {name : List UInt8} {r : String} (hr : imageRecord name = some r)
    (hcat : fsCat (binPath name) = fsReply (umsg r)) : Fetches name := by
  constructor
  · intro text h
    obtain ⟨w, h, hout⟩ := fsServes_cat.mp h
    rw [hcat, exec_fsReply] at h
    subst h
    exact Or.inr ⟨r, hr, (Option.some.inj hout).symm⟩
  · intro r' hr'
    obtain rfl := Option.some.inj (hr.symm.trans hr')
    refine fsServes_cat.mpr ⟨⟨none, some (umsg r)⟩, ?_, rfl⟩
    rw [hcat, exec_fsReply]

/-- No image. -/
theorem Fetches.absent {name : List UInt8} (hr : imageRecord name = none)
    (hcat : fsCat (binPath name) = fsReply (umsg "ERR not_found")) : Fetches name := by
  constructor
  · intro text h
    obtain ⟨w, h, hout⟩ := fsServes_cat.mp h
    rw [hcat, exec_fsReply] at h
    subst h
    exact Or.inl (Option.some.inj hout).symm
  · intro r hr'
    rw [hr] at hr'
    cases hr'

/-- A name outside of the table has no record. -/
theorem imageRecord_eq_none {name : List UInt8} (h : ∀ r ∈ imageRecords, name ≠ umsg r.1) :
    imageRecord name = none := by
  rw [imageRecord, Option.map_eq_none_iff, List.find?_eq_none]
  intro r hr heq
  exact h r hr (beq_iff_eq.mp heq).symm

theorem fetches (name : List UInt8) : Fetches name := by
  have hcat := fsCat_binPath name
  obtain ⟨hhello, hcounter, hfault⟩ := storageHandle_records
  by_cases h₁ : name = umsg "hello"
  · subst h₁
    exact .stored rfl (hcat.trans (if_pos rfl)) hhello (by decide) (by decide)
  rw [if_neg h₁] at hcat
  by_cases h₂ : name = umsg "counter"
  · subst h₂
    exact .stored rfl (hcat.trans (if_pos rfl)) hcounter (by decide) (by decide)
  rw [if_neg h₂] at hcat
  by_cases h₃ : name = umsg "fault_demo"
  · subst h₃
    exact .stored rfl (hcat.trans (if_pos rfl)) hfault (by decide) (by decide)
  rw [if_neg h₃] at hcat
  by_cases h₄ : name = umsg "invalid_bad_magic"
  · subst h₄
    exact .static rfl (hcat.trans (if_pos rfl))
  rw [if_neg h₄] at hcat
  by_cases h₅ : name = umsg "invalid_bad_cap"
  · subst h₅
    exact .static rfl (hcat.trans (if_pos rfl))
  rw [if_neg h₅] at hcat
  by_cases h₆ : name = umsg "invalid_bad_checksum"
  · subst h₆
    exact .static rfl (hcat.trans (if_pos rfl))
  rw [if_neg h₆] at hcat
  refine .absent (imageRecord_eq_none ?_) hcat
  simp only [imageRecords, List.forall_mem_cons]
  exact ⟨h₁, h₂, h₃, h₄, h₅, h₆, fun _ h => absurd h List.not_mem_nil⟩

/-! ## The calls of the loader -/

section Loader

variable {w w' : LoaderWorld}

/-- Console output is printed whole. -/
theorem exec_print {bytes : List UInt8} {a : Unit} :
    Exec loaderStep (uwritePtr bytes) w a w' ↔ w' = { w with console := w.console ++ bytes } :=
  exec_prints (p := fun (w : LoaderWorld) bytes => { w with console := w.console ++ bytes })
    (fun _ _ _ _ => Iff.rfl) (fun w => by rw [List.append_nil])
    (fun _ _ _ => by rw [List.append_assoc])

theorem exec_appReply {msg : List UInt8} {a : Unit} :
    Exec loaderStep (reply msg) w a w' ↔ w' = { w with answer := some msg } := by
  rw [exec_reply]
  exact ⟨fun ⟨_, h⟩ => h, fun h => ⟨(0 : Int), h⟩⟩

/-- A reply, and the state goes on. -/
theorem exec_appReply_then {msg : List UInt8} {st st' : AppStates} :
    Exec loaderStep (appReply msg >>= fun _ => pure st) w st' w' ↔
      st' = st ∧ w' = { w with answer := some msg } := by
  rw [exec_then_ret, appReply, exec_appReply, and_comm]

/-- The query of a name that is not too long. -/
theorem ldQuery {name : List UInt8} (h : name.length ≤ 27) :
    ldAppend (ldAppend (ldAppend [] (umsg "CAT /bin/")) name) (umsg ".app") =
      umsg "CAT " ++ binPath name := by
  have h₁ : ldAppend [] (umsg "CAT /bin/") = umsg "CAT /bin/" := rfl
  have h₂ : ldAppend (umsg "CAT /bin/") name = umsg "CAT /bin/" ++ name := by
    rw [ldAppend, List.take_of_length_le]
    have : (umsg "CAT /bin/").length = 9 := rfl
    omega
  have h₃ : ldAppend (umsg "CAT /bin/" ++ name) (umsg ".app") =
      umsg "CAT /bin/" ++ name ++ umsg ".app" := by
    rw [ldAppend, List.take_of_length_le]
    have : (umsg "CAT /bin/").length = 9 := rfl
    have : (umsg ".app").length = 4 := rfl
    rw [List.length_append]
    omega
  rw [h₁, h₂, h₃, List.append_assoc]
  rfl

/-- A name with a record is neither empty nor too long. -/
theorem imageRecord_length {name : List UInt8} {r : String} (h : imageRecord name = some r) :
    0 < name.length ∧ name.length ≤ 27 := by
  obtain ⟨p, hp, -⟩ := Option.map_eq_some_iff.mp h
  have hmem := List.mem_of_find?_eq_some hp
  have heq := List.find?_some hp
  simp only [beq_iff_eq] at heq
  have hall : ∀ r ∈ imageRecords, 0 < (umsg r.1).length ∧ (umsg r.1).length ≤ 27 := by decide
  rw [← heq]
  exact hall p hmem

/-- No record reads as an error, and each fits the buffer of the loader. -/
theorem imageRecord_plain {name : List UInt8} {r : String} (h : imageRecord name = some r) :
    startsWith (umsg r) (umsg "ERR") = false ∧ umsg r ≠ [] ∧ (umsg r).length ≤ 64 := by
  obtain ⟨p, hp, rfl⟩ := Option.map_eq_some_iff.mp h
  have hall : ∀ r ∈ imageRecords, startsWith (umsg r.2) (umsg "ERR") = false ∧
    umsg r.2 ≠ [] ∧ (umsg r.2).length ≤ 64 := by decide
  exact hall p (List.mem_of_find?_eq_some hp)

/-- A fetch gets the record, or nothing. -/
theorem exec_ldFetch {name : List UInt8} {r : Option (List UInt8)} (hw : w.fromFs = none) :
    Exec loaderStep (ldFetch name) w r w' ↔
      w' = w ∧ (r = none ∨ r = (imageRecord name).map umsg) := by
  obtain ⟨tasks, fromFs, answer, console⟩ := w
  obtain rfl : fromFs = none := hw
  rw [ldFetch]
  by_cases hlen : name.length = 0 ∨ 27 < name.length
  · have hnone : imageRecord name = none := by
      cases hr : imageRecord name with
      | none => rfl
      | some r =>
        have := imageRecord_length hr
        omega
    rw [if_pos hlen, exec_ret, hnone, Option.map_none, or_self, and_comm]
  · rw [if_neg hlen, ldQuery (by omega), exec_question
      (p := fun reply => ⟨tasks, reply, answer, console⟩) (fun _ _ => Iff.rfl) fun _ _ _ => Iff.rfl]
    constructor
    · rintro (h | ⟨text, fits, hserves, h⟩)
      · obtain ⟨rfl, rfl⟩ := exec_ret.mp h
        exact ⟨rfl, Or.inl rfl⟩
      · rcases (fetches name).sound text hserves with rfl | ⟨rec, hrec, rfl⟩
        · rw [received_take (by decide) (by decide)] at h
          obtain ⟨rfl, rfl⟩ := exec_ret.mp h
          exact ⟨rfl, Or.inl rfl⟩
        · obtain ⟨herr, hne, hle⟩ := imageRecord_plain hrec
          rw [received_take hne hle] at h
          dsimp only at h
          rw [if_neg (Bool.eq_false_iff.mp herr)] at h
          obtain ⟨rfl, rfl⟩ := exec_ret.mp h
          rw [hrec]
          exact ⟨rfl, Or.inr rfl⟩
    · rintro ⟨rfl, hr⟩
      cases hrec : imageRecord name with
      | none =>
        rw [hrec, Option.map_none, or_self] at hr
        exact Or.inl (exec_ret.mpr ⟨hr, rfl⟩)
      | some rec =>
        rcases hr with rfl | hr
        · exact Or.inl (exec_ret.mpr ⟨rfl, rfl⟩)
        · obtain ⟨herr, hne, hle⟩ := imageRecord_plain hrec
          refine Or.inr ⟨umsg rec, List.length_take_le 64 _, (fetches name).complete rec hrec, ?_⟩
          rw [received_take hne hle]
          dsimp only
          rw [if_neg (Bool.eq_false_iff.mp herr), hr, hrec]
          exact exec_ret.mpr ⟨rfl, rfl⟩

/-- Starting a task succeeds unless it is alive. -/
theorem exec_sysTaskStart {α : Type} {idx : UInt64} {f : Int → UserProg α} {a : α} :
    Exec loaderStep (sysTaskStart idx >>= f) w a w' ↔
      if canStart (w.tasks (idx.toNat + 1)) then
        ∃ r, 0 ≤ r ∧ Exec loaderStep (f r)
          { w with tasks := Function.update w.tasks (idx.toNat + 1) .ready } a w'
      else ∃ r, r < 0 ∧ Exec loaderStep (f r) w a w' := by
  rw [sysTaskStart_bind, exec_call]
  split_ifs with hc
  · constructor
    · rintro ⟨r, w₁, hs, h⟩
      rw [loaderStep, if_pos hc] at hs
      obtain ⟨hr, rfl⟩ := hs
      exact ⟨r, hr, h⟩
    · rintro ⟨r, hr, h⟩
      refine ⟨r, _, ?_, h⟩
      rw [loaderStep, if_pos hc]
      exact ⟨hr, rfl⟩
  · constructor
    · rintro ⟨r, w₁, hs, h⟩
      rw [loaderStep, if_neg hc] at hs
      obtain ⟨hr, rfl⟩ := hs
      exact ⟨r, hr, h⟩
    · rintro ⟨r, hr, h⟩
      refine ⟨r, w, ?_, h⟩
      rw [loaderStep, if_neg hc]
      exact ⟨hr, rfl⟩

end Loader

/-! ## Apps and phases -/

namespace App

theorem named_name (a : App) : named (umsg a.name) = some a := by
  cases a <;> rfl

theorem named_cases (name : List UInt8) : (∃ a : App, name = umsg a.name) ∨
    named name = none ∧ name ≠ umsg "hello" ∧ name ≠ umsg "counter" ∧ name ≠ umsg "fault_demo" := by
  by_cases h₁ : name = umsg "hello"
  · exact Or.inl ⟨.hello, h₁⟩
  by_cases h₂ : name = umsg "counter"
  · exact Or.inl ⟨.counter, h₂⟩
  by_cases h₃ : name = umsg "fault_demo"
  · exact Or.inl ⟨.faultDemo, h₃⟩
  refine Or.inr ⟨?_, h₁, h₂, h₃⟩
  rw [named, List.find?_eq_none]
  intro a _ heq
  have hname := (beq_iff_eq.mp heq).symm
  cases a with
  | hello => exact h₁ hname
  | counter => exact h₂ hname
  | faultDemo => exact h₃ hname

/-- The id of an app in the state array. -/
theorem ldAppId_name (a : App) : ldAppId (umsg a.name) ≠ u64Max := by
  cases a <;> decide

theorem ldTblIdx_slot (a : App) : (ldTblIdx (ldAppId (umsg a.name))).toNat + 1 = a.slot := by
  cases a <;> rfl

theorem ldAppId_ne {a b : App} (h : a ≠ b) : ldAppId (umsg a.name) ≠ ldAppId (umsg b.name) := by
  cases a <;> cases b <;> first | exact absurd rfl h | decide

end App

theorem ldAppId_other {name : List UInt8} (h : name ≠ umsg "hello" ∧ name ≠ umsg "counter" ∧
    name ≠ umsg "fault_demo") : ldAppId name = u64Max := by
  simp only [ldAppId, eqs_iff]
  rw [if_neg h.1, if_neg h.2.1, if_neg h.2.2]

theorem Phase.code_eq_zero {p : Phase} : p.code = 0 ↔ p = .available := by
  cases p <;> decide

theorem Phase.code_inj {p q : Phase} (h : p.code = q.code) : p = q := by
  cases p <;> cases q <;> first | rfl | exact absurd h (by decide)

namespace AppStates

variable {st : AppStates} {phase phase' : App → Phase}

theorem Represents.write (h : st.Represents phase) (a : App) (p : Phase) :
    (st.write (ldAppId (umsg a.name)) p.code).Represents (Function.update phase a p) := by
  intro b
  by_cases hb : b = a
  · subst hb
    rw [Function.update_self]
    exact Function.update_self ..
  · rw [Function.update_of_ne hb]
    exact (Function.update_of_ne (App.ldAppId_ne hb) ..).trans (h b)

theorem Represents.available (h : st.Represents phase) {a : App} :
    st.bytes (ldAppId (umsg a.name)) = 0 ↔ phase a = .available := by
  rw [h a]
  exact Phase.code_eq_zero

/-- The bytes stand for one assignment of phases. -/
theorem Represents.unique (h : st.Represents phase) (h' : st.Represents phase') :
    phase = phase' := by
  funext a
  exact Phase.code_inj ((h a).symm.trans (h' a))

end AppStates

/-! ## Effects -/

/-- The state array and the environment are as the effect has it. -/
structure ComesTo (st : AppStates) (w : LoaderWorld) (eff : AppEffect) : Prop where
  phases : st.Represents eff.next.phase
  world : w = ⟨eff.next.tasks, none, some (umsg eff.answer), umsg eff.console⟩

/-- What the program can come to is what the effects allow, according to whether the image store is
reached. -/
structure Implements (p : UserProg AppStates) (tasks : TaskStates) (eff : Bool → AppEffect) :
    Prop where
  sound : ∀ st w, Exec loaderStep p ⟨tasks, none, none, []⟩ st w →
    ∃ reached, ComesTo st w (eff reached)
  complete : ∀ reached, ∃ st w, Exec loaderStep p ⟨tasks, none, none, []⟩ st w ∧
    ComesTo st w (eff reached)

section Effects

variable {st : AppStates} {m : AppManager} {a : App}

/-- A program with one outcome. -/
theorem Implements.exact {p : UserProg AppStates} {st : AppStates} {w : LoaderWorld}
    {tasks : TaskStates} {eff : AppEffect}
    (hp : ∀ st' w', Exec loaderStep p ⟨tasks, none, none, []⟩ st' w' ↔ st' = st ∧ w' = w)
    (hm : ComesTo st w eff) : Implements p tasks fun _ => eff := by
  constructor
  · intro st' w' h
    obtain ⟨rfl, rfl⟩ := (hp st' w').mp h
    exact ⟨true, hm⟩
  · intro _
    exact ⟨st, w, (hp st w).mpr ⟨rfl, rfl⟩, hm⟩

/-- An answer and nothing else. -/
theorem Implements.answers (hrep : st.Represents m.phase) (text : String) :
    Implements (appReply (umsg text) >>= fun _ => pure st) m.tasks fun _ => m.answers text :=
  .exact (fun _ _ => exec_appReply_then) ⟨hrep, rfl⟩

theorem ldInfo_implements (hrep : st.Represents m.phase) (name : List UInt8) :
    Implements (ldInfo name >>= fun _ => pure st) m.tasks fun _ =>
      m.withApp name "unknown app" fun a => m.answers a.manifest := by
  rcases App.named_cases name with ⟨a, rfl⟩ | ⟨hnone, h₁, h₂, h₃⟩
  · have hinfo : ldInfo (umsg a.name) = appReply (umsg a.manifest) := by cases a <;> rfl
    rw [hinfo, AppManager.withApp, App.named_name]
    exact .answers hrep _
  · have hinfo : ldInfo name = appReply (umsg "unknown app") := by
      simp only [ldInfo, eqs_iff]
      rw [if_neg h₁, if_neg h₃, if_neg h₂]
    rw [hinfo, AppManager.withApp, hnone]
    exact .answers hrep _

theorem ldReplyName_name (a : App) :
    ldReplyName (umsg "OK loaded ") (umsg a.name) = reply (umsg ("OK loaded " ++ a.name)) ∧
      ldReplyName (umsg "OK running ") (umsg a.name) = reply (umsg ("OK running " ++ a.name)) ∧
      ldReplyName (umsg "OK unloaded ") (umsg a.name) =
        reply (umsg ("OK unloaded " ++ a.name)) := by
  cases a <;> exact ⟨rfl, rfl, rfl⟩

theorem ldUnload_implements (hrep : st.Represents m.phase) (name : List UInt8) :
    Implements (ldUnload st name) m.tasks fun _ => m.withApp name "ERR not_found" m.unload := by
  rcases App.named_cases name with ⟨a, rfl⟩ | ⟨hnone, hne⟩
  · simp only [AppManager.withApp, App.named_name, ldUnload, AppManager.unload]
    rw [if_neg a.ldAppId_name]
    by_cases hp : m.phase a = .available
    · rw [if_pos (hrep.available.mpr hp), if_pos hp]
      exact .answers hrep _
    · rw [if_neg (mt hrep.available.mp hp), if_neg hp, (ldReplyName_name a).2.2]
      exact .answers (m := m.enter a .available) (hrep.write a .available) _
  · simp only [AppManager.withApp, hnone, ldUnload]
    rw [if_pos (ldAppId_other hne)]
    exact .answers hrep _

/-- Start the task of an app and answer `ok`, unless it is alive. -/
theorem Implements.starts {idx : UInt64} (hidx : idx.toNat + 1 = a.slot) (ok : String)
    {st₁ : AppStates} {n : AppManager} (hrep : st.Represents m.phase)
    (hrep₁ : st₁.Represents n.phase) (htasks : n.tasks = (m.start a).tasks) :
    Implements (do
      let r ← sysTaskStart idx
      if r < 0 then
        appReply (umsg "error: cannot start")
        return st
      appReply (umsg ok)
      return st₁) m.tasks fun _ =>
        if canStart (m.tasks a.slot) then n.answers ok else m.answers "error: cannot start" := by
  by_cases hc : canStart (m.tasks a.slot) = true
  · simp only [if_pos hc]
    refine .exact (fun st' w' => ?_) ⟨hrep₁, rfl⟩
    rw [exec_sysTaskStart, hidx, if_pos hc, AppManager.answers, htasks]
    constructor
    · rintro ⟨r, hr, h⟩
      rw [if_neg (Int.not_lt.mpr hr), exec_appReply_then] at h
      exact h
    · intro h
      refine ⟨0, Int.le_refl 0, ?_⟩
      rw [if_neg (by decide), exec_appReply_then]
      exact h
  · simp only [if_neg hc]
    refine .exact (fun st' w' => ?_) ⟨hrep, rfl⟩
    rw [exec_sysTaskStart, hidx, if_neg hc]
    constructor
    · rintro ⟨r, hr, h⟩
      rw [if_pos hr, exec_appReply_then] at h
      exact h
    · intro h
      refine ⟨-1, by decide, ?_⟩
      rw [if_pos (by decide), exec_appReply_then]
      exact h

theorem ldRun_implements (hrep : st.Represents m.phase) (name : List UInt8) :
    Implements (ldRun st name) m.tasks fun _ => m.withApp name "ERR not_found" m.run := by
  rcases App.named_cases name with ⟨a, rfl⟩ | ⟨hnone, hne⟩
  · simp only [AppManager.withApp, App.named_name, ldRun, AppManager.run]
    rw [if_neg a.ldAppId_name]
    by_cases hp : m.phase a = .available
    · rw [if_pos (hrep.available.mpr hp), if_pos hp]
      exact .answers hrep _
    · rw [if_neg (mt hrep.available.mp hp), if_neg hp, (ldReplyName_name a).2.1]
      exact .starts a.ldTblIdx_slot _ hrep (n := (m.start a).enter a .started)
        (hrep.write a .started) rfl
  · simp only [AppManager.withApp, hnone, ldRun]
    rw [if_pos (ldAppId_other hne)]
    exact .answers hrep _

theorem ldRunLegacy_implements (hrep : st.Represents m.phase) (name : List UInt8) :
    Implements (ldRunLegacy name >>= fun _ => pure st) m.tasks fun _ =>
      m.withApp name "unknown app" m.runBare := by
  rcases App.named_cases name with ⟨a, rfl⟩ | ⟨hnone, h₁, h₂, h₃⟩
  · have hrun : (ldRunLegacy (umsg a.name) >>= fun _ => pure st) = (do
        let r ← sysTaskStart (ldTblIdx (ldAppId (umsg a.name)))
        if r < 0 then
          appReply (umsg "error: cannot start")
          return st
        appReply (umsg "started")
        return st) := by
      have hidx : ldRunLegacy (umsg a.name) = (do
          let r ← sysTaskStart (ldTblIdx (ldAppId (umsg a.name)))
          if r < 0 then appReply (umsg "error: cannot start") else appReply (umsg "started")) := by
        cases a <;> rfl
      rw [hidx, sysTaskStart_bind, sysTaskStart_bind, call_bind]
      congr 1
      funext r
      split_ifs <;> rfl
    rw [hrun, AppManager.withApp, App.named_name]
    exact .starts a.ldTblIdx_slot _ hrep (n := m.start a) hrep rfl
  · have hrun : ldRunLegacy name = appReply (umsg "unknown app") := by
      simp only [ldRunLegacy, eqs_iff]
      rw [if_neg h₁, if_neg h₃, if_neg h₂, if_pos rfl]
    rw [hrun, AppManager.withApp, hnone]
    exact .answers hrep _

theorem Represents.loaded {phase : App → Phase} (h : st.Represents phase) :
    st.bytes (ldAppId (umsg a.name)) = 1 ↔ phase a = .loaded := by
  rw [h a]
  cases phase a <;> decide

/-- The state of a task is answered truthfully. -/
theorem Implements.taskState {tasks : TaskStates} {slot : ℕ} {q : UserProg AppStates}
    {f : Filled 16 → UserProg AppStates} {eff : Bool → AppEffect}
    (hf : ∀ answer, answer.received = some (umsg (stateName (tasks slot))) → f answer = q)
    (hq : Implements q tasks eff) : Implements (sysInfo 7 16 slot >>= f) tasks eff := by
  have hword : ∀ s : RtState, umsg (stateName s) ≠ [] ∧ (umsg (stateName s)).length ≤ 16 := by
    intro s
    cases s <;> decide
  obtain ⟨hne, hlen⟩ := hword (tasks slot)
  rw [sysInfo_bind]
  constructor
  · intro st w h
    obtain ⟨r, w₁, ⟨⟨text, fits, htext, rfl⟩, rfl⟩, h⟩ := exec_call.mp h
    obtain rfl := Option.some.inj htext
    rw [hf _ (received_take hne hlen)] at h
    exact hq.sound st w h
  · intro reached
    obtain ⟨st, w, hx, hm⟩ := hq.complete reached
    refine ⟨st, w, exec_call.mpr ⟨_, _, ⟨⟨_, List.length_take_le 16 _, rfl, rfl⟩, rfl⟩, ?_⟩, hm⟩
    rw [hf _ (received_take hne hlen)]
    exact hx

theorem ldState_implements (hrep : st.Represents m.phase) (name : List UInt8) :
    Implements (ldState st name >>= fun _ => pure st) m.tasks fun _ =>
      m.withApp name "ERR not_found" m.state := by
  rcases App.named_cases name with ⟨a, rfl⟩ | ⟨hnone, hne⟩
  · simp only [AppManager.withApp, App.named_name, ldState, AppManager.state]
    rw [if_neg a.ldAppId_name]
    cases hp : m.phase a with
    | available =>
      rw [if_pos (hrep.available.mpr hp)]
      exact .answers hrep _
    | loaded =>
      rw [if_neg (by rw [hrep.available, hp]; decide), if_pos ((Represents.loaded hrep).mpr hp)]
      exact .answers hrep _
    | started =>
      rw [if_neg (by rw [hrep.available, hp]; decide),
        if_neg (by rw [Represents.loaded hrep, hp]; decide)]
      have hslot : (ldTblIdx (ldAppId (umsg a.name)) + 1).toNat = a.slot := by cases a <;> rfl
      rw [hslot]
      rw [sysInfo_bind, call_bind, ← sysInfo_bind]
      -- the answer of the kernel picks the branch
      cases hs : m.tasks a.slot with
      | killed =>
        refine .taskState (fun answer h => ?_) (.answers hrep "state=exited")
        rw [h, hs]
        rfl
      | faulted =>
        refine .taskState (fun answer h => ?_) (.answers hrep "state=faulted")
        rw [h, hs]
        rfl
      | empty | ready | running | blocked =>
        refine .taskState (fun answer h => ?_) (.answers hrep "state=running")
        rw [h, hs]
        rfl
  · simp only [AppManager.withApp, hnone, ldState]
    rw [if_pos (ldAppId_other hne)]
    exact .answers hrep _

/-- A fetch that may or may not reach the store. -/
theorem Implements.fetch {name : List UInt8} {f : Option (List UInt8) → UserProg AppStates}
    {tasks : TaskStates} {eff : Bool → AppEffect}
    (hmissed : Implements (f none) tasks fun _ => eff false)
    (hreached : Implements (f ((imageRecord name).map umsg)) tasks fun _ => eff true) :
    Implements (ldFetch name >>= f) tasks eff := by
  constructor
  · intro st w h
    obtain ⟨r, w₁, hfetch, h⟩ := exec_bind.mp h
    obtain ⟨rfl, rfl | rfl⟩ := (exec_ldFetch rfl).mp hfetch
    · obtain ⟨-, hm⟩ := hmissed.sound st w h
      exact ⟨false, hm⟩
    · obtain ⟨-, hm⟩ := hreached.sound st w h
      exact ⟨true, hm⟩
  · intro reached
    cases reached with
    | false =>
      obtain ⟨st, w, h, hm⟩ := hmissed.complete true
      exact ⟨st, w, exec_bind.mpr ⟨_, _, (exec_ldFetch rfl).mpr ⟨rfl, Or.inl rfl⟩, h⟩, hm⟩
    | true =>
      obtain ⟨st, w, h, hm⟩ := hreached.complete true
      exact ⟨st, w, exec_bind.mpr ⟨_, _, (exec_ldFetch rfl).mpr ⟨rfl, Or.inr rfl⟩, h⟩, hm⟩

/-- A line on the console, then the rest. -/
theorem exec_print_then {α : Type} {bytes : List UInt8} {p : UserProg α} {w w' : LoaderWorld}
    {r : α} :
    Exec loaderStep (uwritePtr bytes >>= fun _ => p) w r w' ↔
      Exec loaderStep p { w with console := w.console ++ bytes } r w' := by
  rw [exec_bind]
  constructor
  · rintro ⟨_, w₁, hprint, h⟩
    rw [exec_print.mp hprint] at h
    exact h
  · intro h
    exact ⟨(), _, exec_print.mpr rfl, h⟩

theorem exec_ldEvidence {name : String} {w w' : LoaderWorld} {r : Unit} :
    Exec loaderStep (ldEvidence (umsg name)) w r w' ↔
      w' = ⟨w.tasks, w.fromFs, w.answer, w.console ++
        umsg ("APP_IMAGE loaded=" ++ name ++ " source=/bin/" ++ name ++ ".app\n")⟩ := by
  have hend : umsg ".app\n" = umsg ".app" ++ umsg "\n" := rfl
  simp only [ldEvidence, uput, exec_print_then, exec_print, umsg_append, hend, List.append_assoc]

theorem exec_ldReject {name word msg : String} {w w' : LoaderWorld} {r : Unit} :
    Exec loaderStep (ldReject (umsg name) (umsg word) (umsg msg)) w r w' ↔
      w' = ⟨w.tasks, w.fromFs, some (umsg msg), w.console ++
        umsg ("APP_IMAGE rejected=" ++ name ++ " reason=" ++ word ++ "\n")⟩ := by
  simp only [ldReject, uput, appReply, exec_print_then, exec_appReply, umsg_append,
    List.append_assoc]

/-- The verdicts of the loader on the images of the store. -/
theorem ldValidate_imageRecords : imageRecords.map (fun r => ldValidate (umsg r.2) (umsg r.1)) =
    [0, 0, 0, 1, 3, 2] := by
  decide +kernel

theorem ldValidate_image (a : App) : ∃ r, imageRecord (umsg a.name) = some r ∧
    ldValidate (umsg r) (umsg a.name) = 0 := by
  have h := ldValidate_imageRecords
  simp only [imageRecords, List.map_cons, List.map_nil, List.cons.injEq, and_true] at h
  cases a with
  | hello => exact ⟨_, rfl, h.1⟩
  | counter => exact ⟨_, rfl, h.2.1⟩
  | faultDemo => exact ⟨_, rfl, h.2.2.1⟩

/-- A name that is no app is that of a bad image, which a check stops, or has no image. -/
theorem badImage_cases {name : List UInt8} (hne : name ≠ umsg "hello" ∧ name ≠ umsg "counter" ∧
    name ≠ umsg "fault_demo") :
    (∃ image reason r, name = umsg image ∧
      (badImages.find? fun image => umsg image.1 == name) = some (image, reason) ∧
      imageRecord name = some r ∧ ldValidate (umsg r) name ≠ 5 ∧ ldValidate (umsg r) name ≠ 0 ∧
      ldEmitReject (ldValidate (umsg r) name) name =
        ldReject (umsg image) (umsg reason) (umsg ("ERR " ++ reason))) ∨
    (badImages.find? fun image => umsg image.1 == name) = none ∧ imageRecord name = none := by
  have h := ldValidate_imageRecords
  simp only [imageRecords, List.map_cons, List.map_nil, List.cons.injEq, and_true] at h
  obtain ⟨-, -, -, hmagic, hcap, hsum⟩ := h
  by_cases h₄ : name = umsg "invalid_bad_magic"
  · subst h₄
    refine Or.inl ⟨"invalid_bad_magic", "bad_image", _, rfl, rfl, rfl, ?_⟩
    rw [hmagic]
    exact ⟨by decide, by decide, rfl⟩
  by_cases h₅ : name = umsg "invalid_bad_cap"
  · subst h₅
    refine Or.inl ⟨"invalid_bad_cap", "denied_capability", _, rfl, rfl, rfl, ?_⟩
    rw [hcap]
    exact ⟨by decide, by decide, rfl⟩
  by_cases h₆ : name = umsg "invalid_bad_checksum"
  · subst h₆
    refine Or.inl ⟨"invalid_bad_checksum", "bad_checksum", _, rfl, rfl, rfl, ?_⟩
    rw [hsum]
    exact ⟨by decide, by decide, rfl⟩
  refine Or.inr ⟨?_, imageRecord_eq_none ?_⟩
  · rw [List.find?_eq_none]
    simp only [badImages, List.forall_mem_cons, beq_iff_eq, eq_comm (b := name)]
    exact ⟨h₄, h₅, h₆, fun _ h => absurd h List.not_mem_nil⟩
  · simp only [imageRecords, List.forall_mem_cons]
    exact ⟨hne.1, hne.2.1, hne.2.2, h₄, h₅, h₆, fun _ h => absurd h List.not_mem_nil⟩

theorem ldLoad_implements (hrep : st.Represents m.phase) (name : List UInt8) :
    Implements (ldLoad st name) m.tasks fun reached => m.load reached name := by
  rcases App.named_cases name with ⟨a, rfl⟩ | ⟨hnone, hne⟩
  · simp only [ldLoad, AppManager.load, App.named_name]
    by_cases hp : m.phase a = .available
    · rw [if_neg (fun h => h.2 (hrep.available.mpr hp))]
      simp only [hp, ne_eq, not_true, if_false]
      obtain ⟨r, hr, hvalid⟩ := ldValidate_image a
      refine .fetch (.answers hrep _) ?_
      rw [hr]
      simp only [Option.map_some, hvalid]
      have hwrite : (st.write (ldAppId (umsg a.name)) 1).Represents (m.enter a .loaded).phase :=
        hrep.write a .loaded
      refine .exact (fun st' w' => ?_) ⟨hwrite, rfl⟩
      rw [if_neg (by decide), if_neg (by decide), (ldReplyName_name a).1, exec_bind]
      constructor
      · rintro ⟨_, w₁, hline, h⟩
        obtain ⟨rfl, rfl⟩ := exec_appReply_then.mp h
        rw [exec_ldEvidence.mp hline]
        exact ⟨rfl, rfl⟩
      · rintro ⟨rfl, rfl⟩
        exact ⟨(), _, exec_ldEvidence.mpr rfl, exec_appReply_then.mpr ⟨rfl, rfl⟩⟩
    · rw [if_pos ⟨a.ldAppId_name, mt hrep.available.mp hp⟩]
      simp only [ne_eq, hp, not_false_eq_true, if_true]
      exact .answers hrep _
  · simp only [ldLoad, AppManager.load, hnone]
    rw [if_neg (fun h => h.1 (ldAppId_other hne))]
    rcases badImage_cases hne with ⟨image, reason, r, rfl, hbad, hr, h5, h0, hreject⟩ | ⟨hbad, hr⟩
    · rw [hbad]
      refine .fetch (.answers hrep _) ?_
      rw [hr]
      simp only [Option.map_some]
      rw [if_neg h5, if_pos h0, hreject]
      refine .exact (fun st' w' => ?_) ⟨hrep, rfl⟩
      rw [exec_then_ret, exec_ldReject, and_comm]
      rfl
    · rw [hbad]
      refine .fetch (.answers hrep _) ?_
      rw [hr]
      exact .answers hrep _

/-- Every request has the effects the manager allows, and can have each of them. -/
theorem appLoaderHandle_implements (hrep : st.Represents m.phase) (req : List UInt8) :
    Implements (appLoaderHandle st req) m.tasks fun reached => m.serve reached (.read req) := by
  by_cases happs : req = umsg "apps"
  · subst happs
    exact .answers hrep "apps: hello fault_demo counter"
  by_cases hlist : req = umsg "APP_LIST"
  · subst hlist
    exact .answers hrep "apps: hello fault_demo counter"
  rw [AppRequest.read, if_neg (not_or.mpr ⟨happs, hlist⟩), appLoaderHandle,
    if_neg (mt eqs_iff.mp happs), if_neg (mt eqs_iff.mp hlist)]
  simp only [requestWords, List.find?_cons, List.find?_nil]
  -- the words in the order in which the loader tries them
  rcases (startsWith req (umsg "app info ")).eq_false_or_eq_true with h₁ | h₁
  · simp only [h₁, if_true]
    exact ldInfo_implements hrep _
  simp only [h₁, Bool.false_eq_true, if_false]
  rcases (startsWith req (umsg "APP_INFO ")).eq_false_or_eq_true with h₂ | h₂
  · simp only [h₂, if_true]
    exact ldInfo_implements hrep _
  simp only [h₂, Bool.false_eq_true, if_false]
  rcases (startsWith req (umsg "APP_LOAD ")).eq_false_or_eq_true with h₃ | h₃
  · simp only [h₃, if_true]
    exact ldLoad_implements hrep _
  simp only [h₃, Bool.false_eq_true, if_false]
  rcases (startsWith req (umsg "APP_RUN ")).eq_false_or_eq_true with h₄ | h₄
  · simp only [h₄, if_true]
    exact ldRun_implements hrep _
  simp only [h₄, Bool.false_eq_true, if_false]
  rcases (startsWith req (umsg "APP_UNLOAD ")).eq_false_or_eq_true with h₅ | h₅
  · simp only [h₅, if_true]
    exact ldUnload_implements hrep _
  simp only [h₅, Bool.false_eq_true, if_false]
  rcases (startsWith req (umsg "APP_STATE ")).eq_false_or_eq_true with h₆ | h₆
  · simp only [h₆, if_true]
    exact ldState_implements hrep _
  simp only [h₆, Bool.false_eq_true, if_false]
  rcases (startsWith req (umsg "run ")).eq_false_or_eq_true with h₇ | h₇
  · simp only [h₇, if_true]
    exact ldRunLegacy_implements hrep _
  simp only [h₇, Bool.false_eq_true, if_false]
  exact .answers hrep _

end Effects

/-! ## Runs -/

section Runs

variable {st st' : AppStates} {phase phase' : App → Phase} {e : AppExchange}
  {history : List AppExchange}

/-- An exchange with the loader is one with the manager. -/
theorem AppServes.phases (h : AppServes st e st') (hrep : st.Represents phase) :
    ∃ phase', st'.Represents phase' ∧ PhaseServes phase e phase' := by
  obtain ⟨reached, hphases, hworld⟩ :=
    (appLoaderHandle_implements (m := ⟨phase, e.tasks⟩) hrep e.request).sound _ _ h
  rw [LoaderWorld.mk.injEq, Option.some.injEq] at hworld
  obtain ⟨htasks, -, hanswer, hconsole⟩ := hworld
  refine ⟨_, hphases, reached, _, _, ?_, hanswer, hconsole⟩
  rw [htasks]

/-- The manager's exchange is one the loader can have. -/
theorem PhaseServes.states (h : PhaseServes phase e phase') (hrep : st.Represents phase) :
    ∃ st', AppServes st e st' ∧ st'.Represents phase' := by
  obtain ⟨reached, answer, console, hserve, hanswer, hconsole⟩ := h
  obtain ⟨st', w, hx, hm⟩ :=
    (appLoaderHandle_implements (m := ⟨phase, e.tasks⟩) hrep e.request).complete reached
  rw [hserve] at hm
  have hworld := hm.world
  rw [← hanswer, ← hconsole] at hworld
  rw [hworld] at hx
  exact ⟨st', hx, hm.phases⟩

/-- A run of the loader is a run of the manager, whose phases the state array stands for. -/
theorem AppRun.phases (h : AppRun history st) :
    ∃ phase, st.Represents phase ∧ PhaseRun history phase := by
  induction h with
  | start => exact ⟨fun _ => .available, fun _ => rfl, .start⟩
  | served h taken serves ih =>
    obtain ⟨phase, hrep, hrun⟩ := ih
    obtain ⟨phase', hrep', hserves⟩ := serves.phases hrep
    exact ⟨phase', hrep', hrun.served taken hserves⟩

/-- The loader can have every run of the manager. -/
theorem PhaseRun.states (h : PhaseRun history phase) :
    ∃ st, AppRun history st ∧ st.Represents phase := by
  induction h with
  | start => exact ⟨_, .start, fun _ => rfl⟩
  | served h taken serves ih =>
    obtain ⟨st, hrun, hrep⟩ := ih
    obtain ⟨st', hserves, hrep'⟩ := serves.states hrep
    exact ⟨st', hrun.served taken hserves, hrep'⟩

/-- The sequences of exchanges that the loader can have with the file service and storage behind it
are those of the manager, and the state array always stands for the phases. -/
theorem appRun_phases (history : List AppExchange) :
    ((∃ st, AppRun history st) ↔ ∃ phase, PhaseRun history phase) ∧
      (∀ phase, (∃ st, AppRun history st ∧ st.Represents phase) ↔ PhaseRun history phase) ∧
      ∀ st, AppRun history st → ∃ phase, st.Represents phase ∧ PhaseRun history phase := by
  refine ⟨⟨?_, ?_⟩, fun phase => ⟨?_, PhaseRun.states⟩, fun _ => AppRun.phases⟩
  · rintro ⟨st, h⟩
    obtain ⟨phase, -, hrun⟩ := h.phases
    exact ⟨phase, hrun⟩
  · rintro ⟨phase, h⟩
    obtain ⟨st, hrun, -⟩ := h.states
    exact ⟨st, hrun⟩
  · rintro ⟨st, h, hrep⟩
    obtain ⟨phase', hrep', hrun⟩ := h.phases
    rw [hrep.unique hrep']
    exact hrun

end Runs

end AxiomRT.User
