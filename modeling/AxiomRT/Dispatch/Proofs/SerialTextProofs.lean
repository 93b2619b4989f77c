import AxiomRT.Axiomctl.Proofs.FieldLineProofs
import AxiomRT.Dispatch.SerialLog
import AxiomRT.Dispatch.Proofs.EvidenceProofs

/-!
# Proofs: what the lines of the serial log say

Each output of the dispatcher is whole lines. A line of one of the kinds that stand for ring entries
gives the evidence of that entry; every other line gives none.
-/

namespace AxiomRT.Dispatch

open Lib
open Axiomctl (KindWord Clean fieldLine token)

/-! ## Lines -/

theorem serialChars_append (out out' : List Tx) :
    serialChars (out ++ out') = serialChars out ++ serialChars out' := List.flatMap_append

theorem Lines.append {out out' : List Tx} {ls ls' : List String} (h : Lines out ls)
    (h' : Lines out' ls') : Lines (out ++ out') (ls ++ ls') where
  chars := by rw [serialChars_append, h.chars, h'.chars, List.flatMap_append]
  single l hl := (List.mem_append.1 hl).elim (h.single l) (h'.single l)

/-- The host reads these lines. -/
theorem Lines.lines_eq {out : List Tx} {ls : List String} (h : Lines out ls) :
    lines (String.ofList (serialChars out)) = ls := by
  rw [h.chars]
  exact lines_crlf h.single

/-- The output is whole lines that give this evidence. -/
def Printed (out : List Tx) (evs : List (EvKind × Option String)) : Prop :=
  ∃ ls, Lines out ls ∧ ls.filterMap lineEvidence = evs

theorem Printed.nil : Printed [] [] := ⟨[], ⟨rfl, fun _ hl => absurd hl List.not_mem_nil⟩, rfl⟩

theorem Printed.append {out out' : List Tx} {evs evs' : List (EvKind × Option String)}
    (h : Printed out evs) (h' : Printed out' evs') : Printed (out ++ out') (evs ++ evs') := by
  obtain ⟨ls, hlines, rfl⟩ := h
  obtain ⟨ls', hlines', rfl⟩ := h'
  exact ⟨ls ++ ls', hlines.append hlines', List.filterMap_append⟩

/-- More lines without evidence. -/
theorem Printed.and_plain {out out' : List Tx} {evs : List (EvKind × Option String)}
    (h : Printed out evs) (h' : Printed out' []) : Printed (out ++ out') evs := by
  simpa using h.append h'

theorem Printed.plain_and {out out' : List Tx} {evs : List (EvKind × Option String)}
    (h : Printed out []) (h' : Printed out' evs) : Printed (out ++ out') evs := h.append h'

/-- The evidence of a whole log. -/
theorem Printed.evidence {out : List Tx} {evs : List (EvKind × Option String)}
    (h : Printed out evs) :
    (Axiomctl.parseLog (String.ofList (serialChars out))).events.filterMap evidenceOf = evs := by
  obtain ⟨ls, hlines, rfl⟩ := h
  rw [Axiomctl.parseLog_events, hlines.lines_eq]
  have hseq : ∀ (n : ℕ) (ev : Axiomctl.Event), evidenceOf { ev with seq := n } = evidenceOf ev :=
    fun _ _ => rfl
  have hline : lineEvidence = fun l => (Axiomctl.parseLine l).bind evidenceOf := rfl
  rw [hline, ← List.filterMap_filterMap]
  generalize ls.filterMap Axiomctl.parseLine = evs
  suffices ∀ a : ℕ, (evs.mapIdx fun i ev => { ev with seq := a + i + 1 }).filterMap evidenceOf =
      evs.filterMap evidenceOf by simpa using this 0
  induction evs with
  | nil => exact fun _ => rfl
  | cons ev evs ih =>
    intro a
    have hrest := ih (a + 1)
    have hshift : (fun i (ev : Axiomctl.Event) => { ev with seq := a + (i + 1) + 1 }) =
        fun i ev => { ev with seq := a + 1 + i + 1 } := by
      funext i ev
      rw [Nat.add_comm i 1, Nat.add_assoc a 1 i]
    rw [List.mapIdx_cons, List.filterMap_cons, List.filterMap_cons, hseq, hshift, hrest]

/-! ## Pieces of a line -/

/-- The piece does not end a line. -/
def Flat (t : Tx) : Prop := '\n' ∉ t.chars

theorem str_chars {s : String} (h : '\n' ∉ s.toList) : (Tx.str s).chars = s.toList := by
  have hone : ∀ c ∈ s.toList, crlf c = [c] := by
    intro c hc
    refine if_neg ?_
    rintro rfl
    exact h hc
  rw [Tx.chars]
  generalize s.toList = cs at hone ⊢
  induction cs with
  | nil => rfl
  | cons c cs ih =>
    rw [List.flatMap_cons, hone c List.mem_cons_self,
      ih fun c hc => hone c (List.mem_cons_of_mem _ hc)]
    rfl

theorem flat_nil : ∀ t ∈ ([] : List Tx), Flat t := fun _ ht => absurd ht List.not_mem_nil

/-- Text without white space. -/
def Solid (s : String) : Prop := ∀ c ∈ s.toList, isWhitespace c = false

instance (s : String) : Decidable (Solid s) := decidable_of_iff _ solid_iff

theorem Solid.noNewline {s : String} (h : Solid s) : '\n' ∉ s.toList := by
  intro hmem
  have hc := h '\n' hmem
  exact absurd hc (by decide)

theorem Solid.flat {s : String} (h : Solid s) : Flat (.str s) := by
  rw [Flat, str_chars h.noNewline]
  exact h.noNewline

theorem serialChars_cons (t : Tx) (out : List Tx) :
    serialChars (t :: out) = t.chars ++ serialChars out := List.flatMap_cons

theorem serialChars_flat {pieces : List Tx} (h : ∀ t ∈ pieces, Flat t) :
    '\n' ∉ serialChars pieces := by
  intro hmem
  obtain ⟨t, ht, hc⟩ := List.mem_flatMap.1 hmem
  exact h t ht hc

theorem byteChar_toNat (b : UInt8) : (byteChar b).toNat = b.toNat := by
  have hlt : b.toNat < 256 := b.toNat_lt
  have hvalid : b.toNat.isValidChar := Or.inl (by omega)
  rw [byteChar, Char.ofNat, dif_pos hvalid]
  rfl

/-- A byte that is not a control byte does not end a line. -/
theorem byteChar_ne {b : UInt8} (h : 48 ≤ b.toNat) : '\n' ≠ byteChar b := by
  intro hc
  have hval := byteChar_toNat b
  have hten : ('\n').toNat = 10 := rfl
  rw [← hc, hten] at hval
  omega

theorem bytes_flat {bytes : List UInt8} (h : ∀ b ∈ bytes, 48 ≤ b.toNat) :
    '\n' ∉ bytes.map byteChar := by
  intro hmem
  obtain ⟨b, hb, hc⟩ := List.mem_map.1 hmem
  exact byteChar_ne (h b hb) hc.symm

theorem digit_ge {d : ℕ} (h : d < 10) : 48 ≤ (UInt8.ofNat (48 + d)).toNat := by
  rw [UInt8.toNat_ofNat']
  omega

theorem hexDigit_ge {d : ℕ} (h : d < 16) : 48 ≤ (hexDigit d).toNat := by
  rw [hexDigit]
  split_ifs with hd
  · exact digit_ge hd
  · rw [UInt8.toNat_ofNat']
    omega

theorem decLoop_ge {room v : ℕ} {acc : List UInt8} (h : ∀ b ∈ acc, 48 ≤ b.toNat) :
    ∀ b ∈ InfoBuf.decLoop room v acc, 48 ≤ b.toNat := by
  induction room generalizing v acc with
  | zero => exact h
  | succ room ih =>
    rw [InfoBuf.decLoop]
    split_ifs
    · exact h
    · exact ih (List.forall_mem_cons.2 ⟨digit_ge (Nat.mod_lt _ (by decide)), h⟩)

theorem hexLoop_ge {room v : ℕ} {acc : List UInt8} (h : ∀ b ∈ acc, 48 ≤ b.toNat) :
    ∀ b ∈ hexLoop room v acc, 48 ≤ b.toNat := by
  induction room generalizing v acc with
  | zero => exact h
  | succ room ih =>
    rw [hexLoop]
    split_ifs
    · exact h
    · exact ih (List.forall_mem_cons.2 ⟨hexDigit_ge (Nat.mod_lt _ (by decide)), h⟩)

theorem flat_dec (v : ℕ) : Flat (.dec v) := by
  refine bytes_flat ?_
  split_ifs
  · simp
  · exact decLoop_ge fun _ hb => absurd hb List.not_mem_nil

theorem flat_hex (v : ℕ) : Flat (.hex v) := by
  have hdigits : '\n' ∉ (if v = 0 then [48] else hexLoop 16 v []).map byteChar := by
    refine bytes_flat ?_
    split_ifs
    · simp
    · exact hexLoop_ge fun _ hb => absurd hb List.not_mem_nil
  rw [Flat, Tx.chars, List.mem_cons, List.mem_cons]
  rintro (h | h | h)
  · exact absurd h (by decide)
  · exact absurd h (by decide)
  · exact hdigits h

/-! ## Lines without evidence -/

theorem Printed.congr {out out' : List Tx} {evs : List (EvKind × Option String)}
    (h : Printed out evs) (hchars : serialChars out' = serialChars out) : Printed out' evs := by
  obtain ⟨ls, hlines, hevs⟩ := h
  exact ⟨ls, ⟨hchars.trans hlines.chars, hlines.single⟩, hevs⟩

/-- Flat pieces and a line end are one line. -/
theorem lines_one (pieces : List Tx) (h : ∀ t ∈ pieces, Flat t) :
    Lines (pieces ++ [.str "\n"]) [String.ofList (serialChars pieces)] where
  chars := by
    rw [serialChars_append, List.flatMap_singleton, String.toList_ofList]
    rfl
  single := by
    intro l hl
    rw [List.mem_singleton.1 hl, String.toList_ofList]
    exact serialChars_flat h

/-- A line may start like this: with a kind that stands for no ring entry. -/
def plainHead (s : String) : Bool :=
  match splitOnce s ' ' with
  | some (w, _) => decide (KindWord w) && (evidenceKind w).isNone && !s.toList.contains '\n'
  | none => false

theorem flat_of_contains {s : String} (h : (!s.toList.contains '\n') = true) : Flat (.str s) := by
  have hmem : '\n' ∉ s.toList := by simpa using h
  rw [Flat, str_chars hmem]
  exact hmem

theorem plainHead_spec {s : String} (h : plainHead s = true) :
    Flat (.str s) ∧ (Tx.str s).chars = s.toList ∧ ∀ t, lineEvidence (s ++ t) = none := by
  unfold plainHead at h
  split at h
  · next w rest hsplit =>
    simp only [Bool.and_eq_true, decide_eq_true_eq] at h
    obtain ⟨⟨hw, hnone⟩, hflat⟩ := h
    refine ⟨flat_of_contains hflat, str_chars (by simpa using hflat), fun t => ?_⟩
    obtain ⟨rfl, -⟩ := splitOnce_eq_some hsplit
    have htext : w ++ String.singleton ' ' ++ rest ++ t = w ++ " " ++ (rest ++ t) :=
      String.append_assoc
    rw [lineEvidence, htext, Option.bind_eq_none_iff]
    intro ev hev
    rw [evidenceOf, Axiomctl.parseLine_kind hw hev, Option.isNone_iff_eq_none.1 hnone]
    rfl
  · cases h

/-- A line that starts with a kind that stands for no ring entry. -/
theorem printed_plain {s : String} (hs : plainHead s = true) (pieces : List Tx)
    (hp : ∀ t ∈ pieces, Flat t) : Printed (.str s :: (pieces ++ [.str "\n"])) [] := by
  obtain ⟨hflat, hchars, hnone⟩ := plainHead_spec hs
  have hall : ∀ t ∈ .str s :: pieces, Flat t := List.forall_mem_cons.2 ⟨hflat, hp⟩
  refine ⟨_, lines_one _ hall, ?_⟩
  have htext : String.ofList (serialChars (.str s :: pieces)) =
      s ++ String.ofList (serialChars pieces) := by
    rw [serialChars_cons, hchars, String.ofList_append, String.ofList_toList]
  rw [htext, List.filterMap_cons, hnone]
  rfl

theorem str_append_chars (s t : String) :
    (Tx.str (s ++ t)).chars = (Tx.str s).chars ++ (Tx.str t).chars := by
  rw [Tx.chars, String.toList_append, List.flatMap_append]
  rfl

/-- A literal line. -/
def plainLine (s : String) : Bool :=
  plainHead (String.ofList s.toList.dropLast) && s.toList.getLast? == some '\n'

theorem plainLine_spec {s : String} (h : plainLine s = true) :
    ∃ t, plainHead t = true ∧ s = t ++ "\n" := by
  rw [plainLine, Bool.and_eq_true, beq_iff_eq] at h
  obtain ⟨hhead, hlast⟩ := h
  refine ⟨_, hhead, ?_⟩
  rw [← String.toList_inj, String.toList_append, String.toList_ofList]
  exact (List.dropLast_append_getLast? '\n' hlast).symm

theorem printed_literal {s : String} (h : plainLine s = true) : Printed [.str s] [] := by
  obtain ⟨t, ht, rfl⟩ := plainLine_spec h
  refine (printed_plain ht [] flat_nil).congr ?_
  simp [serialChars, str_append_chars]

/-- A report about a task. -/
theorem printed_emit {pre name : String} (hpre : plainHead pre = true) (hname : Solid name) :
    Printed [.str pre, .str name, .str "\n"] [] :=
  printed_plain hpre [.str name] (List.forall_mem_singleton.2 hname.flat)

/-! ## Lines that stand for ring entries -/

/-- A line of a kind and fields. -/
theorem printed_fields (kind : String) (fields : List (String × String)) {e : EvKind}
    (hkind : KindWord kind) (he : evidenceKind kind = some e)
    (hcat : (Axiomctl.categorize kind fields).isSome = true) (hfields : ∀ f ∈ fields, Clean f) :
    Printed [.str (fieldLine kind fields), .str "\n"]
      [(e, (fields.find? fun f => f.1 == "task").map Prod.snd)] := by
  have hsingle : '\n' ∉ (fieldLine kind fields).toList := by
    have hwords : ∀ w ∈ fields.map token, Word w := by
      intro w hw
      obtain ⟨f, hf, rfl⟩ := List.mem_map.1 hw
      exact (hfields f hf).word
    rw [fieldLine, String.toList_append, List.mem_append, not_or]
    exact ⟨Solid.noNewline hkind.word.solid, newline_notMem_blankBefore hwords⟩
  have hflat : Flat (.str (fieldLine kind fields)) := by
    rw [Flat, str_chars hsingle]
    exact hsingle
  refine ⟨_, lines_one [.str (fieldLine kind fields)]
    (List.forall_mem_singleton.2 hflat), ?_⟩
  obtain ⟨category, hcategory⟩ := Option.isSome_iff_exists.1 hcat
  have htext : String.ofList (serialChars [.str (fieldLine kind fields)]) =
      fieldLine kind fields := by
    rw [serialChars_cons, str_chars hsingle, serialChars, List.flatMap_nil, List.append_nil,
      String.ofList_toList]
  rw [htext, List.filterMap_cons, lineEvidence, Axiomctl.parseLine_fieldLine hkind hfields,
    hcategory, Option.map_some, Option.bind_some, evidenceOf, he]
  rfl

theorem Solid.clean {key value : String} (hkey : Clean (key, "")) (hvalue : Solid value) :
    Clean (key, value) :=
  ⟨hkey.key, hkey.noEquals, hvalue⟩

theorem printed_exited {name : String} (hname : Solid name) :
    Printed [.str "TASK_EXITED task=", .str name, .str "\n"] [(.exited, some name)] := by
  have hfields : ∀ f ∈ [("task", name)], Clean f :=
    List.forall_mem_singleton.2 (hname.clean (by decide))
  refine (printed_fields "TASK_EXITED" _ (by decide) rfl rfl hfields).congr ?_
  simp [serialChars, fieldLine, token, Tx.chars]

theorem printed_watchdog {name : String} (hname : Solid name) :
    Printed [.str "FAULT type=WatchdogTimeout task=", .str name, .str "\n"]
      [(.fault, some name)] := by
  have hfields : ∀ f ∈ [("type", "WatchdogTimeout"), ("task", name)], Clean f :=
    List.forall_mem_cons.2 ⟨by decide, List.forall_mem_singleton.2 (hname.clean (by decide))⟩
  refine (printed_fields "FAULT" _ (by decide) rfl rfl hfields).congr ?_
  simp [serialChars, fieldLine, token, Tx.chars]

theorem printed_pageFault {name : String} (hname : Solid name) :
    Printed [.str "FAULT type=PageFault task=", .str name, .str "\n"]
      [(.fault, some name)] := by
  have hfields : ∀ f ∈ [("type", "PageFault"), ("task", name)], Clean f :=
    List.forall_mem_cons.2 ⟨by decide, List.forall_mem_singleton.2 (hname.clean (by decide))⟩
  refine (printed_fields "FAULT" _ (by decide) rfl rfl hfields).congr ?_
  simp [serialChars, fieldLine, token, Tx.chars]

/-- The kinds of the denial records. -/
def deniedKinds : List String :=
  ["CAP_DENIED", "DEVICE_DENIED", "MMIO_DENIED", "DMA_DENIED", "IRQ_DENIED"]

theorem deniedKinds_spec {kind : String} (h : kind ∈ deniedKinds) :
    KindWord kind ∧ evidenceKind kind = some .capDenied ∧
      ∀ fields, (Axiomctl.categorize kind fields).isSome = true := by
  simp only [deniedKinds, List.mem_cons, List.not_mem_nil, or_false] at h
  rcases h with rfl | rfl | rfl | rfl | rfl <;> exact ⟨by decide, rfl, fun _ => rfl⟩

theorem printed_denied {kind name reason : String} (hkind : kind ∈ deniedKinds)
    (hname : Solid name) (hreason : Solid reason) :
    Printed [.str kind, .str " task=", .str name, .str " reason=", .str reason, .str "\n"]
      [(.capDenied, some name)] := by
  obtain ⟨hword, hev, hcat⟩ := deniedKinds_spec hkind
  have hfields : ∀ f ∈ [("task", name), ("reason", reason)], Clean f :=
    List.forall_mem_cons.2 ⟨hname.clean (by decide),
      List.forall_mem_singleton.2 (hreason.clean (by decide))⟩
  refine (printed_fields kind _ hword hev (hcat _) hfields).congr ?_
  simp [serialChars, fieldLine, token, Tx.chars]

theorem printed_recovery {policy : String} (hpolicy : Solid policy) :
    Printed [.str "RECOVERY_APPLIED policy=", .str policy, .str "\n"] [(.recovery, none)] := by
  have hfields : ∀ f ∈ [("policy", policy)], Clean f :=
    List.forall_mem_singleton.2 (hpolicy.clean (by decide))
  refine (printed_fields "RECOVERY_APPLIED" _ (by decide) rfl rfl hfields).congr ?_
  simp [serialChars, fieldLine, token, Tx.chars]

end AxiomRT.Dispatch
