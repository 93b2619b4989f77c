import AxiomRT.Axiomctl.Events

/-!
# Proofs: what the host's parser makes of a line and of a log

A monitor line is read back field by field; a whole log is read without losing or inventing a token.
-/

namespace AxiomRT.Axiomctl

open AxiomRT.Lib

/-! ## What the parser makes of a monitor line -/

/-- A field as it stands on the line. -/
def token (f : String × String) : String := f.1 ++ String.singleton '=' ++ f.2

/-- A field whose token is one word that is split at the right place. -/
structure Clean (f : String × String) : Prop where
  key : Word f.1
  noEquals : '=' ∉ f.1.toList
  value : ∀ c ∈ f.2.toList, isWhitespace c = false

instance (f : String × String) : Decidable (Clean f) :=
  decidable_of_iff (Word f.1 ∧ ¬ f.1.toList.contains '=' = true ∧
      (f.2.toList.all fun c => !isWhitespace c) = true)
    ⟨fun h => ⟨h.1, List.contains_iff_mem.not.1 h.2.1, solid_iff.1 h.2.2⟩,
      fun h => ⟨h.key, List.contains_iff_mem.not.2 h.noEquals, solid_iff.2 h.value⟩⟩

theorem Clean.word {f : String × String} (h : Clean f) : Word (token f) := by
  have heq : ∀ c ∈ (String.singleton '=').toList, isWhitespace c = false :=
    solid_iff.1 rfl
  exact (h.key.append heq).append h.value

theorem addToken_token {f : String × String} (h : Clean f)
    (acc : List String × List (String × String)) :
    addToken acc (token f) = (acc.1, acc.2 ++ [f]) := by
  have hkey : f.1.isEmpty = false := by
    rw [Bool.eq_false_iff, ne_eq, String.isEmpty_iff, ← String.toList_eq_nil_iff]
    exact h.key.ne_nil
  simp only [addToken, token, splitOnce_append h.noEquals, hkey]
  rfl

/-- The token loop turns tokens of fields into these fields. -/
theorem foldl_addToken {fields : List (String × String)} (h : ∀ f ∈ fields, Clean f)
    (acc : List String × List (String × String)) :
    (fields.map token).foldl addToken acc = (acc.1, acc.2 ++ fields) := by
  induction fields generalizing acc with
  | nil => simp
  | cons f fields ih =>
    have hf : Clean f := h f List.mem_cons_self
    have hfields : ∀ g ∈ fields, Clean g := fun g hg => h g (List.mem_cons_of_mem f hg)
    rw [List.map_cons, List.foldl_cons, addToken_token hf, ih hfields, List.append_assoc,
      List.singleton_append]

/-- A line `EVT type=.. key=value ..`. -/
def monitorLine (fields : List (String × String)) : String :=
  "EVT" ++ blankBefore (fields.map token)

theorem parseLine_monitorLine {kind : String} {fields : List (String × String)}
    (hkind : Clean ("type", kind)) (hfields : ∀ f ∈ fields, Clean f) :
    parseLine (monitorLine (("type", kind) :: fields)) =
      (categorize kind fields).map fun category =>
        { seq := 0, category, kind, flags := [], fields
          raw := monitorLine (("type", kind) :: fields) } := by
  have hall : ∀ f ∈ ("type", kind) :: fields, Clean f := List.forall_mem_cons.2 ⟨hkind, hfields⟩
  have hevt : Word "EVT" := by decide
  have hwords : ∀ w ∈ (("type", kind) :: fields).map token, Word w := by
    intro w hw
    obtain ⟨f, hf, rfl⟩ := List.mem_map.1 hw
    exact (hall f hf).word
  have htrim : trimEnd (monitorLine (("type", kind) :: fields)) =
      monitorLine (("type", kind) :: fields) := trimEnd_words hevt hwords
  have hblank : (trim (monitorLine (("type", kind) :: fields))).isEmpty = false := by
    rw [Bool.eq_false_iff, ne_eq, String.isEmpty_iff]
    exact trim_append_ne hevt _
  have hbanner : monitorLine (("type", kind) :: fields) ≠ "AxiomRT kernel booted" := by
    intro h
    have hhead := congrArg (fun s => s.toList.head?) h
    simp [monitorLine] at hhead
  have htokens : splitWhitespace (monitorLine (("type", kind) :: fields)) =
      "EVT" :: (("type", kind) :: fields).map token := splitWhitespace_words hevt hwords
  have hline : ∀ tokens, lineKind "EVT" tokens = some ("EVT", tokens) := fun _ => rfl
  have hloop := foldl_addToken hall ([], [])
  have htype : effectiveKind "EVT" (("type", kind) :: fields) = some (kind, fields) := by
    simp [effectiveKind, List.findIdx?_cons]
  simp only [parseLine, htrim, hblank, Bool.false_eq_true, if_false, hbanner, htokens, hline,
    Option.bind_eq_bind, Option.bind_some, hloop, List.nil_append, htype]
  cases categorize kind fields <;> rfl

/-! ## Tokens -/

/-- The token is read as a field: it has a key. -/
def isField (tok : String) : Bool :=
  match splitOnce tok '=' with
  | some (k, _) => !k.isEmpty
  | none => false

/-- A field that was read from a token. -/
structure ReadField (f : String × String) : Prop where
  key : f.1.isEmpty = false
  noEquals : '=' ∉ f.1.toList

theorem token_inj {f g : String × String} (hf : '=' ∉ f.1.toList) (hg : '=' ∉ g.1.toList)
    (h : token f = token g) : f = g := by
  have hsplit := splitOnce_append hf f.2
  rw [← token, h, token, splitOnce_append hg] at hsplit
  exact (Option.some.inj hsplit).symm

theorem isField_token {f : String × String} (h : ReadField f) : isField (token f) = true := by
  simp only [isField, token, splitOnce_append h.noEquals, h.key]
  rfl

/-- What one token adds, and where. -/
theorem addToken_cases (acc : List String × List (String × String)) (tok : String) :
    (isField tok = false ∧ addToken acc tok = (acc.1 ++ [tok], acc.2)) ∨
    ∃ f, isField tok = true ∧ ReadField f ∧ token f = tok ∧
      addToken acc tok = (acc.1, acc.2 ++ [f]) := by
  rw [isField, addToken]
  cases hsplit : splitOnce tok '=' with
  | none => exact .inl ⟨rfl, rfl⟩
  | some parts =>
    obtain ⟨k, v⟩ := parts
    obtain ⟨htok, hkey⟩ := splitOnce_eq_some hsplit
    cases hempty : k.isEmpty with
    | true => exact .inl ⟨by simp [hempty], by simp [hempty]⟩
    | false =>
      exact .inr ⟨(k, v), by simp [hempty], ⟨hempty, hkey⟩, htok.symm, by simp [hempty]⟩

/-- The token loop sorts the tokens into flags and fields, each in their order. -/
theorem foldl_addToken_sorts (toks : List String) (acc : List String × List (String × String)) :
    ∃ fields, toks.foldl addToken acc =
        (acc.1 ++ toks.filter (fun tok => !isField tok), acc.2 ++ fields) ∧
      fields.map token = toks.filter isField ∧ ∀ f ∈ fields, ReadField f := by
  induction toks generalizing acc with
  | nil => exact ⟨[], by simp, rfl, by simp⟩
  | cons tok toks ih =>
    rw [List.foldl_cons]
    rcases addToken_cases acc tok with ⟨hflag, hadd⟩ | ⟨f, hfield, hread, rfl, hadd⟩
    · obtain ⟨fields, hloop, htokens, hreads⟩ := ih (acc.1 ++ [tok], acc.2)
      refine ⟨fields, ?_, ?_, hreads⟩
      · rw [hadd, hloop]
        simp [hflag]
      · rw [htokens]
        simp [hflag]
    · obtain ⟨fields, hloop, htokens, hreads⟩ := ih (acc.1, acc.2 ++ [f])
      refine ⟨f :: fields, ?_, ?_, List.forall_mem_cons.2 ⟨hread, hreads⟩⟩
      · rw [hadd, hloop]
        simp [hfield]
      · rw [List.map_cons, htokens]
        simp [hfield]

/-! ## The type of a monitor line -/

theorem noEquals_type : '=' ∉ "type".toList := by decide

/-- Taking the first `type` field out takes the first token `type=<kind>` out. -/
theorem map_token_eraseIdx {fields : List (String × String)} (hreads : ∀ f ∈ fields, ReadField f)
    {pos : ℕ} (hpos : fields.findIdx? (fun f => f.1 == "type") = some pos)
    {kind : String × String} (hkind : fields[pos]? = some kind) :
    kind.1 = "type" ∧
      (fields.eraseIdx pos).map token = (fields.map token).erase (token ("type", kind.2)) := by
  induction fields generalizing pos with
  | nil => cases hpos
  | cons f fields ih =>
    obtain ⟨hread, hreads⟩ := List.forall_mem_cons.1 hreads
    rw [List.findIdx?_cons] at hpos
    cases htype : f.1 == "type" with
    | true =>
      rw [htype, if_pos rfl] at hpos
      obtain rfl := Option.some.inj hpos
      obtain rfl : f = kind := Option.some.inj hkind
      have hkey : f.1 = "type" := beq_iff_eq.1 htype
      refine ⟨hkey, ?_⟩
      rw [← hkey, List.map_cons, List.erase_cons_head]
      rfl
    | false =>
      rw [htype, if_neg Bool.false_ne_true, Option.map_eq_some_iff] at hpos
      obtain ⟨pos, hpos, rfl⟩ := hpos
      obtain ⟨hkey, herase⟩ := ih hreads hpos hkind
      refine ⟨hkey, ?_⟩
      have hne : token f ≠ token ("type", kind.2) := by
        intro heq
        have hsame := token_inj hread.noEquals noEquals_type heq
        rw [hsame] at htype
        cases htype
      rw [List.eraseIdx_cons_succ, List.map_cons, List.map_cons, herase,
        List.erase_cons_tail (by simpa using hne)]

/-- The tokens the flags and fields of an event are taken from: those of its line without the kind,
which is the first token unless that is a field, and for a monitor line the first token
`type=<kind>`. -/
def bodyTokens (e : Event) : List String :=
  match splitWhitespace e.raw with
  | [] => []
  | first :: tokens =>
    if '=' ∈ first.toList then first :: tokens
    else if first = "EVT" then tokens.erase (token ("type", e.kind))
    else tokens

/-- Every token is used once: as a flag, or as a field, each in their order. -/
structure Accounted (e : Event) : Prop where
  flags : e.flags = (bodyTokens e).filter fun tok => !isField tok
  fields : e.fields.map token = (bodyTokens e).filter isField

/-- The number of an event plays no part in its tokens. -/
theorem Accounted.withSeq {e : Event} (h : Accounted e) (n : ℕ) :
    Accounted { e with seq := n } where
  flags := h.flags
  fields := h.fields

/-- The type of a monitor line is taken from the fields and from the tokens alike. -/
theorem effectiveKind_cases {kind kind' : String} {fields fields' : List (String × String)}
    (hreads : ∀ f ∈ fields, ReadField f) (h : effectiveKind kind fields = some (kind', fields'))
    {toks : List String} (htoks : fields.map token = toks.filter isField) :
    (kind = "EVT" ∧ fields'.map token = (toks.erase (token ("type", kind'))).filter isField ∧
      (toks.erase (token ("type", kind'))).filter (fun tok => !isField tok) =
        toks.filter fun tok => !isField tok) ∨
    (kind ≠ "EVT" ∧ kind' = kind ∧ fields' = fields) := by
  rw [effectiveKind] at h
  by_cases hevt : kind = "EVT"
  · rw [if_pos hevt] at h
    simp only [Option.bind_eq_bind, Option.bind_eq_some_iff, Option.some.injEq,
      Prod.mk.injEq] at h
    obtain ⟨pos, hpos, type, htype, rfl, rfl⟩ := h
    obtain ⟨hkey, herase⟩ := map_token_eraseIdx hreads hpos htype
    have hfield : isField (token ("type", type.2)) = true := by
      have hmem : type ∈ fields := List.mem_of_getElem? htype
      have heq : ("type", type.2) = type := by rw [← hkey]
      rw [heq]
      exact isField_token (hreads type hmem)
    refine .inl ⟨hevt, ?_, ?_⟩
    · rw [herase, htoks, List.erase_filter]
    · rw [← List.erase_filter, List.erase_of_not_mem]
      simp [hfield]
  · rw [if_neg hevt] at h
    obtain ⟨rfl, rfl⟩ := Prod.mk.inj (Option.some.inj h)
    exact .inr ⟨hevt, rfl, rfl⟩

/-! ## One line -/

theorem lineKind_cases {first kind : String} {tokens rest : List String}
    (h : lineKind first tokens = some (kind, rest)) :
    ('=' ∈ first.toList ∧ kind = "BOOT_INFO" ∧ rest = first :: tokens) ∨
    ('=' ∉ first.toList ∧ kind = first ∧ rest = tokens) := by
  rw [lineKind] at h
  cases hsplit : splitOnce first '=' with
  | none =>
    rw [hsplit] at h
    obtain ⟨rfl, rfl⟩ := Prod.mk.inj (Option.some.inj h)
    exact .inr ⟨splitOnce_eq_none.1 hsplit, rfl, rfl⟩
  | some parts =>
    obtain ⟨k, v⟩ := parts
    rw [hsplit] at h
    obtain ⟨hfirst, -⟩ := splitOnce_eq_some hsplit
    have hmem : '=' ∈ first.toList := by
      rw [hfirst]
      simp
    by_cases hempty : (k.isEmpty || v.isEmpty) = true
    · simp only [hempty, if_true] at h
      cases h
    · simp only [hempty] at h
      obtain ⟨rfl, rfl⟩ := Prod.mk.inj (Option.some.inj h)
      exact .inl ⟨hmem, rfl, rfl⟩

/-- The steps of a successful parse. -/
theorem parseLine_eq_some {line : String} {e : Event} (h : parseLine line = some e) :
    (trim (trimEnd line)).isEmpty = false ∧ e.raw = trimEnd line ∧
      (e.raw = "AxiomRT kernel booted" ∨
      ∃ first tokens kind rest, splitWhitespace e.raw = first :: tokens ∧
        lineKind first tokens = some (kind, rest) ∧ e.flags = (rest.foldl addToken ([], [])).1 ∧
        effectiveKind kind (rest.foldl addToken ([], [])).2 = some (e.kind, e.fields)) := by
  rw [parseLine] at h
  cases hblank : (trim (trimEnd line)).isEmpty with
  | true =>
    simp only [hblank, if_true] at h
    cases h
  | false =>
    simp only [hblank, Bool.false_eq_true, if_false] at h
    refine ⟨rfl, ?_⟩
    by_cases hbanner : trimEnd line = "AxiomRT kernel booted"
    · rw [if_pos hbanner] at h
      obtain rfl := Option.some.inj h
      exact ⟨rfl, .inl hbanner⟩
    · rw [if_neg hbanner] at h
      cases htokens : splitWhitespace (trimEnd line) with
      | nil =>
        rw [htokens] at h
        cases h
      | cons first tokens =>
        rw [htokens] at h
        simp only [Option.bind_eq_bind, Option.bind_eq_some_iff, Option.some.injEq] at h
        obtain ⟨⟨kind, rest⟩, hkind, ⟨kind', fields⟩, heffective, category, -, rfl⟩ := h
        exact ⟨rfl, .inr ⟨first, tokens, kind, rest, htokens, hkind, rfl, heffective⟩⟩

/-- A line that is not the banner is accounted for token by token. -/
theorem parseLine_accounted {line : String} {e : Event} (h : parseLine line = some e)
    (hbanner : e.raw ≠ "AxiomRT kernel booted") : Accounted e := by
  obtain ⟨-, -, hraw | ⟨first, tokens, kind, rest, hsplit, hkind, hflags, heffective⟩⟩ :=
    parseLine_eq_some h
  · exact absurd hraw hbanner
  obtain ⟨fields, hloop, htoks, hreads⟩ := foldl_addToken_sorts rest ([], [])
  rw [hloop] at hflags heffective
  rw [List.nil_append] at hflags heffective
  rcases lineKind_cases hkind with ⟨hmem, rfl, rfl⟩ | ⟨hmem, rfl, rfl⟩
  · -- A boot line keeps its first token and is no monitor line.
    have hbody : bodyTokens e = first :: tokens := by
      rw [bodyTokens, hsplit]
      exact if_pos hmem
    rcases effectiveKind_cases hreads heffective htoks with ⟨hevt, -⟩ | ⟨-, -, hfields⟩
    · exact absurd hevt (by decide)
    · exact ⟨by rw [hbody, hflags], by rw [hbody, hfields, htoks]⟩
  · rcases effectiveKind_cases hreads heffective htoks with ⟨hevt, herase, hkept⟩ |
      ⟨hevt, -, hfields⟩
    · have hbody : bodyTokens e = rest.erase (token ("type", e.kind)) := by
        rw [bodyTokens, hsplit]
        exact (if_neg hmem).trans (if_pos hevt)
      exact ⟨by rw [hbody, hflags, hkept], by rw [hbody, herase]⟩
    · have hbody : bodyTokens e = rest := by
        rw [bodyTokens, hsplit]
        exact (if_neg hmem).trans (if_neg hevt)
      exact ⟨by rw [hbody, hflags], by rw [hbody, hfields, htoks]⟩

/-- A blank line is not an event. -/
theorem parseLine_blank {line : String} (h : (trim line).isEmpty = true) :
    parseLine line = none := by
  have htrim : trim (trimEnd line) = "" := by
    rw [String.isEmpty_iff] at h
    rw [trimEnd_eq_empty (trim_eq_empty.1 h)]
    rfl
  rw [parseLine, htrim]
  rfl

/-! ## The whole log -/

/-- The number of lines that are neither blank nor parsed. -/
def skippedLines (ls : List String) : ℕ :=
  (ls.filter fun line => (parseLine line).isNone && !(trim line).isEmpty).length

/-- The loop appends the events of the lines, numbered on, and counts what it skips. -/
theorem foldl_logLine (ls : List String) (out : ParsedLog) :
    ls.foldl logLine out =
      ⟨out.events ++ (ls.filterMap parseLine).mapIdx fun i ev =>
          { ev with seq := out.events.length + i + 1 },
        out.skipped + skippedLines ls⟩ := by
  induction ls generalizing out with
  | nil => simp [skippedLines]
  | cons line ls ih =>
    rw [List.foldl_cons, ih, logLine]
    cases hline : parseLine line with
    | some ev =>
      simp [skippedLines, hline, List.mapIdx_cons, Nat.add_assoc, Nat.add_comm 1]
    | none =>
      cases hblank : (trim line).isEmpty with
      | true => simp [skippedLines, hline, hblank]
      | false => simp [skippedLines, hline, hblank, Nat.add_assoc, Nat.add_comm 1]

theorem parseLog_events (text : String) : (parseLog text).events =
    ((lines text).filterMap parseLine).mapIdx fun i ev => { ev with seq := i + 1 } := by
  rw [parseLog, foldl_logLine]
  simp

theorem parseLog_skipped (text : String) :
    (parseLog text).skipped = skippedLines (lines text) := by
  rw [parseLog, foldl_logLine]
  simp

/-- Each line is blank, an event or skipped. -/
theorem length_filterMap_add_skippedLines (ls : List String) :
    (ls.filterMap parseLine).length + skippedLines ls =
      (ls.filter fun line => !(trim line).isEmpty).length := by
  induction ls with
  | nil => rfl
  | cons line ls ih =>
    rw [skippedLines] at ih ⊢
    cases hline : parseLine line with
    | some ev =>
      have hfull : (trim line).isEmpty = false := by
        rw [Bool.eq_false_iff]
        intro hblank
        rw [parseLine_blank hblank] at hline
        cases hline
      simp [hline, hfull]
      omega
    | none =>
      cases hblank : (trim line).isEmpty with
      | true => simpa [hline, hblank] using ih
      | false =>
        simp [hline, hblank]
        omega

/-- The lines that became events, in their order. -/
def eventLines (ls : List String) : List String := ls.filter fun line => (parseLine line).isSome

/-- Each event keeps its line, without the white space at the end. -/
theorem map_raw_filterMap (ls : List String) :
    (ls.filterMap parseLine).map Event.raw = (eventLines ls).map trimEnd := by
  induction ls with
  | nil => rfl
  | cons line ls ih =>
    rw [eventLines] at ih ⊢
    cases hline : parseLine line with
    | none => simpa [hline] using ih
    | some ev =>
      have hraw : ev.raw = trimEnd line := (parseLine_eq_some hline).2.1
      simp [hline, hraw, ih]

/-- Parsing a log loses and invents nothing: events and skipped lines are the lines that are not
blank, the events are numbered from 1 in the order of their lines, each with its line as it stood
without the white space at its end, and the tokens of every line but the boot banner are its flags
and fields. -/
theorem parseLog_lossless (text : String) :
    (parseLog text).events.length + (parseLog text).skipped =
        ((lines text).filter fun line => !(trim line).isEmpty).length ∧
      (parseLog text).events.map Event.seq = List.range' 1 (parseLog text).events.length ∧
      (parseLog text).events.map Event.raw = (eventLines (lines text)).map trimEnd ∧
      ∀ e ∈ (parseLog text).events, e.raw ≠ "AxiomRT kernel booted" → Accounted e := by
  have hevents := parseLog_events text
  refine ⟨?_, ?_, ?_, ?_⟩
  · rw [hevents, parseLog_skipped, List.length_mapIdx]
    exact length_filterMap_add_skippedLines (lines text)
  · refine List.ext_getElem (by simp) fun i h₁ h₂ => ?_
    rw [List.length_range'] at h₂
    simp only [hevents, List.getElem_map, List.getElem_mapIdx, List.getElem_range']
    omega
  · rw [hevents, ← map_raw_filterMap]
    refine List.ext_getElem (by simp) fun i h₁ h₂ => ?_
    simp
  · intro e he hbanner
    rw [hevents, List.mem_mapIdx] at he
    obtain ⟨i, hi, rfl⟩ := he
    have hmem : ((lines text).filterMap parseLine)[i] ∈ (lines text).filterMap parseLine :=
      List.getElem_mem hi
    obtain ⟨line, -, hline⟩ := List.mem_filterMap.1 hmem
    exact (parseLine_accounted hline hbanner).withSeq (i + 1)

end AxiomRT.Axiomctl
