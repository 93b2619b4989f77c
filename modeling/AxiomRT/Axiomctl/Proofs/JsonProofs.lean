import AxiomRT.Axiomctl.Json
import AxiomRT.Lib.JsonReads

/-!
# Proofs: the JSON export of an event is read back

The escaping is one that a decoder undoes, and the text is an object of six members written with it.
So the text is JSON, has no control character, and determines the event.
-/

namespace AxiomRT.Axiomctl

open AxiomRT.Lib
open AxiomRT.Lib.Json (Escapes Reads quoted commaSep memberText memberValue)

/-! ## Escaping -/

/-- One escaped character as a list. -/
def esc (c : Char) : List Char := (jsonEscapeChar c).toList

theorem toList_jsonEscape (s : String) : (jsonEscape s).toList = s.toList.flatMap esc := by
  have hloop : ∀ (cs : List Char) (out : String),
      (cs.foldl (fun out c => out ++ jsonEscapeChar c) out).toList =
        out.toList ++ cs.flatMap esc := by
    intro cs
    induction cs with
    | nil =>
      intro out
      simp
    | cons c cs ih =>
      intro out
      rw [List.foldl_cons, ih, String.toList_append, List.flatMap_cons, List.append_assoc]
      rfl
  rw [jsonEscape, hloop]
  rfl

/-- A control character is written with two digits behind two zeros, which have its value. -/
theorem hex04_control : ∀ n < 0x20,
    (hex04 n).toList = ['0', '0', Nat.digitChar (n / 16), Nat.digitChar (n % 16)] ∧
      Json.hexValue (Nat.digitChar (n / 16)) = some (n / 16) ∧
      Json.hexValue (Nat.digitChar (n % 16)) = some (n % 16) := by
  decide

theorem unicode_hex04 {n : ℕ} (hn : n < 0x20) (rest : List Char) :
    Json.unicode ((hex04 n).toList ++ rest) = some (Char.ofNat n, rest) := by
  obtain ⟨hdigits, hhigh, hlow⟩ := hex04_control n hn
  have hzero : Json.hexValue '0' = some 0 := rfl
  have hvalue : ((0 * 16 + 0) * 16 + n / 16) * 16 + n % 16 = n := by omega
  have hhex : Json.hex4 ((hex04 n).toList ++ rest) = some (n, rest) := by
    rw [hdigits]
    simp only [List.cons_append, List.nil_append, Json.hex4, hzero, hhigh, hlow,
      Option.bind_eq_bind, Option.bind_some, hvalue]
  have hnotHigh : Json.isHigh n = false := by
    simp [Json.isHigh]
    omega
  have hnotLow : Json.isLow n = false := by
    simp [Json.isLow]
    omega
  simp only [Json.unicode, hhex, Option.bind_eq_bind, Option.bind_some, hnotHigh, hnotLow]
  rfl

/-- The three kinds of characters: those with an escape of their own, the other control characters,
and all others, which stand for themselves. -/
theorem esc_cases (c : Char) :
    (∃ e, Json.simpleEscape e = some c ∧ e ≠ 'u' ∧ 0x20 ≤ e.toNat ∧ esc c = ['\\', e]) ∨
    (c.toNat < 0x20 ∧ esc c = '\\' :: 'u' :: (hex04 c.toNat).toList) ∨
    (0x20 ≤ c.toNat ∧ c ≠ '"' ∧ c ≠ '\\' ∧ esc c = [c]) := by
  by_cases hquote : c = '"'
  · subst hquote
    exact .inl ⟨'"', by decide⟩
  by_cases hback : c = '\\'
  · subst hback
    exact .inl ⟨'\\', by decide⟩
  by_cases hn : c = '\n'
  · subst hn
    exact .inl ⟨'n', by decide⟩
  by_cases hr : c = '\r'
  · subst hr
    exact .inl ⟨'r', by decide⟩
  by_cases ht : c = '\t'
  · subst ht
    exact .inl ⟨'t', by decide⟩
  rw [esc, jsonEscapeChar, if_neg hquote, if_neg hback, if_neg hn, if_neg hr, if_neg ht]
  by_cases hcontrol : c.toNat < 0x20
  · rw [if_pos hcontrol, String.toList_append]
    exact .inr (.inl ⟨hcontrol, rfl⟩)
  · rw [if_neg hcontrol, String.toList_singleton]
    exact .inr (.inr ⟨Nat.le_of_not_lt hcontrol, hquote, hback, rfl⟩)

theorem esc_escapes : Escapes esc := by
  intro c rest
  rcases esc_cases c with ⟨e, hescape, hu, -, hesc⟩ | ⟨hcontrol, hesc⟩ | ⟨hc, hquote, hback, hesc⟩
  · rw [hesc, List.cons_append, Json.char, if_pos rfl, List.cons_append, Json.escape, if_neg hu,
      hescape]
    rfl
  · rw [hesc, List.cons_append, Json.char, if_pos rfl, List.cons_append, Json.escape, if_pos rfl,
      unicode_hex04 hcontrol, Char.ofNat_toNat]
  · rw [hesc, List.cons_append, Json.char, if_neg hback, if_pos ⟨hc, hquote⟩]
    rfl

/-- Nothing that is written is a control character. -/
theorem toNat_esc {c d : Char} (hd : d ∈ esc c) : 0x20 ≤ d.toNat := by
  rcases esc_cases c with ⟨e, -, -, he, hesc⟩ | ⟨hcontrol, hesc⟩ | ⟨hc, -, -, hesc⟩
  · rw [hesc, List.mem_cons, List.mem_singleton] at hd
    rcases hd with rfl | rfl
    · decide
    · exact he
  · have hdigit : ∀ n < 16, 0x20 ≤ (Nat.digitChar n).toNat := by decide
    rw [hesc, (hex04_control c.toNat hcontrol).1] at hd
    simp only [List.mem_cons, List.not_mem_nil, or_false] at hd
    rcases hd with rfl | rfl | rfl | rfl | rfl | rfl
    · decide
    · decide
    · decide
    · decide
    · exact hdigit _ (by omega)
    · exact hdigit _ (by omega)
  · rw [hesc, List.mem_singleton] at hd
    rw [hd]
    exact hc

/-! ## The object -/

/-- What the export of an event denotes. -/
def eventJson (ev : Event) : Json :=
  .obj [("seq", .num ev.seq 0), ("category", .str ev.category.name), ("kind", .str ev.kind),
    ("flags", .arr (ev.flags.map .str)), ("fields", .obj (ev.fields.map fun f => (f.1, .str f.2))),
    ("raw", .str ev.raw)]

/-- A string and a field as they are written. -/
def written (s : String) : List Char × Json := (quoted esc s.toList, .str s)

/-- A field as it is written: its name, its quoted value and the value. -/
def writtenField (f : String × String) : List Char × List Char × Json :=
  (f.1.toList, quoted esc f.2.toList, .str f.2)

/-- The members of the export. -/
def eventMembers (ev : Event) : List (List Char × List Char × Json) :=
  [(['s', 'e', 'q'], Nat.toDigits 10 ev.seq, .num ev.seq 0),
    (['c', 'a', 't', 'e', 'g', 'o', 'r', 'y'], quoted esc ev.category.name.toList,
      .str ev.category.name),
    (['k', 'i', 'n', 'd'], quoted esc ev.kind.toList, .str ev.kind),
    (['f', 'l', 'a', 'g', 's'], '[' :: (commaSep ((ev.flags.map written).map Prod.fst) ++ [']']),
      .arr ((ev.flags.map written).map Prod.snd)),
    (['f', 'i', 'e', 'l', 'd', 's'],
      '{' :: (commaSep ((ev.fields.map writtenField).map (memberText esc)) ++ ['}']),
      .obj ((ev.fields.map writtenField).map memberValue)),
    (['r', 'a', 'w'], quoted esc ev.raw.toList, .str ev.raw)]

theorem reads_string (s : String) : Reads (quoted esc s.toList) (.str s) := by
  have h := esc_escapes.reads s.toList
  rwa [String.ofList_toList] at h

theorem eventMembers_reads (ev : Event) : ∀ m ∈ eventMembers ev, Reads m.2.1 m.2.2 := by
  have hflags : ∀ p ∈ ev.flags.map written, Reads p.1 p.2 := by
    intro p hp
    obtain ⟨s, -, rfl⟩ := List.mem_map.1 hp
    exact reads_string s
  have hfields : ∀ m ∈ ev.fields.map writtenField, Reads m.2.1 m.2.2 := by
    intro m hm
    obtain ⟨f, -, rfl⟩ := List.mem_map.1 hm
    exact reads_string f.2
  simp only [eventMembers, List.forall_mem_cons, List.not_mem_nil, false_imp_iff, implies_true,
    and_true]
  exact ⟨Json.reads_nat ev.seq, reads_string _, reads_string _, Reads.array hflags,
    esc_escapes.object hfields, reads_string _⟩

theorem eventMembers_value (ev : Event) :
    Json.obj ((eventMembers ev).map memberValue) = eventJson ev := by
  simp [eventMembers, eventJson, memberValue, written, writtenField, Function.comp_def]

/-- The names of the categories need no escaping. -/
theorem flatMap_esc_name (c : Category) : c.name.toList.flatMap esc = c.name.toList := by
  cases c <;> decide

/-- The texts of the flags and of the fields. -/
theorem toList_flags (ev : Event) :
    (String.intercalate "," (ev.flags.map fun f => "\"" ++ jsonEscape f ++ "\"")).toList =
      commaSep ((ev.flags.map written).map Prod.fst) := by
  rw [String.toList_intercalate, List.map_map, List.map_map]
  have htext : ∀ f : String, ("\"" ++ jsonEscape f ++ "\"").toList = quoted esc f.toList := by
    intro f
    simp [quoted, toList_jsonEscape]
  simp only [Function.comp_def, htext, written]
  rfl

theorem toList_fields (ev : Event) :
    (String.intercalate "," (ev.fields.map fun f =>
        "\"" ++ jsonEscape f.1 ++ "\":\"" ++ jsonEscape f.2 ++ "\"")).toList =
      commaSep ((ev.fields.map writtenField).map (memberText esc)) := by
  rw [String.toList_intercalate, List.map_map, List.map_map]
  have htext : ∀ f : String × String,
      ("\"" ++ jsonEscape f.1 ++ "\":\"" ++ jsonEscape f.2 ++ "\"").toList =
        memberText esc (writtenField f) := by
    intro f
    simp [memberText, writtenField, quoted, toList_jsonEscape]
  simp only [Function.comp_def, htext]
  rfl

/-- The constant parts of the format: the names of the members with what stands around them. -/
theorem toList_format :
    "\x7b\"seq\":".toList = '{' :: '"' :: (['s', 'e', 'q'].flatMap esc ++ ['"', ':']) ∧
    ",\"category\":\"".toList =
      ',' :: '"' :: (['c', 'a', 't', 'e', 'g', 'o', 'r', 'y'].flatMap esc ++ ['"', ':', '"']) ∧
    "\",\"kind\":\"".toList =
      '"' :: ',' :: '"' :: (['k', 'i', 'n', 'd'].flatMap esc ++ ['"', ':', '"']) ∧
    "\",\"flags\":[".toList =
      '"' :: ',' :: '"' :: (['f', 'l', 'a', 'g', 's'].flatMap esc ++ ['"', ':', '[']) ∧
    "],\"fields\":\x7b".toList =
      ']' :: ',' :: '"' :: (['f', 'i', 'e', 'l', 'd', 's'].flatMap esc ++ ['"', ':', '{']) ∧
    "\x7d,\"raw\":\"".toList =
      '}' :: ',' :: '"' :: (['r', 'a', 'w'].flatMap esc ++ ['"', ':', '"']) ∧
    "\"\x7d".toList = ['"', '}'] := by
  decide

/-- The export is the object of these members. -/
theorem toList_toJson (ev : Event) :
    (toJson ev).toList = '{' :: (commaSep ((eventMembers ev).map (memberText esc)) ++ ['}']) := by
  obtain ⟨hseq, hcategory, hkind, hflags, hfields, hraw, hend⟩ := toList_format
  -- The texts on the left are not compared with the right side while they are rewritten.
  generalize htext : '{' :: (commaSep ((eventMembers ev).map (memberText esc)) ++ ['}']) = text
  unfold toJson
  simp only [String.toList_append, hseq, hcategory, hkind, hflags, hfields, hraw, hend,
    toList_flags, toList_fields, toList_jsonEscape, Nat.toList_repr, List.append_assoc,
    List.cons_append, List.nil_append]
  rw [← htext]
  simp only [eventMembers, List.map_cons, List.map_nil, Json.commaSep_cons_cons,
    Json.commaSep_singleton, memberText, quoted, flatMap_esc_name, List.append_assoc,
    List.cons_append, List.nil_append]

theorem toJson_reads (ev : Event) : Reads (toJson ev).toList (eventJson ev) := by
  rw [toList_toJson, ← eventMembers_value]
  exact esc_escapes.object (eventMembers_reads ev)

/-! ## No control characters -/

/-- Every character of the text may stand on the line. -/
def Printable (cs : List Char) : Prop := ∀ c ∈ cs, 0x20 ≤ c.toNat

theorem Printable.append {cs ds : List Char} (hcs : Printable cs) (hds : Printable ds) :
    Printable (cs ++ ds) := by
  intro c hc
  rcases List.mem_append.1 hc with hc | hc
  · exact hcs c hc
  · exact hds c hc

theorem Printable.cons {c : Char} {cs : List Char} (hc : 0x20 ≤ c.toNat) (hcs : Printable cs) :
    Printable (c :: cs) :=
  List.forall_mem_cons.2 ⟨hc, hcs⟩

theorem printable_nil : Printable [] := by
  intro c hc
  cases hc

theorem printable_quoted (s : List Char) : Printable (quoted esc s) := by
  refine .cons (by decide) (.append ?_ (.cons (by decide) printable_nil))
  intro c hc
  obtain ⟨d, -, hd⟩ := List.mem_flatMap.1 hc
  exact toNat_esc hd

theorem printable_commaSep {ts : List (List Char)} (hts : ∀ t ∈ ts, Printable t) :
    Printable (commaSep ts) := by
  induction ts with
  | nil => exact printable_nil
  | cons t ts ih =>
    obtain ⟨ht, hts⟩ := List.forall_mem_cons.1 hts
    cases ts with
    | nil =>
      rw [Json.commaSep_singleton]
      exact ht
    | cons t' ts =>
      rw [Json.commaSep_cons_cons]
      exact ht.append (.cons (by decide) (ih hts))

theorem printable_memberText {m : List Char × List Char × Json} (h : Printable m.2.1) :
    Printable (memberText esc m) :=
  (printable_quoted m.1).append (.cons (by decide) h)

theorem printable_toDigits (n : ℕ) : Printable (Nat.toDigits 10 n) := by
  intro c hc
  obtain ⟨hlo, -⟩ := Char.isDigit_iff_toNat.1 (Json.isDigit_toDigits hc)
  have hzero : 48 ≤ c.toNat := hlo
  omega

theorem toJson_printable (ev : Event) : Printable (toJson ev).toList := by
  have hflags : ∀ t ∈ (ev.flags.map written).map Prod.fst, Printable t := by
    intro t ht
    obtain ⟨p, hp, rfl⟩ := List.mem_map.1 ht
    obtain ⟨s, -, rfl⟩ := List.mem_map.1 hp
    exact printable_quoted _
  have hfields : ∀ t ∈ (ev.fields.map writtenField).map (memberText esc), Printable t := by
    intro t ht
    obtain ⟨m, hm, rfl⟩ := List.mem_map.1 ht
    obtain ⟨f, -, rfl⟩ := List.mem_map.1 hm
    exact printable_memberText (printable_quoted _)
  have hmembers : ∀ m ∈ eventMembers ev, Printable m.2.1 := by
    simp only [eventMembers, List.forall_mem_cons, List.not_mem_nil, false_imp_iff, implies_true,
      and_true]
    exact ⟨printable_toDigits ev.seq, printable_quoted _, printable_quoted _,
      .cons (by decide) ((printable_commaSep hflags).append (.cons (by decide) printable_nil)),
      .cons (by decide) ((printable_commaSep hfields).append (.cons (by decide) printable_nil)),
      printable_quoted _⟩
  rw [toList_toJson]
  refine .cons (by decide) (.append (printable_commaSep ?_) (.cons (by decide) printable_nil))
  intro t ht
  obtain ⟨m, hm, rfl⟩ := List.mem_map.1 ht
  exact printable_memberText (hmembers m hm)

/-! ## The event is determined -/

theorem Category.name_inj {c c' : Category} (h : c.name = c'.name) : c = c' := by
  revert h
  cases c <;> cases c' <;> decide

theorem eventJson_inj {ev ev' : Event} (h : eventJson ev = eventJson ev') : ev = ev' := by
  have hstr : Function.Injective Json.str := fun s s' hs => Json.str.inj hs
  have hfield : Function.Injective fun f : String × String => (f.1, Json.str f.2) := by
    intro f f' hf
    obtain ⟨hkey, hvalue⟩ := Prod.mk.inj hf
    exact Prod.ext hkey (hstr hvalue)
  simp only [eventJson, Json.obj.injEq, List.cons.injEq, Prod.mk.injEq, true_and, and_true,
    Json.num.injEq, Json.str.injEq, Json.arr.injEq, Int.natCast_inj] at h
  obtain ⟨hseq, hcategory, hkind, hflags, hfields, hraw⟩ := h
  cases ev
  cases ev'
  obtain rfl := hseq
  obtain rfl := Category.name_inj hcategory
  obtain rfl := hkind
  obtain rfl := List.map_injective_iff.2 hstr hflags
  obtain rfl := List.map_injective_iff.2 hfield hfields
  obtain rfl := hraw
  rfl

/-- The export of every event is one line without control characters, is JSON, and is decoded to
exactly the contents of the event, so that no other event has the same export. -/
theorem toJson_roundTrip (ev : Event) :
    (∀ c ∈ (toJson ev).toList, 0x20 ≤ c.toNat) ∧
      Json.Denotes (toJson ev).toList (eventJson ev) ∧
      Json.decode (toJson ev) = some (eventJson ev) ∧
      ∀ ev', toJson ev' = toJson ev → ev' = ev := by
  have hdecode : ∀ e : Event, Json.decode (toJson e) = some (eventJson e) :=
    fun e => (toJson_reads e).decode
  refine ⟨toJson_printable ev, Json.decode_sound (hdecode ev), hdecode ev, ?_⟩
  intro ev' h
  have hsame := hdecode ev'
  rw [h, hdecode ev] at hsame
  exact (eventJson_inj (Option.some.inj hsame)).symm

end AxiomRT.Axiomctl
