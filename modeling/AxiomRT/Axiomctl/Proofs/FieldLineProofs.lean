import AxiomRT.Axiomctl.Proofs.EventProofs
import AxiomRT.Lib.Lines

/-!
# Proofs: lines of a kind and fields

A line `KIND key=value ..` is parsed to an event of this kind with these fields. Of any line that
starts with a kind, at most the kind is known to be parsed.
-/

namespace AxiomRT.Axiomctl

open AxiomRT.Lib

/-- A word that the parser takes for the kind of its line. -/
structure KindWord (w : String) : Prop where
  word : Word w
  noEquals : '=' ∉ w.toList
  plain : w ≠ "EVT"
  banner : w ≠ "AxiomRT"

instance (w : String) : Decidable (KindWord w) :=
  decidable_of_iff (Word w ∧ ¬ w.toList.contains '=' = true ∧ w ≠ "EVT" ∧ w ≠ "AxiomRT")
    ⟨fun h => ⟨h.1, List.contains_iff_mem.not.1 h.2.1, h.2.2.1, h.2.2.2⟩,
      fun h => ⟨h.word, List.contains_iff_mem.not.2 h.noEquals, h.plain, h.banner⟩⟩

theorem lineKind_word {w : String} (hw : KindWord w) (tokens : List String) :
    lineKind w tokens = some (w, tokens) := by
  rw [lineKind, splitOnce_eq_none.2 hw.noEquals]

/-- The first word of a line is the kind of its event. -/
theorem parseLine_kind {w s : String} (hw : KindWord w) {e : Event}
    (h : parseLine (w ++ " " ++ s) = some e) : e.kind = w := by
  obtain ⟨-, hraw, hbanner | ⟨first, tokens, kind, rest, hsplit, hkind, -, heff⟩⟩ :=
    parseLine_eq_some h
  · have hwords : splitWhitespace e.raw = w :: splitWhitespace s := by
      rw [hraw, splitWhitespace_trimEnd, splitWhitespace_append hw.word]
    have hthree : splitWhitespace "AxiomRT kernel booted" = ["AxiomRT", "kernel", "booted"] := by
      decide
    rw [hbanner, hthree] at hwords
    exact absurd (List.cons.inj hwords).1.symm hw.banner
  · rw [hraw, splitWhitespace_trimEnd, splitWhitespace_append hw.word] at hsplit
    obtain ⟨rfl, rfl⟩ := List.cons.inj hsplit
    rw [lineKind_word hw] at hkind
    obtain ⟨rfl, rfl⟩ := Prod.mk.inj (Option.some.inj hkind)
    rw [effectiveKind, if_neg hw.plain] at heff
    exact (Prod.mk.inj (Option.some.inj heff)).1.symm

/-- A line `KIND key=value ..`. -/
def fieldLine (kind : String) (fields : List (String × String)) : String :=
  kind ++ blankBefore (fields.map token)

/-- A line of a kind and fields is an event of this kind with these fields. -/
theorem parseLine_fieldLine {kind : String} {fields : List (String × String)}
    (hkind : KindWord kind) (hfields : ∀ f ∈ fields, Clean f) :
    parseLine (fieldLine kind fields) = (categorize kind fields).map fun category =>
      { seq := 0, category, kind, flags := [], fields, raw := fieldLine kind fields } := by
  have hwords : ∀ w ∈ fields.map token, Word w := by
    intro w hw
    obtain ⟨f, hf, rfl⟩ := List.mem_map.1 hw
    exact (hfields f hf).word
  have htrim : trimEnd (fieldLine kind fields) = fieldLine kind fields :=
    trimEnd_words hkind.word hwords
  have hblank : (trim (fieldLine kind fields)).isEmpty = false := by
    rw [Bool.eq_false_iff, ne_eq, String.isEmpty_iff]
    exact trim_append_ne hkind.word _
  have htokens : splitWhitespace (fieldLine kind fields) = kind :: fields.map token :=
    splitWhitespace_words hkind.word hwords
  have hbanner : fieldLine kind fields ≠ "AxiomRT kernel booted" := by
    intro h
    have hthree : splitWhitespace "AxiomRT kernel booted" = ["AxiomRT", "kernel", "booted"] := by
      decide
    rw [h, hthree] at htokens
    exact hkind.banner (List.cons.inj htokens).1.symm
  have hloop := foldl_addToken hfields ([], [])
  have heff : effectiveKind kind fields = some (kind, fields) := if_neg hkind.plain
  simp only [parseLine, htrim, hblank, Bool.false_eq_true, if_false, hbanner, htokens,
    lineKind_word hkind, Option.bind_eq_bind, Option.bind_some, hloop, List.nil_append, heff]
  cases categorize kind fields <;> rfl

end AxiomRT.Axiomctl
