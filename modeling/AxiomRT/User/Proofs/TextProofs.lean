import AxiomRT.User.Text

/-!
# Proofs: the text helpers

What the byte comparisons and the number parsers compute, stated over the split of the text at the
end of its digits.
-/

namespace AxiomRT.User

open Lib

/-! ## Message statics

A literal is `String.ofList` of its characters. Read so, it is compared and measured as a list of
characters, without its encoding. -/

theorem umsg_ofList (cs : List Char) :
    umsg (String.ofList cs) = cs.map fun c => UInt8.ofNat c.toNat := by
  rw [umsg, String.toList_ofList]

theorem length_umsg_le {cs : List Char} {n : ℕ} (h : cs.length ≤ n) :
    (umsg (String.ofList cs)).length ≤ n := by
  rw [umsg_ofList, List.length_map]
  exact h

/-- A literal and its two parts. -/
theorem umsg_append_of {cs ds es : List Char} (h : es = cs ++ ds) :
    umsg (String.ofList es) = umsg (String.ofList cs) ++ umsg (String.ofList ds) := by
  rw [h, umsg_ofList, umsg_ofList, umsg_ofList, List.map_append]

/-- A literal that is written in two parts. -/
theorem length_umsg_append_le {cs ds : List Char} {n : ℕ} (h : cs.length + ds.length ≤ n) :
    (umsg (String.ofList cs ++ String.ofList ds)).length ≤ n := by
  rw [umsg, String.toList_append, String.toList_ofList, String.toList_ofList, List.length_map,
    List.length_append]
  exact h

theorem reply_inj {msg msg' : List UInt8} (h : reply msg = reply msg') : msg = msg' := by
  rw [reply, reply] at h
  injection h with hcall
  injection hcall

/-! ## Comparisons -/

theorem eqs_iff {p q : List UInt8} : eqs p q = true ↔ p = q := by
  rw [eqs, beq_iff_eq]

theorem startsWith_iff {p q : List UInt8} : startsWith p q = true ↔ ∃ rest, p = q ++ rest := by
  unfold startsWith
  split_ifs with hlen
  · constructor
    · intro h
      cases h
    · rintro ⟨rest, rfl⟩
      rw [List.length_append] at hlen
      omega
  · rw [eqs_iff]
    constructor
    · intro h
      refine ⟨p.drop q.length, ?_⟩
      nth_rewrite 1 [← h]
      exact (List.take_append_drop _ _).symm
    · rintro ⟨rest, rfl⟩
      exact List.take_left

/-- Two words that differ within their common length do not start the same text. -/
theorem startsWith_append_ne {q a rest : List UInt8} (hne : a.take q.length ≠ q.take a.length) :
    startsWith (a ++ rest) q = false := by
  rw [Bool.eq_false_iff]
  intro h
  obtain ⟨rest', h⟩ := startsWith_iff.mp h
  have htake := congrArg (List.take (min q.length a.length)) h
  rw [List.take_append_of_le_length (Nat.min_le_right _ _),
    List.take_append_of_le_length (Nat.min_le_left _ _), ← List.take_take,
    List.take_of_length_le (Nat.le_refl a.length), Nat.min_comm, ← List.take_take,
    List.take_of_length_le (Nat.le_refl q.length)] at htake
  exact hne htake

theorem eqs_append_ne {a q rest : List UInt8} (h : startsWith q a = false) :
    eqs (a ++ rest) q = false := by
  rw [Bool.eq_false_iff, Ne, eqs_iff]
  rintro rfl
  rw [startsWith_iff.mpr ⟨rest, rfl⟩] at h
  cases h

theorem startsWith_append (word rest : List UInt8) : startsWith (word ++ rest) word = true :=
  startsWith_iff.mpr ⟨rest, rfl⟩

/-! ## Numerals in a text -/

/-- The text does not go on with a digit. -/
def NoDigit (rest : List UInt8) : Prop := ∀ b ∈ rest.head?, isDigit b = false

theorem noDigit_nil : NoDigit [] := by
  intro b hb
  cases hb

theorem noDigit_cons {b : UInt8} {rest : List UInt8} (h : isDigit b = false) :
    NoDigit (b :: rest) := by
  intro c hc
  cases hc
  exact h

/-- Every text is some digits and a rest that does not go on with one. -/
theorem exists_digits (p : List UInt8) :
    ∃ ds rest, p = ds ++ rest ∧ (∀ b ∈ ds, isDigit b = true) ∧ NoDigit rest := by
  induction p with
  | nil => exact ⟨[], [], rfl, by simp, noDigit_nil⟩
  | cons b p ih =>
    by_cases hb : isDigit b = true
    · obtain ⟨ds, rest, rfl, hds, hrest⟩ := ih
      refine ⟨b :: ds, rest, rfl, ?_, hrest⟩
      intro c hc
      rcases List.mem_cons.mp hc with rfl | hc
      · exact hb
      · exact hds c hc
    · exact ⟨[], b :: p, rfl, by simp, noDigit_cons (Bool.eq_false_iff.mpr hb)⟩

theorem parseDecLoop_digits {ds : List UInt8} (hds : ∀ b ∈ ds, isDigit b = true) (v : UInt64) :
    parseDecLoop ds v = ds.foldl wrappingDigit v := by
  induction ds generalizing v with
  | nil => rfl
  | cons b ds ih =>
    have hb : isDigit b = true := hds b List.mem_cons_self
    rw [parseDecLoop, hb, List.foldl_cons]
    exact ih (fun c hc => hds c (List.mem_cons_of_mem _ hc)) _

theorem parseDecLoop_stop {p : List UInt8} {b : UInt8} (hb : b ∈ p) (hd : isDigit b = false)
    (v : UInt64) : parseDecLoop p v = u64Max := by
  induction p generalizing v with
  | nil => cases hb
  | cons c p ih =>
    rw [parseDecLoop]
    split_ifs with hc
    · rfl
    · rcases List.mem_cons.mp hb with rfl | hb
      · rw [hd] at hc
        exact absurd rfl hc
      · exact ih hb _

/-- What `parseDec` accepts is a numeral, read modulo the word size. -/
theorem parseDec_ne_max {p : List UInt8} {start : ℕ} (h : parseDec p start ≠ u64Max) :
    IsNumeral (p.drop start) ∧
      parseDec p start = UInt64.ofNat (numeralValue (p.drop start)) := by
  unfold parseDec at h ⊢
  split_ifs at h ⊢ with hlen
  · exact absurd rfl h
  · have hds : ∀ b ∈ p.drop start, isDigit b = true := by
      intro b hb
      by_contra hd
      exact h (parseDecLoop_stop hb (Bool.eq_false_iff.mpr hd) 0)
    have hne : p.drop start ≠ [] := by
      intro hnil
      rw [List.drop_eq_nil_iff] at hnil
      exact hlen hnil
    refine ⟨⟨hne, hds⟩, ?_⟩
    rw [parseDecLoop_digits hds, foldl_wrappingDigit hds]

theorem parseDec_append {pre ds : List UInt8} (hds : IsNumeral ds) :
    parseDec (pre ++ ds) pre.length = UInt64.ofNat (numeralValue ds) := by
  have hpos := List.length_pos_iff.mpr hds.ne_nil
  have hlong : ¬ (pre ++ ds).length ≤ pre.length := by
    rw [List.length_append]
    omega
  rw [parseDec, if_neg hlong, List.drop_left, parseDecLoop_digits hds.digits,
    foldl_wrappingDigit hds.digits]

theorem parseDecStopLoop_digits {ds rest : List UInt8} (hds : ∀ b ∈ ds, isDigit b = true)
    (hrest : NoDigit rest) (v : UInt64) (i : ℕ) (any : Bool) :
    parseDecStopLoop (ds ++ rest) v i any =
      (if any = true ∨ ds ≠ [] then ds.foldl wrappingDigit v else u64Max, i + ds.length) := by
  induction ds generalizing v i any with
  | nil =>
    cases rest with
    | nil => cases any <;> rfl
    | cons b rest =>
      rw [List.nil_append, parseDecStopLoop, hrest b rfl]
      cases any <;> rfl
  | cons b ds ih =>
    have hb : isDigit b = true := hds b List.mem_cons_self
    rw [List.cons_append, parseDecStopLoop, hb]
    rw [if_neg (by decide), ih (fun c hc => hds c (List.mem_cons_of_mem _ hc)), if_pos (Or.inl rfl),
      if_pos (Or.inr (List.cons_ne_nil _ _)), List.foldl_cons, List.length_cons]
    rw [Nat.add_assoc, Nat.add_comm 1]

/-- The digits after the first `start` bytes are read modulo the word size. -/
theorem parseDecStop_append {pre ds rest : List UInt8} (hds : IsNumeral ds)
    (hrest : NoDigit rest) : parseDecStop (pre ++ (ds ++ rest)) pre.length =
      (UInt64.ofNat (numeralValue ds), pre.length + ds.length) := by
  rw [parseDecStop, List.drop_left, parseDecStopLoop_digits hds.digits hrest,
    if_pos (Or.inr hds.ne_nil), foldl_wrappingDigit hds.digits]

/-- Without a digit there is no number. -/
theorem parseDecStop_noDigit {pre rest : List UInt8} (hrest : NoDigit rest) :
    parseDecStop (pre ++ rest) pre.length = (u64Max, pre.length) := by
  rw [parseDecStop, List.drop_left]
  exact @parseDecStopLoop_digits [] rest (by simp) hrest 0 pre.length false

/-- What `parseDecStop` finds after `pre`: nothing, or a numeral. -/
theorem parseDecStop_cases (pre tail : List UInt8) :
    (NoDigit tail ∧ parseDecStop (pre ++ tail) pre.length = (u64Max, pre.length)) ∨
    ∃ ds rest, tail = ds ++ rest ∧ IsNumeral ds ∧ NoDigit rest ∧
      parseDecStop (pre ++ tail) pre.length =
        (UInt64.ofNat (numeralValue ds), pre.length + ds.length) := by
  obtain ⟨ds, rest, rfl, hds, hrest⟩ := exists_digits tail
  by_cases hnil : ds = []
  · subst hnil
    exact Or.inl ⟨hrest, parseDecStop_noDigit hrest⟩
  · exact Or.inr ⟨ds, rest, rfl, ⟨hnil, hds⟩, hrest, parseDecStop_append ⟨hnil, hds⟩ hrest⟩

/-- The number a reader with a 64-bit word takes a numeral for. -/
def wordValue (d : List UInt8) : ℕ := numeralValue d % 2 ^ 64

theorem wordValue_lt (d : List UInt8) : wordValue d < 2 ^ 64 := Nat.mod_lt _ (by decide)

theorem toNat_wordValue (d : List UInt8) :
    (UInt64.ofNat (numeralValue d)).toNat = wordValue d := UInt64.toNat_ofNat'

theorem ofNat_eq_iff {d : List UInt8} {v : UInt64} :
    UInt64.ofNat (numeralValue d) = v ↔ wordValue d = v.toNat := by
  rw [← UInt64.toNat_inj, toNat_wordValue]

/-- A parse that has to reach the end of the text finds a numeral, or something to object to. -/
theorem parseDecStop_whole (pre tail : List UInt8) :
    (IsNumeral tail → parseDecStop (pre ++ tail) pre.length =
      (UInt64.ofNat (numeralValue tail), (pre ++ tail).length)) ∧
    (¬ IsNumeral tail → (parseDecStop (pre ++ tail) pre.length).1 = u64Max ∨
      (parseDecStop (pre ++ tail) pre.length).2 ≠ (pre ++ tail).length) := by
  constructor
  · intro hnum
    have hparse := @parseDecStop_append pre tail [] hnum noDigit_nil
    rw [List.append_nil] at hparse
    rw [hparse, List.length_append]
  · intro hnum
    rcases parseDecStop_cases pre tail with ⟨-, hparse⟩ | ⟨ds, rest, rfl, hds, -, hparse⟩
    · exact Or.inl (by rw [hparse])
    · refine Or.inr ?_
      rw [hparse, List.length_append, List.length_append]
      have hpos : rest ≠ [] := by
        rintro rfl
        rw [List.append_nil] at hnum
        exact hnum hds
      have hlen := List.length_pos_iff.mpr hpos
      show pre.length + ds.length ≠ _
      omega

end AxiomRT.User
