import AxiomRT.Lib.Decimal
import AxiomRT.Lib.Json

/-!
# Reading back written JSON

How a value is written so that the decoder finds it again: strings with any escaping that the
decoder undoes character by character, decimal numbers, and arrays and objects of such texts,
separated by commas and without white space.
-/

namespace AxiomRT.Lib.Json

/-- What follows a value is no part of a number. -/
def Delimited (rest : List Char) : Prop :=
  ∀ c ∈ rest.head?, c.isDigit = false ∧ c ≠ '.' ∧ c ≠ 'e' ∧ c ≠ 'E'

theorem delimited_nil : Delimited [] := by
  intro c hc
  cases hc

theorem delimited_cons {c : Char} {rest : List Char}
    (h : c.isDigit = false ∧ c ≠ '.' ∧ c ≠ 'e' ∧ c ≠ 'E') : Delimited (c :: rest) := by
  intro d hd
  obtain rfl : c = d := Option.some.inj hd
  exact h

/-- The text is read as the value, whatever follows it. -/
structure Reads (t : List Char) (v : Json) : Prop where
  head : ∃ c cs, t = c :: cs ∧ isWs c = false ∧ c ≠ ']'
  value : ∀ (fuel : ℕ) (rest : List Char), t.length < fuel → Delimited rest →
    Json.value fuel (t ++ rest) = some (v, rest)

theorem skipWs_cons {c : Char} (hc : isWs c = false) (cs : List Char) :
    skipWs (c :: cs) = c :: cs := by
  rw [skipWs, List.dropWhile_cons, hc]
  rfl

theorem Reads.skipWs {t : List Char} {v : Json} (h : Reads t v) (rest : List Char) :
    Json.skipWs (t ++ rest) = t ++ rest := by
  obtain ⟨c, cs, rfl, hc, -⟩ := h.head
  exact skipWs_cons hc _

theorem expect_self (c : Char) (rest : List Char) : expect c (c :: rest) = some rest :=
  expect_eq_some.mpr rfl

theorem expect_of_ne {c d : Char} (h : d ≠ c) (rest : List Char) : expect c (d :: rest) = none :=
  if_neg h

/-! ## Strings -/

/-- An escaping that the decoder undoes. -/
def Escapes (esc : Char → List Char) : Prop :=
  ∀ c rest, char (esc c ++ rest) = some (c, rest)

section Strings

variable {esc : Char → List Char}

theorem Escapes.length_pos (h : Escapes esc) (c : Char) : 0 < (esc c).length := by
  rw [List.length_pos_iff]
  intro hnil
  have hchar := h c []
  rw [hnil] at hchar
  cases hchar

/-- An escaped character does not end the string. -/
theorem Escapes.expect_quote (h : Escapes esc) (c : Char) (rest : List Char) :
    expect '"' (esc c ++ rest) = none := by
  cases hquote : expect '"' (esc c ++ rest) with
  | none => rfl
  | some cs =>
    have hchar := h c rest
    rw [expect_eq_some.mp hquote] at hchar
    cases hchar

theorem Escapes.length_le (h : Escapes esc) (s : List Char) :
    s.length ≤ (s.flatMap esc).length := by
  induction s with
  | nil => exact Nat.le_refl 0
  | cons c s ih =>
    have hpos := h.length_pos c
    rw [List.flatMap_cons, List.length_append, List.length_cons]
    omega

theorem Escapes.chars (h : Escapes esc) {s : List Char} {fuel : ℕ} (hfuel : s.length < fuel)
    (rest : List Char) : Json.chars fuel (s.flatMap esc ++ '"' :: rest) = some (s, rest) := by
  induction s generalizing fuel with
  | nil =>
    obtain ⟨fuel, rfl⟩ := Nat.exists_eq_succ_of_ne_zero (Nat.ne_of_gt hfuel)
    rw [List.flatMap_nil, List.nil_append, Json.chars, expect_self]
  | cons c s ih =>
    rw [List.length_cons] at hfuel
    obtain ⟨fuel, rfl⟩ := Nat.exists_eq_succ_of_ne_zero (Nat.ne_of_gt (Nat.zero_lt_of_lt hfuel))
    have hrest := ih (Nat.lt_of_succ_lt_succ hfuel)
    rw [List.flatMap_cons, List.append_assoc, Json.chars, h.expect_quote]
    simp only [h c, Option.bind_eq_bind, Option.bind_some, hrest]

theorem Escapes.string (h : Escapes esc) (s rest : List Char) :
    Json.string (s.flatMap esc ++ '"' :: rest) = some (s, rest) := by
  refine h.chars ?_ rest
  have hle := h.length_le s
  rw [List.length_append]
  omega

/-- A string as it is written. -/
def quoted (esc : Char → List Char) (s : List Char) : List Char :=
  '"' :: (s.flatMap esc ++ ['"'])

theorem Escapes.reads (h : Escapes esc) (s : List Char) :
    Reads (quoted esc s) (.str (String.ofList s)) where
  head := ⟨'"', _, rfl, by decide, by decide⟩
  value := by
    intro fuel rest hfuel _
    obtain ⟨fuel, rfl⟩ := Nat.exists_eq_succ_of_ne_zero (Nat.ne_of_gt (Nat.zero_lt_of_lt hfuel))
    have htext : quoted esc s ++ rest = '"' :: (s.flatMap esc ++ '"' :: rest) := by
      rw [quoted, List.cons_append, List.append_assoc, List.singleton_append]
    rw [htext, Json.value, if_pos rfl, h.string]
    rfl

end Strings

/-! ## Numbers -/

theorem toDigits_zero_head {n : ℕ} {cs : List Char} (h : Nat.toDigits 10 n = '0' :: cs) :
    n = 0 := by
  refine head_numeral ?_
  rw [numeral, h]
  rfl

theorem isDigit_toDigits {n : ℕ} {c : Char} (hc : c ∈ Nat.toDigits 10 n) : c.isDigit = true :=
  Nat.isDigit_of_mem_toDigits (by decide) (by decide) hc

theorem takeWhile_toDigits (n : ℕ) {rest : List Char} (h : Delimited rest) :
    (Nat.toDigits 10 n ++ rest).takeWhile Char.isDigit = Nat.toDigits 10 n ∧
      (Nat.toDigits 10 n ++ rest).dropWhile Char.isDigit = rest := by
  have hall : ∀ c ∈ Nat.toDigits 10 n, c.isDigit = true := fun c => isDigit_toDigits
  rw [List.takeWhile_append_of_pos hall, List.dropWhile_append_of_pos hall]
  cases rest with
  | nil => simp
  | cons c rest =>
    have hc : c.isDigit = false := (h c rfl).1
    rw [List.takeWhile_cons, List.dropWhile_cons, hc]
    simp

theorem int_toDigits (n : ℕ) {rest : List Char} (h : Delimited rest) :
    int (Nat.toDigits 10 n ++ rest) = some (Nat.toDigits 10 n, rest) := by
  rw [int]
  cases hzero : expect '0' (Nat.toDigits 10 n ++ rest) with
  | some cs =>
    -- Only zero starts with this digit.
    obtain ⟨c, ds, hds⟩ := List.exists_cons_of_ne_nil (@Nat.toDigits_ne_nil n 10)
    have hcons := expect_eq_some.mp hzero
    rw [hds, List.cons_append, List.cons.injEq] at hcons
    obtain ⟨rfl, hcons⟩ := hcons
    obtain rfl := toDigits_zero_head hds
    obtain rfl : ds = [] := (List.cons.inj hds).2.symm
    rw [← hcons]
    rfl
  | none =>
    obtain ⟨htake, hdrop⟩ := takeWhile_toDigits n h
    show digits _ = _
    rw [digits, htake, hdrop, if_neg Nat.toDigits_ne_nil]

theorem number_toDigits (n : ℕ) {rest : List Char} (h : Delimited rest) :
    number (Nat.toDigits 10 n ++ rest) = some (.num n 0, rest) := by
  obtain ⟨d, ds, hds⟩ := List.exists_cons_of_ne_nil (@Nat.toDigits_ne_nil n 10)
  have hd : d.isDigit = true := isDigit_toDigits (by rw [hds]; exact List.mem_cons_self)
  have hsign : sign false (Nat.toDigits 10 n ++ rest) = (false, Nat.toDigits 10 n ++ rest) := by
    have hminus : d ≠ '-' := by
      rintro rfl
      cases hd
    rw [hds, List.cons_append, sign, expect_of_ne hminus]
    rfl
  have hfrac : frac rest = some ([], rest) := by
    cases rest with
    | nil => rfl
    | cons c rest => rw [frac, expect_of_ne (h c rfl).2.1]
  have hexp : exp rest = some (0, rest) := by
    cases rest with
    | nil => rfl
    | cons c rest =>
      rw [exp, expect_of_ne (h c rfl).2.2.1, expect_of_ne (h c rfl).2.2.2]
      rfl
  have hvalue : digitsValue (Nat.toDigits 10 n ++ []) = n := by
    rw [List.append_nil, digitsValue, Nat.ofDigitChars_ten_toDigits]
  simp only [number, hsign, int_toDigits n h, hfrac, hexp, Option.bind_eq_bind, Option.bind_some,
    hvalue]
  rfl

theorem reads_nat (n : ℕ) : Reads (Nat.toDigits 10 n) (.num n 0) := by
  obtain ⟨d, ds, hds⟩ := List.exists_cons_of_ne_nil (@Nat.toDigits_ne_nil n 10)
  have hd : d.isDigit = true := isDigit_toDigits (by rw [hds]; exact List.mem_cons_self)
  -- A digit starts a number and nothing else.
  have hne : ∀ c : Char, c.isDigit = false → d ≠ c := by
    rintro c hc rfl
    rw [hc] at hd
    cases hd
  refine ⟨⟨d, ds, hds, ?_, hne _ (by decide)⟩, ?_⟩
  · simp [isWs, hne ' ' (by decide), hne '\t' (by decide), hne '\n' (by decide),
      hne '\r' (by decide)]
  · intro fuel rest hfuel hrest
    obtain ⟨fuel, rfl⟩ := Nat.exists_eq_succ_of_ne_zero (Nat.ne_of_gt (Nat.zero_lt_of_lt hfuel))
    have hnumber := number_toDigits n hrest
    have hliteral : literal (Nat.toDigits 10 n ++ rest) = none := by
      rw [hds, List.cons_append]
      simp [literal, expectAll, expect_of_ne (hne 'n' (by decide)),
        expect_of_ne (hne 't' (by decide)), expect_of_ne (hne 'f' (by decide))]
    rw [hds, List.cons_append] at hnumber hliteral ⊢
    rw [Json.value, if_neg (hne _ (by decide)), if_neg (hne _ (by decide)),
      if_neg (hne _ (by decide)), hliteral, hnumber]
    rfl

/-! ## Arrays and objects -/

/-- Texts separated by commas. -/
def commaSep (ts : List (List Char)) : List Char := List.intercalate [','] ts

@[simp] theorem commaSep_nil : commaSep [] = [] := rfl

@[simp] theorem commaSep_singleton (t : List Char) : commaSep [t] = t :=
  List.intercalate_singleton

@[simp] theorem commaSep_cons_cons (t t' : List Char) (ts : List (List Char)) :
    commaSep (t :: t' :: ts) = t ++ ',' :: commaSep (t' :: ts) := by
  rw [commaSep, List.intercalate_cons_cons, List.append_assoc]
  rfl

theorem commaSep_cons (t : List Char) (ts : List (List Char)) :
    ∃ more, commaSep (t :: ts) = t ++ more := by
  cases ts with
  | nil => exact ⟨[], by simp⟩
  | cons t' ts => exact ⟨_, commaSep_cons_cons t t' ts⟩

theorem elements_commaSep {ps : List (List Char × Json)} (hps : ∀ p ∈ ps, Reads p.1 p.2)
    (hne : ps ≠ []) {fuel : ℕ} (hfuel : (commaSep (ps.map Prod.fst)).length + 1 < fuel)
    (rest : List Char) : elements fuel (commaSep (ps.map Prod.fst) ++ ']' :: rest) =
      some (ps.map Prod.snd, rest) := by
  induction ps generalizing fuel with
  | nil => exact absurd rfl hne
  | cons p ps ih =>
    obtain ⟨hp, hps⟩ := List.forall_mem_cons.1 hps
    obtain ⟨fuel, rfl⟩ := Nat.exists_eq_succ_of_ne_zero (Nat.ne_of_gt (Nat.zero_lt_of_lt hfuel))
    cases ps with
    | nil =>
      rw [List.map_singleton, commaSep_singleton] at hfuel ⊢
      have hv := hp.value fuel (']' :: rest) (by omega) (delimited_cons (by decide))
      rw [elements, hp.skipWs, hv]
      rfl
    | cons q qs =>
      have hmore : commaSep ((p :: q :: qs).map Prod.fst) =
          p.1 ++ ',' :: commaSep ((q :: qs).map Prod.fst) := commaSep_cons_cons _ _ _
      rw [hmore, List.length_append, List.length_cons] at hfuel
      have hv := hp.value fuel (',' :: (commaSep ((q :: qs).map Prod.fst) ++ ']' :: rest))
        (by omega) (delimited_cons (by decide))
      have hvs := @ih hps (List.cons_ne_nil q qs) fuel (by omega)
      have hcomma : isWs ',' = false := by decide
      rw [hmore, List.append_assoc, List.cons_append, elements, hp.skipWs, hv]
      simp only [Option.bind_eq_bind, Option.bind_some, skipWs_cons hcomma, expect_self]
      rw [hvs]
      rfl

theorem Reads.array {ps : List (List Char × Json)} (hps : ∀ p ∈ ps, Reads p.1 p.2) :
    Reads ('[' :: (commaSep (ps.map Prod.fst) ++ [']'])) (.arr (ps.map Prod.snd)) where
  head := ⟨'[', _, rfl, by decide, by decide⟩
  value := by
    intro fuel rest hfuel _
    obtain ⟨fuel, rfl⟩ := Nat.exists_eq_succ_of_ne_zero (Nat.ne_of_gt (Nat.zero_lt_of_lt hfuel))
    rw [List.length_cons, List.length_append, List.length_singleton] at hfuel
    rw [List.cons_append, List.append_assoc, List.singleton_append, Json.value,
      if_neg (by decide), if_pos rfl]
    cases ps with
    | nil =>
      have hclose : expect ']' (Json.skipWs (commaSep [] ++ ']' :: rest)) = some rest := by
        rw [commaSep_nil, List.nil_append, skipWs_cons (by decide), expect_self]
      rw [List.map_nil, hclose]
      rfl
    | cons p ps =>
      have hopen : expect ']' (Json.skipWs (commaSep ((p :: ps).map Prod.fst) ++ ']' :: rest)) =
          none := by
        obtain ⟨c, cs, htext, hws, hne⟩ := (hps p List.mem_cons_self).head
        obtain ⟨more, hmore⟩ := commaSep_cons p.1 (ps.map Prod.fst)
        rw [List.map_cons, hmore, htext, List.cons_append, List.cons_append, skipWs_cons hws,
          expect_of_ne hne]
      rw [hopen]
      simp only
      rw [elements_commaSep hps (List.cons_ne_nil p ps) (by omega)]
      rfl

section Objects

variable {esc : Char → List Char}

/-- A member as it is written: its name, and the text of its value. -/
def memberText (esc : Char → List Char) (m : List Char × List Char × Json) : List Char :=
  quoted esc m.1 ++ ':' :: m.2.1

/-- The member that is read. -/
def memberValue (m : List Char × List Char × Json) : String × Json :=
  (String.ofList m.1, m.2.2)

theorem members_commaSep (hesc : Escapes esc) {ms : List (List Char × List Char × Json)}
    (hms : ∀ m ∈ ms, Reads m.2.1 m.2.2) (hne : ms ≠ []) {fuel : ℕ}
    (hfuel : (commaSep (ms.map (memberText esc))).length + 1 < fuel) (rest : List Char) :
    members fuel (commaSep (ms.map (memberText esc)) ++ '}' :: rest) =
      some (ms.map memberValue, rest) := by
  induction ms generalizing fuel with
  | nil => exact absurd rfl hne
  | cons m ms ih =>
    obtain ⟨hm, hms⟩ := List.forall_mem_cons.1 hms
    obtain ⟨fuel, rfl⟩ := Nat.exists_eq_succ_of_ne_zero (Nat.ne_of_gt (Nat.zero_lt_of_lt hfuel))
    have hquote : isWs '"' = false := by decide
    have hcolon : isWs ':' = false := by decide
    -- The name and the colon of a member, whatever follows.
    have hname : ∀ cs, memberText esc m ++ cs =
        '"' :: (m.1.flatMap esc ++ '"' :: ':' :: (m.2.1 ++ cs)) := by
      intro cs
      simp [memberText, quoted]
    have hlength : (memberText esc m).length = (quoted esc m.1).length + (m.2.1.length + 1) := by
      rw [memberText, List.length_append, List.length_cons]
    cases ms with
    | nil =>
      rw [List.map_singleton, commaSep_singleton] at hfuel ⊢
      have hv := hm.value fuel ('}' :: rest) (by omega) (delimited_cons (by decide))
      have hclose : isWs '}' = false := by decide
      rw [members, hname]
      simp only [Option.bind_eq_bind, Option.bind_some, skipWs_cons hquote, skipWs_cons hcolon,
        expect_self, hesc.string, hm.skipWs, hv, skipWs_cons hclose]
      rfl
    | cons m' ms =>
      have hmore : commaSep ((m :: m' :: ms).map (memberText esc)) =
          memberText esc m ++ ',' :: commaSep ((m' :: ms).map (memberText esc)) :=
        commaSep_cons_cons _ _ _
      rw [hmore, List.length_append, List.length_cons] at hfuel
      have hv := hm.value fuel (',' :: (commaSep ((m' :: ms).map (memberText esc)) ++ '}' :: rest))
        (by omega) (delimited_cons (by decide))
      have hvs := @ih hms (List.cons_ne_nil m' ms) fuel (by omega)
      have hcomma : isWs ',' = false := by decide
      rw [hmore, List.append_assoc, List.cons_append, members, hname]
      simp only [Option.bind_eq_bind, Option.bind_some, skipWs_cons hquote, skipWs_cons hcolon,
        expect_self, hesc.string, hm.skipWs, hv, skipWs_cons hcomma]
      rw [hvs]
      rfl

theorem Escapes.object (hesc : Escapes esc) {ms : List (List Char × List Char × Json)}
    (hms : ∀ m ∈ ms, Reads m.2.1 m.2.2) :
    Reads ('{' :: (commaSep (ms.map (memberText esc)) ++ ['}'])) (.obj (ms.map memberValue)) where
  head := ⟨'{', _, rfl, by decide, by decide⟩
  value := by
    intro fuel rest hfuel _
    obtain ⟨fuel, rfl⟩ := Nat.exists_eq_succ_of_ne_zero (Nat.ne_of_gt (Nat.zero_lt_of_lt hfuel))
    rw [List.length_cons, List.length_append, List.length_singleton] at hfuel
    rw [List.cons_append, List.append_assoc, List.singleton_append, Json.value,
      if_neg (by decide), if_neg (by decide), if_pos rfl]
    cases ms with
    | nil =>
      have hclose : expect '}' (Json.skipWs (commaSep [] ++ '}' :: rest)) = some rest := by
        rw [commaSep_nil, List.nil_append, skipWs_cons (by decide), expect_self]
      rw [List.map_nil, hclose]
      rfl
    | cons m ms =>
      have hopen : expect '}'
          (Json.skipWs (commaSep ((m :: ms).map (memberText esc)) ++ '}' :: rest)) = none := by
        obtain ⟨more, hmore⟩ := commaSep_cons (memberText esc m) (ms.map (memberText esc))
        rw [List.map_cons, hmore, memberText, quoted, List.cons_append, List.cons_append,
          List.cons_append, skipWs_cons (by decide), expect_of_ne (by decide)]
      rw [hopen]
      simp only
      rw [members_commaSep hesc hms (List.cons_ne_nil m ms) (by omega)]
      rfl

end Objects

/-- A text that reads as a value is decoded to it. -/
theorem Reads.decode {s : String} {v : Json} (h : Reads s.toList v) : Json.decode s = some v := by
  have hskip := h.skipWs []
  have hvalue := h.value (s.toList.length + 1) [] (Nat.lt_succ_self _) delimited_nil
  rw [List.append_nil] at hskip hvalue
  rw [Json.decode, hskip, hvalue]
  rfl

end AxiomRT.Lib.Json
