import AxiomRT.Loader.Proofs.AdmissionProofs
import AxiomRT.User.Image
import AxiomRT.User.Proofs.TextProofs
import Mathlib.Tactic.IntervalCases

/-!
# Proofs: the image validator

The record format of docs/32 as a structure of tokens, and the validator against it. The parser
accumulates in 64-bit words, so that what it decides is the format with every number taken modulo
the word size.
-/

namespace AxiomRT.User

open Lib

/-! ## Tokens -/

/-- The text ends here or goes on with a space. -/
def AtSpace (rest : List UInt8) : Prop := ∀ b ∈ rest.head?, b = 32

theorem atSpace_cons (rest : List UInt8) : AtSpace (32 :: rest) := by
  intro b hb
  cases hb
  rfl

theorem takeWhile_token {w rest : List UInt8} (hw : (32 : UInt8) ∉ w) (hrest : AtSpace rest) :
    (w ++ rest).takeWhile (fun b => b ≠ 32) = w := by
  rw [List.takeWhile_append_of_pos]
  · cases rest with
    | nil => simp
    | cons b rest =>
      obtain rfl := hrest b rfl
      simp
  · intro b hb
    rw [decide_eq_true_eq]
    rintro rfl
    exact hw hb

theorem tokEnd_append {pre w rest : List UInt8} (hw : (32 : UInt8) ∉ w) (hrest : AtSpace rest) :
    tokEnd (pre ++ (w ++ rest)) pre.length = pre.length + w.length := by
  rw [tokEnd, List.drop_left, takeWhile_token hw hrest]

/-- Every text is a token and a rest. -/
theorem exists_token (p : List UInt8) :
    ∃ w rest, p = w ++ rest ∧ (32 : UInt8) ∉ w ∧ AtSpace rest := by
  induction p with
  | nil => exact ⟨[], [], rfl, by simp, by simp [AtSpace]⟩
  | cons b p ih =>
    by_cases hb : b = 32
    · subst hb
      exact ⟨[], 32 :: p, rfl, by simp, atSpace_cons p⟩
    · obtain ⟨w, rest, rfl, hw, hrest⟩ := ih
      refine ⟨b :: w, rest, rfl, ?_, hrest⟩
      rw [List.mem_cons, not_or]
      exact ⟨Ne.symm hb, hw⟩

/-! ## Numbers -/

theorem noDigit_space (rest : List UInt8) : NoDigit (32 :: rest) := noDigit_cons (by decide)

theorem getElem?_cursor (pre rest : List UInt8) : (pre ++ rest)[pre.length]? = rest.head? := by
  rw [List.getElem?_append_right (Nat.le_refl _), Nat.sub_self, List.head?_eq_getElem?]

theorem ldNumAfter_append {pre ds rest : List UInt8} (hds : IsNumeral ds) (hrest : NoDigit rest) :
    ldNumAfter (pre ++ 32 :: (ds ++ rest)) pre.length =
      (UInt64.ofNat (numeralValue ds), (pre ++ 32 :: ds).length) := by
  have hsplit : pre ++ 32 :: (ds ++ rest) = (pre ++ [32]) ++ (ds ++ rest) := by simp
  have hparse := @parseDecStop_append (pre ++ [32]) ds rest hds hrest
  rw [List.length_append, List.length_singleton] at hparse
  rw [ldNumAfter, getElem?_cursor, if_neg (by simp), hsplit, hparse, List.length_append,
    List.length_cons]
  rw [Nat.add_assoc, Nat.add_comm 1]

/-- Where a number is found there are a space and a numeral. -/
theorem ldNumAfter_found {pre rest : List UInt8}
    (h : (ldNumAfter (pre ++ rest) pre.length).1 ≠ u64Max) :
    ∃ ds rest', rest = 32 :: (ds ++ rest') ∧ IsNumeral ds ∧ NoDigit rest' := by
  rw [ldNumAfter, getElem?_cursor] at h
  split_ifs at h with hspace
  · exact absurd rfl h
  · obtain ⟨tail, rfl⟩ : ∃ tail, rest = 32 :: tail := by
      cases rest with
      | nil => simp at hspace
      | cons b tail =>
        rw [List.head?_cons, not_not, Option.some.injEq] at hspace
        exact ⟨tail, by rw [hspace]⟩
    have hsplit : pre ++ 32 :: tail = (pre ++ [32]) ++ tail := by simp
    have hlen : pre.length + 1 = (pre ++ [32]).length := by simp
    rw [hsplit, hlen] at h
    rcases parseDecStop_cases (pre ++ [32]) tail with ⟨-, hp⟩ | ⟨ds, rest', rfl, hds, hrest, -⟩
    · rw [hp] at h
      exact absurd rfl h
    · exact ⟨ds, rest', rfl, hds, hrest⟩

/-- One number further: the cursor stands behind the numeral. -/
theorem ldNumAfter_next {pre rest : List UInt8}
    (h : (ldNumAfter (pre ++ rest) pre.length).1 ≠ u64Max) :
    ∃ ds rest', IsNumeral ds ∧ NoDigit rest' ∧ rest = 32 :: (ds ++ rest') ∧
      pre ++ rest = (pre ++ 32 :: ds) ++ rest' ∧
      (ldNumAfter (pre ++ rest) pre.length).2 = (pre ++ 32 :: ds).length := by
  obtain ⟨ds, rest', rfl, hds, hrest⟩ := ldNumAfter_found h
  refine ⟨ds, rest', hds, hrest, rfl, ?_, ?_⟩
  · rw [List.append_assoc, List.cons_append]
  · rw [ldNumAfter_append hds hrest]

theorem ldNums_append {pre de dt dr ds rest : List UInt8} (he : IsNumeral de) (ht : IsNumeral dt)
    (hr : IsNumeral dr) (hs : IsNumeral ds) (hrest : NoDigit rest) :
    ldNums (pre ++ 32 :: (de ++ 32 :: (dt ++ 32 :: (dr ++ 32 :: (ds ++ rest))))) pre.length =
      ⟨UInt64.ofNat (numeralValue de), UInt64.ofNat (numeralValue dt),
        UInt64.ofNat (numeralValue dr), UInt64.ofNat (numeralValue ds),
        (pre ++ 32 :: de ++ 32 :: dt ++ 32 :: dr ++ 32 :: ds).length⟩ := by
  have h1 := @ldNumAfter_append pre de (32 :: (dt ++ 32 :: (dr ++ 32 :: (ds ++ rest)))) he
    (noDigit_space _)
  have h2 := @ldNumAfter_append (pre ++ 32 :: de) dt (32 :: (dr ++ 32 :: (ds ++ rest))) ht
    (noDigit_space _)
  have h3 := @ldNumAfter_append (pre ++ 32 :: de ++ 32 :: dt) dr (32 :: (ds ++ rest)) hr
    (noDigit_space _)
  have h4 := @ldNumAfter_append (pre ++ 32 :: de ++ 32 :: dt ++ 32 :: dr) ds rest hs hrest
  simp only [List.append_assoc, List.cons_append] at h1 h2 h3 h4 ⊢
  simp only [ldNums, h1, h2, h3, h4]

/-- Where four numbers are found there are four numerals. -/
theorem ldNums_found {pre rest : List UInt8}
    (h : ¬ ((ldNums (pre ++ rest) pre.length).e = u64Max ∨
      (ldNums (pre ++ rest) pre.length).t = u64Max ∨
      (ldNums (pre ++ rest) pre.length).rd = u64Max ∨
      (ldNums (pre ++ rest) pre.length).s = u64Max)) :
    ∃ de dt dr ds rest', rest = 32 :: (de ++ 32 :: (dt ++ 32 :: (dr ++ 32 :: (ds ++ rest')))) ∧
      IsNumeral de ∧ IsNumeral dt ∧ IsNumeral dr ∧ IsNumeral ds ∧ NoDigit rest' := by
  simp only [not_or, ldNums] at h
  obtain ⟨h1, h2, h3, h4⟩ := h
  obtain ⟨de, rest1, hde, -, rfl, hs1, hj1⟩ := ldNumAfter_next h1
  rw [hj1, hs1] at h2 h3 h4
  obtain ⟨dt, rest2, hdt, -, rfl, hs2, hj2⟩ := ldNumAfter_next h2
  rw [hj2, hs2] at h3 h4
  obtain ⟨dr, rest3, hdr, -, rfl, hs3, hj3⟩ := ldNumAfter_next h3
  rw [hj3, hs3] at h4
  obtain ⟨ds, rest4, hds, hrest4, rfl, -, -⟩ := ldNumAfter_next h4
  exact ⟨de, dt, dr, ds, rest4, rfl, hde, hdt, hdr, hds, hrest4⟩

/-! ## The checksum field -/

/-- The 16-bit additive checksum. -/
def checksum (body : List UInt8) : ℕ := (body.map UInt8.toNat).sum % 65536

/-- A lowercase hex digit. -/
def hexChar (d : ℕ) : UInt8 := if d < 10 then UInt8.ofNat (48 + d) else UInt8.ofNat (87 + d)

/-- Four lowercase hex digits. -/
def hex4 (n : ℕ) : List UInt8 :=
  [hexChar (n / 4096 % 16), hexChar (n / 256 % 16), hexChar (n / 16 % 16), hexChar (n % 16)]

theorem ckSum_eq (p : List UInt8) (stop : ℕ) :
    (ckSum p stop).toNat = checksum (p.take stop) := by
  have hmask : ∀ x : UInt32, (x &&& 0xffff).toNat = x.toNat % 65536 := by
    intro x
    rw [UInt32.toNat_and]
    exact Nat.and_two_pow_sub_one_eq_mod x.toNat 16
  rw [ckSum, checksum]
  induction p.take stop using List.reverseRecOn with
  | nil => rfl
  | append_singleton body b ih =>
    have hb := b.toNat_lt
    rw [List.foldl_append, List.foldl_cons, List.foldl_nil, hmask, UInt32.toNat_add, ih,
      UInt8.toNat_toUInt32, List.map_append, List.sum_append, List.map_singleton,
      List.sum_singleton]
    omega

theorem hexDigit_some {b : UInt8} {d : UInt32} (h : hexDigit b = some d) :
    d.toNat < 16 ∧ hexChar d.toNat = b := by
  unfold hexDigit at h
  split_ifs at h with hdec hhex
  · obtain rfl := Option.some.inj h
    have hle : 48 ≤ b.toNat := UInt8.le_iff_toNat_le.mp hdec.1
    have hge : b.toNat ≤ 57 := UInt8.le_iff_toNat_le.mp hdec.2
    have hval : (b - 48).toUInt32.toNat = b.toNat - 48 := by
      rw [UInt8.toNat_toUInt32, UInt8.toNat_sub_of_le b 48 hdec.1]
      rfl
    rw [hval]
    refine ⟨by omega, ?_⟩
    rw [hexChar, if_pos (by omega), Nat.add_sub_cancel' hle, UInt8.ofNat_toNat]
  · obtain rfl := Option.some.inj h
    have hle : 97 ≤ b.toNat := UInt8.le_iff_toNat_le.mp hhex.1
    have hge : b.toNat ≤ 102 := UInt8.le_iff_toNat_le.mp hhex.2
    have hval : (b - 97 + 10).toUInt32.toNat = b.toNat - 87 := by
      rw [UInt8.toNat_toUInt32, UInt8.toNat_add, UInt8.toNat_sub_of_le b 97 hhex.1]
      show (b.toNat - 97 + 10) % 256 = _
      omega
    rw [hval]
    refine ⟨by omega, ?_⟩
    rw [hexChar, if_neg (by omega), Nat.add_sub_cancel' (by omega), UInt8.ofNat_toNat]

theorem hexDigit_hexChar {n : ℕ} (h : n < 16) : hexDigit (hexChar n) = some (UInt32.ofNat n) := by
  interval_cases n <;> rfl

theorem shift_or_toNat {v d : UInt32} (hv : v.toNat < 2 ^ 28) (hd : d.toNat < 16) :
    ((v <<< 4) ||| d).toNat = v.toNat * 16 + d.toNat := by
  have hshift : (v <<< 4).toNat = v.toNat <<< 4 := by
    rw [UInt32.toNat_shiftLeft]
    show v.toNat <<< 4 % 2 ^ 32 = _
    rw [Nat.mod_eq_of_lt]
    rw [Nat.shiftLeft_eq]
    omega
  rw [UInt32.toNat_or, hshift, ← Nat.shiftLeft_add_eq_or_of_lt (i := 4) hd, Nat.shiftLeft_eq]

/-- Four hex digits, read from the first to the last. -/
theorem parseHexLoop_four {a b c d : UInt32} (ha : a.toNat < 16) (hb : b.toNat < 16)
    (hc : c.toNat < 16) (hd : d.toNat < 16) :
    (parseHexLoop [hexChar a.toNat, hexChar b.toNat, hexChar c.toNat, hexChar d.toNat] 0).toNat =
      a.toNat * 4096 + b.toNat * 256 + c.toNat * 16 + d.toNat := by
  have h1 : (((0 : UInt32) <<< (4 : UInt32)) ||| a).toNat = a.toNat := by
    rw [shift_or_toNat (by decide) ha]
    simp
  have h2 : (((((0 : UInt32) <<< (4 : UInt32)) ||| a) <<< 4) ||| b).toNat =
      a.toNat * 16 + b.toNat := by
    rw [shift_or_toNat (by omega) hb, h1]
  have h3 : (((((((0 : UInt32) <<< (4 : UInt32)) ||| a) <<< 4) ||| b) <<< 4) ||| c).toNat =
      (a.toNat * 16 + b.toNat) * 16 + c.toNat := by
    rw [shift_or_toNat (by omega) hc, h2]
  simp only [parseHexLoop, hexDigit_hexChar ha, hexDigit_hexChar hb, hexDigit_hexChar hc,
    hexDigit_hexChar hd, UInt32.ofNat_toNat]
  rw [shift_or_toNat (by omega) hd, h3]
  omega

theorem parseHexLoop_hex4 {n : ℕ} (hn : n < 65536) : (parseHexLoop (hex4 n) 0).toNat = n := by
  have hdigit : ∀ m, (UInt32.ofNat (m % 16)).toNat = m % 16 := by
    intro m
    rw [UInt32.toNat_ofNat_of_lt']
    exact Nat.lt_trans (Nat.mod_lt _ (by decide)) (by decide)
  have hlt : ∀ m, (UInt32.ofNat (m % 16)).toNat < 16 := by
    intro m
    rw [hdigit]
    exact Nat.mod_lt _ (by decide)
  have h := parseHexLoop_four (hlt (n / 4096)) (hlt (n / 256)) (hlt (n / 16)) (hlt n)
  simp only [hdigit] at h
  rw [hex4, h]
  omega

/-- What `parseHex4` accepts is the hex form of its result. -/
theorem parseHexLoop_ne_max {p : List UInt8} (hlen : p.length = 4)
    (h : parseHexLoop p 0 ≠ u32Max) : p = hex4 (parseHexLoop p 0).toNat := by
  obtain ⟨x, y, z, w, rfl⟩ : ∃ x y z w, p = [x, y, z, w] := by
    match p, hlen with
    | [x, y, z, w], _ => exact ⟨x, y, z, w, rfl⟩
  have hsome : ∀ b v rest, parseHexLoop (b :: rest) v ≠ u32Max → ∃ d, hexDigit b = some d ∧
      parseHexLoop rest ((v <<< 4) ||| d) ≠ u32Max := by
    intro b v rest hb
    cases hd : hexDigit b with
    | none =>
      rw [parseHexLoop, hd] at hb
      exact absurd rfl hb
    | some d =>
      rw [parseHexLoop, hd] at hb
      exact ⟨d, rfl, hb⟩
  obtain ⟨a, hx, h1⟩ := hsome _ _ _ h
  obtain ⟨b, hy, h2⟩ := hsome _ _ _ h1
  obtain ⟨c, hz, h3⟩ := hsome _ _ _ h2
  obtain ⟨d, hw, -⟩ := hsome _ _ _ h3
  obtain ⟨ha, rfl⟩ := hexDigit_some hx
  obtain ⟨hb, rfl⟩ := hexDigit_some hy
  obtain ⟨hc, rfl⟩ := hexDigit_some hz
  obtain ⟨hd, rfl⟩ := hexDigit_some hw
  have e1 : (a.toNat * 4096 + b.toNat * 256 + c.toNat * 16 + d.toNat) / 4096 % 16 = a.toNat := by
    omega
  have e2 : (a.toNat * 4096 + b.toNat * 256 + c.toNat * 16 + d.toNat) / 256 % 16 = b.toNat := by
    omega
  have e3 : (a.toNat * 4096 + b.toNat * 256 + c.toNat * 16 + d.toNat) / 16 % 16 = c.toNat := by
    omega
  have e4 : (a.toNat * 4096 + b.toNat * 256 + c.toNat * 16 + d.toNat) % 16 = d.toNat := by omega
  rw [parseHexLoop_four ha hb hc hd, hex4, e1, e2, e3, e4]

/-- A text with its checksum field. -/
def sealed (body : List UInt8) : List UInt8 := body ++ 32 :: hex4 (checksum body)

theorem length_sealed (body : List UInt8) : (sealed body).length = body.length + 5 := by
  rw [sealed, List.length_append]
  rfl

theorem checksum_lt (body : List UInt8) : checksum body < 65536 := Nat.mod_lt _ (by decide)

theorem take_sealed (body : List UInt8) : (sealed body).take ((sealed body).length - 5) = body := by
  rw [length_sealed, Nat.add_sub_cancel, sealed, List.take_left]

/-- The bytes of the checksum field are what is parsed as hex. -/
theorem parseHex4_sealed (body : List UInt8) :
    parseHex4 (sealed body) ((sealed body).length - 4) = UInt32.ofNat (checksum body) := by
  have hdrop : (sealed body).drop ((sealed body).length - 4) = hex4 (checksum body) := by
    have hsplit : sealed body = (body ++ [32]) ++ hex4 (checksum body) := by
      rw [sealed, List.append_assoc]
      rfl
    have hlen : (sealed body).length - 4 = (body ++ [32]).length := by
      rw [length_sealed, List.length_append]
      rfl
    rw [hlen, hsplit, List.drop_left]
  have hvalue := parseHexLoop_hex4 (checksum_lt body)
  rw [parseHex4, hdrop, List.take_of_length_le (Nat.le_refl 4), ← UInt32.toNat_inj, hvalue,
    UInt32.toNat_ofNat_of_lt' (Nat.lt_trans (checksum_lt body) (by decide))]

theorem ldSeal_sealed {tail : List UInt8} (hne : tail ≠ []) :
    ldSeal (sealed (ldMagic ++ tail)) = 0 := by
  have hpos := List.length_pos_iff.mpr hne
  have hmagic : ldMagic.length = 7 := rfl
  have hlt := checksum_lt (ldMagic ++ tail)
  have hlong : ¬ (sealed (ldMagic ++ tail)).length < ldMagic.length + 6 := by
    rw [length_sealed, List.length_append]
    omega
  have hstart : startsWith (sealed (ldMagic ++ tail)) ldMagic = true :=
    startsWith_iff.mpr ⟨_, List.append_assoc _ _ _⟩
  have hspace : (sealed (ldMagic ++ tail))[(sealed (ldMagic ++ tail)).length - 5]? = some 32 := by
    rw [length_sealed, Nat.add_sub_cancel, sealed, getElem?_cursor]
    rfl
  have hmax : UInt32.ofNat (checksum (ldMagic ++ tail)) ≠ u32Max := by
    intro h
    rw [← UInt32.toNat_inj, UInt32.toNat_ofNat_of_lt' (Nat.lt_trans hlt (by decide))] at h
    rw [h] at hlt
    exact absurd hlt (by decide)
  have hsum : ckSum (sealed (ldMagic ++ tail)) ((sealed (ldMagic ++ tail)).length - 5) =
      UInt32.ofNat (checksum (ldMagic ++ tail)) := by
    rw [← UInt32.toNat_inj, ckSum_eq, take_sealed,
      UInt32.toNat_ofNat_of_lt' (Nat.lt_trans hlt (by decide))]
  rw [ldSeal]
  simp only [if_neg hlong, hstart, hspace, parseHex4_sealed, hsum, if_neg hmax, Bool.not_true,
    Bool.false_eq_true, ne_eq, not_true, if_false]

/-- A record that passes the first checks is a text after the magic with its checksum field. -/
theorem ldSeal_eq_zero {rp : List UInt8} (h : ldSeal rp = 0) :
    ∃ tail, rp = sealed (ldMagic ++ tail) := by
  unfold ldSeal at h
  dsimp only at h
  split_ifs at h with hlong hstart hspace hmax hsum
  · exact absurd h (by decide)
  · exact absurd h (by decide)
  · exact absurd h (by decide)
  · exact absurd h (by decide)
  · exact absurd h (by decide)
  have hmagic : ldMagic.length = 7 := rfl
  rw [hmagic] at hlong
  rw [Bool.not_eq_true', Bool.not_eq_false] at hstart
  obtain ⟨rest, hrp⟩ := startsWith_iff.mp hstart
  have hfield : rp.drop (rp.length - 5) = 32 :: rp.drop (rp.length - 4) := by
    have hlt : rp.length - 5 < rp.length := by omega
    rw [not_not, List.getElem?_eq_getElem hlt, Option.some.injEq] at hspace
    rw [List.drop_eq_getElem_cons hlt, hspace, show rp.length - 5 + 1 = rp.length - 4 by omega]
  have hfour : (rp.drop (rp.length - 4)).length = 4 := by
    rw [List.length_drop]
    omega
  have hhex := parseHexLoop_ne_max hfour (by
    rwa [parseHex4, List.take_of_length_le (Nat.le_of_eq hfour)] at hmax)
  have hvalue : (parseHexLoop (rp.drop (rp.length - 4)) 0).toNat =
      checksum (rp.take (rp.length - 5)) := by
    rw [not_not, parseHex4, List.take_of_length_le (Nat.le_of_eq hfour)] at hsum
    rw [← hsum, ckSum_eq]
  have htake : ∀ n, 7 ≤ n → rp.take n = ldMagic ++ rest.take (n - 7) := by
    intro n hn
    rw [hrp, List.take_append, hmagic, List.take_of_length_le hn]
  have hbody := htake (rp.length - 5) (by omega)
  refine ⟨rest.take (rp.length - 5 - 7), ?_⟩
  rw [← hbody, sealed, ← hvalue, ← hhex, ← hfield, List.take_append_drop]

/-! ## The record format -/

/-- The tokens of a record before its checksum. -/
structure AppRecord where
  name : List UInt8
  entry : List UInt8
  text : List UInt8
  rodata : List UInt8
  stack : List UInt8
  caps : List UInt8
  total : List UInt8

/-- The tokens with single spaces between them. -/
def AppRecord.fields (r : AppRecord) : List UInt8 :=
  r.name ++ 32 :: (r.entry ++ 32 :: (r.text ++ 32 :: (r.rodata ++ 32 :: (r.stack ++
    32 :: (r.caps ++ 32 :: r.total)))))

/-- The record with its magic and its checksum. -/
def AppRecord.bytes (r : AppRecord) : List UInt8 := sealed (ldMagic ++ r.fields)

/-- The capability word is within the policy of a known app. -/
def CapsAllowed (name caps : List UInt8) : Prop :=
  ((name = umsg "hello" ∨ name = umsg "counter") ∧ (caps = umsg "console" ∨ caps = umsg "none")) ∨
    (name = umsg "fault_demo" ∧ caps = umsg "none")

/-- The tokens are of their kind: words without a space and numerals. -/
structure AppRecord.Formed (r : AppRecord) : Prop where
  name : r.name ≠ [] ∧ (32 : UInt8) ∉ r.name
  entry : IsNumeral r.entry
  text : IsNumeral r.text
  rodata : IsNumeral r.rodata
  stack : IsNumeral r.stack
  caps : r.caps ≠ [] ∧ (32 : UInt8) ∉ r.caps
  total : IsNumeral r.total

/-- The record is an image of the requested app, where `value` gives the numbers. -/
structure AppRecord.Valid (value : List UInt8 → ℕ) (requested : List UInt8) (r : AppRecord) :
    Prop where
  formed : r.Formed
  named : r.name = requested
  text_pos : 0 < value r.text
  text_le : value r.text ≤ 65536
  rodata_le : value r.rodata ≤ 65536
  total_eq : value r.total = value r.text + value r.rodata
  entry_lt : value r.entry < value r.text
  stack_eq : value r.stack = 1
  allowed : CapsAllowed requested r.caps

/-- The format of docs/32: a numeral stands for the number it denotes. -/
def DocumentedRecord (rp requested : List UInt8) : Prop :=
  ∃ r : AppRecord, rp = r.bytes ∧ r.Valid numeralValue requested

/-! ## The checks of the validator -/

/-- What a record has passed when `ldValidate` returns 0, check by check. -/
structure LdPassed (rp name : List UInt8) (i1 c1 : ℕ) (n : LdNums) (z : UInt64 × ℕ) : Prop where
  start : ldSeal rp = 0
  token : ldMagic.length < i1
  name_eq : (rp.drop ldMagic.length).take (i1 - ldMagic.length) = name
  nums : ¬ (n.e = u64Max ∨ n.t = u64Max ∨ n.rd = u64Max ∨ n.s = u64Max)
  space : rp[n.next]? = some 32
  caps : n.next + 1 < c1
  total : z.1 ≠ u64Max ∧ z.2 = rp.length - 5
  layout : ldBadLayout n z.1 = false
  policy : ldPolicy ((rp.drop (n.next + 1)).take (c1 - (n.next + 1))) name = 0

/-- The indexes and numbers the validator works with. -/
abbrev LdChecked (rp name : List UInt8) : Prop :=
  LdPassed rp name (tokEnd rp ldMagic.length)
    (tokEnd rp ((ldNums rp (tokEnd rp ldMagic.length)).next + 1))
    (ldNums rp (tokEnd rp ldMagic.length))
    (ldNumAfter rp (tokEnd rp ((ldNums rp (tokEnd rp ldMagic.length)).next + 1)))

/-- A check with an error code passes when it does not fire and the checks behind it pass. -/
theorem check_eq_zero {c : Prop} [Decidable c] {code rest : UInt8} (h : code ≠ 0) :
    (if c then code else rest) = 0 ↔ ¬ c ∧ rest = 0 := by
  split_ifs with hc
  · exact iff_of_false h fun hok => hok.1 hc
  · exact ⟨fun hrest => ⟨hc, hrest⟩, And.right⟩

/-- A check that passes its own code on. -/
theorem code_eq_zero {code rest : UInt8} :
    (if code ≠ 0 then code else rest) = 0 ↔ code = 0 ∧ rest = 0 := by
  split_ifs with hc
  · exact iff_of_false hc fun hok => hc hok.1
  · exact ⟨fun hrest => ⟨not_not.mp hc, hrest⟩, And.right⟩

theorem ldValidate_eq_zero {rp name : List UInt8} :
    ldValidate rp name = 0 ↔ LdChecked rp name := by
  have h1 : (1 : UInt8) ≠ 0 := by decide
  have h4 : (4 : UInt8) ≠ 0 := by decide
  unfold ldValidate
  dsimp only
  rw [code_eq_zero, check_eq_zero h4, check_eq_zero h1, check_eq_zero h4, check_eq_zero h4,
    check_eq_zero h4, check_eq_zero h4, check_eq_zero h1, Bool.not_eq_true', Bool.not_eq_false,
    eqs_iff]
  constructor
  · rintro ⟨hseal, htok, hname, hnums, hspace, hcaps, htotal, hlayout, hpolicy⟩
    rw [not_or, not_not] at htotal
    exact ⟨hseal, Nat.not_le.mp htok, hname, hnums, not_not.mp hspace, Nat.not_le.mp hcaps, htotal,
      Bool.eq_false_iff.mpr hlayout, hpolicy⟩
  · intro h
    exact ⟨h.start, Nat.not_le.mpr h.token, h.name_eq, h.nums, not_not.mpr h.space,
      Nat.not_le.mpr h.caps, not_or.mpr ⟨h.total.1, not_not.mpr h.total.2⟩,
      Bool.eq_false_iff.mp h.layout, h.policy⟩

theorem ldBadLayout_eq_false {n : LdNums} {z : UInt64} :
    ldBadLayout n z = false ↔ 0 < n.t.toNat ∧ n.t.toNat ≤ 65536 ∧ n.rd.toNat ≤ 65536 ∧
      z.toNat = n.t.toNat + n.rd.toNat ∧ n.e.toNat < n.t.toNat ∧ n.s.toNat = 1 := by
  have hzero : n.t = 0 ↔ n.t.toNat = 0 := UInt64.toNat_inj.symm
  have hone : n.s = 1 ↔ n.s.toNat = 1 := UInt64.toNat_inj.symm
  have htext : 65536 < n.t ↔ 65536 < n.t.toNat := UInt64.lt_iff_toNat_lt
  have hrodata : 65536 < n.rd ↔ 65536 < n.rd.toNat := UInt64.lt_iff_toNat_lt
  have himage : 131072 < z ↔ 131072 < z.toNat := UInt64.lt_iff_toNat_lt
  have hentry : n.t ≤ n.e ↔ n.t.toNat ≤ n.e.toNat := UInt64.le_iff_toNat_le
  have hsum : z = n.t + n.rd ↔ z.toNat = (n.t.toNat + n.rd.toNat) % 2 ^ 64 := by
    rw [← UInt64.toNat_inj, UInt64.toNat_add]
  simp only [ldBadLayout, Bool.or_eq_false_iff, decide_eq_false_iff_not, hzero, hone, htext,
    hrodata, himage, hentry, hsum, ne_eq, not_not]
  omega

theorem ldPolicy_eq_zero {caps name : List UInt8} :
    ldPolicy caps name = 0 ↔ CapsAllowed name caps := by
  have hcaps : umsg "console" ≠ umsg "none" := by decide
  have hnames : umsg "hello" ≠ umsg "fault_demo" ∧ umsg "counter" ≠ umsg "fault_demo" := by decide
  have heqs : ∀ p q : List UInt8, eqs p q = decide (p = q) := by
    intro p q
    rw [Bool.eq_iff_iff, eqs_iff, decide_eq_true_eq]
  unfold ldPolicy CapsAllowed
  -- only that the words differ is used of them
  generalize umsg "console" = console, umsg "none" = noCaps, umsg "hello" = hello,
    umsg "counter" = counter, umsg "fault_demo" = faultDemo at hcaps hnames ⊢
  simp only [heqs, Bool.and_eq_true, Bool.or_eq_true, Bool.not_eq_true', decide_eq_true_eq,
    decide_eq_false_iff_not]
  split_ifs with hword hconsole hfault hwant
  · simp [hword]
  · have hw : caps = console ∨ caps = noCaps := by tauto
    simp [hconsole, hw]
  · subst hfault hwant
    simp [hcaps, hnames.1.symm, hnames.2.symm]
  · have hw : caps = noCaps := by tauto
    simp [hfault, hw]
  · simp [hconsole, hfault]

/-! ## Records and the checks -/

theorem fields_ne_nil {r : AppRecord} (h : r.Formed) : r.fields ≠ [] := by
  intro hnil
  exact h.name.1 (List.append_eq_nil_iff.mp hnil).1

theorem ofNat_ne_max {d : List UInt8} (h : wordValue d ≤ 131072) :
    UInt64.ofNat (numeralValue d) ≠ u64Max := by
  rw [Ne, ofNat_eq_iff]
  intro hmax
  rw [hmax] at h
  exact absurd h (by decide)

/-- The record up to its last small number. -/
def AppRecord.numbered (r : AppRecord) : List UInt8 :=
  ldMagic ++ r.name ++ 32 :: r.entry ++ 32 :: r.text ++ 32 :: r.rodata ++ 32 :: r.stack

/-- The record from its capability word on. -/
def AppRecord.closing (r : AppRecord) : List UInt8 :=
  r.caps ++ 32 :: (r.total ++ 32 :: hex4 (checksum (ldMagic ++ r.fields)))

theorem AppRecord.bytes_eq (r : AppRecord) : r.bytes = r.numbered ++ 32 :: r.closing := by
  unfold AppRecord.bytes AppRecord.closing sealed
  generalize hex4 (checksum (ldMagic ++ r.fields)) = hex
  simp only [AppRecord.fields, AppRecord.numbered, List.append_assoc, List.cons_append]

theorem AppRecord.bytes_eq_name (r : AppRecord) : r.bytes = (ldMagic ++ r.name) ++
    32 :: (r.entry ++ 32 :: (r.text ++ 32 :: (r.rodata ++
      32 :: (r.stack ++ 32 :: r.closing)))) := by
  rw [r.bytes_eq, AppRecord.numbered]
  simp only [List.append_assoc, List.cons_append]

namespace AppRecord.Formed

variable {r : AppRecord}

theorem tokEnd_name (h : r.Formed) :
    tokEnd r.bytes ldMagic.length = (ldMagic ++ r.name).length := by
  rw [r.bytes_eq_name, List.append_assoc, tokEnd_append h.name.2 (atSpace_cons _),
    List.length_append]

theorem ldNums_eq (h : r.Formed) : ldNums r.bytes (ldMagic ++ r.name).length =
    ⟨UInt64.ofNat (numeralValue r.entry), UInt64.ofNat (numeralValue r.text),
      UInt64.ofNat (numeralValue r.rodata), UInt64.ofNat (numeralValue r.stack),
      r.numbered.length⟩ := by
  rw [r.bytes_eq_name]
  exact ldNums_append h.entry h.text h.rodata h.stack (noDigit_space _)

theorem space_caps (r : AppRecord) : r.bytes[r.numbered.length]? = some 32 := by
  rw [r.bytes_eq, getElem?_cursor]
  rfl

theorem tokEnd_caps (h : r.Formed) :
    tokEnd r.bytes (r.numbered.length + 1) = (r.numbered ++ 32 :: r.caps).length := by
  have hstep : r.bytes = (r.numbered ++ [32]) ++ r.closing := by
    rw [r.bytes_eq, List.append_assoc]
    rfl
  have hlen : r.numbered.length + 1 = (r.numbered ++ [32]).length := by
    rw [List.length_append, List.length_singleton]
  rw [hstep, hlen, AppRecord.closing, tokEnd_append h.caps.2 (atSpace_cons _)]
  simp only [List.length_append, List.length_cons, List.length_nil]
  omega

theorem ldNumAfter_total (h : r.Formed) :
    ldNumAfter r.bytes (r.numbered ++ 32 :: r.caps).length =
      (UInt64.ofNat (numeralValue r.total), (ldMagic ++ r.fields).length) := by
  have hstep : r.bytes = (r.numbered ++ 32 :: r.caps) ++ 32 :: (r.total ++
      32 :: hex4 (checksum (ldMagic ++ r.fields))) := by
    rw [r.bytes_eq, AppRecord.closing]
    simp only [List.append_assoc, List.cons_append]
  have hlen : (r.numbered ++ 32 :: r.caps ++ 32 :: r.total).length =
      (ldMagic ++ r.fields).length := by
    rw [AppRecord.numbered, AppRecord.fields]
    simp only [List.append_assoc, List.cons_append]
  rw [hstep, ldNumAfter_append h.total (noDigit_space _), hlen]

theorem checked_eq (h : r.Formed) (requested : List UInt8) : LdChecked r.bytes requested ↔
    LdPassed r.bytes requested (ldMagic ++ r.name).length (r.numbered ++ 32 :: r.caps).length
      ⟨UInt64.ofNat (numeralValue r.entry), UInt64.ofNat (numeralValue r.text),
        UInt64.ofNat (numeralValue r.rodata), UInt64.ofNat (numeralValue r.stack),
        r.numbered.length⟩
      (UInt64.ofNat (numeralValue r.total), (ldMagic ++ r.fields).length) := by
  unfold LdChecked
  rw [h.tokEnd_name, h.ldNums_eq]
  dsimp only
  rw [h.tokEnd_caps, h.ldNumAfter_total]

theorem name_slice (r : AppRecord) :
    (r.bytes.drop ldMagic.length).take ((ldMagic ++ r.name).length - ldMagic.length) = r.name := by
  rw [r.bytes_eq_name, List.append_assoc, List.drop_left, List.length_append,
    Nat.add_sub_cancel_left, List.take_left]

theorem caps_slice (r : AppRecord) :
    (r.bytes.drop (r.numbered.length + 1)).take
      ((r.numbered ++ 32 :: r.caps).length - (r.numbered.length + 1)) = r.caps := by
  have hlen : (r.numbered ++ 32 :: r.caps).length - (r.numbered.length + 1) = r.caps.length := by
    rw [List.length_append, List.length_cons]
    omega
  rw [hlen, r.bytes_eq, ← List.drop_drop, List.drop_left, AppRecord.closing]
  exact List.take_left

/-- The checks pass on a record exactly if it is valid with its numbers taken as words. -/
theorem checked_iff (h : r.Formed) (requested : List UInt8) :
    LdChecked r.bytes requested ↔ r.Valid wordValue requested := by
  rw [h.checked_eq]
  constructor
  · intro hp
    have hname := hp.name_eq
    rw [name_slice] at hname
    have hpolicy := hp.policy
    dsimp only at hpolicy
    rw [caps_slice, ldPolicy_eq_zero] at hpolicy
    have hlayout := ldBadLayout_eq_false.mp hp.layout
    simp only [toNat_wordValue] at hlayout
    obtain ⟨hpos, ht, hr, hz, he, hs⟩ := hlayout
    exact ⟨h, hname, hpos, ht, hr, hz, he, hs, hpolicy⟩
  · intro hv
    have ht := hv.text_le
    have hr := hv.rodata_le
    have hz := hv.total_eq
    have he := hv.entry_lt
    have hs := hv.stack_eq
    have hnamepos := List.length_pos_iff.mpr h.name.1
    have hcapspos := List.length_pos_iff.mpr h.caps.1
    have hsize : (ldMagic ++ r.fields).length = r.bytes.length - 5 := by
      rw [AppRecord.bytes, length_sealed, Nat.add_sub_cancel]
    constructor
    case start => exact ldSeal_sealed (fields_ne_nil h)
    case token =>
      rw [List.length_append]
      omega
    case name_eq => rw [name_slice, hv.named]
    case nums =>
      simp only [not_or]
      exact ⟨ofNat_ne_max (by omega), ofNat_ne_max (by omega), ofNat_ne_max (by omega),
        ofNat_ne_max (by omega)⟩
    case space => exact space_caps r
    case caps =>
      rw [List.length_append, List.length_cons]
      dsimp only
      omega
    case total => exact ⟨ofNat_ne_max (by omega), hsize⟩
    case layout =>
      rw [ldBadLayout_eq_false]
      simp only [toNat_wordValue]
      exact ⟨hv.text_pos, ht, hr, hz, he, hs⟩
    case policy =>
      dsimp only
      rw [caps_slice, ldPolicy_eq_zero]
      exact hv.allowed

end AppRecord.Formed

/-- What passes the checks is a record. -/
theorem LdChecked.exists_record {rp name : List UInt8} (h : LdChecked rp name) :
    ∃ r : AppRecord, r.Formed ∧ rp = r.bytes := by
  obtain ⟨hseal, htoken, -, hnums, hspace, hcaps, htotal, -, -⟩ := h
  obtain ⟨tail, hrp⟩ := ldSeal_eq_zero hseal
  -- the name
  have hsplit : rp = ldMagic ++ (tail ++ 32 :: hex4 (checksum (ldMagic ++ tail))) := by
    rw [hrp, sealed, List.append_assoc]
  obtain ⟨w, rest, hw, hwspace, hrest⟩ :=
    exists_token (tail ++ 32 :: hex4 (checksum (ldMagic ++ tail)))
  rw [hw] at hsplit
  have hi1 : tokEnd rp ldMagic.length = (ldMagic ++ w).length := by
    rw [hsplit, tokEnd_append hwspace hrest, List.length_append]
  rw [← List.append_assoc] at hsplit
  rw [hi1] at htoken hnums hspace hcaps htotal
  have hwne : w ≠ [] := by
    rintro rfl
    rw [List.append_nil] at htoken
    omega
  -- the numbers
  rw [hsplit] at hnums
  obtain ⟨de, dt, dr, ds, rest4, rfl, hde, hdt, hdr, hds, hrest4⟩ := ldNums_found hnums
  have hnext := @ldNums_append (ldMagic ++ w) de dt dr ds rest4 hde hdt hdr hds hrest4
  rw [← hsplit] at hnext
  obtain ⟨pre, hpre⟩ : ∃ pre, pre = ldMagic ++ w ++ 32 :: de ++ 32 :: dt ++ 32 :: dr ++ 32 :: ds :=
    ⟨_, rfl⟩
  rw [← hpre] at hnext
  rw [hnext] at hspace hcaps htotal
  dsimp only at hspace hcaps htotal
  have hsplit4 : rp = pre ++ rest4 := by
    rw [hsplit, hpre]
    simp only [List.append_assoc, List.cons_append]
  -- the capability word
  obtain ⟨rest5, rfl⟩ : ∃ rest5, rest4 = 32 :: rest5 := by
    rw [hsplit4, getElem?_cursor] at hspace
    exact List.head?_eq_some_iff.mp hspace
  obtain ⟨caps, rest6, rfl, hcspace, hrest6⟩ := exists_token rest5
  have hsplit5 : rp = (pre ++ [32]) ++ (caps ++ rest6) := by
    rw [hsplit4, List.append_assoc]
    rfl
  have hc1 : tokEnd rp (pre.length + 1) = (pre ++ 32 :: caps).length := by
    have hlen : pre.length + 1 = (pre ++ [32]).length := by
      rw [List.length_append, List.length_singleton]
    rw [hsplit5, hlen, tokEnd_append hcspace hrest6]
    simp only [List.length_append, List.length_cons, List.length_nil]
    omega
  rw [hc1] at hcaps htotal
  have hcne : caps ≠ [] := by
    rintro rfl
    rw [List.length_append, List.length_singleton] at hcaps
    omega
  -- the image size
  have hsplit6 : rp = (pre ++ 32 :: caps) ++ rest6 := by
    rw [hsplit4, List.append_assoc, List.cons_append]
  rw [hsplit6] at htotal
  obtain ⟨dz, rest7, hdz, -, -, hsplit7, hj5⟩ := ldNumAfter_next htotal.1
  have hstop := htotal.2
  rw [hj5, ← hsplit6, hrp, length_sealed, Nat.add_sub_cancel] at hstop
  let r : AppRecord := ⟨w, de, dt, dr, ds, caps, dz⟩
  have hfields : pre ++ 32 :: caps ++ 32 :: dz = ldMagic ++ r.fields := by
    rw [hpre]
    simp only [r, AppRecord.fields, List.append_assoc, List.cons_append]
  have hbody : ldMagic ++ r.fields = ldMagic ++ tail := by
    rw [← hsplit6, hfields, hrp, sealed] at hsplit7
    rw [hfields] at hstop
    exact (List.append_inj hsplit7.symm hstop).1
  refine ⟨r, ⟨⟨hwne, hwspace⟩, hde, hdt, hdr, hds, ⟨hcne, hcspace⟩, hdz⟩, ?_⟩
  rw [AppRecord.bytes, hbody, hrp]

/-- The validator decides the format with every number taken modulo the word size. -/
theorem ldValidate_iff {rp requested : List UInt8} :
    ldValidate rp requested = 0 ↔ ∃ r : AppRecord, rp = r.bytes ∧ r.Valid wordValue requested := by
  rw [ldValidate_eq_zero]
  constructor
  · intro h
    obtain ⟨r, hr, rfl⟩ := h.exists_record
    exact ⟨r, rfl, (hr.checked_iff requested).mp h⟩
  · rintro ⟨r, rfl, hv⟩
    exact (hv.formed.checked_iff requested).mpr hv

/-! ## The documented format -/

theorem splitOn_token {w : List UInt8} (hw : (32 : UInt8) ∉ w) (rest : List UInt8) :
    (w ++ 32 :: rest).splitOn 32 = w :: rest.splitOn 32 := by
  refine List.splitOnP_append_cons_of_forall_mem (p := fun b => b == 32) ?_ 32 (by decide) rest
  intro b hb
  rw [beq_eq_false_iff_ne]
  rintro rfl
  exact hw hb

theorem splitOn_single {w : List UInt8} (hw : (32 : UInt8) ∉ w) : w.splitOn 32 = [w] := by
  refine List.splitOnP_eq_singleton ?_
  intro b hb
  rw [beq_eq_false_iff_ne]
  rintro rfl
  exact hw hb

theorem numeral_no_space {d : List UInt8} (h : IsNumeral d) : (32 : UInt8) ∉ d := by
  intro hmem
  exact absurd (h.digits 32 hmem) (by decide)

theorem hex4_no_space (n : ℕ) : (32 : UInt8) ∉ hex4 n := by
  have hne : ∀ d < 16, hexChar d ≠ 32 := by
    intro d hd
    interval_cases d <;> decide
  have hlt : ∀ m, m % 16 < 16 := fun m => Nat.mod_lt _ (by decide)
  simp [hex4, (hne _ (hlt _)).symm]

/-- The tokens of a record are what stands between its spaces. -/
theorem AppRecord.Formed.splitOn_bytes {r : AppRecord} (h : r.Formed) : r.bytes.splitOn 32 =
    [umsg "AXAPP1", r.name, r.entry, r.text, r.rodata, r.stack, r.caps, r.total,
      hex4 (checksum (ldMagic ++ r.fields))] := by
  have hsplit : r.bytes = umsg "AXAPP1" ++ 32 :: (r.name ++ 32 :: (r.entry ++ 32 :: (r.text ++
      32 :: (r.rodata ++ 32 :: (r.stack ++ 32 :: r.closing))))) := by
    rw [r.bytes_eq_name, List.append_assoc]
    rfl
  rw [hsplit, AppRecord.closing, splitOn_token (by decide), splitOn_token h.name.2,
    splitOn_token (numeral_no_space h.entry), splitOn_token (numeral_no_space h.text),
    splitOn_token (numeral_no_space h.rodata), splitOn_token (numeral_no_space h.stack),
    splitOn_token h.caps.2, splitOn_token (numeral_no_space h.total),
    splitOn_single (hex4_no_space _)]

/-- A record is determined by its text. -/
theorem AppRecord.Formed.bytes_inj {r r' : AppRecord} (h : r.Formed) (h' : r'.Formed)
    (heq : r.bytes = r'.bytes) : r = r' := by
  have htokens := h.splitOn_bytes
  rw [heq, h'.splitOn_bytes] at htokens
  simp only [List.cons.injEq] at htokens
  obtain ⟨-, hname, hentry, htext, hrodata, hstack, hcaps, htotal, -⟩ := htokens
  cases r
  cases r'
  rw [AppRecord.mk.injEq]
  exact ⟨hname.symm, hentry.symm, htext.symm, hrodata.symm, hstack.symm, hcaps.symm, htotal.symm⟩

/-- The numerals of a record. -/
def AppRecord.numerals (r : AppRecord) : List (List UInt8) :=
  [r.entry, r.text, r.rodata, r.stack, r.total]

section Readings

variable {value value' : List UInt8 → ℕ} {requested : List UInt8} {r : AppRecord}

/-- Where two readings of the numerals agree, so do the two notions of validity. -/
theorem AppRecord.Valid.congr (h : r.Valid value requested)
    (heq : ∀ d ∈ r.numerals, value d = value' d) : r.Valid value' requested := by
  simp only [AppRecord.numerals, List.forall_mem_cons] at heq
  obtain ⟨he, ht, hr, hs, hz, -⟩ := heq
  obtain ⟨hformed, hnamed, hpos, htext, hrodata, htotal, hentry, hstack, hallowed⟩ := h
  rw [ht] at hpos htext
  rw [hr] at hrodata
  rw [ht, hr, hz] at htotal
  rw [he, ht] at hentry
  rw [hs] at hstack
  exact ⟨hformed, hnamed, hpos, htext, hrodata, htotal, hentry, hstack, hallowed⟩

/-- The numbers of a valid record are far below the word size. -/
theorem AppRecord.Valid.small (h : r.Valid value requested) :
    ∀ d ∈ r.numerals, value d < 2 ^ 64 := by
  have ht := h.text_le
  have hr := h.rodata_le
  have hz := h.total_eq
  have he := h.entry_lt
  have hs := h.stack_eq
  intro d hd
  simp only [AppRecord.numerals, List.mem_cons, List.not_mem_nil, or_false] at hd
  rcases hd with rfl | rfl | rfl | rfl | rfl <;> omega

end Readings

/-- The validator gives the documented verdict on a record exactly unless the record is valid only
because a numeral beyond the word size wraps around. -/
theorem ldValidate_documented_iff (rp requested : List UInt8) :
    (ldValidate rp requested = 0 ↔ DocumentedRecord rp requested) ↔
      ∀ r : AppRecord, rp = r.bytes → r.Valid wordValue requested →
        ∀ d ∈ r.numerals, numeralValue d < 2 ^ 64 := by
  rw [ldValidate_iff]
  constructor
  · rintro hiff r hrp hv
    obtain ⟨r', hrp', hv'⟩ := hiff.mp ⟨r, hrp, hv⟩
    obtain rfl := hv.formed.bytes_inj hv'.formed (hrp.symm.trans hrp')
    exact hv'.small
  · intro hfit
    constructor
    · rintro ⟨r, hrp, hv⟩
      exact ⟨r, hrp, hv.congr fun d hd => Nat.mod_eq_of_lt (hfit r hrp hv d hd)⟩
    · rintro ⟨r, hrp, hv⟩
      exact ⟨r, hrp, hv.congr fun d hd => (Nat.mod_eq_of_lt (hv.small d hd)).symm⟩

/-- The word wraps around: a record that asks for 2^64 + 1 stack pages is taken for valid. -/
theorem ldValidate_wraps :
    ldValidate (umsg "AXAPP1 hello 0 1 0 18446744073709551617 none 1 0b2a") (umsg "hello") = 0 ∧
      ¬ DocumentedRecord (umsg "AXAPP1 hello 0 1 0 18446744073709551617 none 1 0b2a")
        (umsg "hello") := by
  refine ⟨by decide +kernel, ?_⟩
  rintro ⟨r, hrp, hv⟩
  have htokens := hv.formed.splitOn_bytes
  rw [← hrp] at htokens
  have hsplit : ((umsg "AXAPP1 hello 0 1 0 18446744073709551617 none 1 0b2a").splitOn 32)[5]? =
      some (umsg "18446744073709551617") := by decide +kernel
  rw [htokens] at hsplit
  have hstack : r.stack = umsg "18446744073709551617" := Option.some.inj hsplit
  have hone := hv.stack_eq
  rw [hstack] at hone
  exact absurd hone (by decide)

/-! ## Admission -/

/-- The layout of a validated image can be mapped: the loader and the kernel-side rules agree. -/
theorem ldValidate_admitted (rp name : List UInt8) (h : ldValidate rp name = 0) :
    Loader.admitImageMapping ⟨0x10000, (ldNums rp (tokEnd rp ldMagic.length)).e,
      (ldNums rp (tokEnd rp ldMagic.length)).t, (ldNums rp (tokEnd rp ldMagic.length)).rd,
      (ldNums rp (tokEnd rp ldMagic.length)).s⟩ = .ok () := by
  obtain ⟨hpos, ht, hr, -, he, hs⟩ := ldBadLayout_eq_false.mp (ldValidate_eq_zero.mp h).layout
  have hbase : (0x10000 : UInt64).toNat = 0x10000 := rfl
  rw [Loader.admitImageMapping_ok]
  refine ⟨hpos, he, ?_, UInt64.toNat_inj.mp hs, ?_⟩
  · dsimp only
    omega
  · dsimp only
    omega

theorem ldValidate_admitted_hello :
    ldValidate (umsg "AXAPP1 hello 0 4096 4096 1 console 8192 0a6d") (umsg "hello") = 0 ∧
      Loader.admitImageMapping ⟨0x10000, 0, 4096, 4096, 1⟩ = .ok () := by
  have hvalid : ldValidate (umsg "AXAPP1 hello 0 4096 4096 1 console 8192 0a6d") (umsg "hello") =
      0 := by
    decide +kernel
  exact ⟨hvalid, ldValidate_admitted _ _ hvalid⟩

end AxiomRT.User
