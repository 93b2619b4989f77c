import Mathlib.Data.Int.Notation
import Mathlib.Tactic.Common

/-!
# JSON

The grammar of RFC 8259 as relations between a text, the value it denotes and the text behind it,
and a decoder for it. An object keeps its members as an ordered list, equal names included. The
decoder accepts only what the grammar derives, with the value that it derives.
-/

namespace AxiomRT.Lib

/-- A number is `mantissa * 10 ^ exponent`, as it was written. -/
inductive Json
  | null
  | bool (b : Bool)
  | num (mantissa exponent : ℤ)
  | str (s : String)
  | arr (elements : List Json)
  | obj (members : List (String × Json))

namespace Json

/-! ## Grammar -/

/-- The four characters of white space. -/
def isWs (c : Char) : Bool := c = ' ' || c = '\t' || c = '\n' || c = '\r'

/-- White space, then the rest. -/
inductive Ws : List Char → List Char → Prop
  | done (cs : List Char) : Ws cs cs
  | skip {c : Char} {cs rest : List Char} (hc : isWs c = true) (h : Ws cs rest) : Ws (c :: cs) rest

/-- The value of a hexadecimal digit, in either case. -/
def hexValue (c : Char) : Option ℕ :=
  if '0' ≤ c ∧ c ≤ '9' then some (c.toNat - 48)
  else if 'a' ≤ c ∧ c ≤ 'f' then some (c.toNat - 87)
  else if 'A' ≤ c ∧ c ≤ 'F' then some (c.toNat - 55)
  else none

/-- Four hexadecimal digits, then the rest. -/
def hex4 : List Char → Option (ℕ × List Char)
  | c₃ :: c₂ :: c₁ :: c₀ :: rest => do
    let d₃ ← hexValue c₃
    let d₂ ← hexValue c₂
    let d₁ ← hexValue c₁
    let d₀ ← hexValue c₀
    some (((d₃ * 16 + d₂) * 16 + d₁) * 16 + d₀, rest)
  | _ => none

/-- What stands behind a backslash for one character, other than four digits. -/
def simpleEscape (e : Char) : Option Char :=
  match e with
  | '"' => some '"'
  | '\\' => some '\\'
  | '/' => some '/'
  | 'b' => some '\x08'
  | 'f' => some '\x0c'
  | 'n' => some '\n'
  | 'r' => some '\r'
  | 't' => some '\t'
  | _ => none

/-- The first half of a surrogate pair. -/
def isHigh (n : ℕ) : Bool := 0xd800 ≤ n && n < 0xdc00

/-- The second half of a surrogate pair. -/
def isLow (n : ℕ) : Bool := 0xdc00 ≤ n && n < 0xe000

/-- The character a surrogate pair stands for. -/
def ofPair (high low : ℕ) : Char := Char.ofNat (0x10000 + (high - 0xd800) * 0x400 + (low - 0xdc00))

/-- One character of a string. -/
inductive CharText : List Char → Char → List Char → Prop
  | unescaped {c : Char} {rest : List Char} (hc : 0x20 ≤ c.toNat) (hquote : c ≠ '"')
      (hback : c ≠ '\\') : CharText (c :: rest) c rest
  | escaped {e c : Char} {rest : List Char} (h : simpleEscape e = some c) :
      CharText ('\\' :: e :: rest) c rest
  | unicode {cs rest : List Char} {n : ℕ} (h : hex4 cs = some (n, rest)) (hhigh : isHigh n = false)
      (hlow : isLow n = false) : CharText ('\\' :: 'u' :: cs) (Char.ofNat n) rest
  | pair {cs cs' rest : List Char} {high low : ℕ} (h : hex4 cs = some (high, '\\' :: 'u' :: cs'))
      (hhigh : isHigh high = true) (h' : hex4 cs' = some (low, rest)) (hlow : isLow low = true) :
      CharText ('\\' :: 'u' :: cs) (ofPair high low) rest

/-- A string, from behind its opening quotation mark. -/
inductive StringText : List Char → List Char → List Char → Prop
  | close (rest : List Char) : StringText ('"' :: rest) [] rest
  | char {cs cs' rest s : List Char} {c : Char} (hc : CharText cs c cs')
      (h : StringText cs' s rest) : StringText cs (c :: s) rest

/-- At least one digit. -/
inductive DigitsText : List Char → List Char → List Char → Prop
  | one {d : Char} {rest : List Char} (hd : d.isDigit = true) : DigitsText (d :: rest) [d] rest
  | more {d : Char} {cs ds rest : List Char} (hd : d.isDigit = true) (h : DigitsText cs ds rest) :
      DigitsText (d :: cs) (d :: ds) rest

/-- An integer part has no leading zero. -/
inductive IntText : List Char → List Char → List Char → Prop
  | zero (rest : List Char) : IntText ('0' :: rest) ['0'] rest
  | digits {d : Char} {cs ds rest : List Char} (hd : d ≠ '0')
      (h : DigitsText (d :: cs) ds rest) : IntText (d :: cs) ds rest

/-- A fraction, which may be absent. -/
inductive FracText : List Char → List Char → List Char → Prop
  | absent (rest : List Char) : FracText rest [] rest
  | digits {cs ds rest : List Char} (h : DigitsText cs ds rest) : FracText ('.' :: cs) ds rest

/-- The number a list of digits denotes. -/
def digitsValue (ds : List Char) : ℤ := (Nat.ofDigitChars 10 ds 0 : ℕ)

/-- A number with an optional sign; `plus` says whether `+` is one. -/
inductive SignedText (plus : Bool) : List Char → Bool → List Char → Prop
  | unsigned (cs : List Char) : SignedText plus cs false cs
  | minus (cs : List Char) : SignedText plus ('-' :: cs) true cs
  | plus (cs : List Char) (h : plus = true) : SignedText plus ('+' :: cs) false cs

/-- A number with its sign. -/
def signed (neg : Bool) (n : ℤ) : ℤ := if neg then -n else n

/-- An exponent, which may be absent. -/
inductive ExpText : List Char → ℤ → List Char → Prop
  | absent (rest : List Char) : ExpText rest 0 rest
  | present {e : Char} {cs cs' ds rest : List Char} {neg : Bool} (he : e = 'e' ∨ e = 'E')
      (hsign : SignedText true cs neg cs') (h : DigitsText cs' ds rest) :
      ExpText (e :: cs) (signed neg (digitsValue ds)) rest

/-- A number: sign, integer part, fraction and exponent. -/
inductive NumberText : List Char → Json → List Char → Prop
  | mk {cs cs₁ cs₂ cs₃ rest int frac : List Char} {neg : Bool} {e : ℤ}
      (hsign : SignedText false cs neg cs₁) (hint : IntText cs₁ int cs₂)
      (hfrac : FracText cs₂ frac cs₃) (hexp : ExpText cs₃ e rest) :
      NumberText cs (.num (signed neg (digitsValue (int ++ frac))) (e - frac.length)) rest

/-- One of the three words. -/
inductive LiteralText : List Char → Json → List Char → Prop
  | null (rest : List Char) : LiteralText (['n', 'u', 'l', 'l'] ++ rest) .null rest
  | true (rest : List Char) : LiteralText (['t', 'r', 'u', 'e'] ++ rest) (.bool true) rest
  | false (rest : List Char) : LiteralText (['f', 'a', 'l', 's', 'e'] ++ rest) (.bool false) rest

mutual

/-- A value, without white space around it. -/
inductive ValueText : List Char → Json → List Char → Prop
  | literal {cs rest : List Char} {v : Json} (h : LiteralText cs v rest) : ValueText cs v rest
  | number {cs rest : List Char} {v : Json} (h : NumberText cs v rest) : ValueText cs v rest
  | string {cs s rest : List Char} (h : StringText cs s rest) :
      ValueText ('"' :: cs) (.str (String.ofList s)) rest
  | emptyArray {cs rest : List Char} (h : Ws cs (']' :: rest)) :
      ValueText ('[' :: cs) (.arr []) rest
  | array {cs rest : List Char} {vs : List Json} (h : ElementsText cs vs rest) :
      ValueText ('[' :: cs) (.arr vs) rest
  | emptyObject {cs rest : List Char} (h : Ws cs ('}' :: rest)) :
      ValueText ('{' :: cs) (.obj []) rest
  | object {cs rest : List Char} {ms : List (String × Json)} (h : MembersText cs ms rest) :
      ValueText ('{' :: cs) (.obj ms) rest

/-- The elements of an array, with the bracket that closes it. -/
inductive ElementsText : List Char → List Json → List Char → Prop
  | last {cs cs₁ cs₂ rest : List Char} {v : Json} (hws : Ws cs cs₁) (hv : ValueText cs₁ v cs₂)
      (hclose : Ws cs₂ (']' :: rest)) : ElementsText cs [v] rest
  | more {cs cs₁ cs₂ cs₃ rest : List Char} {v : Json} {vs : List Json} (hws : Ws cs cs₁)
      (hv : ValueText cs₁ v cs₂) (hcomma : Ws cs₂ (',' :: cs₃)) (hvs : ElementsText cs₃ vs rest) :
      ElementsText cs (v :: vs) rest

/-- The members of an object, with the brace that closes it. -/
inductive MembersText : List Char → List (String × Json) → List Char → Prop
  | last {cs cs₁ cs₂ cs₃ cs₄ cs₅ name rest : List Char} {v : Json} (hws : Ws cs ('"' :: cs₁))
      (hname : StringText cs₁ name cs₂) (hcolon : Ws cs₂ (':' :: cs₃)) (hws' : Ws cs₃ cs₄)
      (hv : ValueText cs₄ v cs₅) (hclose : Ws cs₅ ('}' :: rest)) :
      MembersText cs [(String.ofList name, v)] rest
  | more {cs cs₁ cs₂ cs₃ cs₄ cs₅ cs₆ name rest : List Char} {v : Json}
      {ms : List (String × Json)} (hws : Ws cs ('"' :: cs₁)) (hname : StringText cs₁ name cs₂)
      (hcolon : Ws cs₂ (':' :: cs₃)) (hws' : Ws cs₃ cs₄) (hv : ValueText cs₄ v cs₅)
      (hcomma : Ws cs₅ (',' :: cs₆)) (hms : MembersText cs₆ ms rest) :
      MembersText cs ((String.ofList name, v) :: ms) rest

end

/-- The text is JSON, and this is its value. -/
def Denotes (text : List Char) (v : Json) : Prop :=
  ∃ cs rest, Ws text cs ∧ ValueText cs v rest ∧ Ws rest []

/-! ## Decoder -/

/-- The text behind the white space. -/
def skipWs (cs : List Char) : List Char := cs.dropWhile isWs

/-- The text behind `c`, if it stands first. -/
def expect (c : Char) : List Char → Option (List Char)
  | [] => none
  | c' :: rest => if c' = c then some rest else none

/-- The character of four hexadecimal digits, or of a surrogate pair. -/
def unicode (cs : List Char) : Option (Char × List Char) := do
  let (n, rest) ← hex4 cs
  if isHigh n then
    let rest ← expect '\\' rest
    let rest ← expect 'u' rest
    let (m, rest) ← hex4 rest
    if isLow m then some (ofPair n m, rest) else none
  else if isLow n then none
  else some (Char.ofNat n, rest)

/-- What stands behind a backslash. -/
def escape : List Char → Option (Char × List Char)
  | [] => none
  | e :: rest => if e = 'u' then unicode rest else (simpleEscape e).map fun c => (c, rest)

/-- One character of a string. -/
def char : List Char → Option (Char × List Char)
  | [] => none
  | c :: rest =>
    if c = '\\' then escape rest
    else if 0x20 ≤ c.toNat ∧ c ≠ '"' then some (c, rest)
    else none

/-- The characters up to the closing quotation mark, at most `fuel` of them. -/
def chars : (fuel : ℕ) → List Char → Option (List Char × List Char)
  | 0, _ => none
  | fuel + 1, cs =>
    match expect '"' cs with
    | some rest => some ([], rest)
    | none => do
      let (c, cs) ← char cs
      let (s, rest) ← chars fuel cs
      some (c :: s, rest)

/-- A string, from behind its opening quotation mark. -/
def string (cs : List Char) : Option (List Char × List Char) := chars (cs.length + 1) cs

/-- The digits that stand first, at least one. -/
def digits (cs : List Char) : Option (List Char × List Char) :=
  if cs.takeWhile Char.isDigit = [] then none
  else some (cs.takeWhile Char.isDigit, cs.dropWhile Char.isDigit)

/-- An integer part. -/
def int (cs : List Char) : Option (List Char × List Char) :=
  match expect '0' cs with
  | some rest => some (['0'], rest)
  | none => digits cs

/-- A fraction, empty if there is none. -/
def frac (cs : List Char) : Option (List Char × List Char) :=
  match expect '.' cs with
  | some rest => digits rest
  | none => some ([], cs)

/-- A sign, if there is one; `plus` says whether `+` is one. -/
def sign (plus : Bool) (cs : List Char) : Bool × List Char :=
  match expect '-' cs with
  | some rest => (true, rest)
  | none =>
    match (if plus then expect '+' cs else none) with
    | some rest => (false, rest)
    | none => (false, cs)

/-- An exponent, zero if there is none. -/
def exp (cs : List Char) : Option (ℤ × List Char) :=
  match (expect 'e' cs).or (expect 'E' cs) with
  | some rest => do
    let (neg, rest) := sign true rest
    let (ds, rest) ← digits rest
    some (signed neg (digitsValue ds), rest)
  | none => some (0, cs)

/-- A number. -/
def number (cs : List Char) : Option (Json × List Char) := do
  let (neg, cs) := sign false cs
  let (ds, cs) ← int cs
  let (fs, cs) ← frac cs
  let (e, rest) ← exp cs
  some (.num (signed neg (digitsValue (ds ++ fs))) (e - fs.length), rest)

/-- The text behind a word, if it stands first. -/
def expectAll : (word : List Char) → List Char → Option (List Char)
  | [], cs => some cs
  | c :: word, cs => do
    let cs ← expect c cs
    expectAll word cs

/-- One of the three words. -/
def literal (cs : List Char) : Option (Json × List Char) :=
  ((expectAll ['n', 'u', 'l', 'l'] cs).map fun rest => (.null, rest)).or
    (((expectAll ['t', 'r', 'u', 'e'] cs).map fun rest => (.bool true, rest)).or
      ((expectAll ['f', 'a', 'l', 's', 'e'] cs).map fun rest => (.bool false, rest)))

mutual

/-- A value that starts here; `fuel` bounds the nesting and the number of elements. -/
def value : (fuel : ℕ) → List Char → Option (Json × List Char)
  | 0, _ => none
  | _ + 1, [] => none
  | fuel + 1, c :: cs =>
    if c = '"' then (string cs).map fun r => (.str (String.ofList r.1), r.2)
    else if c = '[' then
      match expect ']' (skipWs cs) with
      | some rest => some (.arr [], rest)
      | none => (elements fuel cs).map fun r => (.arr r.1, r.2)
    else if c = '{' then
      match expect '}' (skipWs cs) with
      | some rest => some (.obj [], rest)
      | none => (members fuel cs).map fun r => (.obj r.1, r.2)
    else (literal (c :: cs)).or (number (c :: cs))

/-- The elements of an array, at least one, up to behind its closing bracket. -/
def elements : (fuel : ℕ) → List Char → Option (List Json × List Char)
  | 0, _ => none
  | fuel + 1, cs => do
    let (v, cs) ← value fuel (skipWs cs)
    match expect ',' (skipWs cs) with
    | some cs =>
      let (vs, rest) ← elements fuel cs
      some (v :: vs, rest)
    | none =>
      let rest ← expect ']' (skipWs cs)
      some ([v], rest)

/-- The members of an object, at least one, up to behind its closing brace. -/
def members : (fuel : ℕ) → List Char → Option (List (String × Json) × List Char)
  | 0, _ => none
  | fuel + 1, cs => do
    let cs ← expect '"' (skipWs cs)
    let (name, cs) ← string cs
    let cs ← expect ':' (skipWs cs)
    let (v, cs) ← value fuel (skipWs cs)
    match expect ',' (skipWs cs) with
    | some cs =>
      let (ms, rest) ← members fuel cs
      some ((String.ofList name, v) :: ms, rest)
    | none =>
      let rest ← expect '}' (skipWs cs)
      some ([(String.ofList name, v)], rest)

end

/-- The value of a JSON text. -/
def decode (s : String) : Option Json := do
  let (v, rest) ← value (s.toList.length + 1) (skipWs s.toList)
  if skipWs rest = [] then some v else none

/-! ## Soundness -/

theorem ws_skipWs (cs : List Char) : Ws cs (skipWs cs) := by
  induction cs with
  | nil => exact .done _
  | cons c cs ih =>
    rw [skipWs, List.dropWhile_cons]
    split_ifs with hc
    · exact .skip hc ih
    · exact .done _

theorem expect_eq_some {c : Char} {cs rest : List Char} :
    expect c cs = some rest ↔ cs = c :: rest := by
  cases cs with
  | nil => simp [expect]
  | cons c' cs =>
    rw [expect]
    by_cases hc : c' = c
    · simp [hc]
    · simp [hc]

theorem expect_skipWs {c : Char} {cs rest : List Char} (h : expect c (skipWs cs) = some rest) :
    Ws cs (c :: rest) := by
  have hws := ws_skipWs cs
  rwa [expect_eq_some.mp h] at hws

theorem unicode_sound {cs rest : List Char} {c : Char} (h : unicode cs = some (c, rest)) :
    CharText ('\\' :: 'u' :: cs) c rest := by
  rw [unicode, Option.bind_eq_bind, Option.bind_eq_some_iff] at h
  obtain ⟨⟨n, cs₁⟩, hhex, h⟩ := h
  simp only at h
  by_cases hhigh : isHigh n = true
  · rw [if_pos hhigh] at h
    simp only [Option.bind_eq_bind, Option.bind_eq_some_iff] at h
    obtain ⟨cs₂, hback, cs₃, hu, ⟨m, cs₄⟩, hhex', h⟩ := h
    rw [expect_eq_some] at hback hu
    subst hback
    subst hu
    by_cases hlow : isLow m = true
    · simp only [hlow, if_true, Option.some.injEq, Prod.mk.injEq] at h
      obtain ⟨rfl, rfl⟩ := h
      exact .pair hhex hhigh hhex' hlow
    · simp [hlow] at h
  · rw [if_neg hhigh] at h
    by_cases hlow : isLow n = true
    · simp [hlow] at h
    · rw [if_neg hlow] at h
      obtain ⟨rfl, rfl⟩ := Prod.mk.inj (Option.some.inj h)
      exact .unicode hhex (Bool.eq_false_iff.mpr hhigh) (Bool.eq_false_iff.mpr hlow)

theorem char_sound {cs rest : List Char} {c : Char} (h : char cs = some (c, rest)) :
    CharText cs c rest := by
  cases cs with
  | nil => cases h
  | cons d cs =>
    rw [char] at h
    by_cases hback : d = '\\'
    · rw [if_pos hback] at h
      subst hback
      cases cs with
      | nil => cases h
      | cons e cs =>
        rw [escape] at h
        by_cases hu : e = 'u'
        · rw [if_pos hu] at h
          subst hu
          exact unicode_sound h
        · rw [if_neg hu, Option.map_eq_some_iff] at h
          obtain ⟨c', hescape, heq⟩ := h
          obtain ⟨rfl, rfl⟩ := Prod.mk.inj heq
          exact .escaped hescape
    · rw [if_neg hback] at h
      by_cases hplain : 0x20 ≤ d.toNat ∧ d ≠ '"'
      · rw [if_pos hplain] at h
        obtain ⟨rfl, rfl⟩ := Prod.mk.inj (Option.some.inj h)
        exact .unescaped hplain.1 hplain.2 hback
      · rw [if_neg hplain] at h
        cases h

theorem chars_sound {fuel : ℕ} {cs s rest : List Char} (h : chars fuel cs = some (s, rest)) :
    StringText cs s rest := by
  induction fuel generalizing cs s with
  | zero => cases h
  | succ fuel ih =>
    rw [chars] at h
    cases hclose : expect '"' cs with
    | some cs' =>
      rw [hclose] at h
      obtain ⟨rfl, rfl⟩ := Prod.mk.inj (Option.some.inj h)
      rw [expect_eq_some.mp hclose]
      exact .close cs'
    | none =>
      rw [hclose] at h
      simp only [Option.bind_eq_bind, Option.bind_eq_some_iff, Option.some.injEq,
        Prod.mk.injEq] at h
      obtain ⟨⟨c, cs'⟩, hchar, ⟨s', rest'⟩, hchars, rfl, rfl⟩ := h
      exact .char (char_sound hchar) (ih hchars)

theorem digits_sound {cs ds rest : List Char} (h : digits cs = some (ds, rest)) :
    DigitsText cs ds rest := by
  induction cs generalizing ds with
  | nil => cases h
  | cons d cs ih =>
    rw [digits, List.takeWhile_cons, List.dropWhile_cons] at h
    by_cases hd : d.isDigit = true
    · rw [if_pos hd, if_pos hd, if_neg (List.cons_ne_nil _ _)] at h
      obtain ⟨rfl, rfl⟩ := Prod.mk.inj (Option.some.inj h)
      by_cases hnil : cs.takeWhile Char.isDigit = []
      · -- The digit is the last one.
        have hdrop : cs.dropWhile Char.isDigit = cs := by
          have hwhole := List.takeWhile_append_dropWhile (p := Char.isDigit) (l := cs)
          rwa [hnil, List.nil_append] at hwhole
        rw [hnil, hdrop]
        exact .one hd
      · exact .more hd (ih (by rw [digits, if_neg hnil]))
    · rw [if_neg hd, if_pos rfl] at h
      cases h

theorem int_sound {cs ds rest : List Char} (h : int cs = some (ds, rest)) :
    IntText cs ds rest := by
  rw [int] at h
  cases hzero : expect '0' cs with
  | some cs' =>
    rw [hzero] at h
    obtain ⟨rfl, rfl⟩ := Prod.mk.inj (Option.some.inj h)
    rw [expect_eq_some.mp hzero]
    exact .zero cs'
  | none =>
    rw [hzero] at h
    cases cs with
    | nil => cases h
    | cons d cs =>
      refine .digits ?_ (digits_sound h)
      rintro rfl
      cases hzero

theorem frac_sound {cs ds rest : List Char} (h : frac cs = some (ds, rest)) :
    FracText cs ds rest := by
  rw [frac] at h
  cases hpoint : expect '.' cs with
  | some cs' =>
    rw [hpoint] at h
    rw [expect_eq_some.mp hpoint]
    exact .digits (digits_sound h)
  | none =>
    rw [hpoint] at h
    obtain ⟨rfl, rfl⟩ := Prod.mk.inj (Option.some.inj h)
    exact .absent _

theorem sign_sound (plus : Bool) (cs : List Char) :
    SignedText plus cs (sign plus cs).1 (sign plus cs).2 := by
  rw [sign]
  cases hminus : expect '-' cs with
  | some cs' =>
    rw [expect_eq_some.mp hminus]
    exact .minus cs'
  | none =>
    cases plus with
    | false => exact .unsigned cs
    | true =>
      cases hplus : expect '+' cs with
      | some cs' =>
        rw [expect_eq_some.mp hplus]
        exact .plus cs' rfl
      | none => exact .unsigned cs

theorem exp_sound {cs rest : List Char} {e : ℤ} (h : exp cs = some (e, rest)) :
    ExpText cs e rest := by
  rw [exp] at h
  cases hmark : (expect 'e' cs).or (expect 'E' cs) with
  | none =>
    rw [hmark] at h
    obtain ⟨rfl, rfl⟩ := Prod.mk.inj (Option.some.inj h)
    exact .absent _
  | some cs' =>
    have hcs : ∃ m, (m = 'e' ∨ m = 'E') ∧ cs = m :: cs' := by
      rcases Option.or_eq_some_iff.mp hmark with hmark | ⟨-, hmark⟩
      · exact ⟨'e', .inl rfl, expect_eq_some.mp hmark⟩
      · exact ⟨'E', .inr rfl, expect_eq_some.mp hmark⟩
    obtain ⟨m, hm, rfl⟩ := hcs
    rw [hmark] at h
    simp only [Option.bind_eq_bind, Option.bind_eq_some_iff, Option.some.injEq,
      Prod.mk.injEq] at h
    obtain ⟨⟨ds, rest'⟩, hdigits, rfl, rfl⟩ := h
    exact .present hm (sign_sound true cs') (digits_sound hdigits)

theorem number_sound {cs rest : List Char} {v : Json} (h : number cs = some (v, rest)) :
    NumberText cs v rest := by
  simp only [number, Option.bind_eq_bind, Option.bind_eq_some_iff, Option.some.injEq,
    Prod.mk.injEq] at h
  obtain ⟨⟨ds, cs₂⟩, hint, ⟨fs, cs₃⟩, hfrac, ⟨e, rest'⟩, hexp, rfl, rfl⟩ := h
  exact .mk (sign_sound false cs) (int_sound hint) (frac_sound hfrac) (exp_sound hexp)

theorem expectAll_eq_some {word cs rest : List Char} (h : expectAll word cs = some rest) :
    cs = word ++ rest := by
  induction word generalizing cs with
  | nil => exact Option.some.inj h
  | cons c word ih =>
    rw [expectAll, Option.bind_eq_bind, Option.bind_eq_some_iff] at h
    obtain ⟨cs', hc, h⟩ := h
    rw [expect_eq_some.mp hc, ih h, List.cons_append]

theorem literal_sound {cs rest : List Char} {v : Json} (h : literal cs = some (v, rest)) :
    LiteralText cs v rest := by
  rw [literal, Option.or_eq_some_iff, Option.or_eq_some_iff] at h
  simp only [Option.map_eq_some_iff, Prod.mk.injEq] at h
  rcases h with ⟨_, h, rfl, rfl⟩ | ⟨-, ⟨_, h, rfl, rfl⟩ | ⟨-, _, h, rfl, rfl⟩⟩
  · rw [expectAll_eq_some h]
    exact .null _
  · rw [expectAll_eq_some h]
    exact .true _
  · rw [expectAll_eq_some h]
    exact .false _

/-- What the decoder reads at one level of fuel, the grammar derives. -/
structure SoundAt (fuel : ℕ) : Prop where
  value : ∀ {cs v rest}, Json.value fuel cs = some (v, rest) → ValueText cs v rest
  elements : ∀ {cs vs rest}, Json.elements fuel cs = some (vs, rest) → ElementsText cs vs rest
  members : ∀ {cs ms rest}, Json.members fuel cs = some (ms, rest) → MembersText cs ms rest

theorem value_succ_sound {fuel : ℕ} (ih : SoundAt fuel) {cs rest : List Char} {v : Json}
    (h : value (fuel + 1) cs = some (v, rest)) : ValueText cs v rest := by
  cases cs with
  | nil => cases h
  | cons c cs =>
    rw [value] at h
    by_cases hquote : c = '"'
    · rw [if_pos hquote, Option.map_eq_some_iff] at h
      obtain ⟨⟨s, rest'⟩, hstring, heq⟩ := h
      obtain ⟨rfl, rfl⟩ := Prod.mk.inj heq
      rw [hquote]
      exact .string (chars_sound hstring)
    rw [if_neg hquote] at h
    by_cases hbracket : c = '['
    · rw [if_pos hbracket] at h
      rw [hbracket]
      cases hclose : expect ']' (skipWs cs) with
      | some cs' =>
        rw [hclose] at h
        obtain ⟨rfl, rfl⟩ := Prod.mk.inj (Option.some.inj h)
        exact .emptyArray (expect_skipWs hclose)
      | none =>
        simp only [hclose, Option.map_eq_some_iff, Prod.mk.injEq] at h
        obtain ⟨⟨vs, rest'⟩, helements, rfl, rfl⟩ := h
        exact .array (ih.elements helements)
    rw [if_neg hbracket] at h
    by_cases hbrace : c = '{'
    · rw [if_pos hbrace] at h
      rw [hbrace]
      cases hclose : expect '}' (skipWs cs) with
      | some cs' =>
        rw [hclose] at h
        obtain ⟨rfl, rfl⟩ := Prod.mk.inj (Option.some.inj h)
        exact .emptyObject (expect_skipWs hclose)
      | none =>
        simp only [hclose, Option.map_eq_some_iff, Prod.mk.injEq] at h
        obtain ⟨⟨ms, rest'⟩, hmembers, rfl, rfl⟩ := h
        exact .object (ih.members hmembers)
    rw [if_neg hbrace, Option.or_eq_some_iff] at h
    rcases h with h | ⟨-, h⟩
    · exact .literal (literal_sound h)
    · exact .number (number_sound h)

theorem elements_succ_sound {fuel : ℕ} (ih : SoundAt fuel) {cs rest : List Char} {vs : List Json}
    (h : elements (fuel + 1) cs = some (vs, rest)) : ElementsText cs vs rest := by
  rw [elements, Option.bind_eq_bind, Option.bind_eq_some_iff] at h
  obtain ⟨⟨v, cs₁⟩, hv, h⟩ := h
  cases hcomma : expect ',' (skipWs cs₁) with
  | some cs₂ =>
    simp only [hcomma, Option.bind_eq_bind, Option.bind_eq_some_iff, Option.some.injEq,
      Prod.mk.injEq] at h
    obtain ⟨⟨vs', rest'⟩, hvs, rfl, rfl⟩ := h
    exact .more (ws_skipWs cs) (ih.value hv) (expect_skipWs hcomma) (ih.elements hvs)
  | none =>
    simp only [hcomma, Option.bind_eq_bind, Option.bind_eq_some_iff, Option.some.injEq,
      Prod.mk.injEq] at h
    obtain ⟨rest', hclose, rfl, rfl⟩ := h
    exact .last (ws_skipWs cs) (ih.value hv) (expect_skipWs hclose)

theorem members_succ_sound {fuel : ℕ} (ih : SoundAt fuel) {cs rest : List Char}
    {ms : List (String × Json)} (h : members (fuel + 1) cs = some (ms, rest)) :
    MembersText cs ms rest := by
  rw [members] at h
  simp only [Option.bind_eq_bind, Option.bind_eq_some_iff] at h
  obtain ⟨cs₁, hquote, ⟨name, cs₂⟩, hname, cs₃, hcolon, ⟨v, cs₄⟩, hv, h⟩ := h
  have hstart := expect_skipWs hquote
  have hnamed := chars_sound hname
  have hsep := expect_skipWs hcolon
  cases hcomma : expect ',' (skipWs cs₄) with
  | some cs₅ =>
    simp only [hcomma, Option.bind_eq_some_iff, Option.some.injEq, Prod.mk.injEq] at h
    obtain ⟨⟨ms', rest'⟩, hms, rfl, rfl⟩ := h
    exact .more hstart hnamed hsep (ws_skipWs cs₃) (ih.value hv) (expect_skipWs hcomma)
      (ih.members hms)
  | none =>
    simp only [hcomma, Option.bind_eq_some_iff, Option.some.injEq, Prod.mk.injEq] at h
    obtain ⟨rest', hclose, rfl, rfl⟩ := h
    exact .last hstart hnamed hsep (ws_skipWs cs₃) (ih.value hv) (expect_skipWs hclose)

theorem soundAt (fuel : ℕ) : SoundAt fuel := by
  induction fuel with
  | zero =>
    refine ⟨?_, ?_, ?_⟩
    · intro cs v rest h
      cases h
    · intro cs vs rest h
      cases h
    · intro cs ms rest h
      cases h
  | succ fuel ih => exact ⟨value_succ_sound ih, elements_succ_sound ih, members_succ_sound ih⟩

/-- The decoder accepts JSON only, and returns what it denotes. -/
theorem decode_sound {s : String} {v : Json} (h : decode s = some v) : Denotes s.toList v := by
  rw [decode, Option.bind_eq_bind, Option.bind_eq_some_iff] at h
  obtain ⟨⟨v', rest⟩, hvalue, h⟩ := h
  by_cases hrest : skipWs rest = []
  · simp only [hrest, if_true, Option.some.injEq] at h
    subst h
    have hend := ws_skipWs rest
    rw [hrest] at hend
    exact ⟨_, rest, ws_skipWs s.toList, (soundAt _).value hvalue, hend⟩
  · simp [hrest] at h

end Json

end AxiomRT.Lib
