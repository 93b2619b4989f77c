import Mathlib.Data.List.Induction
import Mathlib.Data.Nat.Digits.Defs

/-!
# Decimal numerals

A numeral is a non-empty string of ASCII digits. Its value is Mathlib's `Nat.ofDigits` of the digits
from the last to the first. A reader that accumulates in a machine word computes the value modulo
the word size. `numeral n` is the numeral that `Nat.repr` prints.
-/

namespace AxiomRT.Lib

/-- The byte is an ASCII digit. -/
def isDigit (b : UInt8) : Bool := decide (48 ≤ b) && decide (b ≤ 57)

theorem isDigit_iff {b : UInt8} : isDigit b = true ↔ 48 ≤ b.toNat ∧ b.toNat ≤ 57 := by
  rw [isDigit, Bool.and_eq_true, decide_eq_true_eq, decide_eq_true_eq, UInt8.le_iff_toNat_le,
    UInt8.le_iff_toNat_le]
  rfl

/-- The number a string of digits denotes. -/
def numeralValue (ds : List UInt8) : ℕ := Nat.ofDigits 10 (ds.reverse.map fun b => b.toNat - 48)

/-- A non-empty string of digits. -/
structure IsNumeral (ds : List UInt8) : Prop where
  ne_nil : ds ≠ []
  digits : ∀ b ∈ ds, isDigit b = true

instance decidableIsNumeral (ds : List UInt8) : Decidable (IsNumeral ds) :=
  decidable_of_iff (ds ≠ [] ∧ ds.all isDigit = true)
    ⟨fun h => ⟨h.1, List.all_eq_true.mp h.2⟩, fun h => ⟨h.1, List.all_eq_true.mpr h.2⟩⟩

theorem numeralValue_snoc (ds : List UInt8) (b : UInt8) :
    numeralValue (ds ++ [b]) = numeralValue ds * 10 + (b.toNat - 48) := by
  rw [numeralValue, numeralValue, List.reverse_append, List.reverse_singleton,
    List.singleton_append, List.map_cons, Nat.ofDigits_cons]
  omega

/-- The accumulation of a digit in a 64-bit word. -/
def wrappingDigit (v : UInt64) (b : UInt8) : UInt64 := v * 10 + (b - 48).toUInt64

theorem wrappingDigit_ofNat {n : ℕ} {b : UInt8} (hb : isDigit b = true) :
    wrappingDigit (UInt64.ofNat n) b = UInt64.ofNat (n * 10 + (b.toNat - 48)) := by
  have hle : (48 : UInt8) ≤ b := UInt8.le_iff_toNat_le.mpr (isDigit_iff.mp hb).1
  have hdigit : (b - 48).toUInt64 = UInt64.ofNat (b.toNat - 48) := by
    rw [← UInt64.ofNat_uInt8ToNat, UInt8.toNat_sub_of_le b 48 hle]
    rfl
  rw [wrappingDigit, hdigit, UInt64.ofNat_add, UInt64.ofNat_mul]
  rfl

/-- Reading digits into a word gives their value modulo the word size. -/
theorem foldl_wrappingDigit {ds : List UInt8} (hds : ∀ b ∈ ds, isDigit b = true) :
    ds.foldl wrappingDigit 0 = UInt64.ofNat (numeralValue ds) := by
  induction ds using List.reverseRecOn with
  | nil => rfl
  | append_singleton ds b ih =>
    have hb : isDigit b = true := hds b (by simp)
    rw [List.foldl_append, ih fun c hc => hds c (by simp [hc]), List.foldl_cons, List.foldl_nil,
      wrappingDigit_ofNat hb, numeralValue_snoc]

/-! ## The numeral of a number -/

/-- The byte of one digit. -/
def digitByte (d : ℕ) : UInt8 := UInt8.ofNat (48 + d)

/-- The ASCII bytes of the decimal representation of `n`. -/
def numeral (n : ℕ) : List UInt8 := (Nat.toDigits 10 n).map fun c => UInt8.ofNat c.toNat

theorem toNat_digitByte {d : ℕ} (h : d < 10) : (digitByte d).toNat = 48 + d := by
  rw [digitByte, UInt8.toNat_ofNat_of_lt' (by show 48 + d < 2 ^ 8; omega)]

theorem isDigit_digitByte {d : ℕ} (h : d < 10) : isDigit (digitByte d) = true := by
  rw [isDigit_iff, toNat_digitByte h]
  omega

theorem numeral_of_lt {n : ℕ} (h : n < 10) : numeral n = [digitByte n] := by
  rw [numeral, Nat.toDigits_of_lt_base h, List.map_singleton, Nat.toNat_digitChar_of_lt_ten h]
  rfl

theorem numeral_of_ge {n : ℕ} (h : 10 ≤ n) :
    numeral n = numeral (n / 10) ++ [digitByte (n % 10)] := by
  rw [numeral, Nat.toDigits_of_base_le (by decide) h, List.map_append, List.map_singleton,
    Nat.toNat_digitChar_of_lt_ten (Nat.mod_lt n (by decide))]
  rfl

/-- All digits but the last, and the last one. -/
theorem numeral_induction {P : ℕ → Prop} (small : ∀ n < 10, P n)
    (large : ∀ n, 10 ≤ n → P (n / 10) → P n) (n : ℕ) : P n := by
  induction n using Nat.strong_induction_on with
  | _ n ih =>
    rcases Nat.lt_or_ge n 10 with h | h
    · exact small n h
    · exact large n h (ih (n / 10) (Nat.div_lt_self (by omega) (by decide)))

theorem length_numeral_pos (n : ℕ) : 0 < (numeral n).length := by
  rw [numeral, List.length_map]
  exact Nat.length_toDigits_pos

/-- A numeral has at most `k` digits exactly below the power `k` of ten. -/
theorem length_numeral_le_iff {n k : ℕ} (hk : 0 < k) : (numeral n).length ≤ k ↔ n < 10 ^ k := by
  rw [numeral, List.length_map]
  exact Nat.length_toDigits_le_iff (by decide) hk

theorem isNumeral_numeral (n : ℕ) : IsNumeral (numeral n) := by
  refine ⟨List.ne_nil_of_length_pos (length_numeral_pos n), ?_⟩
  induction n using numeral_induction with
  | small n h =>
    intro b hb
    rw [numeral_of_lt h, List.mem_singleton] at hb
    rw [hb]
    exact isDigit_digitByte h
  | large n h ih =>
    intro b hb
    rw [numeral_of_ge h, List.mem_append, List.mem_singleton] at hb
    rcases hb with hb | rfl
    · exact ih b hb
    · exact isDigit_digitByte (Nat.mod_lt n (by decide))

theorem numeralValue_numeral (n : ℕ) : numeralValue (numeral n) = n := by
  induction n using numeral_induction with
  | small n h =>
    have hsnoc := numeralValue_snoc [] (digitByte n)
    rw [List.nil_append, toNat_digitByte h] at hsnoc
    rw [numeral_of_lt h, hsnoc]
    simp [numeralValue]
  | large n h ih =>
    rw [numeral_of_ge h, numeralValue_snoc, ih, toNat_digitByte (Nat.mod_lt n (by decide))]
    omega

/-- No leading zero, except for zero itself. -/
theorem head_numeral {n : ℕ} (h : (numeral n).head? = some 48) : n = 0 := by
  induction n using numeral_induction with
  | small n hn =>
    rw [numeral_of_lt hn, List.head?_cons] at h
    have hbyte := congrArg UInt8.toNat (Option.some.inj h)
    rw [toNat_digitByte hn] at hbyte
    exact Nat.add_left_cancel hbyte
  | large n hn ih =>
    obtain ⟨b, ds, hds⟩ := List.exists_cons_of_ne_nil (isNumeral_numeral (n / 10)).ne_nil
    rw [numeral_of_ge hn, hds] at h
    rw [hds] at ih
    have hzero : n / 10 = 0 := ih h
    omega

end AxiomRT.Lib
