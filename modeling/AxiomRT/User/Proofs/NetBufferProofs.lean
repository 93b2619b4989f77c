import AxiomRT.Lib.Buffer
import AxiomRT.User.Proofs.NetTextProofs

/-!
# Proofs: the decimal writer and reader are inverse

The two loops of `nd_dec` copy the numeral of the value into the reply buffer, as far as it reaches;
`parse_dec_stop` reads it back.
-/

namespace AxiomRT.User

open Lib

/-! ## The scratch buffer -/

/-- The first `n` cells, the last of them first. -/
def cellsDown {m : ℕ} (cell : Fin m → UInt8) : (n : ℕ) → n ≤ m → List UInt8
  | 0, _ => []
  | n + 1, hn => cell ⟨n, hn⟩ :: cellsDown cell n (Nat.le_of_succ_le hn)

/-- The digits the scratch buffer holds, most significant first. -/
def Scratch.text (tmp : Scratch) : List UInt8 := cellsDown tmp.cell tmp.n tmp.n_le

theorem cellsDown_update {m : ℕ} (cell : Fin m → UInt8) {n : ℕ} (hn : n ≤ m) {i : Fin m}
    (hi : n ≤ i.val) (b : UInt8) :
    cellsDown (Function.update cell i b) n hn = cellsDown cell n hn := by
  induction n with
  | zero => rfl
  | succ n ih =>
    have hne : (⟨n, hn⟩ : Fin m) ≠ i := by
      intro h
      have hval : n = i.val := congrArg Fin.val h
      omega
    rw [cellsDown, cellsDown, Function.update_of_ne hne, ih _ (by omega)]

theorem toUInt8_digit_add (v : UInt64) : 48 + (v % 10).toUInt8 = (48 + v % 10).toUInt8 := by
  rw [UInt64.toUInt8_add]
  rfl

/-- The digit loop leaves the digits of the list model. -/
theorem Scratch.text_digits (tmp : Scratch) (value : UInt64) :
    (tmp.digits value).text = ndDigits (20 - tmp.n) value tmp.text := by
  fun_induction Scratch.digits tmp value with
  | case1 tmp value h tmp' ih =>
    have hroom : 20 - tmp.n = (20 - tmp'.n) + 1 := by
      show 20 - tmp.n = (20 - (tmp.n + 1)) + 1
      omega
    have hne : value ≠ 0 := by
      rintro rfl
      exact absurd h.1 (by decide)
    have htext : tmp'.text = (48 + value % 10).toUInt8 :: tmp.text := by
      show cellsDown (Function.update tmp.cell ⟨tmp.n, h.2⟩ _) (tmp.n + 1) h.2 = _
      rw [cellsDown, Function.update_self, cellsDown_update _ _ (Nat.le_refl _),
        toUInt8_digit_add]
      rfl
    rw [ih, hroom, ndDigits, if_neg hne, htext]
  | case2 tmp value h =>
    by_cases hvalue : value = 0
    · rw [hvalue, ndDigits_zero]
    · have hfull : 20 - tmp.n = 0 := by
        have hpos : 0 < value := UInt64.pos_iff_ne_zero.mpr hvalue
        have : ¬ tmp.n < 20 := fun hlt => h ⟨hpos, hlt⟩
        omega
      rw [hfull, ndDigits]

/-! ## The reply buffer -/

/-- The copy loop is a bounded copy of the digits. -/
theorem ndDecCopy_eq (cell : Fin 20 → UInt8) {n : ℕ} (hn : n ≤ 20) (dst : Fin 64 → UInt8)
    (start : ℕ) : ndDecCopy cell n hn dst start = blit dst start (cellsDown cell n hn) := by
  induction n generalizing dst start with
  | zero => rfl
  | succ n ih =>
    rw [ndDecCopy, cellsDown, blit]
    by_cases h : start < 64
    · rw [dif_pos h, dif_pos h, ih]
    · rw [dif_neg h, dif_neg h]

/-- Whatever the scratch memory holds, the numeral of the value is copied. -/
theorem ndDecAt_eq (tmp : Fin 20 → UInt8) (dst : Fin 64 → UInt8) (start : ℕ) (value : UInt64) :
    ndDecAt tmp dst start value = blit dst start (numeral value.toNat) := by
  rw [ndDecAt]
  by_cases hvalue : value = 0
  · rw [if_pos hvalue, hvalue]
    rfl
  · have hdigits : (Scratch.digits ⟨tmp, 0, Nat.zero_le 20⟩ value).text = numeral value.toNat := by
      rw [Scratch.text_digits]
      show ndDigits 20 value [] = _
      rw [ndDigits_eq hvalue (toNat_lt_pow value), List.append_nil]
    rw [if_neg hvalue]
    show ndDecCopy _ _ _ dst start = _
    rw [ndDecCopy_eq]
    exact congrArg (blit dst start) hdigits

/-- On the buffer contents up to the index it is given, the writer is the one on lists. -/
theorem ndDecAt_refines (tmp : Fin 20 → UInt8) (dst : Fin 64 → UInt8) {start : ℕ}
    (hstart : start ≤ 64) (value : UInt64) :
    (List.ofFn (ndDecAt tmp dst start value).1).take (ndDecAt tmp dst start value).2 =
      ndDec ((List.ofFn dst).take start) value := by
  rw [ndDecAt_eq, take_blit dst hstart, ndDec_eq, ndCopy, List.length_take, List.length_ofFn,
    Nat.min_eq_left hstart]

/-- Where the numeral of a value fits, `nd_dec` writes it and nothing else, and `parse_dec_stop`
reads the value back and stops where the writer stopped. -/
theorem ndDecAt_parseDecStop (tmp : Fin 20 → UInt8) (dst : Fin 64 → UInt8) (start : ℕ)
    (value : UInt64) (hroom : start + (numeral value.toNat).length ≤ 64) :
    ∃ ds : List UInt8, IsNumeral ds ∧ numeralValue ds = value.toNat ∧
      (ds.head? = some 48 → ds = [48]) ∧ ds.length ≤ 20 ∧
      (ndDecAt tmp dst start value).2 = start + ds.length ∧
      ((List.ofFn (ndDecAt tmp dst start value).1).take (start + ds.length)).drop start = ds ∧
      (∀ i : Fin 64, i.val < start ∨ start + ds.length ≤ i.val →
        (ndDecAt tmp dst start value).1 i = dst i) ∧
      parseDecStop
          ((List.ofFn (ndDecAt tmp dst start value).1).take (ndDecAt tmp dst start value).2) start =
        (value, (ndDecAt tmp dst start value).2) := by
  have hend : (ndDecAt tmp dst start value).2 = start + (numeral value.toNat).length := by
    rw [ndDecAt_eq, blit_end dst hroom]
  have hstart : start ≤ 64 := by omega
  have htake : (List.ofFn (ndDecAt tmp dst start value).1).take
      (start + (numeral value.toNat).length) =
        (List.ofFn dst).take start ++ numeral value.toNat := by
    have hwhole : (numeral value.toNat).take (64 - start) = numeral value.toNat :=
      List.take_of_length_le (by omega)
    rw [← hend, ndDecAt_eq, take_blit dst hstart, hwhole]
  have hlength : ((List.ofFn dst).take start).length = start := by
    rw [List.length_take, List.length_ofFn, Nat.min_eq_left hstart]
  refine ⟨numeral value.toNat, isNumeral_numeral _, numeralValue_numeral _, ?_, ?_, hend, ?_, ?_,
    ?_⟩
  · intro hzero
    rw [head_numeral hzero]
    rfl
  · rw [length_numeral_le_iff (by decide)]
    exact toNat_lt_pow value
  · rw [htake, List.drop_append_of_le_length (Nat.le_of_eq hlength.symm),
      List.drop_of_length_le (Nat.le_of_eq hlength), List.nil_append]
  · intro i hi
    rw [ndDecAt_eq]
    exact blit_outside dst hi
  · have hparse := parseDecStop_numeral ((List.ofFn dst).take start) value noDigit_nil
    rw [List.append_nil, hlength] at hparse
    rw [hend, htake, hparse]

/-- A number of three digits at the last place it fits. -/
theorem ndDecAt_parseDecStop_last :
    61 + (numeral (407 : UInt64).toNat).length ≤ 64 ∧
    parseDecStop ((List.ofFn (ndDecAt (fun _ => 0) (fun _ => 0) 61 407).1).take
      (ndDecAt (fun _ => 0) (fun _ => 0) 61 407).2) 61 = (407, 64) := by
  have hroom : 61 + (numeral (407 : UInt64).toNat).length = 64 := by decide
  obtain ⟨ds, -, -, -, -, hend, -, -, hparse⟩ :=
    ndDecAt_parseDecStop (fun _ => 0) (fun _ => 0) 61 407 (Nat.le_of_eq hroom)
  refine ⟨Nat.le_of_eq hroom, ?_⟩
  rw [hparse, ndDecAt_eq, blit_end _ (Nat.le_of_eq hroom), hroom]

end AxiomRT.User
