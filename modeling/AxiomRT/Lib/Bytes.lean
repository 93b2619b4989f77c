import Mathlib.Algebra.Order.Ring.Nat
import Mathlib.Tactic.Common

/-!
# Fixed layouts of bytes

Little-endian numbers and slices of byte lists: what a codec with fixed offsets needs.
-/

namespace AxiomRT.Lib

/-! ## Little-endian numbers -/

/-- The `w` low bytes of `n`, least significant first. -/
def toLE : ℕ → ℕ → List UInt8
  | 0, _ => []
  | w + 1, n => UInt8.ofNat (n % 256) :: toLE w (n / 256)

/-- The number with these bytes, least significant first. -/
def ofLE : List UInt8 → ℕ
  | [] => 0
  | b :: bs => b.toNat + 256 * ofLE bs

@[simp] theorem length_toLE (w n : ℕ) : (toLE w n).length = w := by
  induction w generalizing n with
  | zero => rfl
  | succ w ih => rw [toLE, List.length_cons, ih]

theorem ofLE_toLE {w n : ℕ} (h : n < 256 ^ w) : ofLE (toLE w n) = n := by
  induction w generalizing n with
  | zero =>
    rw [Nat.pow_zero, Nat.lt_one_iff] at h
    subst h
    rfl
  | succ w ih =>
    have hq : n / 256 < 256 ^ w := by
      apply Nat.div_lt_of_lt_mul
      rw [← Nat.pow_succ']
      exact h
    have hb : (UInt8.ofNat (n % 256)).toNat = n % 256 := by
      rw [UInt8.toNat_ofNat']
      omega
    rw [toLE, ofLE, ih hq, hb]
    omega

theorem toLE_ofLE (bs : List UInt8) : toLE bs.length (ofLE bs) = bs := by
  induction bs with
  | nil => rfl
  | cons b bs ih =>
    have hb : b.toNat < 256 := b.toNat_lt
    have hhead : (b.toNat + 256 * ofLE bs) % 256 = b.toNat := by omega
    have htail : (b.toNat + 256 * ofLE bs) / 256 = ofLE bs := by omega
    rw [ofLE, List.length_cons, toLE, hhead, htail, ih, UInt8.ofNat_toNat]

theorem ofLE_lt (bs : List UInt8) : ofLE bs < 256 ^ bs.length := by
  induction bs with
  | nil => exact Nat.one_pos
  | cons b bs ih =>
    have hb : b.toNat < 256 := b.toNat_lt
    rw [ofLE, List.length_cons, Nat.pow_succ']
    omega

/-! ## Slices -/

/-- `l[a..b]`. -/
def slice {α : Type*} (l : List α) (a b : ℕ) : List α := (l.drop a).take (b - a)

variable {α : Type*} {l : List α}

theorem length_slice {a b : ℕ} (hb : b ≤ l.length) : (slice l a b).length = b - a := by
  rw [slice, List.length_take, List.length_drop]
  omega

/-- A slice of a concatenation that is exactly its middle part. -/
theorem slice_middle {p q r : List α} {a b : ℕ} (h : l = p ++ (q ++ r)) (ha : p.length = a)
    (hb : a + q.length = b) : slice l a b = q := by
  subst h ha hb
  rw [slice, List.drop_left, Nat.add_sub_cancel_left, List.take_left]

theorem slice_append_slice {a b c : ℕ} (hab : a ≤ b) (hbc : b ≤ c) :
    slice l a b ++ slice l b c = slice l a c := by
  unfold slice
  have hc : c - a = (b - a) + (c - b) := by omega
  have hd : l.drop b = (l.drop a).drop (b - a) := by
    rw [List.drop_drop]
    congr 1
    omega
  rw [hc, List.take_add, hd]

theorem slice_full : slice l 0 l.length = l := by
  rw [slice, List.drop_zero, Nat.sub_zero, List.take_length]

theorem slice_one {i : ℕ} (h : i < l.length) (d : α) : slice l i (i + 1) = [l.getD i d] := by
  rw [slice, List.drop_eq_getElem_cons h, Nat.add_sub_cancel_left, List.take_succ_cons,
    List.take_zero, List.getD_eq_getElem?_getD, List.getElem?_eq_getElem h, Option.getD_some]

end AxiomRT.Lib
