import Mathlib.Algebra.Ring.Nat
import AxiomRT.Lib.Execution

/-!
# Checked memory accesses and arithmetic

A checked program stops with a fault at the first access outside of its object and at the first
result that does not fit its type. That it ends with `ok` says that all its operations are in range.

A pointer is the list of the cells that can be read from it to the end of the object.
-/

namespace AxiomRT.Lib

/-- A read outside of the object, or a result outside of the type. -/
inductive Fault
  | outOfBounds
  | wrapAround
  deriving DecidableEq, Repr

/-- A computation that stops at the first operation out of range. -/
abbrev Checked : Type → Type := Except Fault

namespace Checked

variable {α ω : Type}

@[simp] theorem pure_eq (a : α) : (pure a : Checked α) = .ok a := rfl

/-- Both sides branch on the same condition. -/
theorem ite_eq_ok {c : Prop} [Decidable c] {x y : Checked α} {a b : α} (hx : c → x = .ok a)
    (hy : ¬ c → y = .ok b) : (if c then x else y) = .ok (if c then a else b) := by
  by_cases h : c
  · rw [if_pos h, if_pos h, hx h]
  · rw [if_neg h, if_neg h, hy h]

/-! ## Memory -/

/-- Read the cell with index `i`. -/
def readAt (p : List α) (i : ℕ) : Checked α :=
  if h : i < p.length then .ok p[i] else .error .outOfBounds

theorem readAt_of_lt {p : List α} {i : ℕ} (h : i < p.length) : readAt p i = .ok p[i] := dif_pos h

/-- Move the pointer by `i` cells, at most to the end of the object. -/
def advance (p : List α) (i : ℕ) : Checked (List α) :=
  if i ≤ p.length then .ok (p.drop i) else .error .outOfBounds

theorem advance_of_le {p : List α} {i : ℕ} (h : i ≤ p.length) : advance p i = .ok (p.drop i) :=
  if_pos h

/-! ## Arithmetic -/

/-- Addition in an unsigned type of the given width. -/
def add [Add ω] (toNat : ω → ℕ) (bits : ℕ) (a b : ω) : Checked ω :=
  if toNat a + toNat b < 2 ^ bits then .ok (a + b) else .error .wrapAround

theorem add_of_lt [Add ω] {toNat : ω → ℕ} {bits : ℕ} {a b : ω}
    (h : toNat a + toNat b < 2 ^ bits) : add toNat bits a b = .ok (a + b) :=
  if_pos h

/-- Subtraction in an unsigned type. -/
def sub [Sub ω] (toNat : ω → ℕ) (a b : ω) : Checked ω :=
  if toNat b ≤ toNat a then .ok (a - b) else .error .wrapAround

theorem sub_of_le [Sub ω] {toNat : ω → ℕ} {a b : ω} (h : toNat b ≤ toNat a) :
    sub toNat a b = .ok (a - b) :=
  if_pos h

/-- Addition of 64-bit indices. -/
def usizeAdd (a b : ℕ) : Checked ℕ := add (fun n => n) 64 a b

theorem usizeAdd_of_lt {a b : ℕ} (h : a + b < 2 ^ 64) : usizeAdd a b = .ok (a + b) := add_of_lt h

/-- Subtraction of indices. -/
def usizeSub (a b : ℕ) : Checked ℕ := sub (fun n => n) a b

theorem usizeSub_of_le {a b : ℕ} (h : b ≤ a) : usizeSub a b = .ok (a - b) := sub_of_le h

end Checked

end AxiomRT.Lib
