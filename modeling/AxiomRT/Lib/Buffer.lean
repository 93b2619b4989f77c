import Mathlib.Data.List.OfFn
import Mathlib.Logic.Function.Basic
import Mathlib.Tactic.Common

/-!
# Buffers

Fixed-size buffers as functions on `Fin n`, memories as functions on addresses, and the lists of
cells that are copied between them.
-/

namespace AxiomRT.Lib

variable {α : Type*} {n : ℕ}

/-- The `len` cells of a memory from address `a` on. -/
def window (m : ℕ → α) (a len : ℕ) : List α := (List.range len).map fun i => m (a + i)

@[simp] theorem length_window (m : ℕ → α) (a len : ℕ) : (window m a len).length = len := by
  simp [window]

/-- Two buffers have the same first `len` cells. -/
theorem take_ofFn_eq_iff {f g : Fin n → α} {len : ℕ} :
    (List.ofFn f).take len = (List.ofFn g).take len ↔ ∀ i : Fin n, i.val < len → f i = g i := by
  constructor
  · intro h i hi
    have hf : ((List.ofFn f).take len)[i.val]? = some (f i) := by
      simp [hi]
    have hg : ((List.ofFn g).take len)[i.val]? = some (g i) := by
      simp [hi]
    rw [h, hg] at hf
    exact (Option.some.inj hf).symm
  · intro h
    refine List.ext_getElem (by simp) fun i h₁ h₂ => ?_
    simp only [List.length_take, List.length_ofFn, Nat.lt_min] at h₁
    simp only [List.getElem_take, List.getElem_ofFn]
    exact h ⟨i, h₁.2⟩ h₁.1

/-- The first `len` cells of a buffer are those of a memory window. -/
theorem take_ofFn_eq_window {f : Fin n → α} {m : ℕ → α} {a len : ℕ} (hlen : len ≤ n)
    (h : ∀ i : Fin n, i.val < len → f i = m (a + i.val)) :
    (List.ofFn f).take len = window m a len := by
  refine List.ext_getElem (by simp [hlen]) fun i h₁ h₂ => ?_
  simp only [length_window] at h₂
  simp only [List.getElem_take, List.getElem_ofFn, window, List.getElem_map, List.getElem_range]
  exact h ⟨i, by omega⟩ h₂

/-- What was stored is read back. -/
theorem window_store (m : ℕ → α) (a : ℕ) (l : List α) (d : α) :
    window (fun b => if a ≤ b ∧ b < a + l.length then l.getD (b - a) d else m b) a l.length =
      l := by
  refine List.ext_getElem (by simp) fun i h₁ h₂ => ?_
  simp [window, h₂]

/-! ## Bounded copies -/

/-- Copy cells into a buffer from index `a` on, as far as the buffer reaches; the index after the
last cell is returned too. -/
def blit : (Fin n → α) → ℕ → List α → (Fin n → α) × ℕ
  | f, a, [] => (f, a)
  | f, a, x :: l => if h : a < n then blit (Function.update f ⟨a, h⟩ x) (a + 1) l else (f, a)

theorem take_ofFn_update (f : Fin n → α) {a : ℕ} (h : a < n) (x : α) :
    (List.ofFn (Function.update f ⟨a, h⟩ x)).take (a + 1) = (List.ofFn f).take a ++ [x] := by
  refine List.ext_getElem (by simp; omega) fun i h₁ h₂ => ?_
  rw [List.length_take, List.length_ofFn] at h₁
  rw [List.getElem_take, List.getElem_ofFn]
  by_cases hi : i = a
  · subst hi
    simp [Nat.min_eq_left (Nat.le_of_lt h)]
  · rw [Function.update_of_ne (by simpa [Fin.ext_iff] using hi),
      List.getElem_append_left (by simp; omega), List.getElem_take, List.getElem_ofFn]

/-- What a bounded copy leaves up to the index it returns. -/
theorem take_blit (f : Fin n → α) {a : ℕ} (ha : a ≤ n) (l : List α) :
    (List.ofFn (blit f a l).1).take (blit f a l).2 = (List.ofFn f).take a ++ l.take (n - a) := by
  induction l generalizing f a with
  | nil => simp [blit]
  | cons x l ih =>
    rw [blit]
    by_cases h : a < n
    · have hroom : n - a = (n - (a + 1)) + 1 := by omega
      rw [dif_pos h, ih _ h, take_ofFn_update f h, hroom, List.take_succ_cons, List.append_assoc,
        List.singleton_append]
    · have hroom : n - a = 0 := by omega
      rw [dif_neg h, hroom, List.take_zero, List.append_nil]

/-- Where the cells fit, the index returned is the one after them. -/
theorem blit_end (f : Fin n → α) {a : ℕ} {l : List α} (h : a + l.length ≤ n) :
    (blit f a l).2 = a + l.length := by
  induction l generalizing f a with
  | nil => rfl
  | cons x l ih =>
    rw [List.length_cons] at h ⊢
    rw [blit, dif_pos (by omega), ih _ (by omega)]
    omega

/-- The other cells keep their contents. -/
theorem blit_outside (f : Fin n → α) {a : ℕ} {l : List α} {i : Fin n}
    (h : i.val < a ∨ a + l.length ≤ i.val) : (blit f a l).1 i = f i := by
  induction l generalizing f a with
  | nil => rfl
  | cons x l ih =>
    rw [List.length_cons] at h
    rw [blit]
    by_cases ha : a < n
    · have hne : i ≠ ⟨a, ha⟩ := by
        intro hi
        have hval : i.val = a := congrArg Fin.val hi
        omega
      rw [dif_pos ha, ih _ (by omega), Function.update_of_ne hne]
    · rw [dif_neg ha]

end AxiomRT.Lib
