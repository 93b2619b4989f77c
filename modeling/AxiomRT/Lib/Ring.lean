import Mathlib.Data.List.Rotate
import Mathlib.Data.Nat.ModEq
import Mathlib.Data.Fin.Basic
import Mathlib.Tactic.Common

/-!
# Ring buffers

A ring of `n` cells is read from a head position on, wrapping at its end. What is stored in it is
the list of the cells read; the lemmas say how writing behind the last cell and clearing the first
one change that list.
-/

namespace AxiomRT.Lib

variable {α : Type*} {n : ℕ} [NeZero n]

/-- The position `i` cells after `head`. -/
def ringIndex (n : ℕ) [NeZero n] (head i : ℕ) : Fin n := Fin.ofNat n (head + i)

@[simp] theorem ringIndex_zero (head : Fin n) : ringIndex n head 0 = head :=
  Fin.ofNat_val_eq_self head

/-- Fewer than `n` steps apart, two positions are different. -/
theorem ringIndex_ne {head i j : ℕ} (hij : i < j) (hj : j < i + n) :
    ringIndex n head i ≠ ringIndex n head j := by
  intro h
  have hmod : (head + i) % n = (head + j) % n := congrArg Fin.val h
  have hdvd : n ∣ (head + j) - (head + i) := (Nat.modEq_iff_dvd' (by omega)).1 hmod
  have hle := Nat.le_of_dvd (by omega) hdvd
  omega

/-- Moving the head on by `i` cells moves every position on by `i`. -/
theorem ringIndex_ringIndex (head i j : ℕ) :
    ringIndex n (ringIndex n head i) j = ringIndex n head (i + j) := by
  apply Fin.ext
  show ((head + i) % n + j) % n = (head + (i + j)) % n
  rw [Nat.mod_add_mod, Nat.add_assoc]

/-- The `len` cells from `head` on. -/
def ringWindow (slots : Fin n → α) (head len : ℕ) : List α :=
  (List.range len).map fun i => slots (ringIndex n head i)

@[simp] theorem length_ringWindow (slots : Fin n → α) (head len : ℕ) :
    (ringWindow slots head len).length = len := by
  simp [ringWindow]

theorem ringWindow_congr {slots slots' : Fin n → α} {head head' len : ℕ}
    (h : ∀ i < len, slots (ringIndex n head i) = slots' (ringIndex n head' i)) :
    ringWindow slots head len = ringWindow slots' head' len :=
  List.map_congr_left fun i hi => h i (List.mem_range.1 hi)

/-- Writing the cell behind the last one appends. -/
theorem ringWindow_push (slots : Fin n → α) (head : ℕ) {len : ℕ} (hlen : len < n) (a : α) :
    ringWindow (Function.update slots (ringIndex n head len) a) head (len + 1) =
      ringWindow slots head len ++ [a] := by
  have hold : ringWindow (Function.update slots (ringIndex n head len) a) head len =
      ringWindow slots head len := by
    apply ringWindow_congr
    intro i hi
    rw [Function.update_of_ne (ringIndex_ne hi (by omega))]
  have hlast : ringWindow (Function.update slots (ringIndex n head len) a) head (len + 1) =
      ringWindow (Function.update slots (ringIndex n head len) a) head len ++ [a] := by
    simp [ringWindow, List.range_succ]
  rw [hlast, hold]

/-- The first cell, and the cells from the next position on. -/
theorem ringWindow_succ (slots : Fin n → α) (head : Fin n) (len : ℕ) :
    ringWindow slots head (len + 1) = slots head :: ringWindow slots (ringIndex n head 1) len := by
  rw [ringWindow, List.range_succ_eq_map, List.map_cons, List.map_map, ringIndex_zero]
  congr 1
  apply List.map_congr_left
  intro i _
  rw [ringIndex_ringIndex, Nat.add_comm 1 i]
  rfl

/-- Overwriting the first cell does not change the cells from the next position on. -/
theorem ringWindow_pop (slots : Fin n → α) (head : Fin n) {len : ℕ} (hlen : len < n) (a : α) :
    ringWindow (Function.update slots head a) (ringIndex n head 1) len =
      ringWindow slots (ringIndex n head 1) len := by
  apply ringWindow_congr
  intro i hi
  have hne : ringIndex n head 0 ≠ ringIndex n head (1 + i) :=
    ringIndex_ne (by omega) (by omega)
  rw [ringIndex_zero] at hne
  rw [ringIndex_ringIndex, Function.update_of_ne hne.symm]

/-- A list stored from position `0` on is read back. -/
theorem ringWindow_stored (l : List α) (hl : l.length ≤ n) (dflt : α) :
    ringWindow (fun i : Fin n => l.getD i dflt) 0 l.length = l := by
  apply List.ext_getElem
  · rw [length_ringWindow]
  · intro i hi hi'
    have hmod : i % n = i := Nat.mod_eq_of_lt (by omega)
    simp [ringWindow, ringIndex, hmod, hi']

/-! ## Once around

A scan that visits every position once, starting behind a given one and ending with it. -/

/-- All positions in the order in which they come up behind `t`. -/
def lap (t : Fin n) : List (Fin n) := (List.range' 1 n).map (ringIndex n t)

@[simp] theorem length_lap (t : Fin n) : (lap t).length = n := by
  simp [lap]

theorem getElem_lap (t : Fin n) {i : ℕ} (hi : i < (lap t).length) :
    (lap t)[i] = ringIndex n t (i + 1) := by
  simp [lap, Nat.add_comm]

theorem nodup_lap (t : Fin n) : (lap t).Nodup := by
  rw [List.nodup_iff_injective_get]
  intro i j hij
  have hi : i.val < n := i.isLt.trans_eq (length_lap t)
  have hj : j.val < n := j.isLt.trans_eq (length_lap t)
  rw [List.get_eq_getElem, List.get_eq_getElem, getElem_lap, getElem_lap] at hij
  rcases Nat.lt_trichotomy i.val j.val with hlt | heq | hgt
  · exact absurd hij (ringIndex_ne (by omega) (by omega))
  · exact Fin.ext heq
  · exact absurd hij.symm (ringIndex_ne (by omega) (by omega))

theorem mem_lap (t u : Fin n) : u ∈ lap t := by
  have hindex : ∃ s, 1 ≤ s ∧ s ≤ n ∧ ringIndex n t s = u := by
    by_cases h : t.val < u.val
    · refine ⟨u - t, by omega, by omega, Fin.ext ?_⟩
      show (t.val + (u.val - t.val)) % n = u
      rw [Nat.add_sub_cancel' (by omega), Nat.mod_eq_of_lt u.isLt]
    · refine ⟨u + n - t, by omega, by omega, Fin.ext ?_⟩
      show (t.val + (u.val + n - t.val)) % n = u
      rw [Nat.add_sub_cancel' (by omega), Nat.add_mod_right, Nat.mod_eq_of_lt u.isLt]
  obtain ⟨s, hlo, hhi, rfl⟩ := hindex
  exact List.mem_map.2 ⟨s, List.mem_range'_1.2 ⟨hlo, by omega⟩, rfl⟩

/-- Starting later along the lap turns it. -/
theorem lap_ringIndex (t : Fin n) (s : ℕ) : lap (ringIndex n t s) = (lap t).rotate s := by
  apply List.ext_getElem
  · simp
  · intro i hi hi'
    rw [List.getElem_rotate, getElem_lap, getElem_lap, ringIndex_ringIndex, length_lap]
    apply Fin.ext
    show (t.val + (s + (i + 1))) % n = (t.val + ((i + s) % n + 1)) % n
    have hsum : t.val + (s + (i + 1)) = t.val + 1 + (i + s) := by omega
    have hsum' : t.val + ((i + s) % n + 1) = t.val + 1 + (i + s) % n := by omega
    rw [hsum, hsum', Nat.add_mod_mod]

/-- The positions with `p`, in the order in which they come up behind `t`. -/
def cycle (p : Fin n → Bool) (t : Fin n) : List (Fin n) := (lap t).filter p

theorem nodup_cycle (p : Fin n → Bool) (t : Fin n) : (cycle p t).Nodup := (nodup_lap t).filter p

theorem mem_cycle {p : Fin n → Bool} {t u : Fin n} : u ∈ cycle p t ↔ p u = true := by
  rw [cycle, List.mem_filter]
  exact and_iff_right (mem_lap t u)

/-- Behind the first position with `p` the others come up as before, and it comes up last. -/
theorem cycle_next {p : Fin n → Bool} {t u : Fin n} {us : List (Fin n)}
    (h : cycle p t = u :: us) : cycle p u = us ++ [u] := by
  obtain ⟨before, after, hlap, hbefore, hu, hafter⟩ := List.filter_eq_cons_iff.1 h
  have hlen : before.length < (lap t).length := by
    rw [hlap, List.length_append, List.length_cons]
    omega
  have hturn : lap u = (lap t).rotate (before.length + 1) := by
    have hat : (lap t)[before.length] = u := by simp [hlap]
    rw [← lap_ringIndex, ← getElem_lap t hlen, hat]
  have hsplit : (lap t).rotate (before.length + 1) = after ++ (before ++ [u]) := by
    have hcut : lap t = (before ++ [u]) ++ after := by simp [hlap]
    have hcount : before.length + 1 = (before ++ [u]).length := by simp
    rw [hcut, hcount, List.rotate_append_length_eq]
  have hnone : before.filter p = [] := List.filter_eq_nil_iff.2 hbefore
  rw [cycle, hturn, hsplit, List.filter_append, List.filter_append, hafter, hnone,
    List.nil_append, List.filter_cons_of_pos hu, List.filter_nil]

end AxiomRT.Lib
