import Mathlib.Tactic.Common

/-!
# Histories beside a run

A machine is followed step by step by another one whose next state exists but is not computed. The
states picked along the way form one history.
-/

namespace AxiomRT.Lib

variable {τ : Type*}

/-- States that are kept in `P` and linked by `R`, step by step, form a history. -/
theorem exists_history {P : ℕ → τ → Prop} {R : ℕ → τ → τ → Prop} {t₀ : τ} (h₀ : P 0 t₀) (n : ℕ)
    (hs : ∀ i, i < n → ∀ t, P i t → ∃ t', R i t t' ∧ P (i + 1) t') :
    ∃ f : ℕ → τ, f 0 = t₀ ∧ (∀ i, i ≤ n → P i (f i)) ∧ ∀ i, i < n → R i (f i) (f (i + 1)) := by
  induction n with
  | zero =>
    refine ⟨fun _ => t₀, rfl, fun i hi => ?_, nofun⟩
    obtain rfl : i = 0 := by omega
    exact h₀
  | succ n ih =>
    obtain ⟨f, hf₀, hP, hR⟩ := ih fun i hi => hs i (by omega)
    obtain ⟨t', hlink, hnext⟩ := hs n (by omega) (f n) (hP n (Nat.le_refl n))
    let g : ℕ → τ := fun i => if i ≤ n then f i else t'
    have hold : ∀ i, i ≤ n → g i = f i := fun i hi => if_pos hi
    have hnew : g (n + 1) = t' := if_neg (by omega)
    refine ⟨g, (hold 0 (Nat.zero_le n)).trans hf₀, fun i hi => ?_, fun i hi => ?_⟩
    · rcases Nat.lt_or_ge n i with hlt | hle
      · obtain rfl : i = n + 1 := by omega
        rw [hnew]
        exact hnext
      · rw [hold i hle]
        exact hP i hle
    · rcases Nat.lt_or_ge i n with hlt | hle
      · rw [hold i (by omega), hold (i + 1) (by omega)]
        exact hR i hlt
      · obtain rfl : i = n := by omega
        rw [hold i (Nat.le_refl i), hnew]
        exact hlink

end AxiomRT.Lib
