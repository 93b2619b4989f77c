import AxiomRT.User.Proofs.NetSystemProofs

/-!
# Proofs: environments of user programs

Rules for what several environments have in common: console output that is printed whole, and
questions to another task that are refused or answered.
-/

namespace AxiomRT.User

open Lib
open Lib.Prog

/-- An environment that takes console output whole takes it in one piece, however it is cut; `p`
adds to what is printed. -/
theorem exec_prints {σ : Type} {step : σ → (c : Call) → c.Answer → σ → Prop}
    {p : σ → List UInt8 → σ}
    (hstep : ∀ w bytes (r : Int) w₁, step w (.conWrite bytes) r w₁ ↔
      r = bytes.length ∧ w₁ = p w bytes)
    (hnone : ∀ w, p w [] = w) (hboth : ∀ w a b, p (p w a) b = p w (a ++ b))
    {bytes : List UInt8} {a : Unit} {w w' : σ} :
    Exec step (uwritePtr bytes) w a w' ↔ w' = p w bytes := by
  induction hn : bytes.length using Nat.strong_induction_on generalizing bytes w with
  | _ n ih =>
    rw [uwritePtr]
    by_cases hnil : bytes = []
    · rw [if_pos hnil, exec_ret, hnil, hnone]
      exact ⟨fun h => h.2, fun h => ⟨rfl, h⟩⟩
    · have hpos := List.length_pos_iff.mpr hnil
      have hchunk : ¬ ((bytes.take 256).length : Int) ≤ 0 := by
        rw [List.length_take]
        omega
      have hrest : (bytes.drop 256).length < n := by
        rw [List.length_drop]
        omega
      have hcut : p (p w (bytes.take 256)) (bytes.drop 256) = p w bytes := by
        rw [hboth, List.take_append_drop]
      rw [if_neg hnil, exec_call]
      constructor
      · rintro ⟨r, w₁, hs, h⟩
        obtain ⟨rfl, rfl⟩ := (hstep _ _ r w₁).mp hs
        rw [if_neg hchunk, ih _ hrest rfl] at h
        rw [h, hcut]
      · rintro rfl
        refine ⟨((bytes.take 256).length : Int), _, (hstep _ _ _ _).mpr ⟨rfl, rfl⟩, ?_⟩
        rw [if_neg hchunk, ih _ hrest rfl, hcut]

/-- A question on a capability is refused, or the reply to it is received there. `p` is the
environment with the reply. -/
theorem exec_question {σ α : Type} {step : σ → (c : Call) → c.Answer → σ → Prop} {cap room : ℕ}
    {q : List UInt8} {Serves : Option (List UInt8) → Prop} {p : Option (List UInt8) → σ} {w w' : σ}
    (hsend : ∀ (r : Int) w₁, step w (.send cap q) r w₁ ↔
      (r < 0 ∧ w₁ = w) ∨ (0 ≤ r ∧ ∃ out, Serves out ∧ w₁ = p out))
    (hrecv : ∀ out (r : Filled room) w₁, step (p out) (.recv cap room) r w₁ ↔
      Receives out room r ∧ w₁ = w)
    {refused : UserProg α} {go : Filled room → UserProg α} {a : α} :
    Exec step (do
      let sent ← sysSend cap q
      if sent < 0 then refused
      else
        let answer ← sysRecv cap room
        go answer) w a w' ↔
      Exec step refused w a w' ∨ ∃ text fits, Serves (some text) ∧
        Exec step (go (.ok (text.take room) fits)) w a w' := by
  rw [sysSend_bind, exec_call]
  constructor
  · rintro ⟨r, w₁, hs, h⟩
    rcases (hsend r w₁).mp hs with ⟨hneg, rfl⟩ | ⟨hpos, out, hserves, rfl⟩
    · rw [if_pos hneg] at h
      exact Or.inl h
    · rw [if_neg (Int.not_lt.mpr hpos), sysRecv_bind, exec_call] at h
      obtain ⟨answer, w₂, hr, h⟩ := h
      obtain ⟨⟨text, fits, rfl, rfl⟩, rfl⟩ := (hrecv out answer w₂).mp hr
      exact Or.inr ⟨text, fits, hserves, h⟩
  · rintro (h | ⟨text, fits, hserves, h⟩)
    · refine ⟨(-1 : Int), w, (hsend _ w).mpr (Or.inl ⟨by decide, rfl⟩), ?_⟩
      rw [if_pos (show (-1 : Int) < 0 by decide)]
      exact h
    · refine ⟨(0 : Int), p (some text),
        (hsend _ _).mpr (Or.inr ⟨Int.le_refl 0, _, hserves, rfl⟩), ?_⟩
      rw [if_neg (show ¬ (0 : Int) < 0 by decide), sysRecv_bind, exec_call]
      exact ⟨.ok (text.take room) fits, w, (hrecv _ _ w).mpr ⟨⟨text, fits, rfl, rfl⟩, rfl⟩, h⟩

/-- A reply that fits the buffer is received whole. -/
theorem received_take {room : ℕ} {text : List UInt8} {fits : (text.take room).length ≤ room}
    (hne : text ≠ []) (hlen : text.length ≤ room) :
    (Filled.ok (text.take room) fits).received = some text := by
  rw [received_ok (by rwa [List.take_of_length_le hlen]), List.take_of_length_le hlen]

end AxiomRT.User
