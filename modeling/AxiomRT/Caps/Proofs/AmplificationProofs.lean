import Mathlib.Data.List.Induction
import Mathlib.Tactic.Common
import AxiomRT.Caps.Capability

/-!
# Proofs: capabilities never amplify

What a table grants is what the last successful call on the slot left there, and a capability at the
end of any chain of derivations grants no more than the minted capability it starts from.
-/

namespace AxiomRT.Caps

/-! ## Rights -/

theorem Rights.contains_iff {r q : Rights} :
    r.contains q = true ↔ ∀ i : ℕ, q.bits.getLsbD i = true → r.bits.getLsbD i = true := by
  have hmask : r.contains q = true ↔ r.bits &&& q.bits = q.bits := beq_iff_eq
  rw [hmask]
  constructor
  · intro h i hq
    rw [← h, BitVec.getLsbD_and, Bool.and_eq_true] at hq
    exact hq.1
  · intro h
    apply BitVec.eq_of_getLsbD_eq
    intro i _
    rw [BitVec.getLsbD_and]
    cases hq : q.bits.getLsbD i with
    | false => rw [Bool.and_false]
    | true => rw [h i hq, Bool.and_self]

/-- What is left after a diminishing was there before. -/
theorem Rights.contains_of_diminish {r m q : Rights} (h : (r.diminish m).contains q = true) :
    r.contains q = true := by
  rw [contains_iff] at h ⊢
  intro i hq
  have hi := h i hq
  rw [diminish, BitVec.getLsbD_and, Bool.and_eq_true] at hi
  exact hi.1

/-! ## Chains of derivations -/

theorem foldl_derive_object (removed : List Rights) (c : Capability) :
    (removed.foldl Capability.deriveDiminished c).object = c.object := by
  induction removed generalizing c with
  | nil => rfl
  | cons m ms ih => exact ih (c.deriveDiminished m)

theorem contains_of_foldl_derive {removed : List Rights} {c : Capability} {q : Rights}
    (h : (removed.foldl Capability.deriveDiminished c).rights.contains q = true) :
    c.rights.contains q = true := by
  induction removed generalizing c with
  | nil => exact h
  | cons m ms ih => exact Rights.contains_of_diminish (ih h)

/-! ## Tables -/

namespace CapTable

variable {t : CapTable} {index : ℕ}

/-- What a slot holds; there is nothing beyond the table. -/
def held (t : CapTable) (index : ℕ) : Option Capability :=
  if h : index < capTableSlots then t.slots ⟨index, h⟩ else none

theorem lookup_ok_iff {ty : ObjectType} {q : Rights} {o : ObjectRef} :
    t.lookup index ty q = .ok o ↔ ∃ c, t.held index = some c ∧ c.object = o ∧ o.objectType = ty ∧
      c.rights.contains q = true := by
  unfold lookup held
  by_cases h : index < capTableSlots
  · simp only [h, dite_true]
    cases t.slots ⟨index, h⟩ with
    | none => simp
    | some c =>
      simp only [Option.some.injEq, exists_eq_left']
      by_cases hty : c.object.objectType = ty
      · cases hq : c.rights.contains q with
        | false => simp [hty]
        | true =>
          simp only [hty, ne_eq, not_true, if_false, Bool.not_true, Bool.false_eq_true,
            Except.ok.injEq, and_true]
          constructor
          · rintro rfl
            exact ⟨rfl, hty⟩
          · exact And.left
      · rw [if_pos hty]
        constructor
        · intro h
          cases h
        · rintro ⟨rfl, ho, -⟩
          exact absurd ho hty
  · simp [h]

theorem held_set {s : Fin capTableSlots} {c : Option Capability} :
    (t.set s c).held index = if index = s.val then c else t.held index := by
  unfold held set
  by_cases h : index < capTableSlots
  · by_cases hs : index = s.val
    · subst hs
      simp
    · have hne : (⟨index, h⟩ : Fin capTableSlots) ≠ s := fun he => hs (congrArg Fin.val he)
      simp [h, hs, hne]
  · have hs : index ≠ s.val := fun he => h (he ▸ s.isLt)
    simp [h, hs]

end CapTable

/-! ## Calls -/

section Calls

variable {κ : Type*} {minted : Set Capability} {t : CapTable} {k : κ} {index : ℕ}
  {g : Issued minted} {op : Op κ minted} {ops : List (Op κ minted)}

/-- What a successful call leaves in its slot. -/
def Op.leaves : Op κ minted → Option Capability
  | .insert _ _ g => some g.cap
  | .revoke _ _ => none

/-- A call fails and leaves its table as it was, or it changes its slot and nothing else. -/
theorem Op.onTable_cases (t : CapTable) (op : Op κ minted) :
    (∃ e, op.onTable t = (t, .error e)) ∨
    ∃ t', op.onTable t = (t', .ok ()) ∧
      ∀ i, t'.held i = if i = op.slot.2 then op.leaves else t.held i := by
  cases op with
  | insert k i g =>
    simp only [onTable, CapTable.insert]
    by_cases h : i < capTableSlots
    · rw [dif_pos h]
      split_ifs
      · exact Or.inl ⟨_, rfl⟩
      · exact Or.inr ⟨_, rfl, fun j => CapTable.held_set⟩
    · rw [dif_neg h]
      exact Or.inl ⟨_, rfl⟩
  | revoke k i =>
    simp only [onTable, CapTable.revoke]
    by_cases h : i < capTableSlots
    · rw [dif_pos h]
      cases hs : t.slots ⟨i, h⟩ with
      | none =>
        -- clearing an empty slot changes nothing
        have hsame : t.set ⟨i, h⟩ none = t := by
          unfold CapTable.set
          rw [← hs, Function.update_eq_self]
        rw [hsame]
        exact Or.inl ⟨_, rfl⟩
      | some c => exact Or.inr ⟨_, rfl, fun j => CapTable.held_set⟩
    · rw [dif_neg h]
      exact Or.inl ⟨_, rfl⟩

variable [DecidableEq κ]

theorem run_snoc (ops : List (Op κ minted)) (op : Op κ minted) :
    run (ops ++ [op]) = step (run ops) op := List.foldl_append

/-- A call that fails changes nothing. -/
theorem step_of_error {w : κ → CapTable} {e : CapError} (h : op.reply w = .error e) :
    step w op = w := by
  unfold step
  rcases op.onTable_cases (w op.slot.1) with ⟨e', he⟩ | ⟨t', ht, -⟩
  · rw [he, Function.update_eq_self]
  · rw [Op.reply, ht] at h
    cases h

/-- A call that succeeds changes its own slot and nothing else. -/
theorem held_step_of_ok {w : κ → CapTable} (h : op.reply w = .ok ()) (k : κ) (index : ℕ) :
    (step w op k).held index = if (k, index) = op.slot then op.leaves else (w k).held index := by
  unfold step
  rcases op.onTable_cases (w op.slot.1) with ⟨e', he⟩ | ⟨t', ht, hheld⟩
  · rw [Op.reply, he] at h
    cases h
  · rw [ht]
    by_cases hk : k = op.slot.1
    · subst hk
      rw [Function.update_self, hheld]
      simp [Prod.ext_iff]
    · rw [Function.update_of_ne hk, if_neg]
      exact fun he => hk (congrArg Prod.fst he)

/-! ## What a slot holds, by its history -/

/-- The last successful call on the slot inserted `g`. -/
def Holds (ops : List (Op κ minted)) (k : κ) (index : ℕ) (g : Issued minted) : Prop :=
  ∃ before after, ops = before ++ .insert k index g :: after ∧
    Op.reply (run before) (.insert k index g) = .ok () ∧
    ∀ mid op rest, after = mid ++ op :: rest → op.slot = (k, index) →
      op.reply (run (before ++ .insert k index g :: mid)) ≠ .ok ()

theorem not_holds_nil : ¬ Holds [] k index g := by
  rintro ⟨before, after, h, -⟩
  exact absurd h.symm (List.append_ne_nil_of_right_ne_nil _ (List.cons_ne_nil _ _))

/-- An element of a longer list is the new one or stands in the old list. -/
theorem snoc_eq_append_cons {α : Type*} {l before after : List α} {x y : α}
    (h : l ++ [x] = before ++ y :: after) :
    (l = before ∧ x = y ∧ after = []) ∨ ∃ rest, l = before ++ y :: rest ∧ after = rest ++ [x] := by
  rcases List.eq_nil_or_concat after with rfl | ⟨rest, z, rfl⟩
  · obtain ⟨hl, hx⟩ := List.append_inj' h rfl
    exact Or.inl ⟨hl, List.singleton_inj.mp hx, rfl⟩
  · rw [List.concat_eq_append, ← List.cons_append, ← List.append_assoc] at h
    obtain ⟨hl, hx⟩ := List.append_inj' h rfl
    rw [List.concat_eq_append, hx]
    exact Or.inr ⟨rest, hl, rfl⟩

/-- One more call: it is the insertion itself, or it leaves the slot alone. -/
theorem holds_snoc_iff : Holds (ops ++ [op]) k index g ↔
    (op = .insert k index g ∧ op.reply (run ops) = .ok ()) ∨
    (Holds ops k index g ∧ ¬ (op.slot = (k, index) ∧ op.reply (run ops) = .ok ())) := by
  constructor
  · rintro ⟨before, after, heq, hok, hlast⟩
    rcases snoc_eq_append_cons heq with ⟨rfl, rfl, -⟩ | ⟨after', rfl, rfl⟩
    · exact Or.inl ⟨rfl, hok⟩
    · refine Or.inr ⟨⟨before, after', rfl, hok, ?_⟩, ?_⟩
      · rintro mid o rest rfl
        exact hlast mid o (rest ++ [op]) (by simp)
      · rintro ⟨hs, hr⟩
        exact hlast after' op [] rfl hs hr
  · rintro (⟨rfl, hok⟩ | ⟨⟨before, after, rfl, hok, hlast⟩, hnot⟩)
    · refine ⟨ops, [], rfl, hok, ?_⟩
      intro mid o rest h
      exact absurd h.symm (List.append_ne_nil_of_right_ne_nil _ (List.cons_ne_nil _ _))
    · refine ⟨before, after ++ [op], by simp, hok, ?_⟩
      intro mid o rest h hs hr
      rcases snoc_eq_append_cons h with ⟨rfl, rfl, -⟩ | ⟨rest', rfl, -⟩
      · exact hnot ⟨hs, hr⟩
      · exact hlast mid o rest' rfl hs hr

/-- A slot holds what the last successful call on it inserted. -/
theorem held_run_iff {c : Capability} : (run ops k).held index = some c ↔
    ∃ g, Holds ops k index g ∧ g.cap = c := by
  induction ops using List.reverseRecOn with
  | nil =>
    have hnone : (run ([] : List (Op κ minted)) k).held index = none := by
      show CapTable.new.held index = none
      simp [CapTable.held, CapTable.new]
    rw [hnone]
    constructor
    · intro h
      cases h
    · rintro ⟨g, hg, -⟩
      exact absurd hg not_holds_nil
  | append_singleton ops op ih =>
    simp only [run_snoc, holds_snoc_iff]
    cases hr : op.reply (run ops) with
    | error e =>
      rw [step_of_error hr, ih]
      simp
    | ok u =>
      rw [held_step_of_ok hr]
      by_cases hs : (k, index) = op.slot
      · rw [if_pos hs]
        cases op with
        | insert k' i' g' =>
          obtain ⟨rfl, rfl⟩ := Prod.mk.inj hs
          simp [Op.leaves, Op.slot]
        | revoke k' i' =>
          obtain ⟨rfl, rfl⟩ := Prod.mk.inj hs
          simp [Op.leaves, Op.slot]
      · rw [if_neg hs, ih]
        have hne : ¬ op.slot = (k, index) := fun h => hs h.symm
        have hins : ∀ g, op ≠ .insert k index g := by
          rintro g rfl
          exact hs rfl
        simp [hne, hins]

/-! ## No amplification -/

/-- The calls on table `k`. -/
def callsOn (k : κ) (ops : List (Op κ minted)) : List (Op κ minted) :=
  ops.filter fun op => decide (op.slot.1 = k)

theorem run_callsOn (ops : List (Op κ minted)) (k : κ) : run (callsOn k ops) k = run ops k := by
  induction ops using List.reverseRecOn with
  | nil => rfl
  | append_singleton ops op ih =>
    unfold callsOn at ih ⊢
    rw [List.filter_append, run_snoc]
    by_cases hk : op.slot.1 = k
    · subst hk
      simp only [List.filter_cons, List.filter_nil, decide_true, if_true, run_snoc, step,
        Function.update_self, ih]
    · simp only [List.filter_cons, List.filter_nil, hk, decide_false, Bool.false_eq_true, if_false,
        List.append_nil, ih, step]
      rw [Function.update_of_ne (Ne.symm hk)]

/-- The tables grant what was put into them, and never more than was minted. -/
structure NeverAmplifies (ops : List (Op κ minted)) : Prop where
  grants : ∀ k index ty q o, (run ops k).lookup index ty q = .ok o ↔
    ∃ g, Holds ops k index g ∧ g.cap.object = o ∧ o.objectType = ty ∧
      g.cap.rights.contains q = true
  rooted : ∀ k index ty q o g, (run ops k).lookup index ty q = .ok o → Holds ops k index g →
    g.root ∈ minted ∧ g.root.object = o ∧ g.root.rights.contains q = true
  failed : ∀ op e, op.reply (run ops) = .error e → run (ops ++ [op]) = run ops
  separate : ∀ k ops', callsOn k ops = callsOn k ops' → run ops k = run ops' k

/-- After any calls, what a table grants goes back to a capability that was minted, with no right
added on the way. -/
theorem run_neverAmplifies (ops : List (Op κ minted)) : NeverAmplifies ops where
  grants k index ty q o := by
    rw [CapTable.lookup_ok_iff]
    constructor
    · rintro ⟨c, hc, ho, hty, hq⟩
      obtain ⟨g, hg, rfl⟩ := held_run_iff.mp hc
      exact ⟨g, hg, ho, hty, hq⟩
    · rintro ⟨g, hg, ho, hty, hq⟩
      exact ⟨g.cap, held_run_iff.mpr ⟨g, hg, rfl⟩, ho, hty, hq⟩
  rooted k index ty q o g hl hg := by
    obtain ⟨c, hc, ho, -, hq⟩ := CapTable.lookup_ok_iff.mp hl
    have hcap : g.cap = c := Option.some.inj ((held_run_iff.mpr ⟨g, hg, rfl⟩).symm.trans hc)
    subst hcap
    refine ⟨g.root_minted, ?_, contains_of_foldl_derive hq⟩
    rw [← ho]
    exact (foldl_derive_object g.removed g.root).symm
  failed op e he := by rw [run_snoc, step_of_error he]
  separate k ops' h := by rw [← run_callsOn ops, h, run_callsOn]

end Calls

end AxiomRT.Caps
