import Mathlib.Data.List.Induction
import Mathlib.Logic.Function.Basic
import Mathlib.Tactic.Common

/-!
# Radix trees in a flat store

A tree whose nodes are kept in numbered places of a store: a cell of a node is empty, links to
another node, or holds a value. A value is found by following links along a path of keys and reading
a cell of the node at its end. The nodes `0, ..., used - 1` are in use, node `0` is the root.

Two updates grow such a tree: a fresh node is linked into an empty cell, which changes no lookup,
and a value is stored in an empty cell, which changes the lookup of one path.
-/

namespace AxiomRT.Lib

/-- What a cell of a node holds. -/
inductive Cell (α : Type*)
  | empty
  | link (child : ℕ)
  | leaf (a : α)

/-- The cells of the nodes of a store. -/
abbrev Nodes (κ α : Type*) : Type _ := ℕ → κ → Cell α

variable {κ α : Type*} {t t' : Nodes κ α}

namespace Nodes

/-- The node that a path of links leads to. -/
def descend (t : Nodes κ α) : ℕ → List κ → Option ℕ
  | n, [] => some n
  | n, k :: ks =>
    match t n k with
    | .link m => descend t m ks
    | _ => none

/-- The value in cell `k` of the node that a path leads to. -/
def lookup (t : Nodes κ α) : ℕ → List κ → κ → Option α
  | n, [], k =>
    match t n k with
    | .leaf a => some a
    | _ => none
  | n, j :: js, k =>
    match t n j with
    | .link m => lookup t m js k
    | _ => none

theorem descend_link {n m : ℕ} {k : κ} (h : t n k = .link m) (ks : List κ) :
    t.descend n (k :: ks) = t.descend m ks := by
  simp only [descend, h]

theorem descend_append (n : ℕ) (p : List κ) (k : κ) (m : ℕ) :
    t.descend n (p ++ [k]) = some m ↔ ∃ q, t.descend n p = some q ∧ t q k = .link m := by
  induction p generalizing n with
  | nil =>
    simp only [List.nil_append, descend]
    constructor
    · intro h
      refine ⟨n, rfl, ?_⟩
      cases hc : t n k with
      | empty => simp [hc] at h
      | link m' => simpa [hc] using h
      | leaf a => simp [hc] at h
    · rintro ⟨q, hq, hl⟩
      cases hq
      simp [hl]
  | cons j js ih =>
    simp only [List.cons_append, descend]
    cases t n j with
    | empty => simp
    | link m' => exact ih m'
    | leaf a => simp

/-- A lookup reads one cell of the node at the end of the path. -/
theorem lookup_eq_some {n : ℕ} {p : List κ} {k : κ} {a : α} :
    t.lookup n p k = some a ↔ ∃ m, t.descend n p = some m ∧ t m k = .leaf a := by
  induction p generalizing n with
  | nil =>
    simp only [lookup, descend, Option.some.injEq, exists_eq_left']
    cases t n k with
    | empty => simp
    | link m => simp
    | leaf b => simp
  | cons j js ih =>
    simp only [lookup, descend]
    cases t n j with
    | empty => simp
    | link m => exact ih
    | leaf b => simp

end Nodes

/-! ## Well-formed trees -/

/-- The links among the `used` nodes form a tree of the given height below the root: they go one
level down, no two of them share their target, and values are stored at level 0 only. -/
structure IsTree (t : Nodes κ α) (used height : ℕ) (level : ℕ → ℕ) : Prop where
  pos : 0 < used
  root : level 0 = height
  le : ∀ n < used, level n ≤ height
  link : ∀ n k m, n < used → t n k = .link m → m < used ∧ level n = level m + 1
  inj : ∀ n k n' k' m, n < used → n' < used → t n k = .link m → t n' k' = .link m →
    n = n' ∧ k = k'
  leaf : ∀ n k a, n < used → t n k = .leaf a → level n = 0

namespace IsTree

variable {used height : ℕ} {level : ℕ → ℕ}

/-- Nothing links to the root. -/
theorem link_ne_root (h : IsTree t used height level) {n m : ℕ} {k : κ} (hn : n < used)
    (hl : t n k = .link m) : m ≠ 0 := by
  rintro rfl
  have hlev := (h.link n k 0 hn hl).2
  have hle := h.le n hn
  rw [h.root] at hlev
  omega

theorem descend_level (h : IsTree t used height level) (p : List κ) {n m : ℕ} (hn : n < used)
    (hd : t.descend n p = some m) : m < used ∧ level n = level m + p.length := by
  induction p generalizing n with
  | nil =>
    cases hd
    exact ⟨hn, rfl⟩
  | cons k ks ih =>
    unfold Nodes.descend at hd
    cases hc : t n k with
    | empty => simp [hc] at hd
    | leaf a => simp [hc] at hd
    | link q =>
      rw [hc] at hd
      obtain ⟨hq, hlev⟩ := h.link n k q hn hc
      obtain ⟨hm, hlev'⟩ := ih hq hd
      exact ⟨hm, by rw [List.length_cons]; omega⟩

/-- A node is reached along one path only. -/
theorem descend_inj (h : IsTree t used height level) {n m : ℕ} (hn : n < used) (p : List κ) :
    ∀ p', p.length = p'.length → t.descend n p = some m → t.descend n p' = some m → p = p' := by
  induction p using List.reverseRecOn generalizing m with
  | nil =>
    intro p' hlen _ _
    exact (List.eq_nil_of_length_eq_zero hlen.symm).symm
  | append_singleton q k ih =>
    intro p' hlen hd hd'
    rcases List.eq_nil_or_concat p' with rfl | ⟨q', k', rfl⟩
    · simp at hlen
    · rw [List.concat_eq_append] at hlen hd' ⊢
      simp only [List.length_append, List.length_singleton, Nat.add_right_cancel_iff] at hlen
      obtain ⟨a, ha, hl⟩ := (Nodes.descend_append ..).mp hd
      obtain ⟨b, hb, hl'⟩ := (Nodes.descend_append ..).mp hd'
      obtain ⟨hau, -⟩ := h.descend_level q hn ha
      obtain ⟨hbu, -⟩ := h.descend_level q' hn hb
      obtain ⟨rfl, rfl⟩ := h.inj _ _ _ _ _ hau hbu hl hl'
      rw [ih q' hlen ha hb]

end IsTree

/-! ## Linking a fresh node -/

/-- `t'` is `t` with a fresh node `m`, all of whose cells are empty, linked into cell `k` of `n`. -/
structure LinksFresh (t t' : Nodes κ α) (n : ℕ) (k : κ) (m : ℕ) : Prop where
  empty : t n k = .empty
  linked : t' n k = .link m
  fresh : ∀ j, t' m j = .empty
  other : ∀ i j, i ≠ m → (i ≠ n ∨ j ≠ k) → t' i j = t i j

namespace LinksFresh

variable {used height : ℕ} {level : ℕ → ℕ} {n : ℕ} {k : κ}

/-- A cell of a node in use is the linked one or as it was. -/
theorem cell (h : LinksFresh t t' n k used) {i : ℕ} (hi : i < used) (j : κ) :
    (i = n ∧ j = k) ∨ t' i j = t i j := by
  by_cases hij : i = n ∧ j = k
  · exact Or.inl hij
  · refine Or.inr (h.other i j (Nat.ne_of_lt hi) ?_)
    rwa [← not_and_or]

theorem isTree (h : LinksFresh t t' n k used) (ht : IsTree t used height level) (hn : n < used)
    {l : ℕ} (hl : level n = l + 1) :
    IsTree t' (used + 1) height (Function.update level used l) := by
  have hold : ∀ i < used, Function.update level used l i = level i :=
    fun i hi => Function.update_of_ne (Nat.ne_of_lt hi) ..
  have hnew : Function.update level used l used = l := Function.update_self ..
  -- a link of the new tree is the fresh one or a link of the old tree
  have hcases : ∀ i j m, i < used + 1 → t' i j = .link m →
      (i = n ∧ j = k ∧ m = used) ∨ (i < used ∧ t i j = .link m) := by
    intro i j m hi hij
    rcases Nat.lt_succ_iff_lt_or_eq.mp hi with hi | rfl
    · rcases h.cell hi j with ⟨rfl, rfl⟩ | hsame
      · rw [h.linked] at hij
        cases hij
        exact Or.inl ⟨rfl, rfl, rfl⟩
      · exact Or.inr ⟨hi, hsame.symm.trans hij⟩
    · rw [h.fresh] at hij
      cases hij
  refine ⟨Nat.succ_pos used, ?_, ?_, ?_, ?_, ?_⟩
  · rw [hold 0 ht.pos]
    exact ht.root
  · intro i hi
    rcases Nat.lt_succ_iff_lt_or_eq.mp hi with hi | rfl
    · rw [hold i hi]
      exact ht.le i hi
    · rw [hnew]
      have := ht.le n hn
      omega
  · intro i j m hi hij
    rcases hcases i j m hi hij with ⟨rfl, rfl, rfl⟩ | ⟨hiu, hold'⟩
    · rw [hold i hn, hnew]
      exact ⟨Nat.lt_succ_self _, hl⟩
    · obtain ⟨hm, hlev⟩ := ht.link i j m hiu hold'
      rw [hold i hiu, hold m hm]
      exact ⟨Nat.lt_succ_of_lt hm, hlev⟩
  · intro i j i' j' m hi hi' hij hij'
    rcases hcases i j m hi hij with ⟨rfl, rfl, rfl⟩ | ⟨hiu, hold₁⟩
    · rcases hcases i' j' _ hi' hij' with ⟨rfl, rfl, -⟩ | ⟨hiu', hold₂⟩
      · exact ⟨rfl, rfl⟩
      · exact absurd (ht.link i' j' _ hiu' hold₂).1 (Nat.lt_irrefl _)
    · rcases hcases i' j' m hi' hij' with ⟨rfl, rfl, rfl⟩ | ⟨hiu', hold₂⟩
      · exact absurd (ht.link i j _ hiu hold₁).1 (Nat.lt_irrefl _)
      · exact ht.inj i j i' j' m hiu hiu' hold₁ hold₂
  · intro i j a hi hij
    rcases Nat.lt_succ_iff_lt_or_eq.mp hi with hi | rfl
    · rcases h.cell hi j with ⟨rfl, rfl⟩ | hsame
      · rw [h.linked] at hij
        cases hij
      · rw [hold i hi]
        exact ht.leaf i j a hi (hsame.symm.trans hij)
    · rw [h.fresh] at hij
      cases hij

/-- The fresh node holds nothing, so no lookup changes. -/
theorem lookup (h : LinksFresh t t' n k used) (ht : IsTree t used height level) (p : List κ) :
    ∀ {q}, q < used → ∀ j, t'.lookup q p j = t.lookup q p j := by
  induction p with
  | nil =>
    intro q hq j
    unfold Nodes.lookup
    rcases h.cell hq j with ⟨rfl, rfl⟩ | hsame
    · rw [h.linked, h.empty]
    · rw [hsame]
  | cons i is ih =>
    intro q hq j
    unfold Nodes.lookup
    rcases h.cell hq i with ⟨rfl, rfl⟩ | hsame
    · rw [h.linked, h.empty]
      cases is with
      | nil => simp only [Nodes.lookup, h.fresh]
      | cons _ _ => simp only [Nodes.lookup, h.fresh]
    · rw [hsame]
      cases hc : t q i with
      | empty => rfl
      | leaf a => rfl
      | link m => exact ih (ht.link q i m hq hc).1 j

/-- Links stay where they are. -/
theorem link_of_link (h : LinksFresh t t' n k used) {i m : ℕ} {j : κ} (hi : i < used)
    (hl : t i j = .link m) : t' i j = .link m := by
  rcases h.cell hi j with ⟨rfl, rfl⟩ | hsame
  · rw [h.empty] at hl
    cases hl
  · rw [hsame, hl]

end LinksFresh

/-! ## Storing a value -/

/-- `t'` is `t` with the value `a` stored in the empty cell `k` of `n`. -/
structure Stores (t t' : Nodes κ α) (n : ℕ) (k : κ) (a : α) : Prop where
  empty : t n k = .empty
  stored : t' n k = .leaf a
  other : ∀ i j, (i ≠ n ∨ j ≠ k) → t' i j = t i j

namespace Stores

variable {used height : ℕ} {level : ℕ → ℕ} {n : ℕ} {k : κ} {a : α}

theorem cell (h : Stores t t' n k a) (i : ℕ) (j : κ) : (i = n ∧ j = k) ∨ t' i j = t i j := by
  by_cases hij : i = n ∧ j = k
  · exact Or.inl hij
  · refine Or.inr (h.other i j ?_)
    rwa [← not_and_or]

/-- The links are those of the old tree. -/
theorem link_iff (h : Stores t t' n k a) {i : ℕ} {j : κ} {m : ℕ} :
    t' i j = .link m ↔ t i j = .link m := by
  rcases h.cell i j with ⟨rfl, rfl⟩ | hsame
  · rw [h.stored, h.empty]
    constructor <;> intro hc <;> cases hc
  · rw [hsame]

theorem isTree (h : Stores t t' n k a) (ht : IsTree t used height level) (hn : level n = 0) :
    IsTree t' used height level := by
  refine ⟨ht.pos, ht.root, ht.le, ?_, ?_, ?_⟩
  · intro i j m hi hij
    exact ht.link i j m hi (h.link_iff.mp hij)
  · intro i j i' j' m hi hi' hij hij'
    exact ht.inj i j i' j' m hi hi' (h.link_iff.mp hij) (h.link_iff.mp hij')
  · intro i j b hi hij
    rcases h.cell i j with ⟨rfl, -⟩ | hsame
    · exact hn
    · exact ht.leaf i j b hi (hsame.symm.trans hij)

/-- The lookup that ends in the cell gives the value, every other one is as it was. -/
theorem lookup (h : Stores t t' n k a) (p : List κ) : ∀ q j,
    (t.descend q p = some n ∧ j = k ∧ t'.lookup q p j = some a) ∨
      (¬ (t.descend q p = some n ∧ j = k) ∧ t'.lookup q p j = t.lookup q p j) := by
  induction p with
  | nil =>
    intro q j
    unfold Nodes.lookup Nodes.descend
    rcases h.cell q j with ⟨rfl, rfl⟩ | hsame
    · rw [h.stored]
      exact Or.inl ⟨rfl, rfl, rfl⟩
    · rw [hsame]
      by_cases hqj : q = n ∧ j = k
      · obtain ⟨rfl, rfl⟩ := hqj
        rw [h.stored, h.empty] at hsame
        cases hsame
      · refine Or.inr ⟨?_, rfl⟩
        rintro ⟨hq, hj⟩
        cases hq
        exact hqj ⟨rfl, hj⟩
  | cons i is ih =>
    intro q j
    unfold Nodes.lookup Nodes.descend
    rcases h.cell q i with ⟨rfl, rfl⟩ | hsame
    · rw [h.stored, h.empty]
      refine Or.inr ⟨?_, rfl⟩
      rintro ⟨hd, -⟩
      cases hd
    · rw [hsame]
      cases t q i with
      | empty =>
        refine Or.inr ⟨?_, rfl⟩
        rintro ⟨hd, -⟩
        cases hd
      | leaf b =>
        refine Or.inr ⟨?_, rfl⟩
        rintro ⟨hd, -⟩
        cases hd
      | link m => exact ih m j

end Stores

end AxiomRT.Lib
