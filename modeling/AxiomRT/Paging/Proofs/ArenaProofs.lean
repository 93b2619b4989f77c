import AxiomRT.Lib.RadixTree
import AxiomRT.Paging.Proofs.Sv39Proofs

/-!
# The arena is a radix tree

The tables in use form a radix tree over the three 9-bit indexes of an address: a pointer entry is
a link to the table it names. Every call keeps the tree; a call that fails changes no lookup, a call
that succeeds changes the lookup of its own page.
-/

namespace AxiomRT.Paging

open AxiomRT.Lib

namespace Arena

/-! ## Cells -/

/-- What an entry is in the tree. -/
def cell (a : Arena) (e : Pte) : Cell Pte :=
  if e.isLeaf then .leaf e
  else if e.isValid then .link ((e.ppn * pageSize - a.basePa) / pageSize)
  else .empty

/-- The tables of the arena as the nodes of a tree. -/
def nodes (a : Arena) : Nodes (Fin entries) Pte := fun n k => a.cell ⟨a.tables n k⟩

variable {a a' : Arena} {n : ℕ} {k : Fin entries}

theorem cell_eq_leaf {e e' : Pte} (h : a.cell e = .leaf e') : e.isLeaf = true ∧ e' = e := by
  unfold cell at h
  split_ifs at h with hl
  cases h
  exact ⟨hl, rfl⟩

theorem cell_eq_link {e : Pte} {m : ℕ} (h : a.cell e = .link m) :
    e.isLeaf = false ∧ e.isValid = true ∧ m = (e.ppn * pageSize - a.basePa) / pageSize := by
  unfold cell at h
  split_ifs at h with hl hv
  cases h
  exact ⟨Bool.not_eq_true _ ▸ hl, hv, rfl⟩

theorem cell_eq_empty {e : Pte} (h : a.cell e = .empty) :
    e.isLeaf = false ∧ e.isValid = false := by
  unfold cell at h
  split_ifs at h with hl hv
  exact ⟨Bool.not_eq_true _ ▸ hl, Bool.not_eq_true _ ▸ hv⟩

theorem cell_empty {e : Pte} (h : e.isValid = false) : a.cell e = .empty := by
  have hl : e.isLeaf = false := by
    unfold Pte.isLeaf
    rw [h, Bool.false_and]
  unfold cell
  rw [hl, h]
  rfl

theorem cell_leaf {e : Pte} (h : e.isLeaf = true) : a.cell e = .leaf e := if_pos h

theorem cell_zero : a.cell ⟨0⟩ = .empty := cell_empty Pte.zero_not_valid

theorem nodes_set (a : Arena) (table : ℕ) (idx : Fin entries) (e : Pte) (i : ℕ)
    (j : Fin entries) :
    (a.set table idx e).nodes i j = if i = table ∧ j = idx then a.cell e else a.nodes i j := by
  unfold nodes set cell
  by_cases hi : i = table
  · subst hi
    by_cases hj : j = idx
    · subst hj
      simp only [Function.update_self, and_self, if_true]
    · simp only [Function.update_self, Function.update_of_ne hj, hj, and_false, if_false]
  · simp only [Function.update_of_ne hi, hi, false_and, if_false]

/-! ## Well-formed arenas -/

/-- The tables in use form a tree of height 2, in physical memory. -/
structure Good (a : Arena) (level : ℕ → ℕ) : Prop where
  tree : IsTree a.nodes a.used 2 level
  used_le : a.used ≤ a.len
  aligned : isPageAligned a.basePa = true
  below : a.basePa + a.len * pageSize ≤ 2 ^ 56

theorem nodes_new {tables : ℕ → Table} (hroot : ∀ k, tables 0 k = 0) (len basePa : ℕ)
    (k : Fin entries) : (Arena.new tables len basePa).nodes 0 k = .empty := by
  show cell _ ⟨tables 0 k⟩ = .empty
  rw [hroot k]
  exact cell_zero

/-- A root with only invalid entries is a tree. -/
theorem good_new {tables : ℕ → Table} {len basePa : ℕ} (hlen : 0 < len)
    (hroot : ∀ k, tables 0 k = 0) (hal : isPageAligned basePa = true)
    (hbelow : basePa + len * pageSize ≤ 2 ^ 56) : Good (.new tables len basePa) fun _ => 2 := by
  have hempty : ∀ i k, i < 1 → (Arena.new tables len basePa).nodes i k = .empty := by
    intro i k hi
    rw [Nat.lt_one_iff.mp hi]
    exact nodes_new hroot len basePa k
  refine ⟨⟨Nat.one_pos, rfl, fun _ _ => le_refl 2, ?_, ?_, ?_⟩, hlen, hal, hbelow⟩
  · intro i k m hi h
    rw [hempty i k hi] at h
    cases h
  · intro i k i' k' m hi _ h
    rw [hempty i k hi] at h
    cases h
  · intro i k e hi h
    rw [hempty i k hi] at h
    cases h

namespace Good

variable {level : ℕ → ℕ}

theorem entry (h : Good a level) (hn : n < a.used) (k : Fin entries) :
    a.entry n k = some ⟨a.tables n k⟩ :=
  if_pos (Nat.lt_of_lt_of_le hn h.used_le)

/-- No link leads to the root, so the subtraction of `table_index_of` does not underflow. -/
theorem tableIndexOf (h : Good a level) (hn : n < a.used) {m : ℕ} (hl : a.nodes n k = .link m) :
    a.tableIndexOf ⟨a.tables n k⟩ = some m := by
  obtain ⟨-, -, hm⟩ := cell_eq_link hl
  have hne := h.tree.link_ne_root hn hl
  unfold Arena.tableIndexOf
  rw [if_neg ?_, hm]
  intro hlt
  rw [Nat.sub_eq_zero_of_le (Nat.le_of_lt hlt)] at hm
  exact hne hm

/-! ## Walks -/

theorem walk (h : Good a level) (va : ℕ) (levels : List ℕ) : ∀ {cur}, cur < a.used →
    a.walk va levels cur = some (a.nodes.descend cur (levels.map (vpn va))) := by
  induction levels with
  | nil =>
    intro cur _
    rfl
  | cons l ls ih =>
    intro cur hcur
    unfold Arena.walk
    rw [h.entry hcur]
    simp only [List.map_cons, Nodes.descend, Option.bind_eq_bind, Option.bind_some]
    cases hc : a.nodes cur (vpn va l) with
    | empty =>
      obtain ⟨hl, hv⟩ := cell_eq_empty hc
      rw [hv]
      rfl
    | leaf e =>
      obtain ⟨hl, -⟩ := cell_eq_leaf hc
      rw [hl, Bool.or_true]
      rfl
    | link m =>
      obtain ⟨hl, hv, -⟩ := cell_eq_link hc
      rw [hl, hv, h.tableIndexOf hcur hc]
      exact ih (h.tree.link _ _ _ hcur hc).1

end Good

/-- The leaf that the tree holds for the page of `va`. -/
def find (a : Arena) (va : ℕ) : Option Pte := a.nodes.lookup 0 [vpn va 2, vpn va 1] (vpn va 0)

theorem va_offset (va : ℕ) : va &&& (pageSize - 1) = va % pageSize :=
  Nat.and_two_pow_sub_one_eq_mod va 12

/-- `translate` decodes the leaf of the page. -/
theorem Good.translate {level : ℕ → ℕ} (h : Good a level) (va : ℕ) :
    a.translate va = some ((a.find va).map fun e =>
      (e.ppn * pageSize + va % pageSize, e.permissions)) := by
  unfold Arena.translate
  rw [h.walk va [2, 1] h.tree.pos]
  simp only [List.map_cons, List.map_nil, Option.bind_eq_bind, Option.bind_some]
  cases hd : a.nodes.descend 0 [vpn va 2, vpn va 1] with
  | none =>
    have hfind : a.find va = none := by
      apply Option.eq_none_iff_forall_ne_some.mpr
      intro e he
      obtain ⟨m, hm, -⟩ := Nodes.lookup_eq_some.mp he
      rw [hd] at hm
      cases hm
    rw [hfind]
    rfl
  | some cur =>
    obtain ⟨hcur, -⟩ := h.tree.descend_level _ h.tree.pos hd
    dsimp only
    rw [h.entry hcur, va_offset]
    simp only [Option.bind_some]
    cases hl : (⟨a.tables cur (vpn va 0)⟩ : Pte).isLeaf with
    | true =>
      have hfind : a.find va = some ⟨a.tables cur (vpn va 0)⟩ :=
        Nodes.lookup_eq_some.mpr ⟨cur, hd, cell_leaf hl⟩
      rw [hfind]
      rfl
    | false =>
      have hfind : a.find va = none := by
        apply Option.eq_none_iff_forall_ne_some.mpr
        intro e he
        obtain ⟨m, hm, hc⟩ := Nodes.lookup_eq_some.mp he
        rw [hd] at hm
        cases hm
        rw [(cell_eq_leaf hc).1] at hl
        cases hl
      rw [hfind]
      rfl

/-! ## Growing the tree -/

/-- `a'` is `a` with tables added: no lookup changes. -/
structure Grows (a a' : Arena) (level level' : ℕ → ℕ) : Prop where
  basePa : a'.basePa = a.basePa
  used : a.used ≤ a'.used
  level : ∀ n < a.used, level' n = level n
  link : ∀ {n k m}, n < a.used → a.nodes n k = .link m → a'.nodes n k = .link m
  lookup : ∀ {q} p k, q < a.used → a'.nodes.lookup q p k = a.nodes.lookup q p k

variable {level : ℕ → ℕ}

theorem Grows.refl (a : Arena) (level : ℕ → ℕ) : Grows a a level level :=
  ⟨rfl, le_refl _, fun _ _ => rfl, fun _ h => h, fun _ _ _ => rfl⟩

theorem Grows.trans {b : Arena} {level' level'' : ℕ → ℕ} (h : Grows a b level level')
    (h' : Grows b a' level' level'') : Grows a a' level level'' where
  basePa := h'.basePa.trans h.basePa
  used := h.used.trans h'.used
  level := by
    intro n hn
    rw [h'.level n (Nat.lt_of_lt_of_le hn h.used), h.level n hn]
  link := by
    intro n k m hn hl
    exact h'.link (Nat.lt_of_lt_of_le hn h.used) (h.link hn hl)
  lookup := by
    intro q p k hq
    rw [h'.lookup p k (Nat.lt_of_lt_of_le hq h.used), h.lookup p k hq]

/-- The arena in which the next table is zeroed and linked into an entry. -/
def link (a : Arena) (cur : ℕ) (idx : Fin entries) : Arena :=
  { a with
    tables := Function.update a.tables a.used fun _ => 0
    used := a.used + 1 : Arena }.set cur idx (.ofFlags pteV (a.paOf a.used))

/-- A pointer to the next table decodes to its index. -/
theorem Good.cell_pointer (h : Good a level) (hused : a.used < a.len) :
    a.cell (.ofFlags pteV (a.paOf a.used)) = .link a.used := by
  have hb := h.below
  have hal := page_of_aligned h.aligned
  have hlt : a.paOf a.used < 2 ^ 56 := by
    unfold paOf
    have := Nat.mul_lt_mul_of_pos_right hused (show 0 < pageSize by decide)
    omega
  have hppn : a.paOf a.used / pageSize * pageSize = a.basePa + a.used * pageSize := by
    unfold paOf
    rw [← hal, ← Nat.add_mul, Nat.mul_div_cancel _ (by decide)]
  unfold cell
  rw [Pte.pointer_not_leaf, Pte.pointer_isValid, Pte.ofFlags_ppn_of_lt (by decide) hlt, hppn,
    Nat.add_sub_cancel_left, Nat.mul_div_cancel _ (by decide)]
  rfl

theorem Good.linksFresh (h : Good a level) (hused : a.used < a.len) {cur : ℕ} (hcur : cur < a.used)
    {idx : Fin entries} (he : a.nodes cur idx = .empty) :
    LinksFresh a.nodes (a.link cur idx).nodes cur idx a.used := by
  have hcell : ∀ i j, (a.link cur idx).nodes i j = if i = cur ∧ j = idx then .link a.used
      else if i = a.used then .empty else a.nodes i j := by
    intro i j
    unfold link
    rw [nodes_set]
    by_cases hij : i = cur ∧ j = idx
    · rw [if_pos hij, if_pos hij]
      exact h.cell_pointer hused
    · rw [if_neg hij, if_neg hij]
      unfold nodes
      by_cases hi : i = a.used
      · subst hi
        simp only [Function.update_self, if_true]
        exact cell_zero
      · simp only [Function.update_of_ne hi, hi, if_false]
        rfl
  refine ⟨he, ?_, ?_, ?_⟩
  · rw [hcell, if_pos ⟨rfl, rfl⟩]
  · intro j
    rw [hcell, if_neg ?_, if_pos rfl]
    rintro ⟨rfl, -⟩
    exact Nat.lt_irrefl _ hcur
  · intro i j hi hij
    rw [hcell, if_neg (not_and_or.mpr hij), if_neg hi]

/-- Linking a fresh table keeps the tree. -/
theorem Good.link (h : Good a level) (hused : a.used < a.len) {cur : ℕ} (hcur : cur < a.used)
    {idx : Fin entries} (he : a.nodes cur idx = .empty) {l : ℕ} (hl : level cur = l + 1) :
    Good (a.link cur idx) (Function.update level a.used l) ∧
      Grows a (a.link cur idx) level (Function.update level a.used l) := by
  have hf := h.linksFresh hused hcur he
  refine ⟨⟨hf.isTree h.tree hcur hl, hused, h.aligned, h.below⟩, rfl, Nat.le_succ _, ?_, ?_, ?_⟩
  · intro n hn
    exact Function.update_of_ne (Nat.ne_of_lt hn) ..
  · intro n k m hn hm
    exact hf.link_of_link hn hm
  · intro q p k hq
    exact hf.lookup h.tree p hq k

/-- The allocation branch of the descent. -/
theorem Good.alloc (h : Good a level) :
    (a.len ≤ a.used ∧ a.alloc = none) ∨ (a.used < a.len ∧ ∃ b, a.alloc = some (b, a.used) ∧
      Pte.pointer (b.paOf a.used) = .ok (.ofFlags pteV (a.paOf a.used)) ∧
      ∀ cur idx, b.set cur idx (.ofFlags pteV (a.paOf a.used)) = a.link cur idx) := by
  unfold Arena.alloc
  by_cases hused : a.len ≤ a.used
  · exact Or.inl ⟨hused, if_pos hused⟩
  · refine Or.inr ⟨Nat.lt_of_not_le hused, _, if_neg hused, Pte.pointer_ok ?_, fun _ _ => rfl⟩
    have hal : a.basePa % pageSize = 0 := by simpa [isPageAligned] using h.aligned
    unfold paOf isPageAligned
    simp [hal]

/-- The descent of `map_page` keeps the tree, changes no lookup, and ends in the table it was to
find, which it does if enough tables are left. -/
theorem descend_spec (va : ℕ) (levels : List ℕ) :
    ∀ {a : Arena} {level : ℕ → ℕ} {cur : ℕ}, Good a level → cur < a.used →
      level cur = levels.length → ∃ a' r level', descend va levels a cur = some (a', r) ∧
        Good a' level' ∧ Grows a a' level level' ∧
        (∀ n, r = .ok n → a'.nodes.descend cur (levels.map (vpn va)) = some n) ∧
        (a.used + levels.length ≤ a.len → ∃ n, r = .ok n) := by
  induction levels with
  | nil =>
    intro a level cur h _ _
    refine ⟨a, .ok cur, level, rfl, h, .refl a level, ?_, fun _ => ⟨cur, rfl⟩⟩
    intro n hn
    cases hn
    rfl
  | cons l ls ih =>
    intro a level cur h hcur hlev
    unfold descend
    dsimp only
    rw [h.entry hcur]
    simp only [Option.bind_eq_bind, Option.bind_some, List.map_cons]
    cases hc : a.nodes cur (vpn va l) with
    | leaf e =>
      obtain ⟨hl, -⟩ := cell_eq_leaf hc
      rw [hl]
      refine ⟨a, _, level, rfl, h, .refl a level, ?_, fun _ => ?_⟩
      · intro n hn
        cases hn
      · -- there are no leaves above the last level
        have hzero := h.tree.leaf _ _ _ hcur hc
        rw [hlev] at hzero
        cases hzero
    | link m =>
      obtain ⟨hl, hv, -⟩ := cell_eq_link hc
      obtain ⟨hm, hml⟩ := h.tree.link _ _ _ hcur hc
      rw [hl, hv, h.tableIndexOf hcur hc]
      have hmlev : level m = ls.length := by
        rw [hlev, List.length_cons] at hml
        omega
      obtain ⟨a', r, level', hd, hg, hgr, hok, hroom⟩ := ih h hm hmlev
      refine ⟨a', r, level', hd, hg, hgr, ?_, fun hle => hroom ?_⟩
      · intro n hn
        rw [Nodes.descend_link (hgr.link hcur hc)]
        exact hok n hn
      · rw [List.length_cons] at hle
        omega
    | empty =>
      obtain ⟨hl, hv⟩ := cell_eq_empty hc
      rw [hl, hv]
      rcases h.alloc with ⟨hfull, hnone⟩ | ⟨hused, b, hb, hptr, hset⟩
      · rw [hnone]
        refine ⟨a, _, level, rfl, h, .refl a level, ?_, fun hle => ?_⟩
        · intro n hn
          cases hn
        · rw [List.length_cons] at hle
          omega
      · rw [hb]
        simp only [hptr, hset]
        obtain ⟨hg, hgr⟩ := h.link hused hcur hc hlev
        obtain ⟨a', r, level', hd, hg', hgr', hok, hroom⟩ :=
          ih hg (Nat.lt_succ_self _) (Function.update_self ..)
        refine ⟨a', r, level', hd, hg', hgr.trans hgr', ?_, fun hle => hroom ?_⟩
        · intro n hn
          have hlink : (a.link cur (vpn va l)).nodes cur (vpn va l) = .link a.used :=
            (h.linksFresh hused hcur hc).linked
          rw [Nodes.descend_link (hgr'.link (Nat.lt_succ_of_lt hcur) hlink)]
          exact hok n hn
        · rw [List.length_cons] at hle
          show a.used + 1 + ls.length ≤ a.len
          omega

end Arena

/-! ## What `map_page` checks -/

/-- An Sv39 leaf can hold the mapping. -/
structure Encodable (va pa : ℕ) (perms : Permissions) : Prop where
  va_aligned : isPageAligned va = true
  pa_aligned : isPageAligned pa = true
  access : perms.read = true ∨ perms.write = true ∨ perms.execute = true
  writeRead : perms.write = true → perms.read = true
  wx : ¬ (perms.user = true ∧ perms.write = true ∧ perms.execute = true)
  deviceExecute : ¬ (perms.device = true ∧ perms.execute = true)

theorem leaf_ok_iff {pa : ℕ} {perms : Permissions} : (∃ e, Pte.leaf pa perms = .ok e) ↔
    isPageAligned pa = true ∧
      (perms.read = true ∨ perms.write = true ∨ perms.execute = true) ∧
      (perms.write = true → perms.read = true) ∧
      ¬ (perms.user = true ∧ perms.write = true ∧ perms.execute = true) ∧
      ¬ (perms.device = true ∧ perms.execute = true) := by
  unfold Pte.leaf
  obtain ⟨r, w, x, u, d⟩ := perms
  cases isPageAligned pa <;> cases r <;> cases w <;> cases x <;> cases u <;> cases d <;> simp

theorem Encodable.leaf {va pa : ℕ} {perms : Permissions} (h : Encodable va pa perms) :
    ∃ e, Pte.leaf pa perms = .ok e :=
  leaf_ok_iff.mpr ⟨h.pa_aligned, h.access, h.writeRead, h.wx, h.deviceExecute⟩

namespace Arena

/-- What no leaf can hold is refused before anything is changed. -/
theorem mapPage_refused (a : Arena) {va pa : ℕ} {perms : Permissions}
    (h : ¬ Encodable va pa perms) : ∃ err, a.mapPage va pa perms = some (a, .error err) := by
  unfold mapPage
  cases hva : isPageAligned va with
  | false => exact ⟨_, rfl⟩
  | true =>
    cases hpa : isPageAligned pa with
    | false => exact ⟨_, rfl⟩
    | true =>
      cases he : Pte.leaf pa perms with
      | error err => exact ⟨_, rfl⟩
      | ok e =>
        obtain ⟨-, hacc, hwr, hwx, hdx⟩ := leaf_ok_iff.mp ⟨e, he⟩
        exact absurd ⟨hva, hpa, hacc, hwr, hwx, hdx⟩ h

end Arena

/-! ## One call -/

/-- The path of `va` in the tree. -/
def pageKey (va : ℕ) : Fin entries × Fin entries × Fin entries := (vpn va 2, vpn va 1, vpn va 0)

theorem vpn_val (va level : ℕ) : (vpn va level).val = va / 2 ^ (12 + level * 9) % 512 := by
  show va >>> (12 + level * 9) &&& (2 ^ 9 - 1) = _
  rw [Nat.and_two_pow_sub_one_eq_mod, Nat.shiftRight_eq_div_pow]

/-- Addresses with the same path are those of one page, up to the 39 bits of a virtual address. -/
theorem pageKey_eq_iff {va va' : ℕ} :
    pageKey va = pageKey va' ↔ va / pageSize % 2 ^ 27 = va' / pageSize % 2 ^ 27 := by
  simp only [pageKey, Prod.mk.injEq, Fin.ext_iff, vpn_val]
  show va / 1073741824 % 512 = va' / 1073741824 % 512 ∧ va / 2097152 % 512 = va' / 2097152 % 512 ∧
    va / 4096 % 512 = va' / 4096 % 512 ↔ va / 4096 % 134217728 = va' / 4096 % 134217728
  omega

/-- The arena looks at nothing else of an address. -/
theorem Arena.find_congr {a : Arena} {va va' : ℕ} (h : pageKey va = pageKey va') :
    a.find va = a.find va' := by
  simp only [pageKey, Prod.mk.injEq] at h
  unfold find
  rw [h.1, h.2.1, h.2.2]

theorem pageKey_eq_iff_of_lt {va va' : ℕ} (h : va < 2 ^ 39) (h' : va' < 2 ^ 39) :
    pageKey va = pageKey va' ↔ va / pageSize = va' / pageSize := by
  have hlt : va / pageSize < 2 ^ 27 := Nat.div_lt_of_lt_mul h
  have hlt' : va' / pageSize < 2 ^ 27 := Nat.div_lt_of_lt_mul h'
  rw [pageKey_eq_iff, Nat.mod_eq_of_lt hlt, Nat.mod_eq_of_lt hlt']

namespace Arena

/-- What a call with result `r` does to the lookups: it adds the page if it succeeds, and nothing
else. -/
structure Adds (a a' : Arena) (c : MapCall) (r : Except MapError Unit) : Prop where
  basePa : a'.basePa = a.basePa
  leaf : r = .ok () → ∃ e, Pte.leaf c.pa c.perms = .ok e
  find : ∀ va e, a'.find va = some e ↔ a.find va = some e ∨
    (r = .ok () ∧ pageKey c.va = pageKey va ∧ Pte.leaf c.pa c.perms = .ok e)

theorem Adds.of_same {c : MapCall} {err : MapError} (hbase : a'.basePa = a.basePa)
    (h : ∀ va, a'.find va = a.find va) : Adds a a' c (.error err) := by
  refine ⟨hbase, fun hr => ?_, fun va e => ?_⟩
  · cases hr
  · rw [h]
    constructor
    · exact Or.inl
    · rintro (he | ⟨hr, -⟩)
      · exact he
      · cases hr

/-- Storing the leaf in the table at the end of the path. -/
theorem Good.store (h : Good a level) {va cur : ℕ} {leaf : Pte} (hleaf : leaf.isLeaf = true)
    (hd : a.nodes.descend 0 [vpn va 2, vpn va 1] = some cur)
    (he : a.nodes cur (vpn va 0) = .empty) :
    Good (a.set cur (vpn va 0) leaf) level ∧ a.find va = none ∧
      ∀ v, (a.set cur (vpn va 0) leaf).find v =
        if pageKey va = pageKey v then some leaf else a.find v := by
  obtain ⟨hcur, hlev⟩ := h.tree.descend_level _ h.tree.pos hd
  have hlev0 : level cur = 0 := by
    rw [h.tree.root] at hlev
    simp only [List.length_cons, List.length_nil] at hlev
    omega
  have hs : Stores a.nodes (a.set cur (vpn va 0) leaf).nodes cur (vpn va 0) leaf := by
    refine ⟨he, ?_, ?_⟩
    · rw [nodes_set, if_pos ⟨rfl, rfl⟩]
      exact cell_leaf hleaf
    · intro i j hij
      rw [nodes_set, if_neg (not_and_or.mpr hij)]
  refine ⟨⟨hs.isTree h.tree hlev0, h.used_le, h.aligned, h.below⟩, ?_, ?_⟩
  · apply Option.eq_none_iff_forall_ne_some.mpr
    intro e hfind
    obtain ⟨m, hm, hc⟩ := Nodes.lookup_eq_some.mp hfind
    rw [hd] at hm
    cases hm
    rw [he] at hc
    cases hc
  · intro v
    rcases hs.lookup [vpn v 2, vpn v 1] 0 (vpn v 0) with ⟨hdv, h0, hl⟩ | ⟨hne, hl⟩
    · -- the table is reached along one path only
      have hpath : [vpn va 2, vpn va 1] = [vpn v 2, vpn v 1] :=
        h.tree.descend_inj h.tree.pos _ _ (by rfl) hd hdv
      simp only [List.cons.injEq, and_true] at hpath
      rw [if_pos ?_]
      · exact hl
      · unfold pageKey
        rw [hpath.1, hpath.2, h0]
    · rw [if_neg ?_]
      · exact hl
      · intro hkey
        simp only [pageKey, Prod.mk.injEq] at hkey
        obtain ⟨h2, h1, h0⟩ := hkey
        rw [h2, h1] at hd
        exact hne ⟨hd, h0.symm⟩

/-- A table of the last level has a valid entry only where a leaf was stored. -/
theorem Good.not_valid (h : Good a level) {va cur : ℕ}
    (hd : a.nodes.descend 0 [vpn va 2, vpn va 1] = some cur) (hnone : a.find va = none) :
    (⟨a.tables cur (vpn va 0)⟩ : Pte).isValid = false := by
  obtain ⟨hcur, hlev⟩ := h.tree.descend_level _ h.tree.pos hd
  rw [h.tree.root] at hlev
  simp only [List.length_cons, List.length_nil] at hlev
  cases hc : a.nodes cur (vpn va 0) with
  | empty => exact (cell_eq_empty hc).2
  | leaf e =>
    rw [find, Nodes.lookup_eq_some.mpr ⟨cur, hd, hc⟩] at hnone
    cases hnone
  | link m =>
    have := (h.tree.link _ _ _ hcur hc).2
    omega

/-- `map_page` on a tree: it does not panic, it keeps the tree, and it adds at most its page. It
does so for what a leaf can hold, if the page is free and two tables are left. -/
theorem mapPage_spec (h : Good a level) (c : MapCall) :
    ∃ a' r level', a.mapPage c.va c.pa c.perms = some (a', r) ∧ Good a' level' ∧
      Adds a a' c r ∧ (Encodable c.va c.pa c.perms → a.find c.va = none →
        a.used + 2 ≤ a.len → r = .ok ()) := by
  by_cases henc : Encodable c.va c.pa c.perms
  · obtain ⟨leaf, hleaf⟩ := henc.leaf
    obtain ⟨a₁, r, level', hd, hg, hgr, hok, hroom⟩ :=
      descend_spec c.va [2, 1] h h.tree.pos h.tree.root
    have hsame : ∀ va, a₁.find va = a.find va := fun va => hgr.lookup _ _ h.tree.pos
    simp only [mapPage, henc.va_aligned, henc.pa_aligned, hleaf, hd, Bool.not_true, Bool.or_self,
      Bool.false_eq_true, if_false, Option.bind_eq_bind, Option.bind_some]
    cases r with
    | error err =>
      refine ⟨a₁, _, level', rfl, hg, .of_same hgr.basePa hsame, fun _ _ hle => ?_⟩
      obtain ⟨n, hn⟩ := hroom hle
      cases hn
    | ok cur =>
      have hcur := hok cur rfl
      obtain ⟨hlt, -⟩ := hg.tree.descend_level _ hg.tree.pos hcur
      simp only [hg.entry hlt, Option.bind_some]
      cases hv : (⟨a₁.tables cur (vpn c.va 0)⟩ : Pte).isValid with
      | true =>
        refine ⟨a₁, _, level', rfl, hg, .of_same hgr.basePa hsame, fun _ hfree _ => ?_⟩
        rw [hg.not_valid hcur ((hsame _).trans hfree)] at hv
        cases hv
      | false =>
        obtain ⟨-, hrx, rfl⟩ := Pte.leaf_eq_ok hleaf
        obtain ⟨hg', hfree, hfind⟩ := hg.store (Pte.leaf_isLeaf hrx _) hcur (cell_empty hv)
        refine ⟨_, _, level', rfl, hg', ⟨hgr.basePa, fun _ => ⟨_, hleaf⟩, fun va e => ?_⟩,
          fun _ _ _ => rfl⟩
        rw [hfind, hsame, hleaf]
        by_cases hkey : pageKey c.va = pageKey va
        · have hnone : a.find va = none := by
            rw [← hsame, ← find_congr hkey]
            exact hfree
          simp [hkey, hnone]
        · simp [hkey]
  · obtain ⟨err, herr⟩ := a.mapPage_refused henc
    exact ⟨a, _, level, herr, h, .of_same rfl fun _ => rfl, fun he => absurd he henc⟩

/-- A root with only invalid entries holds no page. -/
theorem find_new {tables : ℕ → Table} (hroot : ∀ k, tables 0 k = 0) (len basePa va : ℕ) :
    (Arena.new tables len basePa).find va = none := by
  unfold Arena.find
  simp only [Nodes.lookup, nodes_new hroot]

/-- An empty arena with room for the two tables below the root takes whatever a leaf can hold. -/
theorem new_mapPage {tables : ℕ → Table} {len basePa : ℕ} (hlen : 3 ≤ len)
    (hroot : ∀ k, tables 0 k = 0) (hal : isPageAligned basePa = true)
    (hbelow : basePa + len * pageSize ≤ 2 ^ 56) {va pa : ℕ} {perms : Permissions}
    (henc : Encodable va pa perms) :
    ∃ a', (Arena.new tables len basePa).mapPage va pa perms = some (a', .ok ()) := by
  have hg := good_new (Nat.lt_of_lt_of_le (by decide) hlen) hroot hal hbelow
  obtain ⟨a', r, level', hcall, -, -, hok⟩ := mapPage_spec hg ⟨va, pa, perms⟩
  obtain rfl : r = .ok () := hok henc (find_new hroot len basePa va) hlen
  exact ⟨a', hcall⟩

/-! ## Sequences of calls -/

/-- The arena at `base` is a tree that holds the mappings of the calls with `P`, and no other. -/
structure Holds (a : Arena) (base : ℕ) (P : MapCall → Prop) : Prop where
  base : a.basePa = base
  good : ∃ level, Good a level
  leaf : ∀ c, P c → ∃ e, Pte.leaf c.pa c.perms = .ok e
  find : ∀ va e, a.find va = some e ↔
    ∃ c, P c ∧ pageKey c.va = pageKey va ∧ Pte.leaf c.pa c.perms = .ok e

namespace Holds

variable {base : ℕ} {P : MapCall → Prop}

theorem new {tables : ℕ → Table} {len basePa : ℕ} (hlen : 0 < len) (hroot : ∀ k, tables 0 k = 0)
    (hal : isPageAligned basePa = true) (hbelow : basePa + len * pageSize ≤ 2 ^ 56) :
    Holds (.new tables len basePa) basePa fun _ => False := by
  refine ⟨rfl, ⟨_, good_new hlen hroot hal hbelow⟩, fun _ h => h.elim, fun va e => ?_⟩
  simp [find_new hroot]

/-- The same mappings, described in another way. -/
theorem congr {Q : MapCall → Prop} (h : Holds a base P) (hPQ : ∀ c, P c ↔ Q c) :
    Holds a base Q := by
  obtain rfl : P = Q := funext fun c => propext (hPQ c)
  exact h

/-- A call adds its mapping if it succeeds. -/
theorem mapPage (h : Holds a base P) (c : MapCall) : ∃ a' r,
    a.mapPage c.va c.pa c.perms = some (a', r) ∧
      Holds a' base fun d => P d ∨ (r = .ok () ∧ d = c) := by
  obtain ⟨level, hg⟩ := h.good
  obtain ⟨a', r, level', hcall, hg', hadds, -⟩ := mapPage_spec hg c
  refine ⟨a', r, hcall, hadds.basePa.trans h.base, ⟨level', hg'⟩, ?_, ?_⟩
  · rintro d (hd | ⟨hr, rfl⟩)
    · exact h.leaf d hd
    · exact hadds.leaf hr
  · intro va e
    rw [hadds.find, h.find]
    constructor
    · rintro (⟨d, hd, hkey, he⟩ | ⟨hr, hkey, he⟩)
      · exact ⟨d, Or.inl hd, hkey, he⟩
      · exact ⟨c, Or.inr ⟨hr, rfl⟩, hkey, he⟩
    · rintro ⟨d, hd | ⟨hr, rfl⟩, hkey, he⟩
      · exact Or.inl ⟨d, hd, hkey, he⟩
      · exact Or.inr ⟨hr, hkey, he⟩

/-- After calls that all succeed, the arena holds all of them. -/
theorem mapAll (calls : List MapCall) : ∀ {a : Arena} {P : MapCall → Prop}, Holds a base P →
    ∀ {a'}, a.mapAll calls = some (a', .ok ()) → Holds a' base fun d => P d ∨ d ∈ calls := by
  induction calls with
  | nil =>
    intro a P h a' hm
    cases hm
    exact h.congr fun c => by simp
  | cons c cs ih =>
    intro a P h a' hm
    obtain ⟨a₁, r, hcall, hh⟩ := h.mapPage c
    simp only [Arena.mapAll, hcall, Option.bind_eq_bind, Option.bind_some] at hm
    cases r with
    | error err => cases hm
    | ok u =>
      refine (ih hh hm).congr fun d => ?_
      simp [or_assoc]

/-- After any calls, the arena holds those that succeeded. -/
theorem mapPages (calls : List MapCall) : ∀ {a : Arena} {P : MapCall → Prop}, Holds a base P →
    ∃ a' rs, a.mapPages calls = some (a', rs) ∧ rs.length = calls.length ∧
      Holds a' base fun d => P d ∨ (d, .ok ()) ∈ calls.zip rs := by
  induction calls with
  | nil =>
    intro a P h
    exact ⟨a, [], rfl, rfl, h.congr fun c => by simp⟩
  | cons c cs ih =>
    intro a P h
    obtain ⟨a₁, r, hcall, hh⟩ := h.mapPage c
    obtain ⟨a', rs, hcalls, hlen, hh'⟩ := ih hh
    refine ⟨a', r :: rs, ?_, ?_, hh'.congr fun d => ?_⟩
    · simp only [Arena.mapPages, hcall, hcalls, Option.bind_eq_bind, Option.bind_some]
    · rw [List.length_cons, List.length_cons, hlen]
    · simp only [List.zip_cons_cons, List.mem_cons, Prod.mk.injEq, or_assoc]
      refine or_congr_right (or_congr_left ?_)
      rw [and_comm, eq_comm (a := r)]

/-- `translate` ends, and gives what the mapping of the page says. -/
theorem translate (h : Holds a base P) (hpa : ∀ c, P c → c.pa < 2 ^ 56) (va : ℕ) :
    ∃ t, a.translate va = some t ∧ ∀ r, t = some r ↔ ∃ c, P c ∧ pageKey c.va = pageKey va ∧
      r = (c.pa + va % pageSize, { c.perms with device := false }) := by
  obtain ⟨level, hg⟩ := h.good
  refine ⟨_, hg.translate va, fun r => ?_⟩
  rw [Option.map_eq_some_iff]
  constructor
  · rintro ⟨e, he, rfl⟩
    obtain ⟨c, hc, hkey, hleaf⟩ := (h.find va e).mp he
    obtain ⟨hppn, hperms⟩ := Pte.leaf_decodes hleaf (hpa c hc)
    exact ⟨c, hc, hkey, by rw [hppn, hperms]⟩
  · rintro ⟨c, hc, hkey, rfl⟩
    obtain ⟨e, hleaf⟩ := h.leaf c hc
    obtain ⟨hppn, hperms⟩ := Pte.leaf_decodes hleaf (hpa c hc)
    exact ⟨e, (h.find va e).mpr ⟨c, hc, hkey, hleaf⟩, by rw [hppn, hperms]⟩

end Holds

/-! ## Walks stay among the tables in use -/

/-- The pointer entries met by the walk of `va`. -/
def pointers (a : Arena) (va : ℕ) : List ℕ → ℕ → List Pte
  | [], _ => []
  | level :: levels, cur =>
    match a.entry cur (vpn va level) with
    | none => []
    | some e =>
      if !e.isValid || e.isLeaf then []
      else e :: match a.tableIndexOf e with
        | none => []
        | some next => pointers a va levels next

/-- Every pointer met by a walk names a table in use. -/
theorem Good.pointers (h : Good a level) (va : ℕ) (levels : List ℕ) : ∀ {cur}, cur < a.used →
    ∀ e ∈ a.pointers va levels cur, ∃ m, a.tableIndexOf e = some m ∧ m < a.used := by
  induction levels with
  | nil =>
    intro cur _ e he
    cases he
  | cons l ls ih =>
    intro cur hcur e he
    unfold Arena.pointers at he
    rw [h.entry hcur] at he
    dsimp only at he
    cases hc : a.nodes cur (vpn va l) with
    | empty =>
      obtain ⟨-, hv⟩ := cell_eq_empty hc
      rw [hv] at he
      cases he
    | leaf e' =>
      obtain ⟨hl, -⟩ := cell_eq_leaf hc
      rw [hl, Bool.or_true] at he
      cases he
    | link m =>
      obtain ⟨hl, hv, -⟩ := cell_eq_link hc
      have hidx := h.tableIndexOf hcur hc
      have hm := (h.tree.link _ _ _ hcur hc).1
      rw [hl, hv, hidx] at he
      rcases List.mem_cons.mp he with rfl | he
      · exact ⟨m, hidx, hm⟩
      · exact ih hm e he

end Arena

/-! ## What the address space is -/

/-- What `translate` gives for `va` if the call maps its page. -/
def MapCall.Maps (c : MapCall) (va : ℕ) (r : ℕ × Permissions) : Prop :=
  va / pageSize = c.va / pageSize ∧
    r = (c.pa + va % pageSize, { c.perms with device := false })

namespace Arena

/-- The arena holds the mappings of the calls that succeeded, and nothing else: every walk ends and
stays among the tables in use, and one more call changes the translation of its own page at most,
and only if it succeeds. -/
structure MapsExactly (a : Arena) (calls : List MapCall) (rs : List (Except MapError Unit)) :
    Prop where
  length : rs.length = calls.length
  translate : ∀ va < 2 ^ 39, ∃ t, a.translate va = some t ∧
    ∀ r, t = some r ↔ ∃ c, (c, .ok ()) ∈ calls.zip rs ∧ c.Maps va r
  pointers : ∀ va < 2 ^ 39, ∀ e ∈ a.pointers va [2, 1, 0] 0,
    ∃ m, a.tableIndexOf e = some m ∧ m < a.used
  further : ∀ c : MapCall, c.va < 2 ^ 39 → c.pa < 2 ^ 56 →
    ∃ a' r, a.mapPage c.va c.pa c.perms = some (a', r) ∧ ∀ va < 2 ^ 39,
      r ≠ .ok () ∨ va / pageSize ≠ c.va / pageSize → a'.translate va = a.translate va

/-- The arena implements the partial map from pages to frames that its successful calls
describe. -/
theorem mapPages_mapsExactly {tables : ℕ → Table} {len basePa : ℕ} (hlen : 0 < len)
    (hroot : ∀ k, tables 0 k = 0) (hal : isPageAligned basePa = true)
    (hbelow : basePa + len * pageSize ≤ 2 ^ 56) (calls : List MapCall)
    (hcalls : ∀ c ∈ calls, c.va < 2 ^ 39 ∧ c.pa < 2 ^ 56) :
    ∃ a rs, (Arena.new tables len basePa).mapPages calls = some (a, rs) ∧
      a.MapsExactly calls rs := by
  obtain ⟨a, rs, hmap, hlength, hh⟩ := (Holds.new hlen hroot hal hbelow).mapPages calls
  have hok : Holds a basePa fun c => (c, .ok ()) ∈ calls.zip rs := hh.congr fun c => by simp
  have hmem : ∀ c, (c, .ok ()) ∈ calls.zip rs → c.va < 2 ^ 39 ∧ c.pa < 2 ^ 56 :=
    fun c hc => hcalls c (List.of_mem_zip hc).1
  obtain ⟨level, hg⟩ := hh.good
  refine ⟨a, rs, hmap, hlength, ?_, ?_, ?_⟩
  · intro va hva
    obtain ⟨t, ht, hiff⟩ := hok.translate (fun c hc => (hmem c hc).2) va
    refine ⟨t, ht, fun r => (hiff r).trans (exists_congr fun c => and_congr_right fun hc => ?_)⟩
    rw [pageKey_eq_iff_of_lt (hmem c hc).1 hva, eq_comm]
    rfl
  · intro va _ e he
    exact hg.pointers va _ hg.tree.pos e he
  · intro c hva hpa
    obtain ⟨a', r, level', hcall, hg', hadds, -⟩ := mapPage_spec hg c
    refine ⟨a', r, hcall, ?_⟩
    intro va hva' hne
    have hsame : a'.find va = a.find va := by
      apply Option.ext
      intro e
      rw [hadds.find]
      constructor
      · rintro (he | ⟨hr, hkey, -⟩)
        · exact he
        · rcases hne with hne | hne
          · exact absurd hr hne
          · exact absurd ((pageKey_eq_iff_of_lt hva hva').mp hkey).symm hne
      · exact Or.inl
    rw [hg'.translate, hg.translate, hsame]

/-- Two pages of one table, then a page that is mapped already and one that is misaligned, in an
arena of three tables. -/
theorem mapPages_mapsExactly_sample : ∃ a rs,
    (Arena.new (fun _ _ => 0) 3 0x80200000).mapPages
      [⟨0x4000, 0x9000, .kernelRw⟩, ⟨0x5000, 0xa000, .userRw⟩, ⟨0x4000, 0xb000, .userRw⟩,
        ⟨0x6001, 0xb000, .userRw⟩] = some (a, rs) ∧
      a.MapsExactly [⟨0x4000, 0x9000, .kernelRw⟩, ⟨0x5000, 0xa000, .userRw⟩,
        ⟨0x4000, 0xb000, .userRw⟩, ⟨0x6001, 0xb000, .userRw⟩] rs :=
  mapPages_mapsExactly (by decide) (fun _ => rfl) (by decide) (by decide) _ (by decide)

end Arena

end AxiomRT.Paging
