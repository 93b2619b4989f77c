import AxiomRT.Paging.Proofs.ArenaProofs

/-!
# What the hardware can represent

The arena looks at 27 bits of a virtual page number and stores what it is given as physical page
number. Addresses outside of the Sv39 range are therefore mapped as if they were inside, and a page
inside answers for its aliases outside.
-/

namespace AxiomRT.Paging

open AxiomRT.Lib

/-- A canonical Sv39 address: the bits 63 to 39 of the 64-bit word equal bit 38. -/
def Canonical (va : ℕ) : Prop := va / 2 ^ 38 = 0 ∨ va / 2 ^ 38 = 2 ^ 26 - 1

instance (va : ℕ) : Decidable (Canonical va) := inferInstanceAs (Decidable (_ ∨ _))

/-- Among canonical addresses the walk tells all pages apart. -/
theorem Canonical.page_eq {va va' : ℕ} (h : Canonical va) (h' : Canonical va')
    (hkey : pageKey va = pageKey va') : va / pageSize = va' / pageSize := by
  have hmod : va / 4096 % 134217728 = va' / 4096 % 134217728 := pageKey_eq_iff.mp hkey
  unfold Canonical at h h'
  show va / 4096 = va' / 4096
  omega

/-- The addresses of a page are canonical together. -/
theorem Canonical.of_page_eq {va va' : ℕ} (h : Canonical va)
    (hpage : va / pageSize = va' / pageSize) : Canonical va' := by
  have heq : va / 4096 = va' / 4096 := hpage
  unfold Canonical at h ⊢
  omega

/-- A canonical address shares its path with an address that is not: bit 39 turned over. -/
theorem Canonical.exists_alias {va : ℕ} (h : Canonical va) :
    ∃ va', va' < 2 ^ 64 ∧ pageKey va' = pageKey va ∧ ¬ Canonical va' := by
  have hkey : ∀ va', va' / 4096 % 134217728 = va / 4096 % 134217728 → pageKey va' = pageKey va :=
    fun va' heq => pageKey_eq_iff.mpr heq
  unfold Canonical at h ⊢
  rcases h with h | h
  · exact ⟨va + 2 ^ 39, by omega, hkey _ (by omega), by omega⟩
  · exact ⟨va - 2 ^ 39, by omega, hkey _ (by omega), by omega⟩

namespace Pte

/-- A leaf for a page of physical memory leaves the bits from 54 on zero. -/
theorem leaf_reserved {pa : ℕ} {perms : Permissions} {e : Pte} (h : leaf pa perms = .ok e)
    (hpa : pa < 2 ^ 56) : e.bits >>> 54 = 0 := by
  obtain ⟨-, -, rfl⟩ := leaf_eq_ok h
  have hflags : leafFlags perms < 2 ^ 54 := Nat.lt_trans (leafFlags_lt perms) (by decide)
  have hppn : ppnField pa < 2 ^ 54 := by
    unfold ppnField
    rw [Nat.shiftLeft_eq, Nat.shiftRight_eq_div_pow]
    omega
  exact Nat.shiftRight_eq_zero _ _ (Nat.or_lt_two_pow hflags hppn)

end Pte

namespace Arena

variable {a : Arena}

/-- The walk ends at the leaf the tree holds. -/
theorem Good.leafAt {level : ℕ → ℕ} (h : Good a level) {va : ℕ} {e : Pte}
    (he : a.find va = some e) : a.leafAt va = some e := by
  obtain ⟨cur, hd, hc⟩ := Nodes.lookup_eq_some.mp he
  obtain ⟨hcur, -⟩ := h.tree.descend_level _ h.tree.pos hd
  obtain ⟨-, rfl⟩ := cell_eq_leaf hc
  have hwalk := h.walk va [2, 1] h.tree.pos
  rw [List.map_cons, List.map_cons, List.map_nil, hd] at hwalk
  simp only [Arena.leafAt, hwalk, Option.bind_eq_bind, Option.bind_some, h.entry hcur]

/-! ## Acceptance -/

theorem alloc_len {a' : Arena} {next : ℕ} (h : a.alloc = some (a', next)) : a'.len = a.len := by
  unfold alloc at h
  split_ifs at h
  cases h
  rfl

theorem descend_len (va : ℕ) (levels : List ℕ) : ∀ {a a' : Arena} {cur : ℕ} {r : Except MapError ℕ},
    descend va levels a cur = some (a', r) → a'.len = a.len := by
  induction levels with
  | nil =>
    intro a a' cur r h
    cases h
    rfl
  | cons l ls ih =>
    intro a a' cur r h
    simp only [descend, Option.bind_eq_bind, Option.bind_eq_some_iff] at h
    obtain ⟨e, -, h⟩ := h
    split_ifs at h
    · cases h
      rfl
    · obtain ⟨next, -, h⟩ := Option.bind_eq_some_iff.mp h
      exact ih h
    · cases hb : a.alloc with
      | none =>
        rw [hb] at h
        cases h
        rfl
      | some p =>
        obtain ⟨b, next⟩ := p
        simp only [hb] at h
        cases hptr : Pte.pointer (b.paOf next) with
        | error err =>
          rw [hptr] at h
          cases h
          exact alloc_len hb
        | ok ptr =>
          rw [hptr] at h
          have hlen : a'.len = b.len := @ih (b.set cur (vpn va l) ptr) a' next r h
          exact hlen.trans (alloc_len hb)

/-- A call leaves the arena its tables. -/
theorem mapPage_len {a' : Arena} {va pa : ℕ} {perms : Permissions} {r : Except MapError Unit}
    (h : a.mapPage va pa perms = some (a', r)) : a'.len = a.len := by
  unfold mapPage at h
  split at h
  · cases h
    rfl
  · cases hleaf : Pte.leaf pa perms with
    | error err =>
      rw [hleaf] at h
      cases h
      rfl
    | ok leaf =>
      simp only [hleaf, Option.bind_eq_bind, Option.bind_eq_some_iff] at h
      obtain ⟨⟨a₁, r₁⟩, hd, h⟩ := h
      have hlen := descend_len va _ hd
      cases r₁ with
      | error err =>
        cases h
        exact hlen
      | ok cur =>
        obtain ⟨e, -, h⟩ := Option.bind_eq_some_iff.mp h
        split_ifs at h
        · cases h
          exact hlen
        · cases h
          exact hlen

/-- The calls that are accepted are among those that a leaf can hold. -/
theorem mapPages_accepted (calls : List MapCall) :
    ∀ {a a' : Arena} {rs : List (Except MapError Unit)},
    a.mapPages calls = some (a', rs) → a'.len = a.len ∧
      ∀ c, (c, .ok ()) ∈ calls.zip rs → Encodable c.va c.pa c.perms := by
  induction calls with
  | nil =>
    intro a a' rs h
    cases h
    exact ⟨rfl, fun c hc => by cases hc⟩
  | cons d ds ih =>
    intro a a' rs h
    simp only [mapPages, Option.bind_eq_bind, Option.bind_eq_some_iff] at h
    obtain ⟨⟨a₁, r⟩, hcall, ⟨a₂, rs'⟩, hcalls, h⟩ := h
    cases h
    obtain ⟨hlen, hrest⟩ := ih hcalls
    refine ⟨hlen.trans (mapPage_len hcall), fun c hc => ?_⟩
    rw [List.zip_cons_cons] at hc
    rcases List.mem_cons.mp hc with heq | hc
    · obtain ⟨rfl, rfl⟩ := Prod.mk.inj heq
      by_contra henc
      obtain ⟨err, herr⟩ := a.mapPage_refused henc
      rw [herr] at hcall
      cases hcall
    · exact hrest c hc

/-- The first call of a sequence that a leaf can hold is accepted, if there is room for two tables
below the root: those before it leave the arena empty. -/
theorem mapPages_accepts {tables : ℕ → Table} {len basePa : ℕ} (hlen : 3 ≤ len)
    (hroot : ∀ k, tables 0 k = 0) (hal : isPageAligned basePa = true)
    (hbelow : basePa + len * pageSize ≤ 2 ^ 56) (calls : List MapCall) :
    ∀ {a : Arena} {rs : List (Except MapError Unit)},
      (Arena.new tables len basePa).mapPages calls = some (a, rs) →
      (∃ c ∈ calls, Encodable c.va c.pa c.perms) → ∃ c, (c, .ok ()) ∈ calls.zip rs := by
  induction calls with
  | nil =>
    rintro a rs - ⟨c, hc, -⟩
    cases hc
  | cons d ds ih =>
    rintro a rs h ⟨c, hc, henc⟩
    simp only [mapPages, Option.bind_eq_bind, Option.bind_eq_some_iff] at h
    obtain ⟨⟨a₁, r⟩, hcall, ⟨a₂, rs'⟩, hcalls, h⟩ := h
    cases h
    by_cases hd : Encodable d.va d.pa d.perms
    · obtain ⟨a', hok⟩ := new_mapPage hlen hroot hal hbelow hd
      rw [hok] at hcall
      cases hcall
      exact ⟨d, List.mem_cons_self ..⟩
    · obtain ⟨err, herr⟩ := (Arena.new tables len basePa).mapPage_refused hd
      rw [herr] at hcall
      cases hcall
      have hmem : c ∈ ds := by
        rcases List.mem_cons.mp hc with rfl | hmem
        · exact absurd henc hd
        · exact hmem
      obtain ⟨c', hc'⟩ := ih hcalls ⟨c, hmem, henc⟩
      exact ⟨c', List.mem_cons_of_mem _ hc'⟩

/-- A page is held by three different tables, one for each level. -/
theorem Good.three_le {level : ℕ → ℕ} (h : Good a level) {va : ℕ} {e : Pte}
    (he : a.find va = some e) : 3 ≤ a.used := by
  obtain ⟨cur, hd, -⟩ := Nodes.lookup_eq_some.mp he
  obtain ⟨m, hm, hlink⟩ := (Nodes.descend_append ..).mp
    (show a.nodes.descend 0 ([vpn va 2] ++ [vpn va 1]) = some cur from hd)
  obtain ⟨hmu, hmlev⟩ := h.tree.descend_level _ h.tree.pos hm
  obtain ⟨hcu, hclev⟩ := h.tree.descend_level _ h.tree.pos hd
  rw [h.tree.root] at hmlev hclev
  simp only [List.length_cons, List.length_nil] at hmlev hclev
  have hm₀ : m ≠ 0 := by
    rintro rfl
    rw [h.tree.root] at hmlev
    omega
  have hc₀ : cur ≠ 0 := by
    rintro rfl
    rw [h.tree.root] at hclev
    omega
  have hcm : cur ≠ m := by
    rintro rfl
    omega
  omega

/-! ## Representation -/

/-- The accepted calls are represented as they were made: at canonical addresses, by leaves without
reserved bits that decode to the frame and the permissions, and for no other of these pages. -/
structure Representable (a : Arena) (pages : ℕ → Prop) (accepted : MapCall → Prop) : Prop where
  canonical : ∀ c, accepted c → Canonical c.va
  leaf : ∀ c, accepted c → ∃ e, a.leafAt c.va = some e ∧ e.bits >>> 54 = 0 ∧
    e.ppn * pageSize = c.pa ∧ e.readable = c.perms.read ∧ e.writable = c.perms.write ∧
    e.executable = c.perms.execute ∧ e.isUser = c.perms.user
  answers : ∀ c, accepted c → ∃ r, a.translate c.va = some (some r)
  silent : ∀ va, pages va → (∀ c, accepted c → c.va / pageSize ≠ va / pageSize) →
    a.translate va = some none

/-- An arena is silent for an address whose path it holds for no call. -/
theorem Holds.translate_none {base va : ℕ} {P : MapCall → Prop} (h : Holds a base P)
    (hnew : ∀ c, P c → pageKey c.va ≠ pageKey va) : a.translate va = some none := by
  obtain ⟨level, hg⟩ := h.good
  have hnone : a.find va = none := by
    apply Option.eq_none_iff_forall_ne_some.mpr
    intro e he
    obtain ⟨c, hc, hkey, -⟩ := (h.find va e).mp he
    exact hnew c hc hkey
  rw [hg.translate, hnone, Option.map_none]

/-- At canonical addresses and for physical memory the accepted calls are represented, as far as
other canonical pages go. -/
theorem Holds.representable {base : ℕ} {P : MapCall → Prop} (h : Holds a base P)
    (hP : ∀ c, P c → Canonical c.va ∧ c.pa < 2 ^ 56) : Representable a Canonical P := by
  obtain ⟨level, hg⟩ := h.good
  have hfind : ∀ c, P c → ∃ e, Pte.leaf c.pa c.perms = .ok e ∧ a.find c.va = some e := by
    intro c hc
    obtain ⟨e, he⟩ := h.leaf c hc
    exact ⟨e, he, (h.find c.va e).mpr ⟨c, hc, rfl, he⟩⟩
  refine ⟨fun c hc => (hP c hc).1, fun c hc => ?_, fun c hc => ?_, fun va hva hnew => ?_⟩
  · obtain ⟨e, he, hat⟩ := hfind c hc
    obtain ⟨hppn, hperms⟩ := Pte.leaf_decodes he (hP c hc).2
    refine ⟨e, hg.leafAt hat, Pte.leaf_reserved he (hP c hc).2, hppn, ?_, ?_, ?_, ?_⟩
    · exact congrArg Permissions.read hperms
    · exact congrArg Permissions.write hperms
    · exact congrArg Permissions.execute hperms
    · exact congrArg Permissions.user hperms
  · obtain ⟨e, -, hat⟩ := hfind c hc
    exact ⟨_, by rw [hg.translate, hat, Option.map_some]⟩
  · exact h.translate_none fun c hc hkey => hnew c hc ((hP c hc).1.page_eq hva hkey)

/-- An arena that holds nothing is silent for all addresses. -/
theorem Holds.representable_none {base : ℕ} {P : MapCall → Prop} (h : Holds a base P)
    (hP : ∀ c, ¬ P c) : Representable a (· < 2 ^ 64) P :=
  ⟨fun c hc => absurd hc (hP c), fun c hc => absurd hc (hP c), fun c hc => absurd hc (hP c),
    fun _ _ _ => h.translate_none fun c hc => absurd hc (hP c)⟩

/-- An arena that holds a page answers for its aliases, which were never mapped. -/
theorem Good.not_representable {level : ℕ → ℕ} (h : Good a level) {P : MapCall → Prop}
    (hr : Representable a (· < 2 ^ 64) P) (c : MapCall) : ¬ P c := by
  intro hc
  obtain ⟨va, hlt, hkey, hva⟩ := (hr.canonical c hc).exists_alias
  have hnew : ∀ d, P d → d.va / pageSize ≠ va / pageSize := by
    intro d hd hpage
    exact hva ((hr.canonical d hd).of_page_eq hpage)
  have hsilent := hr.silent va hlt hnew
  obtain ⟨r, hanswer⟩ := hr.answers c hc
  rw [h.translate, find_congr hkey] at hsilent
  rw [h.translate] at hanswer
  cases hf : a.find c.va with
  | none =>
    rw [hf] at hanswer
    cases hanswer
  | some e =>
    rw [hf] at hsilent
    cases hsilent

/-- What the arena accepts is never represented as it was asked for, among all 64-bit addresses: the
property holds exactly if nothing is accepted, because an arena of less than three tables has no
room for a page or because no leaf can hold what is asked for. If all calls are at canonical virtual
and below 2^56 at physical addresses, which the arena does not check, then only the aliases of the
pages stand against it. -/
theorem mapPages_representable_iff {tables : ℕ → Table} {len basePa : ℕ} (hlen : 0 < len)
    (hroot : ∀ k, tables 0 k = 0) (hal : isPageAligned basePa = true)
    (hbelow : basePa + len * pageSize ≤ 2 ^ 56) (calls : List MapCall) :
    ∃ a rs, (Arena.new tables len basePa).mapPages calls = some (a, rs) ∧
      (a.Representable (· < 2 ^ 64) (fun c => (c, .ok ()) ∈ calls.zip rs) ↔
        len < 3 ∨ ∀ c ∈ calls, ¬ Encodable c.va c.pa c.perms) ∧
      ((∀ c ∈ calls, Canonical c.va ∧ c.pa < 2 ^ 56) →
        a.Representable Canonical fun c => (c, .ok ()) ∈ calls.zip rs) := by
  obtain ⟨a, rs, hmap, -, hh⟩ := (Holds.new hlen hroot hal hbelow).mapPages calls
  have hok : Holds a basePa fun c => (c, .ok ()) ∈ calls.zip rs := hh.congr fun c => by simp
  obtain ⟨level, hg⟩ := hok.good
  refine ⟨a, rs, hmap, ⟨fun hr => ?_, fun hnone => hok.representable_none fun c hc => ?_⟩, ?_⟩
  · by_contra hsome
    obtain ⟨hle, hcall⟩ := not_or.mp hsome
    simp only [not_forall, not_not] at hcall
    obtain ⟨c, hc, henc⟩ := hcall
    obtain ⟨d, hd⟩ := mapPages_accepts (Nat.not_lt.mp hle) hroot hal hbelow calls hmap ⟨c, hc, henc⟩
    exact hg.not_representable hr d hd
  · obtain ⟨hlena, hencs⟩ := mapPages_accepted calls hmap
    rcases hnone with hsmall | hrefused
    · -- a page takes three tables
      obtain ⟨e, he⟩ := hok.leaf c hc
      have hthree := hg.three_le ((hok.find c.va e).mpr ⟨c, hc, rfl, he⟩)
      have hused := hg.used_le
      rw [hlena] at hused
      exact absurd (hthree.trans hused) (Nat.not_le.mpr hsmall)
    · exact hrefused c (List.of_mem_zip hc).1 (hencs c hc)
  · intro hcalls
    exact hok.representable fun c hc => hcalls c (List.of_mem_zip hc).1

/-- A misaligned page in an arena of three tables is refused, and nothing answers. A page at a
canonical address is represented as far as other canonical pages go, but not among all 64-bit
addresses. -/
theorem mapPages_representable_sample :
    (∃ a rs, (Arena.new (fun _ _ => 0) 3 0x80200000).mapPages [⟨0x4001, 0x9000, .kernelRw⟩] =
        some (a, rs) ∧
      a.Representable (· < 2 ^ 64)
        fun c => (c, .ok ()) ∈ [(⟨0x4001, 0x9000, .kernelRw⟩ : MapCall)].zip rs) ∧
    ∃ a rs, (Arena.new (fun _ _ => 0) 3 0x80200000).mapPages
        [⟨0xffffffc000004000, 0x9000, .kernelRw⟩] = some (a, rs) ∧
      a.Representable Canonical
        (fun c => (c, .ok ()) ∈ [(⟨0xffffffc000004000, 0x9000, .kernelRw⟩ : MapCall)].zip rs) ∧
      ¬ a.Representable (· < 2 ^ 64)
        fun c => (c, .ok ()) ∈ [(⟨0xffffffc000004000, 0x9000, .kernelRw⟩ : MapCall)].zip rs := by
  constructor
  · obtain ⟨a, rs, hmap, hiff, -⟩ := @mapPages_representable_iff (fun _ _ => 0) 3 0x80200000
      (by decide) (fun _ => rfl) (by decide) (by decide) [⟨0x4001, 0x9000, .kernelRw⟩]
    refine ⟨a, rs, hmap, hiff.mpr (Or.inr fun c hc henc => ?_)⟩
    obtain rfl := List.mem_singleton.mp hc
    exact absurd henc.va_aligned (by decide)
  · obtain ⟨a, rs, hmap, hiff, hcanonical⟩ := @mapPages_representable_iff (fun _ _ => 0) 3
      0x80200000 (by decide) (fun _ => rfl) (by decide) (by decide)
      [⟨0xffffffc000004000, 0x9000, .kernelRw⟩]
    refine ⟨a, rs, hmap, hcanonical (by decide), fun hr => ?_⟩
    rcases hiff.mp hr with hsmall | hrefused
    · exact absurd hsmall (by decide)
    · exact hrefused _ (List.mem_singleton_self _)
        ⟨by decide, by decide, by decide, by decide, by decide, by decide⟩

/-- A page at bit 39 is accepted and answers for page zero, which was never mapped. A frame at bit
56 is accepted, its leaf has bit 54 set, and it decodes to the frame at zero. A page that the
hardware has is accepted and answers at bit 39 as well, where nothing was mapped. -/
theorem mapPage_unrepresentable :
    (∃ a, (Arena.new (fun _ _ => 0) 3 0x80200000).mapPage (2 ^ 39) 0x9000 .userRw =
        some (a, .ok ()) ∧ ¬ Canonical (2 ^ 39) ∧
      a.translate 0 = some (some (0x9000, .userRw))) ∧
    (∃ a, (Arena.new (fun _ _ => 0) 3 0x80200000).mapPage 0x4000 (2 ^ 56) .userRw =
        some (a, .ok ()) ∧
      (a.leafAt 0x4000).map (fun e => (e.bits >>> 54, e.ppn)) = some (1, 0)) ∧
    ∃ a, (Arena.new (fun _ _ => 0) 3 0x80200000).mapPage 0x4000 0x9000 .userRw =
        some (a, .ok ()) ∧
      a.translate (2 ^ 39 + 0x4000) = some (some (0x9000, .userRw)) :=
  ⟨⟨_, rfl, by decide, by decide +kernel⟩, ⟨_, rfl, by decide +kernel⟩,
    ⟨_, rfl, by decide +kernel⟩⟩

end Arena

end AxiomRT.Paging
