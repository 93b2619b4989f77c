import Mathlib.Data.Set.Card
import AxiomRT.Memory.Proofs.PageTableProofs

/-!
# Proofs: map and unmap undo each other

A refused call leaves no trace. A page that is mapped goes into the first free slot, and since no
other slot covers it, `unmap` finds that slot again and leaves the table as it was.
-/

namespace AxiomRT.Memory

open Lib
open Paging (Permissions isPageAligned pageSize)

namespace PageTable

variable {t t' : PageTable} {s : Fin maxMappings} {m : Mapping} {vpage : ℕ} {f f' : PhysicalFrame}
  {perms : Permissions}

/-- No page is covered by two entries, and entries stand for whole pages. -/
structure Distinct (t : PageTable) : Prop where
  aligned : ∀ s m, t.entries s = some m → pageBase m.vpage = m.vpage
  unique : ∀ s s' m m', t.entries s = some m → t.entries s' = some m' → m.vpage = m'.vpage → s = s'

theorem distinct_new (owner : AddressSpaceId) : Distinct (new owner) :=
  ⟨fun _ _ h => (by cases h), fun _ _ _ _ h => (by cases h)⟩

theorem entries_set_self {e : Option Mapping} : (t.set s e).entries s = e := Function.update_self ..

theorem entries_set_of_ne {s' : Fin maxMappings} {e : Option Mapping} (h : s' ≠ s) :
    (t.set s e).entries s' = t.entries s' := Function.update_of_ne h ..

/-- An entry of the changed table is the new one or an old one. -/
theorem entries_set {s' : Fin maxMappings} {e : Option Mapping}
    (h : (t.set s e).entries s' = some m) :
    (s' = s ∧ e = some m) ∨ (s' ≠ s ∧ t.entries s' = some m) := by
  by_cases hs : s' = s
  · subst hs
    rw [entries_set_self] at h
    exact Or.inl ⟨rfl, h⟩
  · rw [entries_set_of_ne hs] at h
    exact Or.inr ⟨hs, h⟩

/-- Writing a free slot and clearing it again. -/
theorem set_set_none {e : Option Mapping} (h : t.entries s = none) :
    (t.set s e).set s none = t := by
  unfold set
  rw [Function.update_idem, ← h, Function.update_eq_self]

theorem Distinct.clear (h : Distinct t) : Distinct (t.set s none) := by
  have hold : ∀ {s' m}, (t.set s none).entries s' = some m → t.entries s' = some m := by
    intro s' m hm
    rcases entries_set hm with ⟨-, hn⟩ | ⟨-, hm⟩
    · cases hn
    · exact hm
  exact ⟨fun s' m hm => h.aligned s' m (hold hm),
    fun s₁ s₂ m₁ m₂ h₁ h₂ => h.unique s₁ s₂ m₁ m₂ (hold h₁) (hold h₂)⟩

theorem Distinct.fill (h : Distinct t) (hal : pageBase m.vpage = m.vpage)
    (hnew : ∀ s' m', t.entries s' = some m' → m'.vpage ≠ m.vpage) :
    Distinct (t.set s (some m)) := by
  refine ⟨fun s' m' hm => ?_, fun s₁ s₂ m₁ m₂ h₁ h₂ hv => ?_⟩
  · rcases entries_set hm with ⟨-, he⟩ | ⟨-, hm⟩
    · cases he
      exact hal
    · exact h.aligned s' m' hm
  · rcases entries_set h₁ with ⟨hs₁, he₁⟩ | ⟨-, hold₁⟩ <;>
      rcases entries_set h₂ with ⟨hs₂, he₂⟩ | ⟨-, hold₂⟩
    · exact hs₁.trans hs₂.symm
    · cases he₁
      exact absurd hv.symm (hnew s₂ m₂ hold₂)
    · cases he₂
      exact absurd hv (hnew s₁ m₁ hold₁)
    · exact h.unique s₁ s₂ m₁ m₂ hold₁ hold₂ hv

/-- No call panics, and every call keeps the entries distinct. -/
theorem Distinct.call (h : Distinct t) (c : TableCall) : ∃ t', t.call c = .ok t' ∧ Distinct t' := by
  cases c with
  | map vpage f perms =>
    rcases map_cases t vpage f perms with ⟨e, he⟩ | ⟨hadm, -, -, hpage, s, -, hmap⟩
    · exact ⟨t, by rw [PageTable.call, he]; rfl, h⟩
    · have hal : pageBase vpage = vpage := pageBase_of_aligned hadm.vpage_aligned
      rw [hal] at hpage
      exact ⟨_, by rw [PageTable.call, hmap]; rfl, h.fill hal hpage⟩
  | unmap vpage f =>
    rcases unmap_cases t vpage f with ⟨e, he⟩ | ⟨s, m, -, -, -, hun⟩
    · exact ⟨t, by rw [PageTable.call, he], h⟩
    · exact ⟨_, by rw [PageTable.call, hun], h.clear⟩

/-! ## Lookups -/

/-- The slot found for a page is the one whose entry covers it. -/
theorem Distinct.slotOf (h : Distinct t) (hm : t.entries s = some m)
    (hv : m.vpage = pageBase vpage) : t.slotOf vpage = some s := by
  have hsome : (t.slotOf vpage).isSome = true :=
    Fin.isSome_find?_iff.mpr ⟨s, covers_iff.mpr ⟨m, hm, hv⟩⟩
  obtain ⟨s', hs'⟩ := Option.isSome_iff_exists.mp hsome
  obtain ⟨m', hm', hv'⟩ := covers_iff.mp (Fin.find?_eq_some_iff.mp hs').1
  rw [hs', h.unique s' s m' m hm' hm (hv'.trans hv.symm)]

theorem Distinct.lookup_iff (h : Distinct t) :
    t.lookup vpage = some m ↔ ∃ s, t.entries s = some m ∧ m.vpage = pageBase vpage := by
  constructor
  · intro hl
    obtain ⟨s, hs, hm⟩ := Option.bind_eq_some_iff.mp hl
    obtain ⟨m', hm', hv⟩ := covers_iff.mp (Fin.find?_eq_some_iff.mp hs).1
    obtain rfl : m' = m := Option.some.inj (hm'.symm.trans hm)
    exact ⟨s, hm, hv⟩
  · rintro ⟨s, hm, hv⟩
    rw [lookup, h.slotOf hm hv, Option.bind_some, hm]

/-- Mapping a page changes its own lookup only. -/
theorem Distinct.lookup_fill (h : Distinct t) (hfree : t.entries s = none)
    (hal : pageBase m.vpage = m.vpage)
    (hnew : ∀ s' m', t.entries s' = some m' → m'.vpage ≠ m.vpage) (v : ℕ) :
    (t.set s (some m)).lookup v = if pageBase v = m.vpage then some m else t.lookup v := by
  apply Option.ext
  intro m'
  rw [(h.fill hal hnew).lookup_iff]
  by_cases hv : pageBase v = m.vpage
  · rw [if_pos hv]
    constructor
    · rintro ⟨s', hm', hv'⟩
      rcases entries_set hm' with ⟨-, he⟩ | ⟨-, hm'⟩
      · exact he
      · exact absurd (hv'.trans hv) (hnew s' m' hm')
    · intro he
      cases he
      exact ⟨s, entries_set_self, hv.symm⟩
  · rw [if_neg hv, h.lookup_iff]
    constructor
    · rintro ⟨s', hm', hv'⟩
      rcases entries_set hm' with ⟨-, he⟩ | ⟨-, hm'⟩
      · cases he
        exact absurd hv'.symm hv
      · exact ⟨s', hm', hv'⟩
    · rintro ⟨s', hm', hv'⟩
      have hne : s' ≠ s := by
        rintro rfl
        rw [hfree] at hm'
        cases hm'
      exact ⟨s', by rw [entries_set_of_ne hne, hm'], hv'⟩

/-! ## The number of pages -/

/-- The pages that `lookup` finds. -/
def pages (t : PageTable) : Set ℕ := {p | pageBase p = p ∧ (t.lookup p).isSome = true}

theorem len_eq_card (t : PageTable) :
    t.len = (Finset.univ.filter fun s => (t.entries s).isSome = true).card := by
  have hnodup := (List.nodup_finRange maxMappings).filter fun s => (t.entries s).isSome
  rw [len, List.countP_eq_length_filter, ← List.toFinset_card_of_nodup hnodup]
  congr 1
  ext s
  simp

/-- Every entry counts for one page. -/
theorem Distinct.len_eq (h : Distinct t) : t.len = t.pages.ncard := by
  have hpage : ∀ s, (t.entries s).isSome = true → ∃ p ∈ t.pages, ∃ m, t.entries s = some m ∧
      m.vpage = p := by
    intro s hs
    obtain ⟨m, hm⟩ := Option.isSome_iff_exists.mp hs
    have hl : t.lookup m.vpage = some m := h.lookup_iff.mpr ⟨s, hm, (h.aligned s m hm).symm⟩
    exact ⟨m.vpage, ⟨h.aligned s m hm, by rw [hl]; rfl⟩, m, hm, rfl⟩
  rw [len_eq_card, ← Set.ncard_coe_finset]
  refine Set.ncard_congr (fun s _ => ((t.entries s).map Mapping.vpage).getD 0) ?_ ?_ ?_
  · intro s hs
    obtain ⟨p, hp, m, hm, rfl⟩ := hpage s (by simpa using hs)
    rw [hm]
    exact hp
  · intro s s' hs hs' heq
    obtain ⟨-, -, m, hm, -⟩ := hpage s (by simpa using hs)
    obtain ⟨-, -, m', hm', -⟩ := hpage s' (by simpa using hs')
    rw [hm, hm'] at heq
    exact h.unique s s' m m' hm hm' heq
  · rintro p ⟨hal, hp⟩
    obtain ⟨m, hm⟩ := Option.isSome_iff_exists.mp hp
    obtain ⟨s, hs, hv⟩ := h.lookup_iff.mp hm
    refine ⟨s, by simp [hs], ?_⟩
    rw [hs]
    exact hv.trans hal

/-! ## Atomic and inverse -/

/-- A refused call changes neither the table nor the frame. A page that is mapped was not mapped
before, no other lookup changes, and unmapping it gives back the table and the frame. -/
structure Reversible (t : PageTable) : Prop where
  total : ∀ vpage f perms, ∃ r, t.map vpage f perms = .ok r
  mapError : ∀ vpage f perms t' f' e, t.map vpage f perms = .ok (t', f', .error e) →
    t' = t ∧ f' = f
  unmapError : ∀ vpage f t' f' e, t.unmap vpage f = (t', f', .error e) → t' = t ∧ f' = f
  mapOk : ∀ vpage f perms t' f', t.map vpage f perms = .ok (t', f', .ok ()) →
    t.lookup vpage = none ∧ t'.lookup vpage = some ⟨vpage, f.base, perms⟩ ∧
      (∀ v, pageBase v ≠ pageBase vpage → t'.lookup v = t.lookup v) ∧
      t'.unmap vpage f' = (t, f, .ok ())
  len : t.len = t.pages.ncard

/-- Unmapping what was just mapped. -/
theorem unmap_fill (h : Distinct (t.set s (some m))) (hfree : t.entries s = none)
    (hv : m.vpage = pageBase vpage) (hf : m.frame = f.base) (hst : f.state = .allocated) :
    (t.set s (some m)).unmap vpage { f with state := .mapped } = (t, f, .ok ()) := by
  have hframe : ({ f with state := .allocated } : PhysicalFrame) = f := by rw [← hst]
  unfold unmap
  simp only [h.slotOf entries_set_self hv, entries_set_self, hf, ne_eq, not_true, if_false,
    PhysicalFrame.markUnmapped, set_set_none hfree, hframe]

theorem Distinct.reversible (h : Distinct t) : Reversible t := by
  refine ⟨fun vpage f perms => ?_, fun vpage f perms t' f' e hr => ?_,
    fun vpage f t' f' e hr => ?_, fun vpage f perms t' f' hr => ?_, h.len_eq⟩
  · rcases map_cases t vpage f perms with ⟨e, he⟩ | ⟨-, -, -, -, s, -, hmap⟩
    · exact ⟨_, he⟩
    · exact ⟨_, hmap⟩
  · rcases map_cases t vpage f perms with ⟨e', he⟩ | ⟨-, -, -, -, s, -, hmap⟩
    · rw [he] at hr
      cases hr
      exact ⟨rfl, rfl⟩
    · rw [hmap] at hr
      cases hr
  · rcases unmap_cases t vpage f with ⟨e', he⟩ | ⟨s, m, -, -, -, hun⟩
    · rw [he] at hr
      cases hr
      exact ⟨rfl, rfl⟩
    · rw [hun] at hr
      cases hr
  · rcases map_cases t vpage f perms with ⟨e', he⟩ | ⟨hadm, -, hst, hpage, s, hfree, hmap⟩
    · rw [he] at hr
      cases hr
    · rw [hmap] at hr
      cases hr
      have hal : pageBase vpage = vpage := pageBase_of_aligned hadm.vpage_aligned
      have hnew : ∀ s' m', t.entries s' = some m' → m'.vpage ≠ vpage := by
        rw [← hal]
        exact hpage
      have hlookup := h.lookup_fill (m := ⟨vpage, f.base, perms⟩) hfree hal hnew
      refine ⟨?_, ?_, fun v hv => ?_, ?_⟩
      · apply Option.eq_none_iff_forall_ne_some.mpr
        intro m hm
        obtain ⟨s', hs', hv⟩ := h.lookup_iff.mp hm
        exact hpage s' m hs' hv
      · rw [hlookup, if_pos hal]
      · rw [hlookup, if_neg (hal ▸ hv)]
      · exact unmap_fill (h.fill hal hnew) hfree hal.symm rfl hst

/-- Whatever is called on a new table, no call panics, and map and unmap are atomic and inverse on
the table it leaves. -/
theorem feed_reversible (owner : AddressSpaceId) (calls : List TableCall) :
    ∃ t, Execution.feed call (new owner) calls = .ok t ∧ Reversible t := by
  obtain ⟨t, ht, hd⟩ := Execution.feed_total (P := Distinct) (fun t c h => h.call c) calls
    (distinct_new owner)
  exact ⟨t, ht, hd.reversible⟩

end PageTable

end AxiomRT.Memory
