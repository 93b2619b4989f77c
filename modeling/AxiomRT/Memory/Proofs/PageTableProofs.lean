import Mathlib.Data.Fin.Tuple.Basic
import AxiomRT.Lib.Execution
import AxiomRT.Memory.PageTable

/-!
# Proofs: frame ownership and isolation

Whatever is called on the frames of a pool and on the tables over it, a mapped frame is mapped once
over all tables, into the address space that owns it.
-/

namespace AxiomRT.Memory

open Lib
open Paging (Permissions isPageAligned pageSize)

/-! ## The rules of a mapping -/

/-- What the stateless rules of `map` ask of a mapping. -/
structure Admits (vpage frame : ℕ) (perms : Permissions) : Prop where
  vpage_aligned : isPageAligned vpage = true
  frame_aligned : isPageAligned frame = true
  access : perms.read = true ∨ perms.write = true ∨ perms.execute = true
  wx : perms.user = true → ¬ (perms.write = true ∧ perms.execute = true)
  userDevice : perms.user = true → perms.device = false
  deviceExecute : ¬ (perms.device = true ∧ perms.execute = true)
  kernelFrame : perms.user = true → isKernel frame = false
  window : isUser vpage = perms.user

theorem pageBase_of_aligned {addr : ℕ} (h : isPageAligned addr = true) : pageBase addr = addr := by
  have h0 : addr % pageSize = 0 := eq_of_beq h
  rw [pageBase, h0, Nat.sub_zero]

/-- An address and its page lie on the same side of every page boundary. -/
theorem le_pageBase_iff {a b : ℕ} (hb : isPageAligned b = true) : b ≤ pageBase a ↔ b ≤ a := by
  have h0 : b % 4096 = 0 := eq_of_beq hb
  show b ≤ a - a % 4096 ↔ b ≤ a
  omega

theorem pageBase_lt_iff {a b : ℕ} (hb : isPageAligned b = true) : pageBase a < b ↔ a < b := by
  rw [← not_le, le_pageBase_iff hb, not_le]

/-- The user window is made of whole pages. -/
theorem isUser_pageBase (a : ℕ) : isUser (pageBase a) = isUser a := by
  have hstart : isPageAligned userRangeStart = true := by decide
  have hend : isPageAligned userRangeEnd = true := by decide
  simp only [isUser, le_pageBase_iff hstart, pageBase_lt_iff hend]

/-- The kernel range is made of whole frames. -/
theorem isKernel_pageBase (a : ℕ) : isKernel (pageBase a) = isKernel a := by
  have hstart : isPageAligned kernelRangeStart = true := by decide
  have hend : isPageAligned kernelRangeEnd = true := by decide
  simp only [isKernel, le_pageBase_iff hstart, pageBase_lt_iff hend]

namespace PageTable

variable {t : PageTable} {s : Fin maxMappings} {e : Option Mapping} {vpage frame : ℕ}
  {f : PhysicalFrame} {perms : Permissions}

theorem validatePerms_ok :
    validatePerms perms = .ok () ↔
      (perms.read = true ∨ perms.write = true ∨ perms.execute = true) ∧
      (perms.user = true → ¬ (perms.write = true ∧ perms.execute = true)) ∧
      (perms.user = true → perms.device = false) ∧
      ¬ (perms.device = true ∧ perms.execute = true) := by
  obtain ⟨r, w, x, u, d⟩ := perms
  revert r w x u d
  decide

theorem checkStateless_ok :
    checkStateless vpage frame perms = .ok () ↔ Admits vpage frame perms := by
  have hsplit : checkStateless vpage frame perms = .ok () ↔
      isPageAligned vpage = true ∧ isPageAligned frame = true ∧ validatePerms perms = .ok () ∧
      (perms.user = true → isKernel frame = false) ∧ isUser vpage = perms.user := by
    unfold checkStateless
    cases isPageAligned vpage <;> cases isPageAligned frame <;> cases validatePerms perms <;>
      cases perms.user <;> cases isKernel frame <;> cases isUser vpage <;>
      simp [throw, throwThe, MonadExceptOf.throw, bind, Except.bind, pure, Except.pure]
  rw [hsplit, validatePerms_ok]
  constructor
  · rintro ⟨hv, hf, ⟨ha, hw, hd, hx⟩, hk, hu⟩
    exact ⟨hv, hf, ha, hw, hd, hx, hk, hu⟩
  · rintro ⟨hv, hf, ha, hw, hd, hx, hk, hu⟩
    exact ⟨hv, hf, ⟨ha, hw, hd, hx⟩, hk, hu⟩

/-! ## What the calls on a table do -/

theorem covers_iff : covers vpage e = true ↔ ∃ m, e = some m ∧ m.vpage = pageBase vpage := by
  cases e with
  | none => simp [covers]
  | some m => simp [covers]

theorem lookup_isNone (h : ¬ (t.lookup vpage).isSome = true) {m : Mapping}
    (hm : t.entries s = some m) : m.vpage ≠ pageBase vpage := by
  intro hv
  apply h
  have hsome : (t.slotOf vpage).isSome = true :=
    Fin.isSome_find?_iff.mpr ⟨s, covers_iff.mpr ⟨m, hm, hv⟩⟩
  obtain ⟨s', hs'⟩ := Option.isSome_iff_exists.mp hsome
  obtain ⟨m', hm', -⟩ := covers_iff.mp (Fin.find?_eq_some_iff.mp hs').1
  rw [lookup, hs', Option.bind_some, hm']
  rfl

/-- A call of `map` is refused, or all its conditions hold and it fills a free slot. It never
panics. -/
theorem map_cases (t : PageTable) (vpage : ℕ) (f : PhysicalFrame) (perms : Permissions) :
    (∃ e, t.map vpage f perms = .ok (t, f, .error e)) ∨
    (Admits vpage f.base perms ∧ f.owner = t.ownerFor perms ∧ f.state = .allocated ∧
      (∀ s m, t.entries s = some m → m.vpage ≠ pageBase vpage) ∧
      ∃ s, t.entries s = none ∧ t.map vpage f perms =
        .ok (t.set s (some ⟨vpage, f.base, perms⟩), { f with state := .mapped }, .ok ())) := by
  unfold map
  cases hc : checkStateless vpage f.base perms with
  | error e => exact Or.inl ⟨e, rfl⟩
  | ok u =>
    split_ifs with ho hs hl
    · exact Or.inl ⟨_, rfl⟩
    · exact Or.inl ⟨_, rfl⟩
    · exact Or.inl ⟨_, rfl⟩
    · cases hfree : t.freeSlot with
      | none => exact Or.inl ⟨_, rfl⟩
      | some s =>
        have hnone : (t.entries s).isNone = true := (Fin.find?_eq_some_iff.mp hfree).1
        have hst : f.state = .allocated := not_not.mp hs
        refine Or.inr ⟨checkStateless_ok.mp hc, not_not.mp ho, hst, fun s m => lookup_isNone hl, s,
          Option.isNone_iff_eq_none.mp hnone, ?_⟩
        simp only [PhysicalFrame.markMapped, hst]

/-- A call of `unmap` is refused, or it clears the slot that maps the frame. -/
theorem unmap_cases (t : PageTable) (vpage : ℕ) (f : PhysicalFrame) :
    (∃ e, t.unmap vpage f = (t, f, .error e)) ∨
    ∃ s m, t.entries s = some m ∧ m.frame = f.base ∧ f.state = .mapped ∧
      t.unmap vpage f = (t.set s none, { f with state := .allocated }, .ok ()) := by
  unfold unmap
  cases t.slotOf vpage with
  | none => exact Or.inl ⟨_, rfl⟩
  | some s =>
    cases hm : t.entries s with
    | none => exact Or.inl ⟨.notMapped, by simp only [hm]⟩
    | some m =>
      simp only [hm]
      by_cases hb : m.frame = f.base
      · rw [if_neg (not_not.mpr hb)]
        cases hs : f.state with
        | mapped =>
          refine Or.inr ⟨s, m, hm, hb, rfl, ?_⟩
          simp only [PhysicalFrame.markUnmapped, hs]
        | free => exact Or.inl ⟨.frameNotMappable, by simp only [PhysicalFrame.markUnmapped, hs]⟩
        | allocated =>
          exact Or.inl ⟨.frameNotMappable, by simp only [PhysicalFrame.markUnmapped, hs]⟩
        | quarantined =>
          exact Or.inl ⟨.frameNotMappable, by simp only [PhysicalFrame.markUnmapped, hs]⟩
      · rw [if_pos hb]
        exact Or.inl ⟨_, rfl⟩

end PageTable

/-! ## The invariant -/

namespace MemState

variable {ι κ : Type*} {p : Pool ι κ} {w : MemState ι κ} {i : ι} {k : κ} {s : Fin maxMappings}
  {m : Mapping} {f : PhysicalFrame}

/-- Entry `e` of the tables holds the mapping `m`. -/
def Entry (w : MemState ι κ) (e : κ × Fin maxMappings) (m : Mapping) : Prop :=
  (w.tables e.1).entries e.2 = some m

/-- What every sequence of calls preserves. -/
structure Inv (p : Pool ι κ) (w : MemState ι κ) : Prop where
  base : ∀ i, (w.frames i).base = p.base i
  owner : ∀ k, (w.tables k).owner = p.owner k
  /-- Every entry maps a frame of the pool that is in use and owned as its permissions ask. -/
  entry : ∀ e m, w.Entry e m → ∃ i, m.frame = p.base i ∧
    ((w.frames i).state = .mapped ∨ (w.frames i).state = .quarantined) ∧
    (w.frames i).owner = (w.tables e.1).ownerFor m.perms
  admits : ∀ e m, w.Entry e m → Admits m.vpage m.frame m.perms
  page : ∀ e e' m m', w.Entry e m → w.Entry e' m' → e.1 = e'.1 → m.vpage = m'.vpage → e = e'
  once : ∀ e e' m m', w.Entry e m → w.Entry e' m' → m.frame = m'.frame → e = e'
  mapped : ∀ i, (w.frames i).state = .mapped → ∃ e m, w.Entry e m ∧ m.frame = p.base i

theorem inv_boot (p : Pool ι κ) : Inv p p.boot := by
  have hempty : ∀ e m, ¬ p.boot.Entry e m := fun e m h => by cases h
  refine ⟨fun _ => rfl, fun _ => rfl, fun e m h => absurd h (hempty e m),
    fun e m h => absurd h (hempty e m), fun e _ m _ h => absurd h (hempty e m),
    fun e _ m _ h => absurd h (hempty e m), ?_⟩
  intro i h
  cases h

/-- A frame that an entry maps is in use. -/
theorem Inv.in_use (h : Inv p w) {e : κ × Fin maxMappings} (he : w.Entry e m)
    (hf : m.frame = p.base i) :
    ((w.frames i).state = .mapped ∨ (w.frames i).state = .quarantined) ∧
      (w.frames i).owner = (w.tables e.1).ownerFor m.perms := by
  obtain ⟨j, hj, hst, ho⟩ := h.entry e m he
  have hij : i = j := p.base_inj (hf.symm.trans hj)
  subst hij
  exact ⟨hst, ho⟩

/-- A free or allocated frame is mapped nowhere. -/
theorem Inv.not_mapped (h : Inv p w) (hs : (w.frames i).state = .free ∨
    (w.frames i).state = .allocated) {e : κ × Fin maxMappings} (he : w.Entry e m) :
    m.frame ≠ p.base i := by
  intro hf
  obtain ⟨hu, -⟩ := h.in_use he hf
  rcases hs with hs | hs <;> rcases hu with hu | hu <;> rw [hs] at hu <;> cases hu

section Frames

variable [DecidableEq ι]

@[simp] theorem setFrame_frames_self : (w.setFrame i f).frames i = f := Function.update_self ..

@[simp] theorem setFrame_frames_of_ne {j : ι} (h : j ≠ i) :
    (w.setFrame i f).frames j = w.frames j := Function.update_of_ne h ..

@[simp] theorem setFrame_entry {e : κ × Fin maxMappings} :
    (w.setFrame i f).Entry e m ↔ w.Entry e m := Iff.rfl

theorem Inv.base_setFrame (h : Inv p w) (hb : f.base = (w.frames i).base) (j : ι) :
    ((w.setFrame i f).frames j).base = p.base j := by
  by_cases hij : j = i
  · subst hij
    rw [setFrame_frames_self, hb, h.base]
  · rw [setFrame_frames_of_ne hij, h.base]

/-- A frame changes and no table does: what the entries say of the frame must stay true, and it must
not become mapped. -/
theorem Inv.setFrame (h : Inv p w) (hb : f.base = (w.frames i).base)
    (hm : f.state = .mapped → (w.frames i).state = .mapped)
    (hu : ∀ e m, w.Entry e m → m.frame = p.base i →
      (f.state = .mapped ∨ f.state = .quarantined) ∧ f.owner = (w.frames i).owner) :
    Inv p (w.setFrame i f) := by
  refine ⟨h.base_setFrame hb, h.owner, fun e m he => ?_, h.admits, h.page, h.once, fun j hj => ?_⟩
  · obtain ⟨j, hj, hst, ho⟩ := h.entry e m he
    refine ⟨j, hj, ?_⟩
    by_cases hij : j = i
    · subst hij
      obtain ⟨hst', ho'⟩ := hu e m he hj
      rw [setFrame_frames_self]
      exact ⟨hst', ho'.trans ho⟩
    · rw [setFrame_frames_of_ne hij]
      exact ⟨hst, ho⟩
  · by_cases hij : j = i
    · subst hij
      rw [setFrame_frames_self] at hj
      exact h.mapped j (hm hj)
    · rw [setFrame_frames_of_ne hij] at hj
      exact h.mapped j hj

theorem Inv.allocate (h : Inv p w) (i : ι) (owner : FrameOwner) :
    Inv p (w.onFrame i ((w.frames i).allocate owner)) := by
  unfold PhysicalFrame.allocate
  split_ifs with ho
  · exact h
  · cases hs : (w.frames i).state with
    | free =>
      exact h.setFrame rfl (fun hm => by cases hm) fun e m he hf =>
        absurd hf (h.not_mapped (Or.inl hs) he)
    | allocated => exact h
    | mapped => exact h
    | quarantined => exact h

theorem Inv.free (h : Inv p w) (i : ι) : Inv p (w.onFrame i (w.frames i).free) := by
  unfold PhysicalFrame.free
  cases hs : (w.frames i).state with
  | allocated =>
    exact h.setFrame rfl (fun hm => by cases hm) fun e m he hf =>
      absurd hf (h.not_mapped (Or.inr hs) he)
  | free => exact h
  | mapped => exact h
  | quarantined => exact h

/-- A quarantined frame keeps its owner and the entry that maps it. -/
theorem Inv.quarantine (h : Inv p w) (i : ι) : Inv p (w.onFrame i (w.frames i).quarantine) := by
  have hq : Inv p (w.setFrame i { w.frames i with state := .quarantined }) :=
    h.setFrame rfl (fun hm => by cases hm) fun e m he hf => ⟨Or.inr rfl, rfl⟩
  unfold PhysicalFrame.quarantine
  cases hs : (w.frames i).state with
  | allocated => exact hq
  | mapped => exact hq
  | free => exact h
  | quarantined => exact h

end Frames

section Tables

variable [DecidableEq κ]

@[simp] theorem setTable_frames {t : PageTable} : (w.setTable k t).frames = w.frames := rfl

/-- The entries after slot `s` of table `k` was written. -/
theorem entry_set {e : κ × Fin maxMappings} {v : Option Mapping} :
    (w.setTable k ((w.tables k).set s v)).Entry e m ↔
      (e = (k, s) ∧ v = some m) ∨ (e ≠ (k, s) ∧ w.Entry e m) := by
  obtain ⟨k', s'⟩ := e
  unfold Entry setTable PageTable.set
  by_cases hk : k' = k
  · subst hk
    by_cases hs : s' = s
    · subst hs
      simp
    · simp [hs]
  · simp [hk]

theorem owner_set (k' : κ) {v : Option Mapping} :
    ((w.setTable k ((w.tables k).set s v)).tables k').owner = (w.tables k').owner := by
  unfold setTable PageTable.set
  by_cases hk : k' = k
  · subst hk
    simp
  · simp [hk]

theorem ownerFor_set (k' : κ) {v : Option Mapping} (perms : Permissions) :
    ((w.setTable k ((w.tables k).set s v)).tables k').ownerFor perms =
      (w.tables k').ownerFor perms := by
  unfold PageTable.ownerFor
  rw [owner_set]

variable [DecidableEq ι]

/-- A refused call leaves everything as it was. -/
theorem onTable_same (w : MemState ι κ) (k : κ) (i : ι) (r : Except MapError Unit) :
    w.onTable k i (w.tables k, w.frames i, r) = w := by
  unfold onTable setTable setFrame
  simp only [Function.update_eq_self]

/-- An allocated frame is mapped by its owner, at a page the table does not cover yet. -/
theorem Inv.fill (h : Inv p w) {vpage : ℕ} {perms : Permissions}
    (hadm : Admits vpage (w.frames i).base perms)
    (hown : (w.frames i).owner = (w.tables k).ownerFor perms)
    (hst : (w.frames i).state = .allocated)
    (hpage : ∀ s m, (w.tables k).entries s = some m → m.vpage ≠ pageBase vpage)
    (hfree : (w.tables k).entries s = none) :
    Inv p ((w.setFrame i { w.frames i with state := .mapped }).setTable k
      ((w.tables k).set s (some ⟨vpage, (w.frames i).base, perms⟩))) := by
  set w₁ := w.setFrame i { w.frames i with state := .mapped } with hw₁
  set w₂ := w₁.setTable k ((w₁.tables k).set s (some ⟨vpage, (w.frames i).base, perms⟩)) with hw₂
  show Inv p w₂
  have hent : ∀ {e m}, w₂.Entry e m →
      (e = (k, s) ∧ m = ⟨vpage, (w.frames i).base, perms⟩) ∨ w.Entry e m := by
    intro e m he
    rcases entry_set.mp he with ⟨hks, hv⟩ | ⟨-, he⟩
    · exact Or.inl ⟨hks, (Option.some.inj hv).symm⟩
    · exact Or.inr he
  have hnot : ∀ {e m}, w.Entry e m → m.frame ≠ (w.frames i).base := by
    intro e m he hf
    exact h.not_mapped (Or.inr hst) he (hf.trans (h.base i))
  have hnew : ∀ {e m}, w.Entry e m → e.1 = k → m.vpage ≠ vpage := by
    rintro ⟨k', s'⟩ m he rfl hv
    exact hpage s' m he (hv.trans (pageBase_of_aligned hadm.vpage_aligned).symm)
  refine ⟨h.base_setFrame rfl, fun k' => (owner_set k').trans (h.owner k'), fun e m he => ?_,
    fun e m he => ?_, fun e e' m m' he he' hk hv => ?_, fun e e' m m' he he' hf => ?_,
    fun j hj => ?_⟩
  · rcases hent he with ⟨rfl, rfl⟩ | hold
    · refine ⟨i, h.base i, ?_⟩
      rw [hw₂, ownerFor_set, setTable_frames, hw₁, setFrame_frames_self]
      exact ⟨Or.inl rfl, hown⟩
    · obtain ⟨j, hj, hst', ho⟩ := h.entry e m hold
      have hij : j ≠ i := by
        rintro rfl
        exact hnot hold (hj.trans (h.base j).symm)
      refine ⟨j, hj, ?_⟩
      rw [hw₂, ownerFor_set, setTable_frames, hw₁, setFrame_frames_of_ne hij]
      exact ⟨hst', ho⟩
  · rcases hent he with ⟨-, rfl⟩ | he
    · exact hadm
    · exact h.admits e m he
  · rcases hent he with ⟨rfl, rfl⟩ | he <;> rcases hent he' with ⟨rfl, rfl⟩ | he'
    · rfl
    · exact absurd hv.symm (hnew he' hk.symm)
    · exact absurd hv (hnew he hk)
    · exact h.page e e' m m' he he' hk hv
  · rcases hent he with ⟨rfl, rfl⟩ | he <;> rcases hent he' with ⟨rfl, rfl⟩ | he'
    · rfl
    · exact absurd hf.symm (hnot he')
    · exact absurd hf (hnot he)
    · exact h.once e e' m m' he he' hf
  · by_cases hij : j = i
    · subst hij
      exact ⟨(k, s), _, entry_set.mpr (Or.inl ⟨rfl, rfl⟩), h.base j⟩
    · rw [hw₂, setTable_frames, hw₁, setFrame_frames_of_ne hij] at hj
      obtain ⟨e, m, he, hf⟩ := h.mapped j hj
      refine ⟨e, m, entry_set.mpr (Or.inr ⟨?_, he⟩), hf⟩
      rintro rfl
      rw [Entry, hfree] at he
      cases he

/-- The one mapping of a mapped frame is removed. -/
theorem Inv.clear (h : Inv p w) (hm : w.Entry (k, s) m) (hf : m.frame = (w.frames i).base) :
    Inv p ((w.setFrame i { w.frames i with state := .allocated }).setTable k
      ((w.tables k).set s none)) := by
  set w₁ := w.setFrame i { w.frames i with state := .allocated } with hw₁
  set w₂ := w₁.setTable k ((w₁.tables k).set s none) with hw₂
  show Inv p w₂
  have hent : ∀ {e m}, w₂.Entry e m → e ≠ (k, s) ∧ w.Entry e m := by
    intro e m he
    rcases entry_set.mp he with ⟨-, hv⟩ | he
    · cases hv
    · exact he
  refine ⟨h.base_setFrame rfl, fun k' => (owner_set k').trans (h.owner k'), fun e m' he => ?_,
    fun e m' he => h.admits e m' (hent he).2,
    fun e e' m m' he he' => h.page e e' m m' (hent he).2 (hent he').2,
    fun e e' m m' he he' => h.once e e' m m' (hent he).2 (hent he').2, fun j hj => ?_⟩
  · obtain ⟨hne, hold⟩ := hent he
    obtain ⟨j, hj, hst, ho⟩ := h.entry e m' hold
    have hij : j ≠ i := by
      rintro rfl
      exact hne (h.once e (k, s) m' m hold hm (hj.trans ((h.base j).symm.trans hf.symm)))
    refine ⟨j, hj, ?_⟩
    rw [hw₂, ownerFor_set, setTable_frames, hw₁, setFrame_frames_of_ne hij]
    exact ⟨hst, ho⟩
  · by_cases hij : j = i
    · subst hij
      rw [hw₂, setTable_frames, hw₁, setFrame_frames_self] at hj
      cases hj
    · rw [hw₂, setTable_frames, hw₁, setFrame_frames_of_ne hij] at hj
      obtain ⟨e, m', he, hf'⟩ := h.mapped j hj
      refine ⟨e, m', entry_set.mpr (Or.inr ⟨?_, he⟩), hf'⟩
      rintro rfl
      have hmm : m' = m := Option.some.inj (he.symm.trans hm)
      subst hmm
      exact hij (p.base_inj (hf'.symm.trans (hf.trans (h.base i))))

/-- No call panics, and every call keeps the invariant. -/
theorem Inv.step (h : Inv p w) (op : Op ι κ) : ∃ w', w.step op = .ok w' ∧ Inv p w' := by
  cases op with
  | allocate i owner => exact ⟨_, rfl, h.allocate i owner⟩
  | free i => exact ⟨_, rfl, h.free i⟩
  | quarantine i => exact ⟨_, rfl, h.quarantine i⟩
  | map k vpage i perms =>
    rcases PageTable.map_cases (w.tables k) vpage (w.frames i) perms with
      ⟨e, he⟩ | ⟨hadm, hown, hst, hpage, s, hfree, hmap⟩
    · refine ⟨w, ?_, h⟩
      simp only [MemState.step, he, Except.map, onTable_same]
    · refine ⟨_, ?_, h.fill hadm hown hst hpage hfree⟩
      simp only [MemState.step, hmap, Except.map, onTable]
  | unmap k vpage i =>
    rcases PageTable.unmap_cases (w.tables k) vpage (w.frames i) with
      ⟨e, he⟩ | ⟨s, m, hm, hf, -, hun⟩
    · refine ⟨w, ?_, h⟩
      simp only [MemState.step, he, onTable_same]
    · refine ⟨_, ?_, h.clear hm hf⟩
      simp only [MemState.step, hun, onTable]

end Tables

/-! ## Isolation -/

/-- Some entry at `e` maps the frame at `base`. -/
def MapsAt (w : MemState ι κ) (e : κ × Fin maxMappings) (base : ℕ) : Prop :=
  ∃ m, w.Entry e m ∧ m.frame = base

/-- Frame ownership and isolation. Windows and ranges are stated for every address of a page. -/
structure Isolated (p : Pool ι κ) (w : MemState ι κ) : Prop where
  base : ∀ i, (w.frames i).base = p.base i
  owner : ∀ k, (w.tables k).owner = p.owner k
  onePerPage : ∀ k s s' m m', w.Entry (k, s) m → w.Entry (k, s') m' →
    pageBase m.vpage = pageBase m'.vpage → s = s'
  mapped : ∀ i, (w.frames i).state = .mapped → ∃! e, w.MapsAt e (p.base i)
  quarantined : ∀ i, (w.frames i).state = .quarantined →
    ∀ e e', w.MapsAt e (p.base i) → w.MapsAt e' (p.base i) → e = e'
  unmapped : ∀ i, (w.frames i).state = .free ∨ (w.frames i).state = .allocated →
    ∀ e, ¬ w.MapsAt e (p.base i)
  user : ∀ k s m, w.Entry (k, s) m → m.perms.user = true →
    (∀ a, pageBase a = m.vpage → isUser a = true) ∧
    ¬ (m.perms.write = true ∧ m.perms.execute = true) ∧ m.perms.device = false ∧
    (∀ a, pageBase a = m.frame → isKernel a = false) ∧
    ∃ i, p.base i = m.frame ∧ (w.frames i).owner = .addressSpace (p.owner k)
  kernel : ∀ k s m, w.Entry (k, s) m → m.perms.user = false →
    (∀ a, pageBase a = m.vpage → isUser a = false) ∧
    ∃ i, p.base i = m.frame ∧ (w.frames i).owner = .kernel

theorem Inv.isolated (h : Inv p w) : Isolated p w := by
  have honce : ∀ i e e', w.MapsAt e (p.base i) → w.MapsAt e' (p.base i) → e = e' := by
    rintro i e e' ⟨m, he, hf⟩ ⟨m', he', hf'⟩
    exact h.once e e' m m' he he' (hf.trans hf'.symm)
  have hwin : ∀ {e m}, w.Entry e m → ∀ a, pageBase a = m.vpage → isUser a = m.perms.user := by
    intro e m he a ha
    rw [← isUser_pageBase, ha]
    exact (h.admits e m he).window
  refine ⟨h.base, h.owner, fun k s s' m m' he he' hv => ?_, fun i hi => ?_, fun i _ => honce i,
    fun i hi e hat => ?_, fun k s m he hu => ?_, fun k s m he hu => ?_⟩
  · rw [pageBase_of_aligned (h.admits _ _ he).vpage_aligned,
      pageBase_of_aligned (h.admits _ _ he').vpage_aligned] at hv
    exact congrArg Prod.snd (h.page _ _ m m' he he' rfl hv)
  · obtain ⟨e, m, he, hf⟩ := h.mapped i hi
    exact ⟨e, ⟨m, he, hf⟩, fun e' he' => honce i e' e he' ⟨m, he, hf⟩⟩
  · obtain ⟨m, he, hf⟩ := hat
    exact h.not_mapped hi he hf
  · have hadm := h.admits _ m he
    refine ⟨fun a ha => (hwin he a ha).trans hu, hadm.wx hu, hadm.userDevice hu, fun a ha => ?_, ?_⟩
    · rw [← isKernel_pageBase, ha]
      exact hadm.kernelFrame hu
    · obtain ⟨i, hi, -, ho⟩ := h.entry _ m he
      refine ⟨i, hi.symm, ?_⟩
      rw [ho, PageTable.ownerFor, if_pos hu, h.owner]
  · obtain ⟨i, hi, -, ho⟩ := h.entry _ m he
    refine ⟨fun a ha => (hwin he a ha).trans hu, i, hi.symm, ?_⟩
    rw [ho, PageTable.ownerFor, hu]
    rfl

/-- Whatever the sequence of calls, none panics and the memory they leave is isolated. -/
theorem feed_isolated [DecidableEq ι] [DecidableEq κ] (p : Pool ι κ) (ops : List (Op ι κ)) :
    ∃ w, Execution.feed step p.boot ops = .ok w ∧ Isolated p w := by
  obtain ⟨w, hw, hinv⟩ := Execution.feed_total (P := Inv p) (fun w op hw => hw.step op)
    ops (inv_boot p)
  exact ⟨w, hw, hinv.isolated⟩

/-- Two frames and two address spaces. -/
def twoSpaces : Pool Bool Bool where
  base i := 0x1000 * (i.toNat + 1)
  base_inj := by
    intro i j h
    cases i <;> cases j <;> simp_all
  owner k := k.toNat + 1

/-- The first address space owns a frame and maps it at a page; then the second one asks for the
same frame at the same page. -/
def contested : List (Op Bool Bool) :=
  [.allocate false (.addressSpace 1), .map false 0x10000 false .userRx,
    .map true 0x10000 false .userRx]

/-- The frame ends up mapped once, by its owner. -/
theorem contested_isolated :
    ∃ w, Execution.feed step twoSpaces.boot contested = .ok w ∧ Isolated twoSpaces w ∧
      ∃ s, w.MapsAt (false, s) (twoSpaces.base false) ∧
        ∀ e, w.MapsAt e (twoSpaces.base false) → e = (false, s) := by
  obtain ⟨w, hw, hiso⟩ := feed_isolated twoSpaces contested
  have hrun : (Execution.feed step twoSpaces.boot contested).toOption.map (fun w =>
      ((w.frames false).state, (w.tables false).entries ⟨0, by decide⟩)) =
        some (.mapped, some ⟨0x10000, 0x1000, .userRx⟩) := by decide
  rw [hw] at hrun
  obtain ⟨hstate, hentry⟩ := Prod.mk.inj (Option.some.inj hrun)
  have hmaps : w.MapsAt (false, ⟨0, by decide⟩) (twoSpaces.base false) := ⟨_, hentry, rfl⟩
  refine ⟨w, hw, hiso, _, hmaps, fun e he => ?_⟩
  exact (hiso.mapped false hstate).unique he hmaps

end MemState

end AxiomRT.Memory
