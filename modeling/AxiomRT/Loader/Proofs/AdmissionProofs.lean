import AxiomRT.Loader.Admission
import AxiomRT.Memory.Proofs.PageTableProofs

/-!
# Proofs: admitted images against the user window

The loader keeps an image below the kernel base. The page table model asks for more: a page-aligned
base and a span inside the user virtual window.
-/

namespace AxiomRT.Loader

open Memory (PageTable PhysicalFrame isUser isKernel userRangeStart userRangeEnd)
open Paging (Permissions isPageAligned pageSize)

theorem checkedAdd_eq_some {a b c : UInt64} :
    checkedAdd a b = some c ↔ c.toNat = a.toNat + b.toNat := by
  have hc := c.toNat_lt
  unfold checkedAdd
  split_ifs with h
  · rw [Option.some.injEq, ← UInt64.toNat_inj, UInt64.toNat_add, Nat.mod_eq_of_lt h, eq_comm]
  · constructor
    · intro hn
      cases hn
    · intro hn
      omega

/-! ## What is admitted -/

/-- The rules of the loader, over the numbers the words stand for. -/
structure Admitted (l : ImageLayout) : Prop where
  text : 0 < l.textSize.toNat
  entry : l.entryOffset.toNat < l.textSize.toNat
  size : l.textSize.toNat + l.rodataSize.toNat ≤ 131072
  stack : l.stackPages = 1
  below : l.baseVa.toNat + (l.textSize.toNat + l.rodataSize.toNat + 4096) ≤ 0x80000000

theorem stackBytes_one : saturatingMul 1 4096 = 4096 := by decide

/-- The end of the span, where it is a word. -/
theorem spanEnd_eq_some {base image e : UInt64} :
    (checkedAdd image 4096).bind (checkedAdd base) = some e ↔
      e.toNat = base.toNat + (image.toNat + 4096) := by
  have he := e.toNat_lt
  have h4096 : (4096 : UInt64).toNat = 4096 := rfl
  rw [Option.bind_eq_some_iff]
  constructor
  · rintro ⟨span, hspan, hsum⟩
    rw [checkedAdd_eq_some] at hspan hsum
    rw [hsum, hspan, h4096]
  · intro h
    have hlt : image.toNat + 4096 < 2 ^ 64 := by omega
    refine ⟨image + 4096, checkedAdd_eq_some.mpr ?_, checkedAdd_eq_some.mpr ?_⟩
    · rw [UInt64.toNat_add, h4096, Nat.mod_eq_of_lt hlt]
    · rw [h, UInt64.toNat_add, h4096, Nat.mod_eq_of_lt hlt]

theorem admitImageMapping_ok {l : ImageLayout} : admitImageMapping l = .ok () ↔ Admitted l := by
  have hzero : l.textSize = 0 ↔ l.textSize.toNat = 0 := UInt64.toNat_inj.symm
  constructor
  · intro h
    unfold admitImageMapping at h
    split at h
    · cases h
    rename_i ht
    split at h
    · cases h
    rename_i he
    split at h
    · cases h
    rename_i image himage
    rw [checkedAdd_eq_some] at himage
    split_ifs at h with hsize hstack
    have hone : l.stackPages = 1 := not_not.mp hstack
    rw [hone, stackBytes_one] at h
    dsimp only at h
    split at h
    · rename_i e hend
      rw [spanEnd_eq_some] at hend
      split_ifs at h with hbelow
      have hle : e.toNat ≤ 0x80000000 := UInt64.le_iff_toNat_le.mp hbelow.2
      have himage' : image.toNat ≤ 131072 := Nat.not_lt.mp fun hlt =>
        hsize (UInt64.lt_iff_toNat_lt.mpr hlt)
      have hentry : l.entryOffset.toNat < l.textSize.toNat := Nat.not_le.mp fun hle' =>
        he (UInt64.le_iff_toNat_le.mpr hle')
      exact ⟨by omega, hentry, by omega, hone, by omega⟩
    · cases h
  · intro h
    have hsize := h.size
    have hsum : checkedAdd l.textSize l.rodataSize = some (l.textSize + l.rodataSize) := by
      have hlt : l.textSize.toNat + l.rodataSize.toNat < 2 ^ 64 := by omega
      rw [checkedAdd, if_pos hlt]
    have himage := checkedAdd_eq_some.mp hsum
    have hbelow := h.below
    have hspan : l.baseVa.toNat + (l.textSize.toNat + l.rodataSize.toNat + 4096) < 2 ^ 64 := by
      omega
    obtain ⟨e, he⟩ : ∃ e : UInt64, e.toNat = l.baseVa.toNat +
        ((l.textSize + l.rodataSize).toNat + 4096) := by
      rw [himage]
      exact ⟨_, UInt64.toNat_ofNat_of_lt' hspan⟩
    have hend := spanEnd_eq_some.mpr he
    have hsmall : ¬ maxImageBytes < l.textSize + l.rodataSize := by
      rw [UInt64.lt_iff_toNat_lt, himage]
      exact Nat.not_lt.mpr h.size
    have htext : ¬ l.textSize = 0 := by
      rw [hzero]
      exact Nat.ne_of_gt h.text
    have hentry : ¬ l.textSize ≤ l.entryOffset := by
      rw [UInt64.le_iff_toNat_le]
      exact Nat.not_le.mpr h.entry
    have hkernel : l.baseVa < kernelBase ∧ e ≤ kernelBase := by
      constructor
      · rw [UInt64.lt_iff_toNat_lt]
        show l.baseVa.toNat < 0x80000000
        omega
      · rw [UInt64.le_iff_toNat_le]
        show e.toNat ≤ 0x80000000
        omega
    unfold admitImageMapping
    rw [if_neg htext, if_neg hentry, hsum]
    simp only [if_neg hsmall, h.stack, ne_eq, not_true, if_false, stackBytes_one, hend,
      if_pos hkernel]

/-! ## The pages of an image -/

/-- Bytes of the image and the stack pages behind it. -/
def ImageLayout.span (l : ImageLayout) : ℕ :=
  l.textSize.toNat + l.rodataSize.toNat + l.stackPages.toNat * pageSize

/-- The page at `offset` holds text, read-only data or stack, and these are the permissions for it.
A page at a border holds two of them. -/
def ImageLayout.Asks (l : ImageLayout) (offset : ℕ) (perms : Permissions) : Prop :=
  (perms = .userRx ∧ offset < l.textSize.toNat) ∨
  (perms = .userR ∧ offset < l.textSize.toNat + l.rodataSize.toNat ∧
    l.textSize.toNat < offset + pageSize) ∨
  (perms = .userRw ∧ l.textSize.toNat + l.rodataSize.toNat < offset + pageSize)

/-- `map` takes the page in every table that has room for it, on every frame that the address space
has allocated outside of the kernel range. -/
def CanMap (va : ℕ) (perms : Permissions) : Prop :=
  ∀ (t : PageTable) (f : PhysicalFrame), t.lookup va = none → t.freeSlot.isSome = true →
    f.owner = .addressSpace t.owner → f.state = .allocated → isPageAligned f.base = true →
    isKernel f.base = false → ∃ t' f', t.map va f perms = .ok (t', f', .ok ())

/-- Every page the image spans can be mapped. -/
def ImageLayout.Mappable (l : ImageLayout) : Prop :=
  ∀ i perms, i * pageSize < l.span → l.Asks (i * pageSize) perms →
    CanMap (l.baseVa.toNat + i * pageSize) perms

/-- The image starts at a page and lies in the user virtual window. -/
structure ImageLayout.FitsWindow (l : ImageLayout) : Prop where
  aligned : isPageAligned l.baseVa.toNat = true
  start : userRangeStart ≤ l.baseVa.toNat
  stop : l.baseVa.toNat + l.span ≤ userRangeEnd

/-- The permissions of an image are legal user permissions. -/
theorem ImageLayout.Asks.valid {l : ImageLayout} {offset : ℕ} {perms : Permissions}
    (h : l.Asks offset perms) : perms.user = true ∧ PageTable.validatePerms perms = .ok () := by
  rcases h with ⟨rfl, -⟩ | ⟨rfl, -⟩ | ⟨rfl, -⟩ <;> exact ⟨rfl, rfl⟩

/-- A user page can be mapped exactly if it is a page of the user window. -/
theorem canMap_iff {va : ℕ} {perms : Permissions} (hu : perms.user = true)
    (hp : PageTable.validatePerms perms = .ok ()) :
    CanMap va perms ↔ isPageAligned va = true ∧ isUser va = true := by
  obtain ⟨hacc, hwx, hdev, hdx⟩ := PageTable.validatePerms_ok.mp hp
  constructor
  · intro h
    obtain ⟨t', f', hmap⟩ := h (.new 0) ⟨0x1000, .allocated, .addressSpace 0⟩
      rfl rfl rfl rfl rfl rfl
    rcases PageTable.map_cases (.new 0) va ⟨0x1000, .allocated, .addressSpace 0⟩ perms with
      ⟨e, he⟩ | ⟨hadm, -⟩
    · rw [he] at hmap
      cases hmap
    · exact ⟨hadm.vpage_aligned, hadm.window.trans hu⟩
  · rintro ⟨hal, hwin⟩ t f hnone hfree hown hst hfal hker
    have hadm : PageTable.checkStateless va f.base perms = .ok () :=
      PageTable.checkStateless_ok.mpr
        ⟨hal, hfal, hacc, hwx, hdev, hdx, fun _ => hker, hwin.trans hu.symm⟩
    have hown' : f.owner = t.ownerFor perms := by
      rw [hown, PageTable.ownerFor, if_pos hu]
    obtain ⟨s, hs⟩ := Option.isSome_iff_exists.mp hfree
    refine ⟨t.set s (some ⟨va, f.base, perms⟩), { f with state := .mapped }, ?_⟩
    simp [PageTable.map, hadm, hown', hst, hnone, hs, PhysicalFrame.markMapped]

/-- Every page of the span holds something. -/
theorem ImageLayout.exists_asks (l : ImageLayout) (offset : ℕ) : ∃ perms, l.Asks offset perms := by
  have hpos : 0 < pageSize := by decide
  by_cases htext : offset < l.textSize.toNat
  · exact ⟨_, Or.inl ⟨rfl, htext⟩⟩
  · by_cases hrodata : offset < l.textSize.toNat + l.rodataSize.toNat
    · exact ⟨_, Or.inr (Or.inl ⟨rfl, hrodata, by omega⟩)⟩
    · exact ⟨_, Or.inr (Or.inr ⟨rfl, by omega⟩)⟩

/-- The pages of an admitted image can be mapped exactly if the image starts at a page and lies in
the user window: admission asks for neither. -/
theorem admitImageMapping_mappable_iff (l : ImageLayout) (h : admitImageMapping l = .ok ()) :
    l.Mappable ↔ l.FitsWindow := by
  obtain ⟨htext, -, -, hstack, -⟩ := admitImageMapping_ok.mp h
  have hspan : l.span = l.textSize.toNat + l.rodataSize.toNat + 4096 := by
    unfold ImageLayout.span
    rw [hstack]
    rfl
  have hpage : ∀ i, i * pageSize < l.span → (l.Mappable →
      isPageAligned (l.baseVa.toNat + i * pageSize) = true ∧
        isUser (l.baseVa.toNat + i * pageSize) = true) := by
    intro i hi hmap
    obtain ⟨perms, hasks⟩ := l.exists_asks (i * pageSize)
    exact (canMap_iff hasks.valid.1 hasks.valid.2).mp (hmap i perms hi hasks)
  constructor
  · intro hmap
    -- the first page gives alignment and the lower bound, the last page the upper bound
    obtain ⟨hal, huser⟩ := hpage 0 (by omega) hmap
    obtain ⟨hal', huser'⟩ := hpage ((l.span - 1) / pageSize) (by
      have := Nat.div_mul_le_self (l.span - 1) pageSize
      omega) hmap
    rw [Nat.zero_mul, Nat.add_zero] at hal huser
    have hmod : l.baseVa.toNat % 4096 = 0 := eq_of_beq hal
    simp only [isUser, Bool.and_eq_true, decide_eq_true_eq] at huser huser'
    refine ⟨hal, huser.1, ?_⟩
    have hlast : l.baseVa.toNat + (l.span - 1) / 4096 * 4096 < 0x40000000 := huser'.2
    show l.baseVa.toNat + l.span ≤ 0x40000000
    omega
  · rintro ⟨hal, hstart, hstop⟩ i perms hi hasks
    have hmod : l.baseVa.toNat % 4096 = 0 := eq_of_beq hal
    refine (canMap_iff hasks.valid.1 hasks.valid.2).mpr ⟨?_, ?_⟩
    · show (l.baseVa.toNat + i * 4096) % 4096 == 0
      rw [Nat.add_mul_mod_self_right, hmod]
      rfl
    · simp only [isUser, Bool.and_eq_true, decide_eq_true_eq]
      constructor
      · omega
      · omega

/-- The layout of the stored images, at the base of the user region, is admitted and can be
mapped. -/
theorem admitImageMapping_mappable_sample :
    admitImageMapping ⟨0x10000, 0, 4096, 4096, 1⟩ = .ok () ∧
      (⟨0x10000, 0, 4096, 4096, 1⟩ : ImageLayout).Mappable :=
  ⟨by decide, (admitImageMapping_mappable_iff _ (by decide)).2
    ⟨by decide, by decide, by decide⟩⟩

/-- Admitted above the user window, at page zero and at an address that is no page. -/
theorem admitImageMapping_unmappable :
    (admitImageMapping ⟨0x50000000, 0, 4096, 4096, 1⟩ = .ok () ∧
      ¬ CanMap 0x50000000 .userRx) ∧
    (admitImageMapping ⟨0, 0, 4096, 4096, 1⟩ = .ok () ∧ ¬ CanMap 0 .userRx) ∧
    (admitImageMapping ⟨0x10001, 0, 4096, 4096, 1⟩ = .ok () ∧ ¬ CanMap 0x10001 .userRx) := by
  have hno : ∀ va, ¬ (isPageAligned va = true ∧ isUser va = true) → ¬ CanMap va .userRx :=
    fun va h hmap => h ((canMap_iff rfl rfl).mp hmap)
  exact ⟨⟨by decide, hno _ (by decide)⟩, ⟨by decide, hno _ (by decide)⟩,
    ⟨by decide, hno _ (by decide)⟩⟩

end AxiomRT.Loader
