import AxiomRT.Dispatch.Proofs.UserWriteProofs
import AxiomRT.Paging.AddressSpace
import AxiomRT.Paging.Proofs.ArenaProofs

/-!
# What a service can reach

The mappings of a service address space, and what follows from them: the user pages are the user
region and the stack page of the service, and every buffer that the system calls accept is mapped.
-/

namespace AxiomRT.Paging

open AxiomRT.Dispatch

/-! ## The layout -/

theorem mem_pagesFrom {start stop addr : ℕ} :
    addr ∈ pagesFrom start stop ↔ addr < stop ∧ ∃ i, addr = start + i * pageSize := by
  unfold pagesFrom
  rw [List.mem_map]
  constructor
  · rintro ⟨i, hi, rfl⟩
    rw [List.mem_range] at hi
    refine ⟨?_, i, rfl⟩
    simp only [pageSize] at hi ⊢
    omega
  · rintro ⟨hlt, i, rfl⟩
    refine ⟨i, List.mem_range.mpr ?_, rfl⟩
    simp only [pageSize] at hlt ⊢
    omega

theorem pageBase_eq (addr : ℕ) : pageBase addr = addr / pageSize * pageSize := by
  unfold pageBase
  rw [Nat.shiftLeft_eq, Nat.shiftRight_eq_div_pow]

/-- All section boundaries. -/
def Linker.symbols (l : Linker) : List ℕ :=
  [l.textStart, l.textEnd, l.rodataStart, l.rodataEnd, l.dataStart, l.dataEnd,
    l.userTextStart, l.userTextEnd, l.userRodataStart, l.userRodataEnd]

/-- The layout of `linker.ld`, in the 56 bits of a physical address: the text and the rodata of the
user region follow each other, and together they fit below the stack page. That no two of the mapped
ranges overlap need not be said, the second mapping of a page fails. -/
structure Linker.Layout (l : Linker) : Prop where
  aligned : ∀ s ∈ l.symbols, s % pageSize = 0
  physical : ∀ s ∈ l.symbols, s ≤ 2 ^ 56
  userText : l.userTextStart ≤ l.userTextEnd
  contiguous : l.userTextEnd = l.userRodataStart
  userRodata : l.userRodataStart ≤ l.userRodataEnd
  size : l.userRodataEnd - l.userTextStart ≤ 0x1F0000
  tables_aligned : l.userTables % pageSize = 0
  tables_physical : l.userTables + maxUserAs * (arenaTables * pageSize) ≤ 2 ^ 56

/-- The calls of a build. -/
inductive Linker.Maps (l : Linker) (stackPhys : ℕ) : MapCall → Prop
  | text {addr} (h : addr ∈ pagesFrom l.textStart l.textEnd) : Maps l stackPhys ⟨addr, addr, krx⟩
  | rodata {addr} (h : addr ∈ pagesFrom l.rodataStart l.rodataEnd) :
      Maps l stackPhys ⟨addr, addr, krOnly⟩
  | data {addr} (h : addr ∈ pagesFrom l.dataStart l.dataEnd) :
      Maps l stackPhys ⟨addr, addr, .kernelRw⟩
  | uart : Maps l stackPhys ⟨uartPage, uartPage, .kernelDevice⟩
  | virtio : Maps l stackPhys ⟨virtioMmio0Page, virtioMmio0Page, .kernelDevice⟩
  | userText {pa} (h : pa ∈ pagesFrom l.userTextStart l.userTextEnd) :
      Maps l stackPhys ⟨userCodeVa + (pa - l.userTextStart), pa, urx⟩
  | userRodata {pa} (h : pa ∈ pagesFrom l.userRodataStart l.userRodataEnd) :
      Maps l stackPhys ⟨userCodeVa + (pa - l.userTextStart), pa, uro⟩
  | stack : Maps l stackPhys ⟨userStackVa, pageBase stackPhys, .userRw⟩

/-- `a` is an address space that was built for a service with the given stack, in one of the zeroed
static arenas. -/
def Linker.Builds (l : Linker) (stackPhys : UInt64) (a : Arena) : Prop :=
  ∃ tables asIndex entry uas, (∀ k, tables 0 k = 0) ∧
    buildServiceAddressSpace l tables asIndex entry stackPhys = some (a, uas)

/-! ## The mappings of a build -/

theorem expect_eq_some {x : Option (Arena × Except MapError Unit)} {a : Arena}
    (h : expect x = some a) : x = some (a, .ok ()) := by
  unfold expect at h
  split at h
  · cases h
    rfl
  · cases h

theorem Arena.Holds.expectAll {a a' : Arena} {base : ℕ} {P : MapCall → Prop}
    {calls : List MapCall} (h : a.Holds base P) (he : expect (a.mapAll calls) = some a') :
    a'.Holds base fun c => P c ∨ c ∈ calls :=
  h.mapAll calls (expect_eq_some he)

theorem Arena.Holds.expectPage {a a' : Arena} {base : ℕ} {P : MapCall → Prop} (h : a.Holds base P)
    (c : MapCall) (he : expect (a.mapPage c.va c.pa c.perms) = some a') :
    a'.Holds base fun d => P d ∨ d = c := by
  obtain ⟨a₁, r, hcall, hh⟩ := h.mapPage c
  rw [expect_eq_some he] at hcall
  cases hcall
  exact hh.congr fun d => by simp

theorem pagesFrom_page (addr : ℕ) : pagesFrom addr (addr + 0x1000) = [addr] := by
  unfold pagesFrom
  rw [Nat.add_sub_cancel_left]
  rfl

theorem holds_mapKernelRegions {a a' : Arena} {base : ℕ} {P : MapCall → Prop}
    (h : a.Holds base P) (l : Linker) (hm : mapKernelRegions a l.kernelRegions = some a') :
    a'.Holds base fun c => P c ∨
      c ∈ (pagesFrom l.textStart l.textEnd).map (fun addr => ⟨addr, addr, krx⟩) ∨
      c ∈ (pagesFrom l.rodataStart l.rodataEnd).map (fun addr => ⟨addr, addr, krOnly⟩) ∨
      c ∈ (pagesFrom l.dataStart l.dataEnd).map (fun addr => ⟨addr, addr, .kernelRw⟩) ∨
      c = ⟨uartPage, uartPage, .kernelDevice⟩ ∨
      c = ⟨virtioMmio0Page, virtioMmio0Page, .kernelDevice⟩ := by
  unfold mapKernelRegions at hm
  simp only [Option.bind_eq_bind, Option.bind_eq_some_iff] at hm
  obtain ⟨a₁, h₁, a₂, h₂, a₃, h₃, a₄, h₄, h₅⟩ := hm
  have hh₂ : a₂.Holds base fun c => (P c ∨
      c ∈ (pagesFrom l.textStart l.textEnd).map (fun addr => ⟨addr, addr, krx⟩)) ∨
      c ∈ (pagesFrom l.rodataStart l.rodataEnd).map (fun addr => ⟨addr, addr, krOnly⟩) := by
    split_ifs at h₂ with hlt
    · exact (h.expectAll h₁).expectAll h₂
    · cases h₂
      have hnil : pagesFrom l.rodataStart l.rodataEnd = [] := by
        have hle : l.rodataEnd ≤ l.rodataStart := Nat.le_of_not_lt hlt
        unfold pagesFrom
        rw [Nat.sub_eq_zero_of_le hle]
        rfl
      refine (h.expectAll h₁).congr fun c => ?_
      rw [hnil]
      simp [Linker.kernelRegions]
  refine (((hh₂.expectAll h₃).expectAll h₄).expectAll h₅).congr fun c => ?_
  rw [pagesFrom_page, pagesFrom_page]
  simp [or_assoc, Linker.kernelRegions]

section Build

variable {l : Linker} {stackPhys : UInt64} {a : Arena}

/-- A build leaves the mappings of its calls in its arena, and no other. -/
theorem Linker.Layout.holds (hl : l.Layout) {tables : ℕ → Table} (hroot : ∀ k, tables 0 k = 0)
    {asIndex : ℕ} {entryVa : UInt64} {uas : Dispatch.UserAddressSpace}
    (hbuild : buildServiceAddressSpace l tables asIndex entryVa stackPhys = some (a, uas)) :
    asIndex < maxUserAs ∧ uas.root = UInt64.ofNat a.rootPa ∧
      a.Holds (l.userTables + asIndex * (arenaTables * pageSize)) (l.Maps stackPhys.toNat) := by
  unfold buildServiceAddressSpace at hbuild
  split_ifs at hbuild with hidx
  simp only [Option.bind_eq_bind, Option.bind_eq_some_iff] at hbuild
  obtain ⟨a₁, h₁, a₂, h₂, a₃, h₃, a₄, h₄, h₅⟩ := hbuild
  cases h₅
  have hal : isPageAligned (l.userTables + asIndex * (arenaTables * pageSize)) = true := by
    have := hl.tables_aligned
    simp only [isPageAligned, pageSize, arenaTables, beq_iff_eq] at this ⊢
    omega
  have hbelow : l.userTables + asIndex * (arenaTables * pageSize) + arenaTables * pageSize ≤
      2 ^ 56 := by
    have := hl.tables_physical
    simp only [maxUserAs, Dispatch.maxTasks, arenaTables, pageSize] at hidx this ⊢
    omega
  have hnew := Arena.Holds.new (show 0 < arenaTables by decide) hroot hal hbelow
  have hkernel := holds_mapKernelRegions hnew l h₁
  have hregion := (hkernel.expectAll h₂).expectAll h₃
  have hall := hregion.expectPage ⟨userStackVa, pageBase stackPhys.toNat, .userRw⟩ h₄
  refine ⟨hidx, rfl, hall.congr fun c => ?_⟩
  simp only [Linker.regionCalls, List.mem_map, false_or, or_assoc]
  constructor
  · rintro (⟨addr, h, rfl⟩ | ⟨addr, h, rfl⟩ | ⟨addr, h, rfl⟩ | rfl | rfl | ⟨pa, h, rfl⟩ |
      ⟨pa, h, rfl⟩ | rfl)
    · exact .text h
    · exact .rodata h
    · exact .data h
    · exact .uart
    · exact .virtio
    · exact .userText h
    · exact .userRodata h
    · exact .stack
  · intro hc
    cases hc with
    | text h => exact .inl ⟨_, h, rfl⟩
    | rodata h => exact .inr (.inl ⟨_, h, rfl⟩)
    | data h => exact .inr (.inr (.inl ⟨_, h, rfl⟩))
    | uart => exact .inr (.inr (.inr (.inl rfl)))
    | virtio => exact .inr (.inr (.inr (.inr (.inl rfl))))
    | userText h => exact .inr (.inr (.inr (.inr (.inr (.inl ⟨_, h, rfl⟩)))))
    | userRodata h => exact .inr (.inr (.inr (.inr (.inr (.inr (.inl ⟨_, h, rfl⟩))))))
    | stack => exact .inr (.inr (.inr (.inr (.inr (.inr (.inr rfl))))))

theorem Linker.Builds.holds (hl : l.Layout) (hb : l.Builds stackPhys a) :
    ∃ base, a.Holds base (l.Maps stackPhys.toNat) := by
  obtain ⟨tables, asIndex, entry, uas, hroot, hbuild⟩ := hb
  exact ⟨_, (hl.holds hroot hbuild).2.2⟩

/-- The calls map physical pages. -/
theorem Linker.Maps.physical (hl : l.Layout) {stack : ℕ} (hstack : stack < 2 ^ 56) {c : MapCall}
    (h : l.Maps stack c) : c.pa < 2 ^ 56 := by
  have hsym : ∀ {start stop addr}, addr ∈ pagesFrom start stop → stop ∈ l.symbols →
      addr < 2 ^ 56 := by
    intro start stop addr hmem hstop
    exact Nat.lt_of_lt_of_le (mem_pagesFrom.mp hmem).1 (hl.physical stop hstop)
  cases h with
  | text h => exact hsym h (by simp [symbols])
  | rodata h => exact hsym h (by simp [symbols])
  | data h => exact hsym h (by simp [symbols])
  | uart => decide
  | virtio => decide
  | userText h => exact hsym h (by simp [symbols])
  | userRodata h => exact hsym h (by simp [symbols])
  | stack =>
    show pageBase stack < 2 ^ 56
    rw [pageBase_eq]
    exact Nat.lt_of_le_of_lt (Nat.div_mul_le_self ..) hstack

/-- A user mapping is a page of the region, which cannot be written, or the stack page. -/
theorem Linker.Maps.user (hl : l.Layout) {stack : ℕ} {c : MapCall} (h : l.Maps stack c)
    (hu : c.perms.user = true) :
    (∃ o, o % pageSize = 0 ∧ o < l.userRodataEnd - l.userTextStart ∧ c.va = userCodeVa + o ∧
      c.pa = l.userTextStart + o ∧ c.perms.write = false) ∨
    c = ⟨userStackVa, pageBase stack, .userRw⟩ := by
  have htext := hl.aligned l.userTextStart (by simp [symbols])
  have hro := hl.aligned l.userRodataStart (by simp [symbols])
  have h₁ := hl.userText
  have h₂ := hl.contiguous
  have h₃ := hl.userRodata
  cases h with
  | text _ => cases hu
  | rodata _ => cases hu
  | data _ => cases hu
  | uart => cases hu
  | virtio => cases hu
  | stack => exact Or.inr rfl
  | @userText pa h =>
    obtain ⟨hlt, i, rfl⟩ := mem_pagesFrom.mp h
    refine Or.inl ⟨i * pageSize, Nat.mul_mod_left .., ?_, ?_, rfl, rfl⟩
    · omega
    · show userCodeVa + _ = _
      rw [Nat.add_sub_cancel_left]
  | @userRodata pa h =>
    obtain ⟨hlt, i, rfl⟩ := mem_pagesFrom.mp h
    refine Or.inl ⟨l.userRodataStart + i * pageSize - l.userTextStart, ?_, ?_, rfl, ?_, rfl⟩
    · simp only [pageSize] at htext hro ⊢
      omega
    · omega
    · show l.userRodataStart + i * pageSize = _
      omega

/-- Every page of the region is mapped, for reading. -/
theorem Linker.Layout.maps_region (hl : l.Layout) (stack : ℕ) {o : ℕ} (ho : o % pageSize = 0)
    (hlt : o < l.userRodataEnd - l.userTextStart) :
    ∃ perms, l.Maps stack ⟨userCodeVa + o, l.userTextStart + o, perms⟩ ∧ perms.user = true ∧
      perms.read = true ∧ perms.write = false := by
  have htext := hl.aligned l.userTextStart (by simp [symbols])
  have hro := hl.aligned l.userRodataStart (by simp [symbols])
  have h₂ := hl.contiguous
  have hva : l.userTextStart + o - l.userTextStart = o := Nat.add_sub_cancel_left ..
  simp only [pageSize] at htext hro ho
  by_cases hpart : l.userTextStart + o < l.userTextEnd
  · have hmem : l.userTextStart + o ∈ pagesFrom l.userTextStart l.userTextEnd := by
      refine mem_pagesFrom.mpr ⟨hpart, o / pageSize, ?_⟩
      simp only [pageSize]
      omega
    refine ⟨urx, ?_, rfl, rfl, rfl⟩
    have := @Linker.Maps.userText l stack _ hmem
    rwa [hva] at this
  · have hmem : l.userTextStart + o ∈ pagesFrom l.userRodataStart l.userRodataEnd := by
      refine mem_pagesFrom.mpr ⟨by omega, (l.userTextStart + o - l.userRodataStart) / pageSize, ?_⟩
      simp only [pageSize]
      omega
    refine ⟨uro, ?_, rfl, rfl, rfl⟩
    have := @Linker.Maps.userRodata l stack _ hmem
    rwa [hva] at this

/-- The kernel sections and device pages. -/
def Linker.KernelAddr (l : Linker) (addr : ℕ) : Prop :=
  (l.textStart ≤ addr ∧ addr < l.textEnd) ∨ (l.rodataStart ≤ addr ∧ addr < l.rodataEnd) ∨
    (l.dataStart ≤ addr ∧ addr < l.dataEnd) ∨ (uartPage ≤ addr ∧ addr < uartPage + pageSize) ∨
    (virtioMmio0Page ≤ addr ∧ addr < virtioMmio0Page + pageSize)

/-- Every kernel page is mapped to itself, not for the user. -/
theorem Linker.Layout.maps_kernel (hl : l.Layout) (stack : ℕ) {addr : ℕ} (h : l.KernelAddr addr) :
    ∃ perms, l.Maps stack ⟨pageBase addr, pageBase addr, perms⟩ ∧ perms.user = false := by
  have hpages : ∀ {start stop}, start % pageSize = 0 → start ≤ addr → addr < stop →
      pageBase addr ∈ pagesFrom start stop := by
    intro start stop hal hle hlt
    rw [pageBase_eq, mem_pagesFrom]
    simp only [pageSize] at hal ⊢
    exact ⟨by omega, (addr - start) / 4096, by omega⟩
  have hpage : ∀ {page}, page % pageSize = 0 → page ≤ addr → addr < page + pageSize →
      pageBase addr = page := by
    intro page hal hle hlt
    rw [pageBase_eq]
    simp only [pageSize] at hal hlt ⊢
    omega
  rcases h with ⟨hle, hlt⟩ | ⟨hle, hlt⟩ | ⟨hle, hlt⟩ | ⟨hle, hlt⟩ | ⟨hle, hlt⟩
  · exact ⟨_, .text (hpages (hl.aligned _ (by simp [symbols])) hle hlt), rfl⟩
  · exact ⟨_, .rodata (hpages (hl.aligned _ (by simp [symbols])) hle hlt), rfl⟩
  · exact ⟨_, .data (hpages (hl.aligned _ (by simp [symbols])) hle hlt), rfl⟩
  · rw [hpage (by decide) hle hlt]
    exact ⟨_, .uart, rfl⟩
  · rw [hpage (by decide) hle hlt]
    exact ⟨_, .virtio, rfl⟩

/-! ## Translations -/

/-- A call of the build decides the translation of its page. -/
theorem Linker.Builds.translate_of_maps (hl : l.Layout) (hstack : stackPhys.toNat < 2 ^ 56)
    (hb : l.Builds stackPhys a) {c : MapCall} (hc : l.Maps stackPhys.toNat c) {va : ℕ}
    (hpage : pageBase va = c.va) :
    a.translate va = some (some (c.pa + va % pageSize, { c.perms with device := false })) := by
  obtain ⟨base, hh⟩ := hb.holds hl
  obtain ⟨t, ht, hiff⟩ := hh.translate (fun d hd => hd.physical hl hstack) va
  have hkey : pageKey c.va = pageKey va := by
    rw [pageKey_eq_iff, ← hpage, pageBase_eq, Nat.mul_div_cancel _ (by decide)]
  rw [ht, (hiff _).mpr ⟨c, hc, hkey, rfl⟩]

/-- A translation comes from a call of the build for the page. -/
theorem Linker.Builds.maps_of_translate (hl : l.Layout) (hstack : stackPhys.toNat < 2 ^ 56)
    (hb : l.Builds stackPhys a) {va : ℕ} {r : ℕ × Permissions}
    (hr : a.translate va = some (some r)) : ∃ c, l.Maps stackPhys.toNat c ∧
      pageKey c.va = pageKey va ∧ r = (c.pa + va % pageSize, { c.perms with device := false }) := by
  obtain ⟨base, hh⟩ := hb.holds hl
  obtain ⟨t, ht, hiff⟩ := hh.translate (fun d hd => hd.physical hl hstack) va
  rw [ht] at hr
  cases hr
  exact (hiff r).mp rfl

/-- The byte of the stack page at `va`. -/
theorem Linker.Builds.translate_stack (hl : l.Layout) (hstack : stackPhys.toNat < 2 ^ 56)
    (hb : l.Builds stackPhys a) {va : ℕ} (hle : userStackVa ≤ va)
    (hlt : va < userStackVa + pageSize) :
    a.translate va = some (some (pageBase stackPhys.toNat + (va - userStackVa), .userRw)) := by
  have hpage : pageBase va = userStackVa := by
    rw [pageBase_eq]
    simp only [pageSize, userStackVa] at hle hlt ⊢
    omega
  have hoff : va % pageSize = va - userStackVa := by
    simp only [pageSize, userStackVa] at hle hlt ⊢
    omega
  rw [hb.translate_of_maps hl hstack .stack hpage, hoff]
  rfl

/-- The byte of the user region at `va`. -/
theorem Linker.Builds.translate_region (hl : l.Layout) (hstack : stackPhys.toNat < 2 ^ 56)
    (hb : l.Builds stackPhys a) {va : ℕ} (hle : userCodeVa ≤ va)
    (hlt : va < userCodeVa + (l.userRodataEnd - l.userTextStart)) :
    ∃ perms, a.translate va = some (some (l.userTextStart + (va - userCodeVa), perms)) ∧
      perms.user = true ∧ perms.read = true ∧ perms.write = false := by
  have ho : pageBase va - userCodeVa + va % pageSize = va - userCodeVa ∧
      pageBase va = userCodeVa + (pageBase va - userCodeVa) ∧
      (pageBase va - userCodeVa) % pageSize = 0 := by
    rw [pageBase_eq]
    simp only [pageSize, userCodeVa] at hle ⊢
    omega
  obtain ⟨hoff, hpage, hal⟩ := ho
  obtain ⟨perms, hmaps, hu, hr, hw⟩ :=
    hl.maps_region stackPhys.toNat hal (show pageBase va - userCodeVa < _ by omega)
  refine ⟨{ perms with device := false }, ?_, hu, hr, hw⟩
  rw [hb.translate_of_maps hl hstack hmaps hpage, Nat.add_assoc, hoff]

/-! ## A sample layout -/

/-- One page for every section. -/
def sampleLinker : Linker where
  textStart := 0x80200000
  textEnd := 0x80201000
  rodataStart := 0x80201000
  rodataEnd := 0x80202000
  dataStart := 0x80204000
  dataEnd := 0x80205000
  userTextStart := 0x80202000
  userTextEnd := 0x80203000
  userRodataStart := 0x80203000
  userRodataEnd := 0x80204000
  userTables := 0x80300000

theorem sampleLinker_layout : sampleLinker.Layout where
  aligned := by decide
  physical := by decide
  userText := by decide
  contiguous := rfl
  userRodata := by decide
  size := by decide
  tables_aligned := by decide
  tables_physical := by decide

/-- Two services, each with a stack page of its own. -/
theorem sampleLinker_builds : ∀ stackPhys ∈ [(0x80206000 : UInt64), 0x80207000],
    ∃ a, sampleLinker.Builds stackPhys a := by
  have hsome : ∀ stackPhys ∈ [(0x80206000 : UInt64), 0x80207000],
      (buildServiceAddressSpace sampleLinker (fun _ _ => 0) 0 0x80202000 stackPhys).isSome =
        true := by
    intro stackPhys hmem
    rcases List.mem_pair.mp hmem with rfl | rfl
    · decide
    · decide
  intro stackPhys hmem
  obtain ⟨⟨a, uas⟩, hbuild⟩ := Option.isSome_iff_exists.mp (hsome stackPhys hmem)
  exact ⟨a, _, _, _, uas, fun _ => rfl, hbuild⟩

/-! ## Isolation -/

/-- What a service with the stack page at `stack` can reach in the address space `a`. -/
structure Isolated (l : Linker) (stack : ℕ) (a : Arena) : Prop where
  user_iff : ∀ va < 2 ^ 39, (∃ pa p, a.translate va = some (some (pa, p)) ∧ p.user = true) ↔
    (userCodeVa ≤ va ∧ va < userCodeVa + (l.userRodataEnd - l.userTextStart)) ∨
      (userStackVa ≤ va ∧ va < userStackVa + pageSize)
  region : ∀ va, userCodeVa ≤ va → va < userCodeVa + (l.userRodataEnd - l.userTextStart) →
    ∃ p, a.translate va = some (some (l.userTextStart + (va - userCodeVa), p)) ∧
      p.user = true ∧ p.write = false
  stack : ∀ va, userStackVa ≤ va → va < userStackVa + pageSize →
    ∃ p, a.translate va = some (some (pageBase stack + (va - userStackVa), p)) ∧
      p.user = true ∧ p.execute = false
  kernel : ∀ addr, l.KernelAddr addr →
    ∃ p, a.translate addr = some (some (addr, p)) ∧ p.user = false

/-- A user page that can be written is the stack page of the service. -/
theorem Linker.Builds.writable (hl : l.Layout) (hstack : stackPhys.toNat < 2 ^ 56)
    (hb : l.Builds stackPhys a) {va pa : ℕ} {p : Permissions}
    (ht : a.translate va = some (some (pa, p))) (hu : p.user = true) (hw : p.write = true) :
    pageBase pa = pageBase stackPhys.toNat := by
  obtain ⟨c, hc, -, hr⟩ := hb.maps_of_translate hl hstack ht
  cases hr
  rcases hc.user hl hu with ⟨o, -, -, -, -, hro⟩ | rfl
  · rw [show c.perms.write = true from hw] at hro
    cases hro
  · simp only [pageBase_eq, pageSize]
    omega

theorem Linker.Builds.isolated (hl : l.Layout) (hstack : stackPhys.toNat < 2 ^ 56)
    (hb : l.Builds stackPhys a) : Isolated l stackPhys.toNat a := by
  refine ⟨?_, ?_, ?_, ?_⟩
  · intro va hva
    constructor
    · rintro ⟨pa, p, ht, hu⟩
      obtain ⟨c, hc, hkey, hr⟩ := hb.maps_of_translate hl hstack ht
      cases hr
      have hsize := hl.size
      rcases hc.user hl hu with ⟨o, hal, ho, hcva, -, -⟩ | rfl
      · rw [pageKey_eq_iff_of_lt (by rw [hcva]; simp only [userCodeVa]; omega) hva, hcva] at hkey
        have hend := hl.aligned l.userRodataEnd (by simp [symbols])
        have hstart := hl.aligned l.userTextStart (by simp [symbols])
        left
        simp only [pageSize, userCodeVa] at hkey hal hend hstart ⊢
        omega
      · rw [pageKey_eq_iff_of_lt (show userStackVa < 2 ^ 39 by decide) hva] at hkey
        right
        simp only [pageSize, userStackVa] at hkey ⊢
        omega
    · rintro (⟨hle, hlt⟩ | ⟨hle, hlt⟩)
      · obtain ⟨p, ht, hu, -, -⟩ := hb.translate_region hl hstack hle hlt
        exact ⟨_, p, ht, hu⟩
      · exact ⟨_, _, hb.translate_stack hl hstack hle hlt, rfl⟩
  · intro va hle hlt
    obtain ⟨p, ht, hu, -, hw⟩ := hb.translate_region hl hstack hle hlt
    exact ⟨p, ht, hu, hw⟩
  · intro va hle hlt
    exact ⟨_, hb.translate_stack hl hstack hle hlt, rfl, rfl⟩
  · intro addr haddr
    obtain ⟨perms, hmaps, hu⟩ := hl.maps_kernel stackPhys.toNat haddr
    refine ⟨{ perms with device := false }, ?_, hu⟩
    rw [hb.translate_of_maps hl hstack hmaps rfl]
    have hsum : pageBase addr + addr % pageSize = addr := by
      rw [pageBase_eq]
      exact Nat.div_add_mod' ..
    rw [hsum]

/-- Services are isolated from the kernel and from each other. -/
theorem services_isolated (hl : l.Layout) (hstack : stackPhys.toNat < 2 ^ 56)
    (hb : l.Builds stackPhys a) :
    Isolated l stackPhys.toNat a ∧
      ∀ (stackPhys' : UInt64) (a' : Arena), stackPhys'.toNat < 2 ^ 56 → l.Builds stackPhys' a' →
        pageBase stackPhys.toNat ≠ pageBase stackPhys'.toNat →
        ∀ va va' pa pa' p p', a.translate va = some (some (pa, p)) → p.user = true →
          p.write = true → a'.translate va' = some (some (pa', p')) → p'.user = true →
          p'.write = true → pageBase pa ≠ pageBase pa' := by
  refine ⟨hb.isolated hl hstack, ?_⟩
  intro stackPhys' a' hstack' hb' hne va va' pa pa' p p' ht hu hw ht' hu' hw' hsame
  apply hne
  rw [← hb.writable hl hstack ht hu hw, ← hb'.writable hl hstack' ht' hu' hw', hsame]

theorem sampleLinker_services_isolated : ∃ a a', sampleLinker.Builds 0x80206000 a ∧
    sampleLinker.Builds 0x80207000 a' ∧ Isolated sampleLinker 0x80206000 a ∧
    ∀ va va' pa pa' p p', a.translate va = some (some (pa, p)) → p.user = true → p.write = true →
      a'.translate va' = some (some (pa', p')) → p'.user = true → p'.write = true →
      pageBase pa ≠ pageBase pa' := by
  obtain ⟨a, hb⟩ := sampleLinker_builds 0x80206000 (by decide)
  obtain ⟨a', hb'⟩ := sampleLinker_builds 0x80207000 (by decide)
  obtain ⟨hiso, htwo⟩ := services_isolated sampleLinker_layout (by decide) hb
  exact ⟨a, a', hb, hb', hiso, htwo _ a' (by decide) hb' (by decide)⟩

/-! ## Accepted buffers -/

/-- The stack window is the stack page. -/
theorem inStackWindow_bound {va len : ℕ} (h : inStackWindow va len = true) :
    userStackVa ≤ va ∧ va + len ≤ userStackVa + pageSize :=
  inStackWindow_iff.mp h

/-- The kernel can access the byte at `va` with the user page tables. -/
def Arena.Permits (a : Arena) (write : Bool) (va : ℕ) : Prop :=
  ∃ pa p, a.translate va = some (some (pa, p)) ∧ p.user = true ∧ p.read = true ∧
    (write = true → p.write = true)

theorem Linker.Builds.readable (hl : l.Layout) (hstack : stackPhys.toNat < 2 ^ 56)
    (hb : l.Builds stackPhys a) {img : Image} {va len : ℕ}
    (h : inReadableWindow (l.image img) va len = true) {b : ℕ} (hle : va ≤ b) (hlt : b < va + len) :
    a.Permits false b := by
  rcases Bool.or_eq_true_iff.mp h with hwin | hwin
  · obtain ⟨hva, hend⟩ := inStackWindow_bound hwin
    refine ⟨_, _, hb.translate_stack hl hstack (by omega) (by omega), rfl, rfl, ?_⟩
    intro hw
    cases hw
  · obtain ⟨hva, hend⟩ := Bool.and_eq_true_iff.mp hwin
    have hva : userCodeVa ≤ va := of_decide_eq_true hva
    have hend : va + len ≤ userCodeVa + (l.userRodataEnd - l.userTextStart) := checkedAdd_le hend
    obtain ⟨p, ht, hu, hr, -⟩ := hb.translate_region hl hstack (show userCodeVa ≤ b by omega)
      (by omega)
    refine ⟨_, p, ht, hu, hr, ?_⟩
    intro hw
    cases hw

theorem mem_touched_touch {c : Core} {write : Bool} {va len : ℕ} {u : UserAccess}
    (h : u ∈ (c.touch write va len).touched) :
    u ∈ c.touched ∨ (u.write = write ∧ va ≤ u.va ∧ u.va < va + len) := by
  rcases List.mem_append.mp h with h | h
  · exact Or.inl h
  · obtain ⟨i, hi, rfl⟩ := List.mem_map.mp h
    rw [List.mem_range] at hi
    exact Or.inr ⟨rfl, Nat.le_add_right .., Nat.add_lt_add_left hi va⟩

/-- A buffer that a system call accepts is mapped: the stack windows with the bytes of the service's
own stack page, the readable window with readable bytes. So no copy faults. -/
structure BuffersMapped (img : Image) (stack : ℕ) (a : Arena) (va len : ℕ) : Prop where
  stack : validUserBuf va len = true ∨ inStackWindow va len = true →
    ∀ b, va ≤ b → b < va + len → ∃ o < pageSize, ∃ p, b = userStackVa + o ∧
      a.translate b = some (some (pageBase stack + o, p)) ∧ p.user = true ∧ p.read = true ∧
      p.write = true
  readable : inReadableWindow img va len = true →
    ∀ b, va ≤ b → b < va + len → ∃ pa p, a.translate b = some (some (pa, p)) ∧ p.user = true ∧
      p.read = true
  copyIn : validUserBuf va len = true ∨ inReadableWindow img va len = true →
    ∀ (c : Core), ∀ u ∈ (c.copyFromUser va len).touched, u ∈ c.touched ∨ a.Permits u.write u.va
  copyOut : validUserBuf va len = true ∨ inStackWindow va len = true →
    ∀ (c : Core) (bytes : List UInt8), bytes.length ≤ len →
      ∀ u ∈ (c.copyBytesToUser va bytes).touched, u ∈ c.touched ∨ a.Permits u.write u.va

/-- A buffer that passes one of the window checks is mapped, with the access the kernel makes to it,
in every address space that is built. -/
theorem accepted_buffersMapped (hl : l.Layout) (hstack : stackPhys.toNat < 2 ^ 56)
    (hb : l.Builds stackPhys a) (img : Image) (va len : ℕ) :
    BuffersMapped (l.image img) stackPhys.toNat a va len := by
  have hwin : validUserBuf va len = true ∨ inStackWindow va len = true →
      inStackWindow va len = true := by
    rintro (h | h)
    · exact inStackWindow_of_valid h
    · exact h
  have hread : validUserBuf va len = true ∨ inReadableWindow (l.image img) va len = true →
      inReadableWindow (l.image img) va len = true := by
    rintro (h | h)
    · exact Bool.or_eq_true_iff.mpr (Or.inl (inStackWindow_of_valid h))
    · exact h
  refine ⟨?_, ?_, ?_, ?_⟩
  · intro h b hle hlt
    obtain ⟨hva, hend⟩ := inStackWindow_bound (hwin h)
    refine ⟨b - userStackVa, by omega, .userRw, by omega, ?_, rfl, rfl, rfl⟩
    exact hb.translate_stack hl hstack (by omega) (by omega)
  · intro h b hle hlt
    obtain ⟨pa, p, ht, hu, hr, -⟩ := hb.readable hl hstack h hle hlt
    exact ⟨pa, p, ht, hu, hr⟩
  · intro h c u hu
    rcases mem_touched_touch hu with hu | ⟨hw, hle, hlt⟩
    · exact Or.inl hu
    · rw [hw]
      exact Or.inr (hb.readable hl hstack (hread h) hle (by omega))
  · intro h c bytes hlen u hu
    obtain ⟨hva, hend⟩ := inStackWindow_bound (hwin h)
    rcases mem_touched_touch hu with hu | ⟨hw, hle, hlt⟩
    · exact Or.inl hu
    · refine Or.inr ⟨_, _, hb.translate_stack hl hstack ?_ ?_, rfl, rfl, fun _ => rfl⟩
      · omega
      · omega

end Build

theorem sampleLinker_buffersMapped : ∃ a, sampleLinker.Builds 0x80206000 a ∧
    validUserBuf 0x200f80 128 = true ∧
    inReadableWindow (sampleLinker.image sampleImage) 0x11000 0x1000 = true ∧
    BuffersMapped (sampleLinker.image sampleImage) 0x80206000 a 0x200f80 128 ∧
    BuffersMapped (sampleLinker.image sampleImage) 0x80206000 a 0x11000 0x1000 := by
  obtain ⟨a, hb⟩ := sampleLinker_builds 0x80206000 (by decide)
  exact ⟨a, hb, by decide, by decide,
    accepted_buffersMapped sampleLinker_layout (by decide) hb sampleImage _ _,
    accepted_buffersMapped sampleLinker_layout (by decide) hb sampleImage _ _⟩

/-! ## Roots -/

/-- Every arena has a root of its own, so the services of the OS boot flow have their memory to
themselves. -/
theorem Linker.Layout.ownMemory {l : Linker} (hl : l.Layout) {img : Image}
    (x : OsRun (l.image img)) : OwnMemory (x.weaken fun _ => OsBooted.booted) := by
  have hroot : ∀ (t : Slot) (entryVa stack : UInt64) (s : UserAddressSpace),
      (l.image img).buildServiceAddressSpace t.val entryVa stack = some s →
      s.root.toNat = l.userTables + t.val * (arenaTables * pageSize) := by
    intro t entryVa stack s hs
    obtain ⟨⟨a, uas⟩, hbuild, rfl⟩ := Option.map_eq_some_iff.mp hs
    obtain ⟨-, hr, hh⟩ := hl.holds (fun _ => rfl) hbuild
    have hphys := hl.tables_physical
    have ht : t.val < 16 := t.isLt
    rw [hr, UInt64.toNat_ofNat', Arena.rootPa, Arena.paOf, hh.base]
    simp only [maxUserAs, maxTasks, arenaTables, pageSize] at hphys ⊢
    omega
  refine osRun_ownMemory x ?_
  intro t u entryVa entryVa' stack stack' s s' hs hs' hsame
  have ht := hroot t _ _ _ hs
  have hu := hroot u _ _ _ hs'
  rw [hsame, hu] at ht
  simp only [arenaTables, pageSize] at ht
  exact Fin.ext (by omega)

end AxiomRT.Paging
