import AxiomRT.Dispatch.State
import AxiomRT.Paging.Arena

/-!
# Address spaces

The address spaces of services, from `kernel/src/arch/riscv64/paging_hw.rs`: the kernel sections,
mapped for the trap handler, the user region and one stack page.
-/

namespace AxiomRT.Paging

open AxiomRT.Dispatch (Image UserAddressSpace maxTasks userCodeVa)

/-- UART page. -/
abbrev uartPage : ℕ := 0x10000000

/-- First virtio-mmio transport window. -/
abbrev virtioMmio0Page : ℕ := 0x10001000

/-- One user address-space arena per dispatcher task slot. -/
abbrev maxUserAs : ℕ := maxTasks

/-- The stack page of every task. -/
abbrev userStackVa : ℕ := 0x200000

/-- The section boundaries of `linker.ld`, and the address of the static user table arenas. -/
structure Linker where
  textStart : ℕ
  textEnd : ℕ
  rodataStart : ℕ
  rodataEnd : ℕ
  dataStart : ℕ
  dataEnd : ℕ
  userTextStart : ℕ
  userTextEnd : ℕ
  userRodataStart : ℕ
  userRodataEnd : ℕ
  userTables : ℕ

/-- Kernel region boundaries. -/
structure KernelRegions where
  text : ℕ × ℕ
  rodata : ℕ × ℕ
  data : ℕ × ℕ

/-- The kernel regions that the linker script lays out. -/
def Linker.kernelRegions (l : Linker) : KernelRegions where
  text := (l.textStart, l.textEnd)
  rodata := (l.rodataStart, l.rodataEnd)
  data := (l.dataStart, l.dataEnd)

/-! ## Permissions of the regions -/

/-- Kernel text. -/
def krx : Permissions := ⟨true, false, true, false, false⟩

/-- Kernel constants. -/
def krOnly : Permissions := ⟨true, false, false, false, false⟩

/-- User text. -/
def urx : Permissions := ⟨true, false, true, true, false⟩

/-- User constants. -/
def uro : Permissions := ⟨true, false, false, true, false⟩

/-! ## Construction -/

/-- `expect`: a failed mapping panics. -/
def expect : Option (Arena × Except MapError Unit) → Option Arena
  | some (a, .ok ()) => some a
  | _ => none

/-- Map the kernel regions, none of them for the user. -/
def mapKernelRegions (a : Arena) (r : KernelRegions) : Option Arena := do
  let a ← expect (a.identityMapRange r.text.1 r.text.2 krx)
  let a ← (if r.rodata.1 < r.rodata.2 then
      expect (a.identityMapRange r.rodata.1 r.rodata.2 krOnly)
    else some a : Option Arena)
  let a ← expect (a.identityMapRange r.data.1 r.data.2 .kernelRw)
  let a ← expect (a.identityMapRange uartPage (uartPage + 0x1000) .kernelDevice)
  expect (a.identityMapRange virtioMmio0Page (virtioMmio0Page + 0x1000) .kernelDevice)

/-- The calls of one mapping loop over the user region: the pages from `start` on below `stop`, at
their place in the region. -/
def Linker.regionCalls (l : Linker) (start stop : ℕ) (perms : Permissions) : List MapCall :=
  (pagesFrom start stop).map fun pa => ⟨userCodeVa + (pa - l.userTextStart), pa, perms⟩

/-- `addr & !0xfff`. -/
def pageBase (addr : ℕ) : ℕ := addr >>> 12 <<< 12

/-- Build a service address space in the arena `as_index`, whose tables hold `tables`: the kernel
mappings, the user region at `USER_CODE_VA` (text, then rodata) and a private stack page. -/
def buildServiceAddressSpace (l : Linker) (tables : ℕ → Table) (asIndex : ℕ)
    (entryKernelVa stackPhys : UInt64) : Option (Arena × UserAddressSpace) :=
  if asIndex < maxUserAs then do
    let a := Arena.new tables arenaTables (l.userTables + asIndex * (arenaTables * pageSize))
    let a ← mapKernelRegions a l.kernelRegions
    let a ← expect (a.mapAll (l.regionCalls l.userTextStart l.userTextEnd urx))
    let a ← expect (a.mapAll (l.regionCalls l.userRodataStart l.userRodataEnd uro))
    let a ← expect (a.mapPage userStackVa (pageBase stackPhys.toNat) .userRw)
    some (a,
      { root := UInt64.ofNat a.rootPa
        entryVa := UInt64.ofNat userCodeVa + (entryKernelVa - UInt64.ofNat l.userTextStart)
        stackTopVa := UInt64.ofNat (userStackVa + 0x1000) })
  else none

/-- The image as the dispatcher sees it: an address space is built once, when its slot is first
filled, so its arena still holds the zeroed static. -/
def Linker.image (l : Linker) (img : Image) : Image :=
  { img with
    userTextStart := l.userTextStart
    userRodataEnd := l.userRodataEnd
    buildServiceAddressSpace := fun asIndex entryKernelVa stackPhys =>
      (Paging.buildServiceAddressSpace l (fun _ _ => 0) asIndex entryKernelVa stackPhys).map
        Prod.snd }

end AxiomRT.Paging
