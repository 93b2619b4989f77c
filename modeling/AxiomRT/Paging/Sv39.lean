import Mathlib.Data.Nat.Notation

/-!
# Sv39 page table entries

The entry encoding of `kernel/src/arch/riscv64/sv39.rs` and the permissions of
`kernel/src/memory/pagetable.rs`. The 64-bit words of the source are natural numbers here.
-/

namespace AxiomRT.Paging

/-- 4 KiB pages only. -/
abbrev pageSize : ℕ := 4096

/-- The address is the start of a page. -/
def isPageAligned (addr : ℕ) : Bool := addr % pageSize == 0

/-! ## Permissions -/

/-- What a mapping allows, and to whom. -/
structure Permissions where
  read : Bool
  write : Bool
  execute : Bool
  user : Bool
  device : Bool
  deriving DecidableEq, Repr

namespace Permissions

/-- User text. -/
def userRx : Permissions := ⟨true, false, true, true, false⟩

/-- User data. -/
def userRw : Permissions := ⟨true, true, false, true, false⟩

/-- User constants. -/
def userR : Permissions := ⟨true, false, false, true, false⟩

/-- Kernel data. -/
def kernelRw : Permissions := ⟨true, true, false, false, false⟩

/-- Device registers, for the kernel. -/
def kernelDevice : Permissions := ⟨true, true, false, false, true⟩

end Permissions

/-! ## Entries -/

/-- The entry is valid. -/
abbrev pteV : ℕ := 1 <<< 0

/-- The page may be read. -/
abbrev pteR : ℕ := 1 <<< 1

/-- The page may be written. -/
abbrev pteW : ℕ := 1 <<< 2

/-- The page may be executed. -/
abbrev pteX : ℕ := 1 <<< 3

/-- The page belongs to user mode. -/
abbrev pteU : ℕ := 1 <<< 4

/-- The page was accessed. -/
abbrev pteA : ℕ := 1 <<< 6

/-- The page was written. -/
abbrev pteD : ℕ := 1 <<< 7

/-- A page table entry. -/
structure Pte where
  bits : ℕ
  deriving DecidableEq, Repr

/-- Why an entry cannot be built. -/
inductive PteError
  | misaligned
  | noAccess
  | writeWithoutRead
  | userWx
  | deviceExecute
  deriving DecidableEq, Repr

/-- The physical page number of `addr`, shifted to bit 10. -/
def ppnField (addr : ℕ) : ℕ := (addr >>> 12) <<< 10

namespace Pte

/-- The hardware looks at the entry. -/
def isValid (p : Pte) : Bool := p.bits &&& pteV != 0

/-- A valid entry with one of R, W and X; without them it points to the next level. -/
def isLeaf (p : Pte) : Bool := p.isValid && p.bits &&& (pteR ||| pteW ||| pteX) != 0

/-- The entry is for user mode. -/
def isUser (p : Pte) : Bool := p.bits &&& pteU != 0

/-- Loads through the entry are allowed. -/
def readable (p : Pte) : Bool := p.bits &&& pteR != 0

/-- Stores through the entry are allowed. -/
def writable (p : Pte) : Bool := p.bits &&& pteW != 0

/-- Fetches through the entry are allowed. -/
def executable (p : Pte) : Bool := p.bits &&& pteX != 0

/-- The physical page number field, 44 bits wide. -/
def ppn (p : Pte) : ℕ := (p.bits >>> 10) &&& 0xfffffffffff

/-- An entry that points to a next-level table. -/
def pointer (nextTable : ℕ) : Except PteError Pte :=
  if !isPageAligned nextTable then .error .misaligned
  else .ok ⟨pteV ||| ppnField nextTable⟩

/-- A leaf entry; every illegal combination of permissions is rejected. -/
def leaf (frame : ℕ) (perms : Permissions) : Except PteError Pte :=
  if !isPageAligned frame then .error .misaligned
  else if !perms.read && !perms.write && !perms.execute then .error .noAccess
  else if perms.write && !perms.read then .error .writeWithoutRead
  else if perms.user && perms.write && perms.execute then .error .userWx
  else if perms.device && perms.execute then .error .deviceExecute
  else
    let bits := pteV ||| ppnField frame
    let bits := if perms.read then bits ||| pteR else bits
    let bits := if perms.write then bits ||| pteW else bits
    let bits := if perms.execute then bits ||| pteX else bits
    let bits := if perms.user then bits ||| pteU else bits
    .ok ⟨bits ||| (pteA ||| pteD)⟩

end Pte

end AxiomRT.Paging
