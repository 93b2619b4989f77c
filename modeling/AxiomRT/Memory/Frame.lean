import AxiomRT.Paging.Sv39

/-!
# Addresses and physical frames

The address ranges of `kernel/src/memory/address.rs` and the frame lifecycle of
`kernel/src/memory/frame.rs`. Virtual and physical addresses are natural numbers here.
-/

namespace AxiomRT.Memory

open Paging (pageSize)

/-! ## Addresses -/

/-- The region reserved for the kernel: its image, stacks and static pools. -/
abbrev kernelRangeStart : ℕ := 0x80200000

/-- End of the region reserved for the kernel. -/
abbrev kernelRangeEnd : ℕ := 0x88000000

/-- The user virtual window. Page zero is outside, so that null dereferences fault. -/
abbrev userRangeStart : ℕ := 0x1000

/-- End of the user virtual window. -/
abbrev userRangeEnd : ℕ := 0x40000000

/-- Round down to the containing page boundary. -/
def pageBase (addr : ℕ) : ℕ := addr - addr % pageSize

/-- The address lies in the user virtual window. -/
def isUser (va : ℕ) : Bool := decide (userRangeStart ≤ va) && decide (va < userRangeEnd)

/-- The address lies in the region reserved for the kernel. -/
def isKernel (pa : ℕ) : Bool := decide (kernelRangeStart ≤ pa) && decide (pa < kernelRangeEnd)

/-! ## Frames -/

/-- The identifier of an address space. -/
abbrev AddressSpaceId : Type := ℕ

/-- Who owns a frame. -/
inductive FrameOwner
  | freePool
  | kernel
  | addressSpace (id : AddressSpaceId)
  deriving DecidableEq, Repr

/-- Where a frame is in its lifecycle. -/
inductive FrameState
  | free
  | allocated
  | mapped
  /-- Held after a fault for analysis, never reused. -/
  | quarantined
  deriving DecidableEq, Repr

/-- Why a lifecycle operation is refused. -/
inductive FrameError
  | notFree
  | notAllocated
  | notMapped
  | invalidOwner
  | quarantined
  | stillMapped
  deriving DecidableEq, Repr

/-- A frame of physical memory. -/
structure PhysicalFrame where
  base : ℕ
  state : FrameState
  owner : FrameOwner
  deriving DecidableEq, Repr

namespace PhysicalFrame

/-- A frame of the free pool. -/
def newFree (base : ℕ) : PhysicalFrame := ⟨base, .free, .freePool⟩

/-- Give a free frame to an owner. -/
def allocate (f : PhysicalFrame) (owner : FrameOwner) : Except FrameError PhysicalFrame :=
  if owner = .freePool then .error .invalidOwner
  else
    match f.state with
    | .free => .ok { f with state := .allocated, owner := owner }
    | .quarantined => .error .quarantined
    | _ => .error .notFree

/-- Note that a page table maps the frame. -/
def markMapped (f : PhysicalFrame) : Except FrameError PhysicalFrame :=
  match f.state with
  | .allocated => .ok { f with state := .mapped }
  | .quarantined => .error .quarantined
  | _ => .error .notAllocated

/-- Note that the mapping of the frame is gone. -/
def markUnmapped (f : PhysicalFrame) : Except FrameError PhysicalFrame :=
  match f.state with
  | .mapped => .ok { f with state := .allocated }
  | .quarantined => .error .quarantined
  | _ => .error .notMapped

/-- Back to the pool; a mapped frame has to be unmapped first. -/
def free (f : PhysicalFrame) : Except FrameError PhysicalFrame :=
  match f.state with
  | .allocated => .ok { f with state := .free, owner := .freePool }
  | .mapped => .error .stillMapped
  | .quarantined => .error .quarantined
  | .free => .error .notAllocated

/-- Take an owned frame out of use for good. The owner stays recorded. -/
def quarantine (f : PhysicalFrame) : Except FrameError PhysicalFrame :=
  match f.state with
  | .allocated | .mapped => .ok { f with state := .quarantined }
  | .quarantined => .error .quarantined
  | .free => .error .notAllocated

end PhysicalFrame

end AxiomRT.Memory
