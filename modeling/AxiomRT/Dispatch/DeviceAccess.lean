import AxiomRT.Dispatch.History

/-!
# Device accesses along a run

A driver never touches a device: the kernel makes the one volatile access for it and records it on
the bus. What is said about device accesses is said about the calls that add to this record.
-/

namespace AxiomRT.Dispatch

open Lib

variable {img : Image}

/-- What a device grants access to: its register window, or its bounce page. -/
inductive Region
  | mmio
  | dma
  deriving DecidableEq

/-- Where a region of the device starts. -/
def Region.base (img : Image) (dev : DevId) : Region → Nat
  | .mmio => (devices dev).mmioBase
  | .dma => img.dmaBase

/-- How many bytes a region of the device has. -/
def Region.size (dev : DevId) : Region → Nat
  | .mmio => (devices dev).mmioSize
  | .dma => (devices dev).dmaSize

/-- The right a device access needs, its direction, and the region it goes to. -/
structure DeviceOp where
  required : UInt16
  write : Bool
  region : Region

/-- The system calls that access a device. -/
def Sys.deviceOp : Sys → Option DeviceOp
  | .mmioRead => some ⟨devRightMmioRead, false, .mmio⟩
  | .mmioWrite => some ⟨devRightMmioWrite, true, .mmio⟩
  | .dmaRead => some ⟨devRightDmaRead, false, .dma⟩
  | .dmaWrite => some ⟨devRightDmaWrite, true, .dma⟩
  | _ => none

/-- The access is of the given kind, is naturally aligned and 1, 2 or 4 bytes wide, and lies wholly
inside the region of the device. -/
structure DeviceOp.Allows (img : Image) (dev : DevId) (op : DeviceOp) (a : BusAccess) : Prop where
  kind : a.write = op.write
  width : a.width = 1 ∨ a.width = 2 ∨ a.width = 4
  aligned : a.addr % a.width = 0
  lower : op.region.base img dev ≤ a.addr
  upper : a.addr + a.width ≤ op.region.base img dev + op.region.size dev

/-! ## Bytes -/

/-- The access touches the byte at `addr`. -/
def BusAccess.Covers (a : BusAccess) (addr : Nat) : Prop := a.addr ≤ addr ∧ addr < a.addr + a.width

/-- The byte of the value that belongs to `addr`, in little-endian order. -/
def BusAccess.byte (a : BusAccess) (addr : Nat) : UInt8 :=
  UInt8.ofNat (a.value / 256 ^ (addr - a.addr))

/-! ## Runs -/

/-- At step `i` task `t` issues the system call `sys`, and the kernel makes the access `a` for
it. -/
structure AccessAt (x : Run img) (i : ℕ) (t : Slot) (sys : Sys) (a : BusAccess) : Prop where
  call : CallAt x i t sys
  made : (x.st (i + 1)).bus = (x.st i).bus ++ [a]

/-- Step `i` writes to the bounce page, with an access that touches `addr`. -/
def DmaWritesAt (x : Run img) (i : ℕ) (addr : Nat) : Prop :=
  ∃ t a, AccessAt x i t .dmaWrite a ∧ a.Covers addr

/-- Before step `m`, `b` is the byte that the last DMA write touching `addr` put there; zero if
there was none. -/
def LastWritten (x : Run img) (m : ℕ) (addr : Nat) (b : UInt8) : Prop :=
  (∃ i t a, i < m ∧ AccessAt x i t .dmaWrite a ∧ a.Covers addr ∧ b = a.byte addr ∧
      ∀ j, i < j → j < m → ¬ DmaWritesAt x j addr) ∨
    ((∀ j, j < m → ¬ DmaWritesAt x j addr) ∧ b = 0)

/-- Device accesses are confined: each is made by a device call, inside the region that the caller's
capability is for; a call makes one unless it fails; and the bounce page is memory. -/
structure DevicesConfined (x : Run img) : Prop where
  access : ∀ i, i < x.len → (x.st (i + 1)).bus = (x.st i).bus ∨
    ∃ t sys a dev op, AccessAt x i t sys a ∧ sys.deviceOp = some op ∧ op.Allows img dev a ∧
      ((x.st i).tasks t).caps.holds .device dev.val op.required = true
  refused : ∀ i t sys op, CallAt x i t sys → sys.deviceOp = some op →
    ((x.st (i + 1)).frame.a0 < 0 ↔ (x.st (i + 1)).bus = (x.st i).bus)
  page : ∀ i t sys op a, AccessAt x i t sys a → sys.deviceOp = some op → op.region = .dma →
    img.dmaBase ≤ a.addr ∧ a.addr + a.width ≤ img.dmaBase + 4096
  read : ∀ i t a, AccessAt x i t .dmaRead a →
    (x.st (i + 1)).frame.a0 = a.value ∧ a.value < 256 ^ a.width ∧
      ∀ addr, a.Covers addr → LastWritten x i addr (a.byte addr)
  write : ∀ i t a, AccessAt x i t .dmaWrite a →
    a.value = (entry x i).frame.arg 3 % 256 ^ a.width ∧
      ∀ p, ¬ a.Covers (img.dmaBase + p) → (x.st (i + 1)).dma p = (x.st i).dma p

end AxiomRT.Dispatch
