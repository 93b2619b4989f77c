import Mathlib.Data.Fin.Basic
import Mathlib.Logic.Function.Basic
import AxiomRT.Memory.Frame

/-!
# The page table model

The page tables of `kernel/src/memory/pagetable.rs`: the specification the hardware tables of
`AxiomRT.Paging` are to refine. A table is a fixed array of mappings; which frame is mapped where is
recorded in the table only, the frame just knows that it is mapped.
-/

namespace AxiomRT.Memory

open Paging (Permissions isPageAligned)

/-- Mappings of one address space. -/
abbrev maxMappings : ℕ := 64

/-- A page, the frame it is mapped to, and with what permissions. -/
structure Mapping where
  vpage : ℕ
  frame : ℕ
  perms : Permissions
  deriving DecidableEq, Repr

/-- Why a mapping is refused. -/
inductive MapError
  | misaligned
  | kernelFrameUserMapped
  | notOwner
  | frameNotMappable
  | rangeViolation
  | wxViolation
  | deviceRuleViolation
  | invalidPermissions
  | alreadyMapped
  | tableFull
  | notMapped
  deriving DecidableEq, Repr

/-- The `expect` that could fail. -/
inductive Panic
  | markMapped
  deriving DecidableEq, Repr

/-- The mappings of one address space. -/
structure PageTable where
  owner : AddressSpaceId
  entries : Fin maxMappings → Option Mapping

namespace PageTable

/-- The table without a mapping. -/
def new (owner : AddressSpaceId) : PageTable := ⟨owner, fun _ => none⟩

/-- The entry is a mapping of the page of `vpage`. -/
def covers (vpage : ℕ) (e : Option Mapping) : Bool :=
  match e with
  | some m => m.vpage == pageBase vpage
  | none => false

/-- The first slot with a mapping of the page of `vpage`. -/
def slotOf (t : PageTable) (vpage : ℕ) : Option (Fin maxMappings) :=
  Fin.find? fun s => covers vpage (t.entries s)

/-- The mapping of the page of `vpage`. -/
def lookup (t : PageTable) (vpage : ℕ) : Option Mapping := (t.slotOf vpage).bind t.entries

/-- Number of live mappings. -/
def len (t : PageTable) : ℕ := (List.finRange maxMappings).countP fun s => (t.entries s).isSome

/-- The first slot without a mapping. -/
def freeSlot (t : PageTable) : Option (Fin maxMappings) := Fin.find? fun s => (t.entries s).isNone

/-- Overwrite one slot. -/
def set (t : PageTable) (s : Fin maxMappings) (e : Option Mapping) : PageTable :=
  { t with entries := Function.update t.entries s e }

/-- The rules about the permissions alone. -/
def validatePerms (perms : Permissions) : Except MapError Unit :=
  if !perms.read && !perms.write && !perms.execute then .error .invalidPermissions
  else if perms.user && (perms.write && perms.execute) then .error .wxViolation
  else if perms.user && perms.device then .error .deviceRuleViolation
  else if perms.device && perms.execute then .error .deviceRuleViolation
  else .ok ()

/-- The rules of `map` that read neither the table nor the lifecycle of the frame (its steps 1
to 4): alignment, permissions, the kernel range and the user window. -/
def checkStateless (vpage frame : ℕ) (perms : Permissions) : Except MapError Unit := do
  if !isPageAligned vpage || !isPageAligned frame then throw .misaligned
  validatePerms perms
  if perms.user && isKernel frame then throw .kernelFrameUserMapped
  if perms.user && !isUser vpage then throw .rangeViolation
  if !perms.user && isUser vpage then throw .rangeViolation

/-- The owner a frame must have to be mapped with these permissions. -/
def ownerFor (t : PageTable) (perms : Permissions) : FrameOwner :=
  if perms.user then .addressSpace t.owner else .kernel

/-- Insert a mapping and mark the frame mapped. The outcome is the table, the frame and the
result. -/
def map (t : PageTable) (vpage : ℕ) (f : PhysicalFrame) (perms : Permissions) :
    Except Panic (PageTable × PhysicalFrame × Except MapError Unit) :=
  match checkStateless vpage f.base perms with
  | .error e => .ok (t, f, .error e)
  | .ok () =>
    if f.owner ≠ t.ownerFor perms then .ok (t, f, .error .notOwner)
    else if f.state ≠ .allocated then .ok (t, f, .error .frameNotMappable)
    else if (t.lookup vpage).isSome then .ok (t, f, .error .alreadyMapped)
    else
      match t.freeSlot with
      | none => .ok (t, f, .error .tableFull)
      | some s =>
        let t := t.set s (some ⟨vpage, f.base, perms⟩)
        match f.markMapped with
        | .error _ => .error .markMapped
        | .ok f => .ok (t, f, .ok ())

/-- Remove a mapping and return the frame to `allocated`. -/
def unmap (t : PageTable) (vpage : ℕ) (f : PhysicalFrame) :
    PageTable × PhysicalFrame × Except MapError Unit :=
  match t.slotOf vpage with
  | none => (t, f, .error .notMapped)
  | some s =>
    match t.entries s with
    | none => (t, f, .error .notMapped)
    | some m =>
      if m.frame ≠ f.base then (t, f, .error .notMapped)
      else
        match f.markUnmapped with
        | .error _ => (t, f, .error .frameNotMappable)
        | .ok f => (t.set s none, f, .ok ())

end PageTable

/-- One call on a single table, with the frame as the caller holds it. -/
inductive TableCall
  | map (vpage : ℕ) (f : PhysicalFrame) (perms : Permissions)
  | unmap (vpage : ℕ) (f : PhysicalFrame)

/-- The table after a call, whatever its result. -/
def PageTable.call (t : PageTable) : TableCall → Except Panic PageTable
  | .map vpage f perms => (t.map vpage f perms).map Prod.fst
  | .unmap vpage f => .ok (t.unmap vpage f).1

/-! ## A pool of frames and the tables of several address spaces -/

/-- Frames at distinct addresses, and address spaces. Nothing below needs the identifiers of the
address spaces to be distinct. -/
structure Pool (ι κ : Type*) where
  base : ι → ℕ
  base_inj : Function.Injective base
  owner : κ → AddressSpaceId

/-- The frames and the tables as they are. -/
structure MemState (ι κ : Type*) where
  frames : ι → PhysicalFrame
  tables : κ → PageTable

/-- All frames free, all tables empty. -/
def Pool.boot {ι κ : Type*} (p : Pool ι κ) : MemState ι κ where
  frames i := .newFree (p.base i)
  tables k := .new (p.owner k)

/-- One call on a frame, or on a table and a frame. -/
inductive Op (ι κ : Type*)
  | allocate (i : ι) (owner : FrameOwner)
  | free (i : ι)
  | quarantine (i : ι)
  | map (k : κ) (vpage : ℕ) (i : ι) (perms : Permissions)
  | unmap (k : κ) (vpage : ℕ) (i : ι)

namespace MemState

variable {ι κ : Type*} [DecidableEq ι] [DecidableEq κ]

/-- Overwrite one frame. -/
def setFrame (w : MemState ι κ) (i : ι) (f : PhysicalFrame) : MemState ι κ :=
  { w with frames := Function.update w.frames i f }

/-- Overwrite one table. -/
def setTable (w : MemState ι κ) (k : κ) (t : PageTable) : MemState ι κ :=
  { w with tables := Function.update w.tables k t }

/-- The state after a call on frame `i`: a refused call changes nothing. -/
def onFrame (w : MemState ι κ) (i : ι) (r : Except FrameError PhysicalFrame) : MemState ι κ :=
  match r with
  | .error _ => w
  | .ok f => w.setFrame i f

/-- The state after a call on table `k` and frame `i`. -/
def onTable (w : MemState ι κ) (k : κ) (i : ι)
    (r : PageTable × PhysicalFrame × Except MapError Unit) : MemState ι κ :=
  (w.setFrame i r.2.1).setTable k r.1

/-- The memory after a call. -/
def step (w : MemState ι κ) : Op ι κ → Except Panic (MemState ι κ)
  | .allocate i owner => .ok (w.onFrame i ((w.frames i).allocate owner))
  | .free i => .ok (w.onFrame i (w.frames i).free)
  | .quarantine i => .ok (w.onFrame i (w.frames i).quarantine)
  | .map k vpage i perms => ((w.tables k).map vpage (w.frames i) perms).map (w.onTable k i)
  | .unmap k vpage i => .ok (w.onTable k i ((w.tables k).unmap vpage (w.frames i)))

end MemState

end AxiomRT.Memory
