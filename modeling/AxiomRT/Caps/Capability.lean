import Mathlib.Data.Nat.Notation
import Mathlib.Data.Set.Defs
import Mathlib.Logic.Function.Basic

/-!
# Capabilities

Rights, capabilities and capability tables of `kernel/src/caps`. A capability is an object and a set
of rights on it; a task reaches an object only through `lookup` in its table.
-/

namespace AxiomRT.Caps

/-! ## Rights -/

/-- A set of rights, as a bit mask. -/
structure Rights where
  bits : BitVec 16
  deriving DecidableEq, Repr

namespace Rights

/-- The right to send on an endpoint. -/
def send : Rights := ⟨1 <<< 3⟩

/-- The right to receive on an endpoint. -/
def receive : Rights := ⟨1 <<< 4⟩

/-- Every right of `required` is in `r`. -/
def contains (r required : Rights) : Bool := r.bits &&& required.bits == required.bits

/-- Remove rights. -/
def diminish (r removed : Rights) : Rights := ⟨r.bits &&& ~~~removed.bits⟩

end Rights

/-! ## Capabilities -/

/-- The kinds of kernel objects. -/
inductive ObjectType
  | thread
  | endpoint
  | addressSpace
  | physicalFrame
  | timer
  | schedulingContext
  | faultChannel
  deriving DecidableEq, Repr

/-- A kernel object: its kind and its identifier. -/
structure ObjectRef where
  objectType : ObjectType
  objectId : UInt32
  deriving DecidableEq, Repr

/-- An object, and what may be done with it. -/
structure Capability where
  object : ObjectRef
  rights : Rights
  deriving DecidableEq, Repr

/-- A weaker capability for the same object. -/
def Capability.deriveDiminished (c : Capability) (removed : Rights) : Capability :=
  ⟨c.object, c.rights.diminish removed⟩

/-! ## Tables -/

/-- Slots of a table. -/
abbrev capTableSlots : ℕ := 32

/-- Why an operation on a table is refused. -/
inductive CapError
  | invalidIndex
  | emptySlot
  | wrongObjectType
  | insufficientRights
  | slotOccupied
  deriving DecidableEq, Repr

/-- The capabilities of one task. -/
structure CapTable where
  slots : Fin capTableSlots → Option Capability

namespace CapTable

/-- The table without a capability. -/
def new : CapTable := ⟨fun _ => none⟩

/-- Overwrite one slot. -/
def set (t : CapTable) (s : Fin capTableSlots) (c : Option Capability) : CapTable :=
  ⟨Function.update t.slots s c⟩

/-- Put a capability into a slot, which has to be empty. -/
def insert (t : CapTable) (index : ℕ) (cap : Capability) : CapTable × Except CapError Unit :=
  if h : index < capTableSlots then
    if (t.slots ⟨index, h⟩).isSome then (t, .error .slotOccupied)
    else (t.set ⟨index, h⟩ (some cap), .ok ())
  else (t, .error .invalidIndex)

/-- Empty a slot. The slot is cleared before the code looks whether it held anything. -/
def revoke (t : CapTable) (index : ℕ) : CapTable × Except CapError Unit :=
  if h : index < capTableSlots then
    let taken := t.slots ⟨index, h⟩
    let t := t.set ⟨index, h⟩ none
    if taken.isNone then (t, .error .emptySlot) else (t, .ok ())
  else (t, .error .invalidIndex)

/-- Bounds, occupancy, object type and rights are checked in this order; only full success returns
the object. -/
def lookup (t : CapTable) (index : ℕ) (expectedType : ObjectType) (required : Rights) :
    Except CapError ObjectRef :=
  if h : index < capTableSlots then
    match t.slots ⟨index, h⟩ with
    | none => .error .emptySlot
    | some cap =>
      if cap.object.objectType ≠ expectedType then .error .wrongObjectType
      else if !cap.rights.contains required then .error .insufficientRights
      else .ok cap.object
  else .error .invalidIndex

end CapTable

/-! ## Several tables -/

/-- A capability with its history: a minted one, and the rights removed from it step by step. -/
structure Issued (minted : Set Capability) where
  root : Capability
  root_minted : root ∈ minted
  removed : List Rights

/-- The capability at the end of the chain. -/
def Issued.cap {minted : Set Capability} (g : Issued minted) : Capability :=
  g.removed.foldl Capability.deriveDiminished g.root

/-- One call on the table `k`. -/
inductive Op (κ : Type*) (minted : Set Capability)
  | insert (k : κ) (index : ℕ) (g : Issued minted)
  | revoke (k : κ) (index : ℕ)

section Tables

variable {κ : Type*} {minted : Set Capability}

/-- The table and the slot a call is about. -/
def Op.slot : Op κ minted → κ × ℕ
  | .insert k index _ => (k, index)
  | .revoke k index => (k, index)

/-- What the call does to its table, and what it returns. -/
def Op.onTable (t : CapTable) : Op κ minted → CapTable × Except CapError Unit
  | .insert _ index g => t.insert index g.cap
  | .revoke _ index => t.revoke index

/-- What the call returns when the tables are `w`. -/
def Op.reply (w : κ → CapTable) (op : Op κ minted) : Except CapError Unit :=
  (op.onTable (w op.slot.1)).2

variable [DecidableEq κ]

/-- The tables after a call. -/
def step (w : κ → CapTable) (op : Op κ minted) : κ → CapTable :=
  Function.update w op.slot.1 (op.onTable (w op.slot.1)).1

/-- The tables after a sequence of calls; they start empty. -/
def run (ops : List (Op κ minted)) : κ → CapTable := ops.foldl step fun _ => .new

end Tables

end AxiomRT.Caps
