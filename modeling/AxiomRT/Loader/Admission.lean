import Mathlib.Algebra.Ring.Nat

/-!
# Image mapping admission

The admission rules of `kernel/src/loader/mod.rs`: whether a described image layout may be mapped.
-/

namespace AxiomRT.Loader

/-- The kernel virtual base above which no user image may be mapped. -/
abbrev kernelBase : UInt64 := 0x80000000

/-- Maximum total image size: text and read-only data. -/
abbrev maxImageBytes : UInt64 := 131072

/-- A restricted image to be mapped at `baseVa`. Sizes are in bytes. -/
structure ImageLayout where
  baseVa : UInt64
  entryOffset : UInt64
  textSize : UInt64
  rodataSize : UInt64
  stackPages : UInt64
  deriving DecidableEq, Repr

/-- Why a layout may not be mapped. -/
inductive MapReject
  | emptyText
  | entryOutOfText
  | oversized
  | kernelAddress
  | stackPolicy
  deriving DecidableEq, Repr

/-- `u64::checked_add`. -/
def checkedAdd (a b : UInt64) : Option UInt64 :=
  if a.toNat + b.toNat < 2 ^ 64 then some (a + b) else none

/-- `u64::saturating_mul`. -/
def saturatingMul (a b : UInt64) : UInt64 :=
  if a.toNat * b.toNat < 2 ^ 64 then a * b else 0xffffffffffffffff

/-- Admit or reject a mapping. Text is mapped readable and executable, read-only data readable, the
stack readable and writable; the region spans the image and the stack pages behind it. -/
def admitImageMapping (layout : ImageLayout) : Except MapReject Unit :=
  if layout.textSize = 0 then .error .emptyText
  else if layout.textSize ≤ layout.entryOffset then .error .entryOutOfText
  else match checkedAdd layout.textSize layout.rodataSize with
    | none => .error .oversized
    | some imageBytes =>
      if maxImageBytes < imageBytes then .error .oversized
      else if layout.stackPages ≠ 1 then .error .stackPolicy
      else
        let stackBytes := saturatingMul layout.stackPages 4096
        match (checkedAdd imageBytes stackBytes).bind (checkedAdd layout.baseVa) with
        | some e =>
          if layout.baseVa < kernelBase ∧ e ≤ kernelBase then .ok () else .error .kernelAddress
        | none => .error .kernelAddress

end AxiomRT.Loader
