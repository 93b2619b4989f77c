import AxiomRT.Memory.Proofs.PageTableProofs
import AxiomRT.Paging.Proofs.ArenaProofs

/-!
# Proofs: the Sv39 tables against the page table model

The arena takes a mapping as soon as an Sv39 leaf can encode it. The model asks for more: it also
looks at where the page and the frame lie, and at user access to device memory.
-/

namespace AxiomRT.Memory

open Paging

/-- `map_page` accepts the mapping in some arena. -/
def ArenaAccepts (va pa : ℕ) (perms : Permissions) : Prop :=
  ∃ a a' : Arena, a.mapPage va pa perms = some (a', .ok ())

/-- The rules of the model that no leaf encodes: no user access to devices, no user access to the
kernel range, and the user window for user mappings only. -/
structure Placed (va pa : ℕ) (perms : Permissions) : Prop where
  userDevice : perms.user = true → perms.device = false
  kernelFrame : perms.user = true → isKernel pa = false
  window : isUser va = perms.user

/-- Some arena accepts exactly the mappings that a leaf can hold. -/
theorem arenaAccepts_iff {va pa : ℕ} {perms : Permissions} :
    ArenaAccepts va pa perms ↔ Encodable va pa perms := by
  constructor
  · rintro ⟨a, a', h⟩
    by_contra henc
    obtain ⟨err, herr⟩ := a.mapPage_refused henc
    rw [herr] at h
    cases h
  · intro h
    obtain ⟨a', ha'⟩ :=
      @Arena.new_mapPage (fun _ _ => 0) 3 0 (le_refl 3) (fun _ => rfl) (by decide) (by decide)
        _ _ _ h
    exact ⟨_, a', ha'⟩

/-- A mapping that the arena accepts passes the stateless rules of the model exactly when it is
placed as the model asks. -/
theorem arenaAccepts_refines_iff (va pa : ℕ) (perms : Permissions) :
    (ArenaAccepts va pa perms → PageTable.checkStateless va pa perms = .ok ()) ↔
      (Encodable va pa perms → Placed va pa perms) := by
  rw [arenaAccepts_iff, PageTable.checkStateless_ok]
  constructor
  · intro h henc
    have hadm := h henc
    exact ⟨hadm.userDevice, hadm.kernelFrame, hadm.window⟩
  · intro h henc
    obtain ⟨hdev, hker, hwin⟩ := h henc
    refine ⟨henc.va_aligned, henc.pa_aligned, henc.access, ?_, hdev, henc.deviceExecute, hker, hwin⟩
    rintro hu ⟨hw, hx⟩
    exact henc.wx ⟨hu, hw, hx⟩

/-- A user page on a frame of the kernel image, a user page with device access, and the page of the
UART in the kernel's own table: the arena accepts them, the model does not. -/
theorem arenaAccepts_refused :
    (ArenaAccepts 0x10000 0x80250000 ⟨true, false, true, true, false⟩ ∧
      PageTable.checkStateless 0x10000 0x80250000 ⟨true, false, true, true, false⟩ =
        .error .kernelFrameUserMapped) ∧
    (ArenaAccepts 0x10000 0x10001000 ⟨true, true, false, true, true⟩ ∧
      PageTable.checkStateless 0x10000 0x10001000 ⟨true, true, false, true, true⟩ =
        .error .deviceRuleViolation) ∧
    (ArenaAccepts 0x10000000 0x10000000 .kernelDevice ∧
      PageTable.checkStateless 0x10000000 0x10000000 .kernelDevice = .error .rangeViolation) := by
  refine ⟨⟨arenaAccepts_iff.mpr ?_, rfl⟩, ⟨arenaAccepts_iff.mpr ?_, rfl⟩,
    ⟨arenaAccepts_iff.mpr ?_, rfl⟩⟩
  · exact ⟨rfl, rfl, by decide, by decide, by decide, by decide⟩
  · exact ⟨rfl, rfl, by decide, by decide, by decide, by decide⟩
  · exact ⟨rfl, rfl, by decide, by decide, by decide, by decide⟩

end AxiomRT.Memory
