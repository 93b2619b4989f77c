import AxiomRT.Dispatch.Device

/-!
# Proofs: snapshot buffers

A snapshot never outgrows its buffer: text beyond the capacity is dropped byte by byte.
-/

namespace AxiomRT.Dispatch

/-- The snapshot fits the buffer. -/
def InfoBuf.Fits (out : InfoBuf) : Prop := out.length ≤ infoMax

namespace InfoBuf.Fits

variable {out : InfoBuf}

theorem nil : InfoBuf.Fits [] := Nat.zero_le _

theorem pushByte (h : out.Fits) (b : UInt8) : (out.pushByte b).Fits := by
  unfold InfoBuf.pushByte
  split_ifs with hlt
  · unfold Fits
    rw [List.length_append, List.length_singleton]
    exact hlt
  · exact h

/-- A loop that keeps the buffer within its capacity. -/
theorem foldl {α : Type} {f : InfoBuf → α → InfoBuf} (hf : ∀ out a, out.Fits → (f out a).Fits)
    (l : List α) (h : out.Fits) : (l.foldl f out).Fits :=
  List.foldlRecOn l f h fun out hout a _ => hf out a hout

theorem pushBytes (h : out.Fits) (bs : List UInt8) : (out.pushBytes bs).Fits :=
  foldl (fun _ b hout => hout.pushByte b) bs h

theorem pushStr (h : out.Fits) (s : String) : (out.pushStr s).Fits := h.pushBytes _

theorem pushDec (h : out.Fits) (v : Nat) : (out.pushDec v).Fits := by
  unfold InfoBuf.pushDec
  split_ifs
  · exact h.pushByte _
  · exact h.pushBytes _

theorem pushAll (h : out.Fits) (items : List InfoItem) : (out.pushAll items).Fits := by
  refine foldl ?_ items h
  intro out item hout
  cases item with
  | str s => exact hout.pushStr s
  | dec v => exact hout.pushDec v

end InfoBuf.Fits

namespace Kernel

variable {out : InfoBuf}

theorem infoTasks_fits (k : Kernel) (h : out.Fits) : (k.infoTasks out).Fits := by
  refine .foldl ?_ _ h
  intro out i hout
  dsimp only
  split_ifs
  · exact hout
  · exact hout.pushAll _

theorem infoRing_fits (k : Kernel) (onlyFaults : Bool) (h : out.Fits) :
    (k.infoRing out onlyFaults).Fits := by
  refine .foldl ?_ _ h
  intro out j hout
  dsimp only
  split
  · exact hout
  · exact hout.pushAll _

theorem infoIpc_fits (k : Kernel) (h : out.Fits) : (k.infoIpc out).Fits :=
  InfoBuf.Fits.pushAll (.foldl (fun _ _ hout => hout.pushAll _) _ h) _

theorem infoCaps_fits (k : Kernel) (h : out.Fits) : (k.infoCaps out).Fits := by
  refine .foldl ?_ _ h
  intro out i hout
  dsimp only
  split_ifs
  · exact hout
  · refine InfoBuf.Fits.pushStr ?_ _
    refine .foldl ?_ _ (hout.pushAll _)
    intro out j hout
    cases (k.tasks i).caps j with
    | none => exact hout
    | some cap => exact hout.pushStr _

theorem infoSnapshot_fits {k : Kernel} {kind slot : Nat} (h : k.infoSnapshot kind slot = some out) :
    out.Fits := by
  unfold infoSnapshot at h
  split at h
  · cases h
    exact k.infoTasks_fits .nil
  · cases h
    exact k.infoRing_fits true .nil
  · cases h
    exact k.infoIpc_fits .nil
  · cases h
    exact k.infoCaps_fits .nil
  · cases h
    exact InfoBuf.Fits.nil.pushAll _
  · cases h
    exact InfoBuf.Fits.nil.pushAll _
  · cases h
    exact k.infoRing_fits false .nil
  · split_ifs at h
    cases h
    exact InfoBuf.Fits.nil.pushStr _
  · cases h

end Kernel

end AxiomRT.Dispatch
