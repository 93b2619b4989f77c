import AxiomRT.Lib.Execution
import AxiomRT.Dispatch.Boot

/-!
# Runs of the dispatcher

A run starts in the state in which a boot sequence enters user mode and takes one step per trap: any
interleaving of syscalls with any register values, timer interrupts and user faults, until the
dispatcher halts, shuts down or panics.
-/

namespace AxiomRT.Dispatch

open Lib

/-- A run from any boot sequence. -/
abbrev Run (img : Image) : Type := Execution (step img) (Booted img)

/-- A run of the OS boot flow. -/
abbrev OsRun (img : Image) : Type := Execution (step img) (OsBooted img)

theorem OsBooted.booted {img : Image} {k : Kernel} (h : OsBooted img k) : Booted img k := by
  obtain ⟨sstatus, uas, -, hk⟩ := h
  exact ⟨_, hk⟩

/-- The state on entry of the `i`-th trap. -/
def entry {img : Image} {init : Kernel → Prop} (x : Execution (step img) init) (i : ℕ) : Core :=
  (x.st i).toCore.enter (x.ev i)

/-! ## A sample image

Concrete runs are taken on this image: every service gets a root of its own, and a task that traps
has filled its stack page with one byte. -/

/-- The sample image. -/
def sampleImage : Image where
  userTextStart := 0x80250000
  userRodataEnd := 0x80260000
  regionBytes := fun _ => 0
  buildServiceAddressSpace := fun slot _ _ =>
    some ⟨UInt64.ofNat (0x80400000 + slot * 0x10000), 0x10000, 0x201000⟩
  bodyAddr := fun _ => 0x80250000
  osStacks := 0x80300000
  dmaBase := 0x80390000
  osBootFeature := true

/-- The state in which the OS boot flow enters `init_service` on the sample image. -/
def sampleBoot : Kernel :=
  bootWith sampleImage (osBootOps sampleImage 0 ⟨0x80400000, 0x10000, 0x201000⟩)

theorem sampleBoot_osBooted : OsBooted sampleImage sampleBoot :=
  ⟨0, ⟨0x80400000, 0x10000, 0x201000⟩, rfl, rfl⟩

/-- A trap with the given syscall number and arguments; the stack page holds `fill`. -/
def sampleTrap (trap : Trap) (num a0 a1 a2 : UInt64) (fill : UInt8) : Event where
  trap := trap
  frame :=
    { regs := fun i => if i = 16 then num else if i = 9 then a0 else if i = 10 then a1
        else if i = 11 then a2 else 0
      sepc := 0x10000
      sstatus := 0 }
  page := fun _ => fill
  env := ⟨0, [], fun _ _ => 0⟩

/-- A system call. -/
def sampleCall (num a0 a1 a2 : UInt64) (fill : UInt8) : Event :=
  sampleTrap .ecall num a0 a1 a2 fill

/-- A user fault. -/
def sampleFault : Event := sampleTrap (.fault "store_page_fault") 0 0 0 0 0

/-- A timer interrupt. -/
def sampleTick : Event := sampleTrap .timer 0 0 0 0 0

/-- The dispatcher survives these events. -/
def survives (es : List Event) : Bool :=
  match Execution.feed (step sampleImage) sampleBoot es with
  | .ok _ => true
  | .error _ => false

theorem exists_of_survives {es : List Event} (h : survives es = true) :
    ∃ k, Execution.feed (step sampleImage) sampleBoot es = .ok k := by
  unfold survives at h
  cases hf : Execution.feed (step sampleImage) sampleBoot es with
  | ok k => exact ⟨k, rfl⟩
  | error r =>
    rw [hf] at h
    cases h

/-- The run of the OS boot flow on these events. -/
def sampleOsRun (es : List Event) (h : survives es = true) : OsRun sampleImage :=
  .ofEvents _ _ sampleBoot es sampleTick sampleBoot_osBooted (exists_of_survives h)

/-- The same run, seen as a run from any boot sequence. -/
def sampleRun (es : List Event) (h : survives es = true) : Run sampleImage :=
  (sampleOsRun es h).weaken fun _ => OsBooted.booted

/-- The state this run reaches after `i` events. -/
def sampleState (es : List Event) (i : ℕ) : Kernel :=
  Execution.stateAt (step sampleImage) sampleBoot es i

end AxiomRT.Dispatch
