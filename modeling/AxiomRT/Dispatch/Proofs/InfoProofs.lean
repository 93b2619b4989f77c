import AxiomRT.Dispatch.Evidence
import AxiomRT.Dispatch.Proofs.RecoveryProofs
import AxiomRT.Dispatch.Proofs.RendezvousProofs
import AxiomRT.Dispatch.Proofs.SnapshotProofs
import AxiomRT.Lib.Ring
import Mathlib.Data.List.Induction

/-!
# Proofs: snapshots against what they should show

The event ring holds the last events of the run, and a snapshot is the text of its lines, cut off at
the size of the snapshot buffer.
-/

namespace AxiomRT.Dispatch

open Lib

variable {img : Image} {k k' : Kernel}

/-! ## Cut-off text -/

theorem take_take_append {α : Type*} (n : ℕ) (l l' : List α) :
    ((l.take n) ++ l').take n = (l ++ l').take n := by
  rw [List.take_append, List.take_append, List.take_take, Nat.min_self, List.length_take]
  congr 2
  omega

/-- A loop that appends a line per element builds the text of all lines, cut off. -/
theorem InfoBuf.foldl_take {α : Type} {f : InfoBuf → α → InfoBuf} {line : α → List UInt8}
    (hf : ∀ out a, out.Fits → f out a = (out ++ line a).take infoMax) {out : InfoBuf}
    (hout : out.Fits) (l : List α) :
    l.foldl f out = (out ++ l.flatMap line).take infoMax := by
  induction l using List.reverseRecOn with
  | nil => rw [List.foldl_nil, List.flatMap_nil, List.append_nil, List.take_of_length_le hout]
  | append_singleton l a ih =>
    have hfits : InfoBuf.Fits ((out ++ l.flatMap line).take infoMax) := by
      unfold InfoBuf.Fits
      rw [List.length_take]
      exact Nat.min_le_left _ _
    rw [List.foldl_append, ih, List.foldl_cons, List.foldl_nil, hf _ _ hfits, take_take_append,
      List.flatMap_append, List.flatMap_singleton, List.append_assoc]

/-- The same from the empty buffer. -/
theorem InfoBuf.foldl_nil_take {α : Type} {f : InfoBuf → α → InfoBuf} {line : α → List UInt8}
    (hf : ∀ out a, out.Fits → f out a = (out ++ line a).take infoMax) (l : List α) :
    l.foldl f [] = (l.flatMap line).take infoMax :=
  InfoBuf.foldl_take hf InfoBuf.Fits.nil l

namespace InfoBuf.Fits

variable {out : InfoBuf}

theorem pushByte_eq (h : out.Fits) (b : UInt8) : out.pushByte b = (out ++ [b]).take infoMax := by
  unfold InfoBuf.pushByte
  split_ifs with hlt
  · rw [List.take_of_length_le]
    rw [List.length_append, List.length_singleton]
    exact hlt
  · have hlen : infoMax = out.length := Nat.le_antisymm (Nat.not_lt.mp hlt) h
    rw [hlen, List.take_left]

theorem pushBytes_eq (h : out.Fits) (bs : List UInt8) :
    out.pushBytes bs = (out ++ bs).take infoMax := by
  have hfold : bs.foldl InfoBuf.pushByte out = (out ++ bs.flatMap fun b => [b]).take infoMax :=
    InfoBuf.foldl_take (fun _ b hout => hout.pushByte_eq b) h bs
  rw [List.flatMap_singleton'] at hfold
  exact hfold

theorem pushAll_eq (h : out.Fits) (items : List InfoItem) :
    out.pushAll items = (out ++ lineOf items).take infoMax := by
  refine InfoBuf.foldl_take ?_ h items
  intro out item hout
  cases item with
  | str s => exact hout.pushBytes_eq _
  | dec v =>
    show out.pushDec v = (out ++ if v = 0 then [48] else InfoBuf.decLoop 20 v []).take infoMax
    unfold InfoBuf.pushDec
    split_ifs
    · exact hout.pushByte_eq 48
    · exact hout.pushBytes_eq _

/-- An element that is passed over. -/
theorem skip_eq (h : out.Fits) : out = (out ++ []).take infoMax := by
  rw [List.append_nil, List.take_of_length_le h]

end InfoBuf.Fits

theorem flatten_filter_map {α β : Type} (l : List α) (p : α → Bool) (line : α → List β) :
    ((l.filter p).map line).flatten = l.flatMap fun a => if p a then line a else [] := by
  induction l with
  | nil => rfl
  | cons a l ih => cases hp : p a <;> simp [hp, ih]

/-! ## The event ring -/

/-- The ring after `evs` were pushed: the head counts them, and the last cells hold the last of
them. -/
structure RingHolds (k : Kernel) (evs : List (EvKind × Slot)) : Prop where
  head : k.ringHead = evs.length % 2 ^ 64
  cells : ∀ m (h : m < evs.length), evs.length ≤ m + ringLen →
    k.ring (Fin.ofNat ringLen m) = evs[m]

/-- The head is a 64-bit counter, and the ring length divides its range. -/
theorem ofNat_mod_head (n : ℕ) : Fin.ofNat ringLen (n % 2 ^ 64) = Fin.ofNat ringLen n :=
  Fin.ext (Nat.mod_mod_of_dvd n (by decide))

namespace RingHolds

variable {evs : List (EvKind × Slot)}

/-- An entry goes to the cell after the last one, over the oldest entry if the ring is full. -/
theorem push (h : RingHolds k evs) (e : EvKind × Slot)
    (hring : k'.ring = Function.update k.ring (Fin.ofNat ringLen k.ringHead) e)
    (hhead : k'.ringHead = wrappingInc k.ringHead) : RingHolds k' (evs ++ [e]) := by
  rw [h.head, ofNat_mod_head] at hring
  constructor
  · rw [hhead, h.head, List.length_append, List.length_singleton]
    exact Nat.mod_add_mod _ _ _
  · intro m hm hlast
    rw [List.length_append, List.length_singleton] at hm hlast
    rcases Nat.lt_succ_iff_lt_or_eq.mp hm with hlt | rfl
    · have hne : ringIndex ringLen 0 m ≠ ringIndex ringLen 0 evs.length :=
        ringIndex_ne hlt (by omega)
      rw [ringIndex, ringIndex, Nat.zero_add, Nat.zero_add] at hne
      rw [hring, Function.update_of_ne hne, List.getElem_append_left hlt]
      exact h.cells m hlt (by omega)
    · rw [hring, Function.update_self, List.getElem_concat_length rfl]

/-- What a step does to the ring is what it is said to push. -/
theorem step {ev : Event} (h : RingHolds k evs) (hstep : step img k ev = .ok k') :
    RingHolds k' (evs ++ pushedAt k k') := by
  rcases (step_ring_cases hstep).2 with ⟨hring, hhead⟩ | ⟨e, -, hring, hhead⟩
  · rw [pushedAt, if_pos hhead, List.append_nil]
    refine ⟨hhead.trans h.head, ?_⟩
    rw [hring]
    exact h.cells
  · have hne : k'.ringHead ≠ k.ringHead := by
      rw [hhead]
      exact wrappingInc_ne _
    have he : k'.ring (Fin.ofNat ringLen k.ringHead) = e := by
      rw [hring, Function.update_self]
    rw [pushedAt, if_neg hne, he]
    exact h.push e hring hhead

/-- As long as the counter has not wrapped, the window that `info_ring` walks is the end of the
history. -/
theorem ringWindow_last (h : RingHolds k evs) (hn : evs.length < 2 ^ 64) :
    ringWindow k.ring (k.ringHead - min k.ringHead ringLen) (min k.ringHead ringLen) =
      evs.drop (evs.length - ringLen) := by
  have hhead : k.ringHead = evs.length := h.head.trans (Nat.mod_eq_of_lt hn)
  rw [hhead]
  apply List.ext_getElem
  · rw [length_ringWindow, List.length_drop]
    omega
  · intro j hj _
    rw [length_ringWindow] at hj
    have hcell := h.cells (evs.length - min evs.length ringLen + j) (by omega) (by omega)
    simp only [ringWindow, List.getElem_map, List.getElem_range, List.getElem_drop]
    rw [ringIndex, hcell]
    congr 1
    omega

end RingHolds

/-- Boot writes nothing to the ring. -/
theorem bootWith_ringHead (ops : List BootOp) : (bootWith img ops).ringHead = 0 := by
  have hops : (ops.foldl Kernel.bootOp (initial img)).ringHead = 0 := by
    have hinit : (initial img).ringHead = 0 := rfl
    refine List.foldlRecOn ops Kernel.bootOp (motive := fun k => k.ringHead = 0) hinit ?_
    intro k hk op _
    cases op <;> exact hk
  exact hops

theorem run_ringHolds (x : Run img) :
    ∀ i, i ≤ x.len → RingHolds (x.st i) (pushedBefore x i) := by
  refine x.induct ?_ ?_
  · obtain ⟨ops, hk⟩ := x.init_st
    refine ⟨?_, fun m hm => absurd hm (Nat.not_lt_zero m)⟩
    rw [hk]
    exact bootWith_ringHead ops
  · intro i hi h
    exact h.step (x.step_st i hi)

/-! ## Snapshots as cut-off text -/

theorem Kernel.infoTasks_eq (k : Kernel) : k.infoTasks [] =
    ((((List.finRange maxTasks).filter fun s => (k.tasks s).state ≠ .empty).map
      (taskLine k)).flatten).take infoMax := by
  rw [flatten_filter_map, Kernel.infoTasks]
  refine InfoBuf.foldl_nil_take ?_ _
  intro out i hout
  by_cases hempty : (k.tasks i).state = .empty
  · simpa [hempty] using hout.skip_eq
  · simp only [hempty, if_false, ne_eq, not_false_eq_true, decide_true, if_true]
    exact hout.pushAll_eq _

/-- The test by which `info_ring` passes over an event. -/
theorem skips_eq (onlyFaults : Bool) (e : EvKind × Slot) :
    (onlyFaults && e.1 != .fault && e.1 != .capDenied) = !(!onlyFaults || isFaultEvent e) := by
  cases onlyFaults <;> simp [isFaultEvent, bne, Bool.not_or]

theorem Kernel.infoRing_eq (k : Kernel) (onlyFaults : Bool) : k.infoRing [] onlyFaults =
    ((((ringWindow k.ring (k.ringHead - min k.ringHead ringLen) (min k.ringHead ringLen)).filter
      fun e => !onlyFaults || isFaultEvent e).map (eventLine k)).flatten).take infoMax := by
  rw [flatten_filter_map, ringWindow, List.flatMap_map, Kernel.infoRing]
  refine InfoBuf.foldl_nil_take ?_ _
  intro out j hout
  have hskip := skips_eq onlyFaults
    (k.ring (Fin.ofNat ringLen (k.ringHead - min k.ringHead ringLen + j)))
  dsimp only
  rw [hskip, ringIndex]
  cases !onlyFaults ||
      isFaultEvent (k.ring (Fin.ofNat ringLen (k.ringHead - min k.ringHead ringLen + j))) with
  | true => exact hout.pushAll_eq _
  | false => exact hout.skip_eq

/-- The snapshots of the tasks and of the events are the text of their lines, cut off. -/
theorem run_infoSnapshot (x : Run img) {i kind : ℕ} (hi : i ≤ x.len)
    (hkind : kind = 0 ∨ kind = 1 ∨ kind = 6) (hn : (pushedBefore x i).length < 2 ^ 64)
    (slot : ℕ) :
    (x.st i).infoSnapshot kind slot = some ((infoLines x i kind).flatten.take infoMax) := by
  have hring := (run_ringHolds x i hi).ringWindow_last hn
  rcases hkind with rfl | rfl | rfl
  · exact congrArg some (x.st i).infoTasks_eq
  · have hfaults := (x.st i).infoRing_eq true
    rw [hring] at hfaults
    exact congrArg some hfaults
  · have hevents := (x.st i).infoRing_eq false
    simp only [hring, Bool.not_false, Bool.true_or, List.filter_true] at hevents
    exact congrArg some hevents

/-! ## The syscall -/

/-- With enough room the whole snapshot is copied out. -/
theorem Kernel.sysInfo_copies {out : InfoBuf}
    (hauth : k.capFind k.current .info rightRecv = true) (hroom : infoMax ≤ k.frame.arg 2)
    (hvalid : inStackWindow (k.frame.arg 1) infoMax = true)
    (hout : k.infoSnapshot (k.frame.arg 0) (k.frame.arg 3) = some out) :
    k.sysInfo.toCore = (k.toCore.copyBytesToUser (k.frame.arg 1) out).setA0 out.length := by
  have hfits : out.length ≤ infoMax := Kernel.infoSnapshot_fits hout
  have hmin : min (k.frame.arg 2) infoMax = infoMax := Nat.min_eq_right hroom
  have hlen : min out.length (k.frame.arg 2) = out.length := Nat.min_eq_left (by omega)
  simp only [Kernel.sysInfo, hauth, hmin, hvalid, hout, hlen, List.take_length, Bool.not_true]
  rfl

/-- The caller gets the first bytes of the text, and their number. -/
theorem InfoAt.returns {x : Run img} {i kind va : ℕ} {t : Slot} (h : InfoAt x i t kind va)
    (hkind : kind = 0 ∨ kind = 1 ∨ kind = 6) (hn : (pushedBefore x i).length < 2 ^ 64) :
    (x.st (i + 1)).current = t ∧
      (x.st (i + 1)).frame.a0 = ((infoLines x i kind).flatten.take infoMax).length ∧
      (x.st (i + 1)).seen va ((infoLines x i kind).flatten.take infoMax).length =
        (infoLines x i kind).flatten.take infoMax := by
  have hlen : ((infoLines x i kind).flatten.take infoMax).length ≤ infoMax :=
    List.length_take_le _ _
  have hsnap := run_infoSnapshot x h.call.lt.le hkind hn
  set out := (infoLines x i kind).flatten.take infoMax
  set k₁ := (((x.st i).core (·.enter (x.ev i))).core (·.advance)).core
    ({ · with watchdogMiss := 0 }) with hk₁
  have hnext : x.st (i + 1) = k₁.sysInfo := by
    have hsys : k₁.frame.sys = some .info := h.call.sys
    have hstep := x.step_st i h.call.lt
    simp only [step, h.call.trap, Kernel.onSyscall, ← hk₁, hsys] at hstep
    exact (Except.ok.inj hstep).symm
  have hcopies : k₁.sysInfo.toCore = (k₁.toCore.copyBytesToUser va out).setA0 out.length := by
    have hva : k₁.frame.arg 1 = va := h.va_eq
    have hvalid := h.valid
    rw [← hva] at hvalid ⊢
    refine Kernel.sysInfo_copies ?_ h.room hvalid ?_
    · have hcaller : k₁.current = t := h.call.caller
      rw [hcaller]
      exact h.authorized
    · have hkind' : k₁.frame.arg 0 = kind := h.kind_eq
      rw [hkind']
      exact hsnap _
  rw [hnext, hcopies]
  refine ⟨h.call.caller, ?_, ?_⟩
  · exact TrapFrame.a0_setA0 _ (by omega) (by simp only [infoMax] at hlen; omega)
  · rw [Core.setA0_seen]
    exact Core.seen_copyBytesToUser k₁.toCore va rfl

/-- A snapshot is complete exactly when the text of its lines fits the snapshot buffer. -/
theorem infoShows_iff (x : Run img) {i kind va : ℕ} {t : Slot} (h : InfoAt x i t kind va)
    (hkind : kind = 0 ∨ kind = 1 ∨ kind = 6) (hn : (pushedBefore x i).length < 2 ^ 64) :
    InfoShows x i t va (infoLines x i kind) ↔ (infoLines x i kind).flatten.length ≤ infoMax := by
  obtain ⟨hcur, ha0, hseen⟩ := h.returns hkind hn
  constructor
  · rintro ⟨-, hall, -⟩
    rw [hall, List.length_take] at ha0
    omega
  · intro hfits
    rw [List.take_of_length_le hfits] at ha0 hseen
    exact ⟨hcur, ha0, hseen⟩

/-- `init_service` starts the shell and exits; the shell makes `n` calls it has no right to and asks
for the events. -/
def deniedCalls (n : ℕ) : List Event :=
  [sampleCall 8 3 0 0 0, sampleCall 2 0 0 0 0] ++
    (List.replicate n (sampleCall 3 1 0x200000 1 0) ++ [sampleCall 11 6 0x200000 768 0])

theorem survives_deniedCalls_one : survives (deniedCalls 1) = true := rfl

theorem survives_deniedCalls_many : survives (deniedCalls 19) = true := rfl

/-- After one denied call the lines of the three events fit, and all of them are shown. -/
theorem deniedCalls_one_shown :
    InfoAt (sampleRun (deniedCalls 1) survives_deniedCalls_one) 3 4 6 0x200000 ∧
      InfoShows (sampleRun (deniedCalls 1) survives_deniedCalls_one) 3 4 0x200000
        (infoLines (sampleRun (deniedCalls 1) survives_deniedCalls_one) 3 6) := by
  have h : InfoAt (sampleRun (deniedCalls 1) survives_deniedCalls_one) 3 4 6 0x200000 :=
    ⟨⟨by decide, rfl, rfl, rfl⟩, rfl, rfl, rfl, by decide, rfl⟩
  exact ⟨h, (infoShows_iff _ h (by decide) (by decide)).2 (by decide +kernel)⟩

/-- After twenty-one events the text is 821 bytes long: the line before the last is cut off, and the
last event is not shown. -/
theorem deniedCalls_many_cut :
    ¬ ∀ (x : Run sampleImage) (i : ℕ) (t : Slot) (kind va : ℕ), InfoAt x i t kind va →
      kind = 0 ∨ kind = 1 ∨ kind = 6 → (pushedBefore x i).length < 2 ^ 64 →
        InfoShows x i t va (infoLines x i kind) := by
  intro hall
  set x := sampleRun (deniedCalls 19) survives_deniedCalls_many with hx
  have h : InfoAt x 21 4 6 0x200000 :=
    ⟨⟨by decide, rfl, rfl, rfl⟩, rfl, rfl, rfl, by decide, rfl⟩
  have hn : (pushedBefore x 21).length < 2 ^ 64 := by decide
  have htext : (infoLines x 21 6).flatten.length = 821 := by decide +kernel
  obtain ⟨-, hshown, -⟩ := hall x 21 4 6 0x200000 h (by decide) hn
  obtain ⟨-, hcut, -⟩ := h.returns (by decide) hn
  rw [hshown, List.length_take, htext] at hcut
  exact absurd hcut (by decide)

end AxiomRT.Dispatch
