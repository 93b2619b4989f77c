import AxiomRT.Dispatch.Proofs.PanicProofs

/-!
# Proofs: device accesses

Every access stays inside the region of a device that its caller holds the right for, and the bounce
page behaves as memory: a read returns, byte by byte, what was last written.
-/

namespace AxiomRT.Dispatch

open Lib

variable {img : Image} {c : Core} {sys : Sys} {op : DeviceOp} {dev : DevId} {l l' : Log}
  {result : Int} {a : BusAccess}

/-! ## Little-endian bytes -/

/-- Byte `j` of a loaded value is the byte at position `j`. -/
theorem dmaLoad_byte (dma : Nat → UInt8) {offset width j : Nat} (hj : j < width) :
    UInt8.ofNat (Kernel.dmaLoad dma offset width / 256 ^ j) = dma (offset + j) := by
  induction width generalizing offset j with
  | zero => omega
  | succ w ih =>
    have hbyte := (dma offset).toNat_lt
    rw [Kernel.dmaLoad]
    cases j with
    | zero =>
      apply UInt8.toNat_inj.mp
      show _ = (dma offset).toNat
      rw [Nat.pow_zero, Nat.div_one, UInt8.toNat_ofNat']
      omega
    | succ j =>
      have htail : ((dma offset).toNat + 256 * Kernel.dmaLoad dma (offset + 1) w) / 256 =
          Kernel.dmaLoad dma (offset + 1) w := by
        omega
      rw [Nat.pow_succ', ← Nat.div_div_eq_div_mul, htail, ih (by omega)]
      congr 1
      omega

/-- Truncation to `width` bytes keeps each of them. -/
theorem byte_of_mod (value : Nat) {width j : Nat} (hj : j < width) :
    UInt8.ofNat (value % 256 ^ width / 256 ^ j) = UInt8.ofNat (value / 256 ^ j) := by
  have hpow : 256 ^ width = 256 ^ j * 256 ^ (width - j) := by
    rw [← Nat.pow_add, Nat.add_sub_cancel' (by omega)]
  have hdvd : 256 ^ 1 ∣ 256 ^ (width - j) := Nat.pow_dvd_pow 256 (by omega)
  apply UInt8.toNat_inj.mp
  rw [UInt8.toNat_ofNat', UInt8.toNat_ofNat', hpow, Nat.mod_mul_right_div_self]
  exact Nat.mod_mod_of_dvd _ hdvd

/-! ## One access -/

theorem Region.base_aligned (himg : img.dmaBase % 4096 = 0) (region : Region) (dev : DevId) :
    region.base img dev % 4 = 0 := by
  cases region with
  | mmio =>
    have hbases : ∀ dev : DevId, (devices dev).mmioBase % 4 = 0 := by decide
    exact hbases dev
  | dma =>
    show img.dmaBase % 4 = 0
    omega

namespace Accessed

theorem addr (h : Accessed img c sys op dev l l' result a) :
    a.addr = op.region.base img dev + c.frame.arg 1 :=
  congrArg BusAccess.addr h.access

theorem width (h : Accessed img c sys op dev l l' result a) : a.width = c.frame.arg 2 :=
  congrArg BusAccess.width h.access

theorem bus (h : Accessed img c sys op dev l l' result a) : l'.bus = l.bus ++ [a] :=
  congrArg Log.bus h.log

theorem allows (himg : img.dmaBase % 4096 = 0) (h : Accessed img c sys op dev l l' result a) :
    op.Allows img dev a := by
  obtain ⟨hwidth, haligned, hend⟩ := accessInBounds_spec h.bounds
  have hbase := op.region.base_aligned himg dev
  have haddr := h.addr
  rw [← h.width] at hwidth haligned hend
  refine ⟨congrArg BusAccess.write h.access, hwidth, ?_, by omega, by omega⟩
  rw [haddr]
  rcases hwidth with hw | hw | hw <;> rw [hw] at haligned ⊢ <;> omega

/-- A call that makes an access does not return an error code. -/
theorem result_nonneg (h : Accessed img c sys op dev l l' result a) : 0 ≤ result := by
  rw [h.done]
  split_ifs
  · exact le_refl 0
  · exact Int.natCast_nonneg _

/-- The positions of the bounce page that a DMA access touches. -/
theorem covers_iff (h : Accessed img c sys op dev l l' result a) (hdma : op.region = .dma)
    (p : Nat) :
    a.Covers (img.dmaBase + p) ↔ c.frame.arg 1 ≤ p ∧ p < c.frame.arg 1 + c.frame.arg 2 := by
  have haddr : a.addr = img.dmaBase + c.frame.arg 1 := by
    rw [h.addr, hdma]
    rfl
  unfold BusAccess.Covers
  rw [haddr, h.width]
  omega

/-- A DMA access touches positions of the bounce page only. -/
theorem exists_position (h : Accessed img c sys op dev l l' result a) (hdma : op.region = .dma)
    {addr : Nat} (hcov : a.Covers addr) :
    ∃ j, j < c.frame.arg 2 ∧ addr = img.dmaBase + (c.frame.arg 1 + j) ∧ addr - a.addr = j := by
  have haddr : a.addr = img.dmaBase + c.frame.arg 1 := by
    rw [h.addr, hdma]
    rfl
  obtain ⟨hlo, hhi⟩ := hcov
  rw [h.width] at hhi
  exact ⟨addr - a.addr, by omega, by omega, rfl⟩

/-- What a DMA read returns for each of its bytes is the byte of the page. -/
theorem read_byte (h : Accessed img c .dmaRead op dev l l' result a) (hdma : op.region = .dma)
    {p : Nat} (hcov : a.Covers (img.dmaBase + p)) : a.byte (img.dmaBase + p) = l.dma p := by
  obtain ⟨j, hj, haddr, hsub⟩ := h.exists_position hdma hcov
  have hp : p = c.frame.arg 1 + j := by omega
  unfold BusAccess.byte
  rw [hsub, h.loaded rfl, dmaLoad_byte l.dma hj, hp]

/-- A DMA write puts its bytes where it goes. -/
theorem write_byte (h : Accessed img c .dmaWrite op dev l l' result a) (hdma : op.region = .dma)
    {p : Nat} (hcov : a.Covers (img.dmaBase + p)) : l'.dma p = a.byte (img.dmaBase + p) := by
  obtain ⟨j, hj, haddr, hsub⟩ := h.exists_position hdma hcov
  have hp : p - c.frame.arg 1 = j := by omega
  have hstore : l'.dma = Kernel.dmaStore l.dma (c.frame.arg 1) (c.frame.arg 2) (c.frame.arg 3) :=
    congrArg Log.dma h.log
  unfold BusAccess.byte
  rw [hsub, h.stored rfl, byte_of_mod _ hj, hstore]
  simp only [Kernel.dmaStore]
  rw [if_pos ((h.covers_iff hdma p).mp hcov), hp]

/-- No other byte of the bounce page changes. -/
theorem dma_other (h : Accessed img c sys op dev l l' result a) (hop : sys.deviceOp = some op)
    {p : Nat} (hp : sys = .dmaWrite → ¬ a.Covers (img.dmaBase + p)) : l'.dma p = l.dma p := by
  have hdma := congrArg Log.dma h.log
  by_cases hs : sys = .dmaWrite
  · subst hs
    cases hop
    have hout := (h.covers_iff rfl p).not.mp (hp rfl)
    rw [hdma]
    exact if_neg hout
  · simp only [if_neg hs] at hdma
    rw [hdma]

end Accessed

/-! ## Runs -/

section Runs

variable {x : Run img} {i m : ℕ} {t : Slot}

theorem CallAt.device (hc : CallAt x i t sys) (hop : sys.deviceOp = some op) :
    DeviceCall img (entry x i) sys op (x.st i).log (x.st (i + 1)).log (x.st (i + 1)).frame.a0 :=
  step_log_device ⟨hc.trap, hc.sys, hop⟩ (x.step_st i hc.lt)

theorem AccessAt.accessed (ha : AccessAt x i t sys a) (hop : sys.deviceOp = some op) :
    ∃ dev, Accessed img (entry x i) sys op dev (x.st i).log (x.st (i + 1)).log
      (x.st (i + 1)).frame.a0 a := by
  cases ha.call.device hop with
  | refused logs code =>
    have hsame : (x.st i).bus ++ [a] = (x.st i).bus := ha.made.symm.trans logs.bus_same.1
    exact absurd hsame (by simp)
  | @accessed dev a' made =>
    have heq : (x.st i).bus ++ [a'] = (x.st i).bus ++ [a] := made.bus.symm.trans ha.made
    have ha' : a' = a := by simpa using heq
    exact ⟨dev, ha' ▸ made⟩

/-- A step makes no access, or it is a device call that makes one. -/
theorem run_access (x : Run img) (hi : i < x.len) :
    ((x.st (i + 1)).bus = (x.st i).bus ∧ (x.st (i + 1)).dma = (x.st i).dma) ∨
      ∃ sys op dev a, AccessAt x i (x.st i).current sys a ∧ sys.deviceOp = some op ∧
        Accessed img (entry x i) sys op dev (x.st i).log (x.st (i + 1)).log
          (x.st (i + 1)).frame.a0 a := by
  have hstep := x.step_st i hi
  by_cases hdev : ∃ sys op, CallsDevice (x.ev i) sys op
  · obtain ⟨sys, op, ht, hs, hop⟩ := hdev
    cases step_log_device ⟨ht, hs, hop⟩ hstep with
    | refused logs code => exact Or.inl logs.bus_same
    | accessed made => exact Or.inr ⟨sys, op, _, _, ⟨⟨hi, rfl, ht, hs⟩, made.bus⟩, hop, made⟩
  · exact Or.inl (step_bus_same (fun sys op hcall => hdev ⟨sys, op, hcall⟩) hstep)

/-- A byte that no DMA write touches stays. -/
theorem dma_of_not_writesAt (hi : i < x.len) {p : Nat}
    (hno : ¬ DmaWritesAt x i (img.dmaBase + p)) : (x.st (i + 1)).dma p = (x.st i).dma p := by
  rcases run_access x hi with ⟨-, hdma⟩ | ⟨sys, op, dev, a, ha, hop, made⟩
  · exact congrFun hdma p
  · refine made.dma_other hop fun hs hcov => hno ?_
    subst hs
    exact ⟨_, a, ha, hcov⟩

theorem LastWritten.succ {addr : Nat} {b : UInt8} (h : LastWritten x m addr b)
    (hno : ¬ DmaWritesAt x m addr) : LastWritten x (m + 1) addr b := by
  rcases h with ⟨i, t, a, hi, ha, hcov, hb, hlast⟩ | ⟨hnone, hb⟩
  · refine Or.inl ⟨i, t, a, by omega, ha, hcov, hb, fun j hij hj => ?_⟩
    rcases Nat.lt_succ_iff_lt_or_eq.mp hj with hj | rfl
    · exact hlast j hij hj
    · exact hno
  · refine Or.inr ⟨fun j hj => ?_, hb⟩
    rcases Nat.lt_succ_iff_lt_or_eq.mp hj with hj | rfl
    · exact hnone j hj
    · exact hno

/-- The bounce page starts out zero. -/
theorem Booted.dma {k : Kernel} (h : Booted img k) (p : Nat) : k.dma p = 0 := by
  have hkept : k.dma = (initial img).dma :=
    h.keeps (f := Kernel.dma) (fun k op => by cases op <;> rfl) fun _ => rfl
  rw [hkept]
  rfl

/-- Each byte of the bounce page is the one last written there. -/
theorem run_lastWritten (x : Run img) :
    ∀ m, m ≤ x.len → ∀ p, LastWritten x m (img.dmaBase + p) ((x.st m).dma p) := by
  refine x.induct ?_ ?_
  · intro p
    exact Or.inr ⟨fun j hj => absurd hj (Nat.not_lt_zero j), x.init_st.dma p⟩
  · intro m hm ih p
    by_cases hw : DmaWritesAt x m (img.dmaBase + p)
    · obtain ⟨t, a, ha, hcov⟩ := hw
      obtain ⟨dev, made⟩ := ha.accessed rfl
      refine Or.inl ⟨m, t, a, Nat.lt_succ_self m, ha, hcov, made.write_byte rfl hcov, ?_⟩
      intro j hlt hle
      omega
    · rw [dma_of_not_writesAt hm hw]
      exact (ih p).succ hw

theorem AccessAt.read (ha : AccessAt x i t .dmaRead a) :
    (x.st (i + 1)).frame.a0 = a.value ∧ a.value < 256 ^ a.width ∧
      ∀ addr, a.Covers addr → LastWritten x i addr (a.byte addr) := by
  obtain ⟨dev, made⟩ := ha.accessed rfl
  refine ⟨made.done, ?_, ?_⟩
  · rw [made.width]
    exact made.fits
  · intro addr hcov
    obtain ⟨j, -, haddr, -⟩ := made.exists_position rfl hcov
    subst haddr
    rw [made.read_byte rfl hcov]
    exact run_lastWritten x i (Nat.le_of_lt ha.call.lt) _

theorem AccessAt.write (ha : AccessAt x i t .dmaWrite a) :
    a.value = (entry x i).frame.arg 3 % 256 ^ a.width ∧
      ∀ p, ¬ a.Covers (img.dmaBase + p) → (x.st (i + 1)).dma p = (x.st i).dma p := by
  obtain ⟨dev, made⟩ := ha.accessed rfl
  refine ⟨?_, ?_⟩
  · rw [made.width]
    exact made.stored rfl
  · intro p hp
    exact made.dma_other rfl fun _ => hp

/-- A device call fails exactly if it makes no access. -/
theorem CallAt.refused_iff (hc : CallAt x i t sys) (hop : sys.deviceOp = some op) :
    (x.st (i + 1)).frame.a0 < 0 ↔ (x.st (i + 1)).bus = (x.st i).bus := by
  cases hc.device hop with
  | refused logs code => exact ⟨fun _ => logs.bus_same.1, fun _ => code⟩
  | @accessed dev a made =>
    have hnonneg := made.result_nonneg
    have hbus : (x.st (i + 1)).bus = (x.st i).bus ++ [a] := made.bus
    rw [hbus]
    constructor
    · intro hneg
      omega
    · intro hsame
      exact absurd hsame (by simp)

/-- The bounce page is page-aligned (`repr(align(4096))`), so that an aligned offset is an aligned
address. -/
theorem run_devicesConfined (x : Run img) (himg : img.dmaBase % 4096 = 0) : DevicesConfined x where
  access := by
    intro i hi
    rcases run_access x hi with ⟨hsame, -⟩ | ⟨sys, op, dev, a, ha, hop, made⟩
    · exact Or.inl hsame
    · exact Or.inr ⟨_, sys, a, dev, op, ha, hop, made.allows himg,
        deviceCapCheck_holds made.resolves⟩
  refused := fun i t sys op hc hop => hc.refused_iff hop
  page := by
    intro i t sys op a ha hop hdma
    obtain ⟨dev, made⟩ := ha.accessed hop
    obtain ⟨-, -, -, hlo, hhi⟩ := made.allows himg
    have hsize := (devices_fit dev).2
    rw [hdma] at hlo hhi
    simp only [Region.base, Region.size] at hlo hhi
    exact ⟨hlo, by omega⟩
  read := fun i t a ha => ha.read
  write := fun i t a ha => ha.write

end Runs

/-- The call with a fourth argument. -/
def sampleStore (num a0 a1 a2 a3 : UInt64) : Event :=
  let ev := sampleCall num a0 a1 a2 0
  { ev with frame := { ev.frame with regs := Function.update ev.frame.regs 12 a3 } }

/-- The block driver writes four bytes to its bounce page, and reads the upper two back. -/
def bounced : List Event :=
  [sampleCall 8 12 0 0 0, sampleCall 2 0 0 0 0, sampleStore 19 1 8 4 0x11223344,
    sampleCall 18 1 10 2 0]

theorem survives_bounced : survives bounced = true := rfl

theorem bounced_devicesConfined :
    (sampleState bounced 4).frame.a0 = 0x1122 ∧
      DevicesConfined (sampleRun bounced survives_bounced) :=
  ⟨rfl, run_devicesConfined _ rfl⟩

end AxiomRT.Dispatch
