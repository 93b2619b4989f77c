import Mathlib.Data.Nat.Bitwise
import AxiomRT.Paging.Arena

/-!
# What an entry decodes to

An entry is a word of ten flag bits under a page number. Pointers and leaves decode to what they
were built from, as far as the 44 bits of the page number go.
-/

namespace AxiomRT.Paging

/-! ## Words of flags and a page number -/

theorem flags_and {m : ℕ} (hm : m < 2 ^ 10) (f n : ℕ) : (f ||| n <<< 10) &&& m = f &&& m := by
  apply Nat.eq_of_testBit_eq
  intro i
  by_cases hi : i < 10
  · simp only [Nat.testBit_and, Nat.testBit_or, Nat.testBit_shiftLeft, ge_iff_le,
      Nat.not_le.mpr hi, decide_false, Bool.false_and, Bool.or_false]
  · have hbit : m.testBit i = false :=
      Nat.testBit_lt_two_pow (Nat.lt_of_lt_of_le hm (Nat.pow_le_pow_right (by decide) (by omega)))
    simp only [Nat.testBit_and, hbit, Bool.and_false]

theorem flags_shiftRight {f : ℕ} (hf : f < 2 ^ 10) (n : ℕ) : (f ||| n <<< 10) >>> 10 = n := by
  rw [Nat.shiftRight_or_distrib, Nat.shiftLeft_shiftRight, Nat.shiftRight_eq_zero _ _ hf,
    Nat.zero_or]

theorem page_of_aligned {addr : ℕ} (h : isPageAligned addr = true) :
    addr / pageSize * pageSize = addr := by
  have hmod : addr % pageSize = 0 := by simpa [isPageAligned] using h
  exact Nat.div_mul_cancel (Nat.dvd_of_mod_eq_zero hmod)

namespace Pte

/-- The entry with the given flags for the page of `addr`. -/
def ofFlags (f addr : ℕ) : Pte := ⟨f ||| ppnField addr⟩

theorem ofFlags_ppn {f : ℕ} (hf : f < 2 ^ 10) (addr : ℕ) :
    (ofFlags f addr).ppn = addr / pageSize % 2 ^ 44 := by
  unfold ppn ofFlags ppnField
  rw [flags_shiftRight hf, Nat.shiftRight_eq_div_pow]
  exact Nat.and_two_pow_sub_one_eq_mod _ 44

/-- Below the 56 bits of a physical address the page number is exact. -/
theorem ofFlags_ppn_of_lt {f addr : ℕ} (hf : f < 2 ^ 10) (haddr : addr < 2 ^ 56) :
    (ofFlags f addr).ppn = addr / pageSize := by
  rw [ofFlags_ppn hf]
  apply Nat.mod_eq_of_lt
  exact Nat.div_lt_of_lt_mul haddr

theorem ofFlags_isValid (f addr : ℕ) : (ofFlags f addr).isValid = (⟨f⟩ : Pte).isValid := by
  unfold isValid ofFlags ppnField
  rw [flags_and (by decide)]

theorem ofFlags_isLeaf (f addr : ℕ) : (ofFlags f addr).isLeaf = (⟨f⟩ : Pte).isLeaf := by
  unfold isLeaf
  rw [ofFlags_isValid]
  unfold ofFlags ppnField
  rw [flags_and (by decide)]

/-! ## Pointers -/

theorem pointer_ok {addr : ℕ} (h : isPageAligned addr = true) :
    pointer addr = .ok (ofFlags pteV addr) := by
  unfold pointer
  rw [h]
  rfl

theorem pointer_isValid (addr : ℕ) : (ofFlags pteV addr).isValid = true :=
  (ofFlags_isValid ..).trans (by decide)

theorem pointer_not_leaf (addr : ℕ) : (ofFlags pteV addr).isLeaf = false :=
  (ofFlags_isLeaf ..).trans (by decide)

theorem zero_not_valid : (⟨0⟩ : Pte).isValid = false := by decide

/-! ## Leaves -/

/-- The flags of a leaf with the given permissions. -/
def leafFlags (perms : Permissions) : ℕ :=
  pteV ||| (if perms.read then pteR else 0) ||| (if perms.write then pteW else 0) |||
    (if perms.execute then pteX else 0) ||| (if perms.user then pteU else 0) ||| (pteA ||| pteD)

/-- What `translate` reads off a leaf. -/
def permissions (e : Pte) : Permissions where
  read := e.readable
  write := e.writable
  execute := e.executable
  user := e.isUser
  device := false

theorem leafFlags_lt (perms : Permissions) : leafFlags perms < 2 ^ 10 := by
  obtain ⟨r, w, x, u, d⟩ := perms
  revert r w x u d
  decide

/-- What `leaf` returns: an entry without R and X would be a pointer, and is rejected. -/
theorem leaf_eq_ok {frame : ℕ} {perms : Permissions} {e : Pte} (h : leaf frame perms = .ok e) :
    isPageAligned frame = true ∧ (perms.read = true ∨ perms.execute = true) ∧
      e = ofFlags (leafFlags perms) frame := by
  unfold leaf at h
  cases hal : isPageAligned frame with
  | false =>
    rw [hal] at h
    cases h
  | true =>
    rw [hal] at h
    refine ⟨rfl, ?_⟩
    obtain ⟨r, w, x, u, d⟩ := perms
    cases r <;> cases w <;> cases x <;> cases u <;> cases d <;> cases h <;>
      refine ⟨by decide, ?_⟩ <;> unfold ofFlags leafFlags <;> congr 1 <;>
      simp only [if_true, if_false, Nat.or_zero, Bool.false_eq_true] <;> ac_rfl

theorem leaf_isLeaf {perms : Permissions} (h : perms.read = true ∨ perms.execute = true)
    (frame : ℕ) : (ofFlags (leafFlags perms) frame).isLeaf = true := by
  rw [ofFlags_isLeaf]
  obtain ⟨r, w, x, u, d⟩ := perms
  revert r w x u d
  decide

theorem leaf_permissions (perms : Permissions) (frame : ℕ) :
    (ofFlags (leafFlags perms) frame).permissions = { perms with device := false } := by
  unfold permissions readable writable executable isUser ofFlags ppnField
  rw [flags_and (by decide), flags_and (by decide), flags_and (by decide), flags_and (by decide)]
  obtain ⟨r, w, x, u, d⟩ := perms
  revert r w x u d
  decide

/-- A leaf built for a physical page decodes to that page. -/
theorem leaf_decodes {pa : ℕ} {perms : Permissions} {e : Pte} (h : leaf pa perms = .ok e)
    (hpa : pa < 2 ^ 56) :
    e.ppn * pageSize = pa ∧ e.permissions = { perms with device := false } := by
  obtain ⟨hal, -, rfl⟩ := leaf_eq_ok h
  refine ⟨?_, leaf_permissions ..⟩
  rw [ofFlags_ppn_of_lt (leafFlags_lt _) hpa]
  exact page_of_aligned hal

end Pte

end AxiomRT.Paging
