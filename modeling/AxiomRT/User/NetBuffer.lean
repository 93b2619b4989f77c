import Mathlib.Logic.Function.Basic
import AxiomRT.User.Net

/-!
# The decimal writer on its buffers

`nd_dec` of the network driver as it moves bytes: digits go into a scratch buffer of 20 bytes, least
significant first, and are copied back in reverse into the 64-byte reply buffer.
-/

namespace AxiomRT.User

/-- The scratch buffer, with the number of digits it holds. Its other cells are uninitialised
memory. -/
structure Scratch where
  cell : Fin 20 → UInt8
  n : ℕ
  n_le : n ≤ 20

/-- The digit loop. -/
def Scratch.digits (tmp : Scratch) (value : UInt64) : Scratch :=
  if h : 0 < value ∧ tmp.n < 20 then
    let tmp : Scratch :=
      ⟨Function.update tmp.cell ⟨tmp.n, h.2⟩ (48 + (value % 10).toUInt8), tmp.n + 1, h.2⟩
    tmp.digits (value / 10)
  else tmp
termination_by 20 - tmp.n

/-- The copy loop: the last digit of the scratch buffer first. -/
def ndDecCopy (cell : Fin 20 → UInt8) :
    (n : ℕ) → n ≤ 20 → (dst : Fin 64 → UInt8) → (start : ℕ) → (Fin 64 → UInt8) × ℕ
  | 0, _, dst, start => (dst, start)
  | n + 1, hn, dst, start =>
    if h : start < 64 then
      ndDecCopy cell n (Nat.le_of_succ_le hn) (Function.update dst ⟨start, h⟩ (cell ⟨n, hn⟩))
        (start + 1)
    else (dst, start)

/-- Append one decimal number to the buffer at `start`, using the scratch memory `tmp`: the buffer
and the index after the number. -/
def ndDecAt (tmp : Fin 20 → UInt8) (dst : Fin 64 → UInt8) (start : ℕ) (value : UInt64) :
    (Fin 64 → UInt8) × ℕ :=
  if value = 0 then
    if h : start < 64 then (Function.update dst ⟨start, h⟩ 48, start + 1) else (dst, start)
  else
    let tmp := Scratch.digits ⟨tmp, 0, Nat.zero_le 20⟩ value
    ndDecCopy tmp.cell tmp.n tmp.n_le dst start

end AxiomRT.User
