import AxiomRT.Lib.Checked
import AxiomRT.User.Image
import AxiomRT.User.Storage

/-!
# The parsers over raw pointers

The helpers of `os_boot.rs` once more, with every `read_volatile`, every pointer offset and every
sum and difference as a checked operation. A pointer comes with its length as in the source. The
loops add one to their counter by a checked addition before they go on.
-/

namespace AxiomRT.User.Raw

open Lib
open Lib.Checked

/-! ## Comparison -/

/-- The loop of `eqs` from index `i` on. -/
def eqsLoop (p q : List UInt8) (n i : ℕ) : Checked Bool :=
  if i < n then do
    let a ← readAt p i
    let b ← readAt q i
    if a ≠ b then pure false
    else do
      let _ ← usizeAdd i 1
      eqsLoop p q n (i + 1)
  else pure true
termination_by n - i

/-- Byte-equality of the `n` bytes at `p` and the `m` bytes at `q`. -/
def eqs (p : List UInt8) (n : ℕ) (q : List UInt8) (m : ℕ) : Checked Bool :=
  if n ≠ m then pure false else eqsLoop p q n 0

/-- True if the `n` bytes at `p` start with the `m` bytes at `q`. -/
def startsWith (p : List UInt8) (n : ℕ) (q : List UInt8) (m : ℕ) : Checked Bool :=
  if n < m then pure false else eqs p m q m

/-! ## Numbers -/

/-- The loop of `parse_dec_stop` from index `i` on; `any` says whether a digit was read. -/
def parseDecStopLoop (p : List UInt8) (n : ℕ) (v : UInt64) (i : ℕ) (any : Bool) :
    Checked (UInt64 × ℕ) :=
  if i < n then do
    let b ← readAt p i
    if b < 48 ∨ 57 < b then pure (if any then (v, i) else (u64Max, i))
    else do
      let d ← sub UInt8.toNat b 48
      let _ ← usizeAdd i 1
      -- `wrapping_mul` and `wrapping_add`: the value may wrap, it is no index.
      parseDecStopLoop p n (v * 10 + d.toUInt64) (i + 1) true
  else pure (if any then (v, i) else (u64Max, i))
termination_by n - i

/-- Decimal number from `start` on and the index behind it; `u64Max` if there is no digit. -/
def parseDecStop (p : List UInt8) (start n : ℕ) : Checked (UInt64 × ℕ) :=
  parseDecStopLoop p n 0 start false

/-- The value of a lowercase hex digit. -/
def hexDigit (b : UInt8) : Checked (Option UInt32) :=
  if 48 ≤ b ∧ b ≤ 57 then do
    let d ← sub UInt8.toNat b 48
    pure (some d.toUInt32)
  else if 97 ≤ b ∧ b ≤ 102 then do
    let d ← sub UInt8.toNat b 97
    let d ← add UInt8.toNat 8 d 10
    pure (some d.toUInt32)
  else pure none

/-- The loop of `parse_hex4` from its `k`-th digit on. -/
def parseHexLoop (p : List UInt8) (i k : ℕ) (v : UInt32) : Checked UInt32 :=
  if k < 4 then do
    let cell ← usizeAdd i k
    let b ← readAt p cell
    match ← hexDigit b with
    | some d => do
      let _ ← usizeAdd k 1
      parseHexLoop p i (k + 1) ((v <<< 4) ||| d)
    | none => pure u32Max
  else pure v
termination_by 4 - k

/-- Parse exactly 4 lowercase hex digits at index `i`; `u32Max` on any other input. -/
def parseHex4 (p : List UInt8) (i : ℕ) : Checked UInt32 := parseHexLoop p i 0 0

/-! ## Records -/

/-- End of the token that starts at `j`: the first space, or `n`. -/
def tokEnd (p : List UInt8) (j n : ℕ) : Checked ℕ :=
  if j < n then do
    let b ← readAt p j
    if b = 32 then pure j
    else do
      let _ ← usizeAdd j 1
      tokEnd p (j + 1) n
  else pure j
termination_by n - j

/-- The loop of `ck_sum` from index `i` on. -/
def ckSumLoop (p : List UInt8) (stop i : ℕ) (s : UInt32) : Checked UInt32 :=
  if i < stop then do
    let b ← readAt p i
    let sum ← add UInt32.toNat 32 s b.toUInt32
    let _ ← usizeAdd i 1
    ckSumLoop p stop (i + 1) (sum &&& 0xffff)
  else pure s
termination_by stop - i

/-- 16-bit additive checksum over the first `stop` bytes. -/
def ckSum (p : List UInt8) (stop : ℕ) : Checked UInt32 := ckSumLoop p stop 0 0

/-- Expect a space at `j` followed by a decimal number: the value and the index after the digits, or
`u64Max` on bad input. -/
def ldNumAfter (p : List UInt8) (j n : ℕ) : Checked (UInt64 × ℕ) :=
  if n ≤ j then pure (u64Max, j)
  else do
    let b ← readAt p j
    if b ≠ 32 then pure (u64Max, j)
    else do
      let start ← usizeAdd j 1
      parseDecStop p start n

/-- Length, magic and checksum. -/
def ldSeal (rp : List UInt8) (rl : ℕ) : Checked UInt8 :=
  if rl < ldMagic.length + 6 then pure 4
  else do
    let magic ← startsWith rp rl ldMagic ldMagic.length
    if !magic then pure 1
    else do
      let tail ← usizeSub rl 5
      let b ← readAt rp tail
      if b ≠ 32 then pure 4
      else do
        let digits ← usizeSub rl 4
        let want ← parseHex4 rp digits
        if want = u32Max then pure 4
        else do
          let tail ← usizeSub rl 5
          let sum ← ckSum rp tail
          if sum ≠ want then pure 2 else pure 0

/-- The four numbers behind the name. -/
def ldNums (rp : List UInt8) (i1 rl : ℕ) : Checked LdNums := do
  let (e, j1) ← ldNumAfter rp i1 rl
  let (t, j2) ← ldNumAfter rp j1 rl
  let (rd, j3) ← ldNumAfter rp j2 rl
  let (s, j4) ← ldNumAfter rp j3 rl
  pure ⟨e, t, rd, s, j4⟩

/-- The sum of the sizes is computed behind the bounds on them. -/
def ldBadLayout (n : LdNums) (z : UInt64) : Checked Bool :=
  if n.t = 0 ∨ 65536 < n.t ∨ 65536 < n.rd then pure true
  else do
    let size ← add UInt64.toNat 64 n.t n.rd
    pure (decide (z ≠ size) || decide (131072 < z) || decide (n.t ≤ n.e) || decide (n.s ≠ 1))

/-- The capability word against the policy of the app. -/
def ldPolicy (caps : List UInt8) (len : ℕ) (name : List UInt8) (nl : ℕ) : Checked UInt8 := do
  let wantConsole ← eqs caps len (umsg "console") (umsg "console").length
  let known ←
    if wantConsole then pure true else eqs caps len (umsg "none") (umsg "none").length
  if !known then pure 3
  else do
    let hello ← eqs name nl (umsg "hello") (umsg "hello").length
    let runnable ←
      if hello then pure true else eqs name nl (umsg "counter") (umsg "counter").length
    if runnable then pure 0
    else do
      let fault ← eqs name nl (umsg "fault_demo") (umsg "fault_demo").length
      if fault then if wantConsole then pure 3 else pure 0
      else pure 5

/-- Validate a record for an app. Codes as in `User.ldValidate`. -/
def ldValidate (rp : List UInt8) (rl : ℕ) (name : List UInt8) (nl : ℕ) : Checked UInt8 := do
  let code ← ldSeal rp rl
  if code ≠ 0 then pure code
  else do
    let i0 := ldMagic.length
    let i1 ← tokEnd rp i0 rl
    if i1 ≤ i0 then pure 4
    else do
      let token ← advance rp i0
      let len ← usizeSub i1 i0
      let same ← eqs token len name nl
      if !same then pure 1
      else do
        let n ← ldNums rp i1 rl
        if n.e = u64Max ∨ n.t = u64Max ∨ n.rd = u64Max ∨ n.s = u64Max then pure 4
        else if rl ≤ n.next then pure 4
        else do
          let b ← readAt rp n.next
          if b ≠ 32 then pure 4
          else do
            let c0 ← usizeAdd n.next 1
            let c1 ← tokEnd rp c0 rl
            if c1 ≤ c0 then pure 4
            else do
              let (z, j5) ← ldNumAfter rp c1 rl
              if z = u64Max then pure 4
              else do
                let tail ← usizeSub rl 5
                if j5 ≠ tail then pure 4
                else do
                  let bad ← ldBadLayout n z
                  if bad then pure 1
                  else do
                    let caps ← advance rp c0
                    let len ← usizeSub c1 c0
                    ldPolicy caps len name nl

/-! ## Storage requests -/

/-- The parsing of a range request, up to the reply that is sent. -/
def storageRange (bp : List UInt8) (n : ℕ) : Checked (UserProg Unit) := do
  let (start, i) ← parseDecStop bp (umsg "READ_RANGE start=").length n
  let after ← usizeAdd i (umsg " count=").length
  if start = u64Max ∨ n < after then pure (reply (umsg "ERR malformed"))
  else do
    let word ← advance bp i
    let count ← eqs word (umsg " count=").length (umsg " count=") (umsg " count=").length
    if !count then pure (reply (umsg "ERR malformed"))
    else do
      let (count, stop) ← parseDecStop bp after n
      if count = u64Max ∨ stop ≠ n then pure (reply (umsg "ERR malformed"))
      else if count ≠ 1 then pure (reply (umsg "ERR too_many_blocks"))
      else pure (blockReply start)

/-- The parsing of one request of `storage_body`, up to the reply that is sent. -/
def storageHandle (bp : List UInt8) (n : ℕ) : Checked (UserProg Unit) := do
  let info ← eqs bp n (umsg "INFO") (umsg "INFO").length
  if info then pure (reply (umsg "OK block_size=48 blocks=8 readonly=true"))
  else do
    let read ← startsWith bp n (umsg "READ block=") (umsg "READ block=").length
    if read then do
      let (blk, stop) ← parseDecStop bp (umsg "READ block=").length n
      if blk = u64Max ∨ stop ≠ n then pure (reply (umsg "ERR malformed"))
      else pure (blockReply blk)
    else do
      let range ← startsWith bp n (umsg "READ_RANGE start=") (umsg "READ_RANGE start=").length
      if range then storageRange bp n else pure (reply (umsg "ERR malformed"))

end AxiomRT.User.Raw
