import AxiomRT.User.Text

/-!
# Restricted app image records

The positional parser and the ordered checks that `app_loader_service` applies to a fetched record.
-/

namespace AxiomRT.User

open Lib

/-! ## Tokens and checksum -/

/-- End of the token that starts at `i`: the first space, or the end of the text. -/
def tokEnd (p : List UInt8) (i : ℕ) : ℕ := i + ((p.drop i).takeWhile fun b => b ≠ 32).length

/-- The largest 32-bit word, which `parseHex4` returns on bad input. -/
abbrev u32Max : UInt32 := 0xffffffff

/-- The value of a lowercase hex digit. -/
def hexDigit (b : UInt8) : Option UInt32 :=
  if 48 ≤ b ∧ b ≤ 57 then some (b - 48).toUInt32
  else if 97 ≤ b ∧ b ≤ 102 then some (b - 97 + 10).toUInt32
  else none

/-- The loop of `parse_hex4` over the digits still to be read. -/
def parseHexLoop : List UInt8 → UInt32 → UInt32
  | [], v => v
  | b :: rest, v =>
    match hexDigit b with
    | some d => parseHexLoop rest ((v <<< 4) ||| d)
    | none => u32Max

/-- Parse exactly 4 lowercase hex digits at index `i`; `u32Max` on any other input. -/
def parseHex4 (p : List UInt8) (i : ℕ) : UInt32 := parseHexLoop ((p.drop i).take 4) 0

/-- 16-bit additive checksum over the first `stop` bytes. -/
def ckSum (p : List UInt8) (stop : ℕ) : UInt32 :=
  (p.take stop).foldl (fun s b => (s + b.toUInt32) &&& 0xffff) 0

/-- Expect a space at `j` followed by a decimal number: the value and the index after the digits, or
`u64Max` on bad input. -/
def ldNumAfter (p : List UInt8) (j : ℕ) : UInt64 × ℕ :=
  if p[j]? ≠ some 32 then (u64Max, j) else parseDecStop p (j + 1)

/-! ## Validation -/

/-- What a record starts with. -/
def ldMagic : List UInt8 := umsg "AXAPP1 "

/-- Length, magic and checksum, which are checked before any field. Codes as in `ldValidate`. -/
def ldSeal (rp : List UInt8) : UInt8 :=
  let rl := rp.length
  if rl < ldMagic.length + 6 then 4
  else if !startsWith rp ldMagic then 1
  else if rp[rl - 5]? ≠ some 32 then 4
  else
    let want := parseHex4 rp (rl - 4)
    if want = u32Max then 4
    else if ckSum rp (rl - 5) ≠ want then 2
    else 0

/-- The numbers between the name and the capability word, and the index behind them. -/
structure LdNums where
  e : UInt64
  t : UInt64
  rd : UInt64
  s : UInt64
  next : ℕ
  deriving DecidableEq, Repr

/-- The four numbers behind the name. -/
def ldNums (rp : List UInt8) (i1 : ℕ) : LdNums :=
  let (e, j1) := ldNumAfter rp i1
  let (t, j2) := ldNumAfter rp j1
  let (rd, j3) := ldNumAfter rp j2
  let (s, j4) := ldNumAfter rp j3
  ⟨e, t, rd, s, j4⟩

/-- The layout is refused: sizes out of bounds, entry outside of the text, or a stack beyond the
policy. -/
def ldBadLayout (n : LdNums) (z : UInt64) : Bool :=
  decide (n.t = 0) || decide (65536 < n.t) || decide (65536 < n.rd) || decide (z ≠ n.t + n.rd) ||
    decide (131072 < z) || decide (n.t ≤ n.e) || decide (n.s ≠ 1)

/-- Capability word and known app, with the app's own policy. -/
def ldPolicy (caps name : List UInt8) : UInt8 :=
  let wantConsole := eqs caps (umsg "console")
  if !wantConsole && !eqs caps (umsg "none") then 3
  else if eqs name (umsg "hello") || eqs name (umsg "counter") then 0
  else if eqs name (umsg "fault_demo") then if wantConsole then 3 else 0
  else 5

/-- Validate one fetched record against the requested name. Result codes: 0 = valid, 1 = bad_image,
2 = bad_checksum, 3 = denied_capability, 4 = malformed, 5 = unknown app. -/
def ldValidate (rp name : List UInt8) : UInt8 :=
  let code := ldSeal rp
  if code ≠ 0 then code
  else
    let i0 := ldMagic.length
    let i1 := tokEnd rp i0
    if i1 ≤ i0 then 4
    else if !eqs ((rp.drop i0).take (i1 - i0)) name then 1
    else
      let n := ldNums rp i1
      if n.e = u64Max ∨ n.t = u64Max ∨ n.rd = u64Max ∨ n.s = u64Max then 4
      else if rp[n.next]? ≠ some 32 then 4
      else
        let c0 := n.next + 1
        let c1 := tokEnd rp c0
        if c1 ≤ c0 then 4
        else
          let (z, j5) := ldNumAfter rp c1
          if z = u64Max ∨ j5 ≠ rp.length - 5 then 4
          else if ldBadLayout n z then 1
          else ldPolicy ((rp.drop c0).take (c1 - c0)) name

end AxiomRT.User
