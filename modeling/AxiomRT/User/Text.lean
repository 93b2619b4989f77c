import AxiomRT.Lib.Decimal
import AxiomRT.User.Syscall

/-!
# Text helpers of the user services

Byte comparison and the hand-written number parsers. A pair of a pointer and a length is a list of
bytes; an index into it stays an index.
-/

namespace AxiomRT.User

open Lib

/-- A message static: the bytes of an ASCII literal. -/
def umsg (s : String) : List UInt8 := s.toList.map fun c => UInt8.ofNat c.toNat

/-- Emit one message. -/
def uput (s : String) : UserProg Unit := uwritePtr (umsg s)

/-- The largest word, which the parsers return on bad input. -/
abbrev u64Max : UInt64 := 0xffffffffffffffff

/-- Byte-equality. -/
def eqs (p q : List UInt8) : Bool := p == q

/-- True if `p` starts with `q`. -/
def startsWith (p q : List UInt8) : Bool :=
  if p.length < q.length then false else eqs (p.take q.length) q

/-- The digit loop of `parseDec`. -/
def parseDecLoop : List UInt8 → UInt64 → UInt64
  | [], v => v
  | b :: rest, v => if !isDigit b then u64Max else parseDecLoop rest (wrappingDigit v b)

/-- The decimal number that `p` holds from index `start` to its end; `u64Max` on bad input. -/
def parseDec (p : List UInt8) (start : ℕ) : UInt64 :=
  if p.length ≤ start then u64Max else parseDecLoop (p.drop start) 0

/-- The digit loop of `parseDecStop`: value and index so far, and whether a digit was seen. -/
def parseDecStopLoop : List UInt8 → UInt64 → ℕ → Bool → UInt64 × ℕ
  | [], v, i, any => if any then (v, i) else (u64Max, i)
  | b :: rest, v, i, any =>
    if !isDigit b then if any then (v, i) else (u64Max, i)
    else parseDecStopLoop rest (wrappingDigit v b) (i + 1) true

/-- Parse decimal digits from index `start`: the value and the index after the digits, or `u64Max`
when no digit is present. -/
def parseDecStop (p : List UInt8) (start : ℕ) : UInt64 × ℕ :=
  parseDecStopLoop (p.drop start) 0 start false

end AxiomRT.User
