import AxiomRT.User.NetBuffer
import AxiomRT.User.NetDriver
import AxiomRT.User.Proofs.TextProofs

/-!
# Proofs: the reply texts of the network service and its driver

A text is built by bounded copies and decimal numerals; what comes out is the whole text, cut off
after 64 bytes. The status reply of the service needs 53 bytes besides its two numerals.
-/

namespace AxiomRT.User

open Lib

/-! ## Decimal numerals -/

theorem toNat_div_ten (v : UInt64) : (v / 10).toNat = v.toNat / 10 := UInt64.toNat_div v 10

theorem toUInt8_digit (v : UInt64) : (48 + v % 10).toUInt8 = digitByte (v.toNat % 10) := by
  apply UInt8.toNat_inj.mp
  have hmod : (v % 10).toNat = v.toNat % 10 := UInt64.toNat_mod v 10
  have hsum : (48 + v % 10).toNat = 48 + v.toNat % 10 := by
    rw [UInt64.toNat_add, hmod]
    show (48 + v.toNat % 10) % 2 ^ 64 = _
    omega
  rw [UInt64.toNat_toUInt8, hsum, toNat_digitByte (Nat.mod_lt _ (by decide))]
  omega

theorem toNat_ne_zero {v : UInt64} (h : v ≠ 0) : v.toNat ≠ 0 :=
  fun hzero => h (UInt64.toNat_inj.mp hzero)

theorem ndDigits_zero (room : ℕ) (tmp : List UInt8) : ndDigits room 0 tmp = tmp := by
  cases room with
  | zero => rfl
  | succ room => rw [ndDigits, if_pos rfl]

/-- With enough room, the digit loop puts the numeral in front of what it has. -/
theorem ndDigits_eq {room : ℕ} {v : UInt64} (hv : v ≠ 0) (hroom : v.toNat < 10 ^ room)
    (tmp : List UInt8) : ndDigits room v tmp = numeral v.toNat ++ tmp := by
  induction room generalizing v tmp with
  | zero =>
    have := toNat_ne_zero hv
    omega
  | succ room ih =>
    rw [ndDigits, if_neg hv, toUInt8_digit]
    rcases Nat.lt_or_ge v.toNat 10 with hlt | hge
    · have hzero : v / 10 = 0 := by
        apply UInt64.toNat_inj.mp
        rw [toNat_div_ten, Nat.div_eq_of_lt hlt]
        rfl
      rw [hzero, ndDigits_zero, numeral_of_lt hlt, Nat.mod_eq_of_lt hlt, List.singleton_append]
    · have hne : v / 10 ≠ 0 := by
        intro hzero
        have hdiv := toNat_div_ten v
        rw [hzero] at hdiv
        have : (0 : UInt64).toNat = 0 := rfl
        omega
      have hsmall : (v / 10).toNat < 10 ^ room := by
        rw [toNat_div_ten]
        rw [Nat.pow_succ] at hroom
        omega
      rw [ih hne hsmall, toNat_div_ten, numeral_of_ge hge, List.append_assoc,
        List.singleton_append]

theorem toNat_lt_pow (v : UInt64) : v.toNat < 10 ^ 20 :=
  Nat.lt_trans v.toNat_lt (by decide)

/-- A number is appended as its decimal numeral. -/
theorem ndDec_eq (dst : List UInt8) (v : UInt64) : ndDec dst v = ndCopy dst (numeral v.toNat) := by
  rw [ndDec]
  by_cases hv : v = 0
  · rw [if_pos hv, hv]
    rfl
  · rw [if_neg hv, ndDigits_eq hv (toNat_lt_pow v), List.append_nil]

/-! ## Bounded texts -/

theorem umsg_append (s t : String) : umsg (s ++ t) = umsg s ++ umsg t := by
  rw [umsg, String.toList_append, List.map_append]
  rfl

theorem umsg_repr (n : ℕ) : umsg n.repr = numeral n := by
  rw [umsg, Nat.toList_repr]
  rfl

/-- Appending to a text that was cut off cuts off the longer text. -/
theorem ndCopy_take (text src : List UInt8) :
    ndCopy (text.take 64) src = (text ++ src).take 64 := by
  rw [ndCopy, List.take_append, List.length_take]
  congr 2
  omega

theorem ndCopy_nil (src : List UInt8) : ndCopy [] src = src.take 64 := rfl

/-- The text between a start and the mode: what a status reply should be. -/
def statusText (start : String) (tx rx : UInt64) : String :=
  start ++ tx.toNat.repr ++ " rx=" ++ rx.toNat.repr ++ " mode=synthetic"

theorem umsg_statusText (start : String) (tx rx : UInt64) :
    umsg (statusText start tx rx) =
      umsg start ++ (numeral tx.toNat ++ (umsg " rx=" ++ (numeral rx.toNat ++
        umsg " mode=synthetic"))) := by
  simp only [statusText, umsg_append, umsg_repr, List.append_assoc]

/-- The five copies of a status reply leave the text, cut off after 64 bytes. -/
theorem status_copies (start : String) (tx rx : UInt64) :
    ndCopy (ndDec (ndCopy (ndDec (ndCopy [] (umsg start)) tx) (umsg " rx=")) rx)
        (umsg " mode=synthetic") = (umsg (statusText start tx rx)).take 64 := by
  rw [ndDec_eq, ndDec_eq, ndCopy_nil, ndCopy_take, ndCopy_take, ndCopy_take, ndCopy_take,
    umsg_statusText]
  simp only [List.append_assoc]

theorem nsStatus_eq (tx rx : UInt64) : nsStatus tx rx =
    reply ((umsg (statusText "OK net state=up driver=running tx=" tx rx)).take 64) :=
  congrArg reply (status_copies "OK net state=up driver=running tx=" tx rx)

theorem ndStatus_eq (tx rx : UInt64) : ndStatus tx rx =
    reply ((umsg (statusText "OK driver=running tx=" tx rx)).take 64) :=
  congrArg reply (status_copies "OK driver=running tx=" tx rx)

/-! ## Lossless replies -/

/-- Both counters and the mode are read back from index `start` on. -/
def ReadsBack (text : List UInt8) (start : ℕ) (tx rx : UInt64) : Prop :=
  ∃ i j, parseDecStop text start = (tx, i) ∧ (text.drop i).take 4 = umsg " rx=" ∧
    parseDecStop text (i + 4) = (rx, j) ∧ text.drop j = umsg " mode=synthetic"

/-- The program makes one reply, the exact status text, from which the counters are read back. -/
def RepliesExactly (program : UserProg Unit) (start : String) (tx rx : UInt64) : Prop :=
  ∃ text, program = reply text ∧ text = umsg (statusText start tx rx) ∧
    ReadsBack text (umsg start).length tx rx

theorem ofNat_numeralValue (v : UInt64) : UInt64.ofNat (numeralValue (numeral v.toNat)) = v := by
  rw [numeralValue_numeral, UInt64.ofNat_toNat]

/-- A numeral between two texts is read back, with the index after it. -/
theorem parseDecStop_numeral (pre : List UInt8) (v : UInt64) {rest : List UInt8}
    (hrest : NoDigit rest) : parseDecStop (pre ++ (numeral v.toNat ++ rest)) pre.length =
      (v, pre.length + (numeral v.toNat).length) := by
  rw [parseDecStop_append (isNumeral_numeral v.toNat) hrest, ofNat_numeralValue]

theorem statusText_readsBack (start : String) (tx rx : UInt64) :
    ReadsBack (umsg (statusText start tx rx)) (umsg start).length tx rx := by
  have hrx : NoDigit (umsg " rx=" ++ (numeral rx.toNat ++ umsg " mode=synthetic")) := by
    intro b hb
    obtain rfl := Option.some.inj hb
    decide
  have hmode : NoDigit (umsg " mode=synthetic") := by
    intro b hb
    obtain rfl := Option.some.inj hb
    decide
  have hfour : (umsg " rx=").length = 4 := by rw [umsg]; rfl
  rw [umsg_statusText]
  refine ⟨(umsg start).length + (numeral tx.toNat).length,
    (umsg start).length + (numeral tx.toNat).length + 4 + (numeral rx.toNat).length,
    parseDecStop_numeral _ tx hrx, ?_, ?_, ?_⟩
  · rw [← List.append_assoc, ← List.length_append, List.drop_left, ← hfour, List.take_left]
  · have hparse := parseDecStop_numeral (umsg start ++ (numeral tx.toNat ++ umsg " rx=")) rx hmode
    simp only [List.append_assoc, List.length_append, hfour, ← Nat.add_assoc] at hparse
    exact hparse
  · have hdrop := @List.drop_left _
      (umsg start ++ (numeral tx.toNat ++ (umsg " rx=" ++ numeral rx.toNat)))
      (umsg " mode=synthetic")
    simp only [List.append_assoc, List.length_append, hfour, ← Nat.add_assoc] at hdrop
    exact hdrop

/-- A reply cut off after 64 bytes is exact if nothing was cut off. -/
theorem repliesExactly_iff {program : UserProg Unit} {start : String} {tx rx : UInt64}
    (h : program = reply ((umsg (statusText start tx rx)).take 64)) :
    RepliesExactly program start tx rx ↔
      (umsg start).length + (numeral tx.toNat).length + (numeral rx.toNat).length + 19 ≤ 64 := by
  have hlength : (umsg (statusText start tx rx)).length =
      (umsg start).length + (numeral tx.toNat).length + (numeral rx.toNat).length + 19 := by
    have hfour : (umsg " rx=").length = 4 := by rw [umsg]; rfl
    have hmode : (umsg " mode=synthetic").length = 15 := by rw [umsg]; rfl
    rw [umsg_statusText]
    simp only [List.length_append, hfour, hmode]
    omega
  rw [← hlength, h]
  constructor
  · rintro ⟨text, hreply, rfl, -⟩
    have hwhole := congrArg List.length (reply_inj hreply)
    rw [List.length_take] at hwhole
    omega
  · intro hfits
    rw [List.take_of_length_le hfits]
    exact ⟨_, rfl, rfl, statusText_readsBack start tx rx⟩

/-- The status replies of the service and of the driver are both exact for the counters whose
numerals have at most 11 digits together; 64 bytes have no room for more. -/
theorem netStatus_exact_iff (tx rx : UInt64) :
    RepliesExactly (nsStatus tx rx) "OK net state=up driver=running tx=" tx rx ∧
        RepliesExactly (ndStatus tx rx) "OK driver=running tx=" tx rx ↔
      (numeral tx.toNat).length + (numeral rx.toNat).length ≤ 11 := by
  have hns : (umsg "OK net state=up driver=running tx=").length = 34 := by rw [umsg]; rfl
  have hnd : (umsg "OK driver=running tx=").length = 21 := by rw [umsg]; rfl
  rw [repliesExactly_iff (nsStatus_eq tx rx), repliesExactly_iff (ndStatus_eq tx rx), hns, hnd]
  omega

/-- The driver alone has room for 24 digits. -/
theorem ndStatus_exact_iff (tx rx : UInt64) :
    RepliesExactly (ndStatus tx rx) "OK driver=running tx=" tx rx ↔
      (numeral tx.toNat).length + (numeral rx.toNat).length ≤ 24 := by
  have hnd : (umsg "OK driver=running tx=").length = 21 := by rw [umsg]; rfl
  rw [repliesExactly_iff (ndStatus_eq tx rx), hnd]
  omega

/-- After 100000 packets the mode is cut off. -/
theorem nsStatus_cutOff : nsStatus 100000 100000 =
      reply (umsg "OK net state=up driver=running tx=100000 rx=100000 mode=syntheti") ∧
    ¬ RepliesExactly (nsStatus 100000 100000) "OK net state=up driver=running tx="
      100000 100000 := by
  refine ⟨?_, ?_⟩
  · rw [nsStatus_eq]
    refine congrArg reply ?_
    decide +kernel
  · have hns : (umsg "OK net state=up driver=running tx=").length = 34 := by rw [umsg]; rfl
    rw [repliesExactly_iff (nsStatus_eq _ _), hns]
    decide +kernel

end AxiomRT.User
