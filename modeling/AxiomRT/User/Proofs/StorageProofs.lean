import AxiomRT.User.Proofs.TextProofs
import AxiomRT.User.Storage
import Mathlib.Tactic.IntervalCases

/-!
# Proofs: the block protocol

The protocol of docs/29 as a relation between a request and its reply, in which a numeral stands for
the number it denotes, and how far the service keeps to it.
-/

namespace AxiomRT.User

open Lib

/-! ## The protocol -/

/-- The block image. -/
def storageBlocks : List (List UInt8) :=
  [umsg "AXSTOR v1 blocks=8 bs=48 ro=1", umsg "AxiomRT v1.6-storage-backed-loader eval stage",
    umsg "AxiomRT microkernel safety runtime", umsg "apps: hello counter fault_demo prio=2",
    umsg "AXAPP1 hello 0 4096 4096 1 console 8192 0a6d",
    umsg "AXAPP1 counter 0 4096 4096 1 console 8192 0b59",
    umsg "AXAPP1 fault_demo 0 4096 4096 1 none 8192 0b36", umsg "reserved"]

/-- The reply to a read of block `n`. -/
def readReply (n : ℕ) : List UInt8 :=
  match storageBlocks[n]? with
  | some block => umsg "OK data=" ++ block
  | none => umsg "ERR bad_block"

/-- The request has one of the shapes of the protocol. -/
inductive StorageShape : List UInt8 → Prop
  | info : StorageShape (umsg "INFO")
  | read {d : List UInt8} (hd : IsNumeral d) : StorageShape (umsg "READ block=" ++ d)
  | range {d c : List UInt8} (hd : IsNumeral d) (hc : IsNumeral c) :
      StorageShape (umsg "READ_RANGE start=" ++ (d ++ (umsg " count=" ++ c)))

/-- The reply that the protocol gives to a request. -/
inductive StorageReply : List UInt8 → List UInt8 → Prop
  | info : StorageReply (umsg "INFO") (umsg "OK block_size=48 blocks=8 readonly=true")
  | read {d : List UInt8} (hd : IsNumeral d) :
      StorageReply (umsg "READ block=" ++ d) (readReply (numeralValue d))
  | range {d c : List UInt8} (hd : IsNumeral d) (hc : IsNumeral c) (hone : numeralValue c = 1) :
      StorageReply (umsg "READ_RANGE start=" ++ (d ++ (umsg " count=" ++ c)))
        (readReply (numeralValue d))
  | many {d c : List UInt8} (hd : IsNumeral d) (hc : IsNumeral c) (hone : numeralValue c ≠ 1) :
      StorageReply (umsg "READ_RANGE start=" ++ (d ++ (umsg " count=" ++ c)))
        (umsg "ERR too_many_blocks")
  | malformed {req : List UInt8} (h : ¬ StorageShape req) : StorageReply req (umsg "ERR malformed")

theorem exists_storageReply (req : List UInt8) : ∃ r, StorageReply req r := by
  by_cases h : StorageShape req
  · cases h with
    | info => exact ⟨_, .info⟩
    | read hd => exact ⟨_, .read hd⟩
    | @range d c hd hc =>
      by_cases hone : numeralValue c = 1
      · exact ⟨_, .range hd hc hone⟩
      · exact ⟨_, .many hd hc hone⟩
  · exact ⟨_, .malformed h⟩

/-! ## Replies -/

theorem readReply_big {n : ℕ} (h : 7 < n) : readReply n = umsg "ERR bad_block" := by
  have hnone : storageBlocks[n]? = none := List.getElem?_eq_none h
  rw [readReply, hnone]

/-- A read is never answered like a request that cannot be read. -/
theorem readReply_ne (n : ℕ) :
    readReply n ≠ umsg "ERR malformed" ∧ readReply n ≠ umsg "ERR too_many_blocks" := by
  by_cases h : 7 < n
  · rw [readReply_big h]
    decide
  · interval_cases n <;> decide

theorem readReply_small {n : ℕ} (h : n ≤ 7) : readReply n ≠ umsg "ERR bad_block" := by
  interval_cases n <;> decide

/-- The numeral does not pass for the number of a block by wrapping around. -/
def BlockExact (d : List UInt8) : Prop := wordValue d ≤ 7 → numeralValue d < 2 ^ 64

theorem readReply_word_iff {d : List UInt8} :
    readReply (wordValue d) = readReply (numeralValue d) ↔ BlockExact d := by
  have hle : wordValue d ≤ numeralValue d := Nat.mod_le _ _
  constructor
  · intro h hw
    by_contra hbig
    rw [@readReply_big (numeralValue d) (by omega)] at h
    exact readReply_small hw h
  · intro h
    by_cases hw : wordValue d ≤ 7
    · rw [wordValue, Nat.mod_eq_of_lt (h hw)]
    · rw [readReply_big (by omega), readReply_big (by omega)]

/-! ## The service -/

theorem storageSendBlock_eq {cs : List Char} (h : cs.length ≤ 56) :
    storageSendBlock (umsg (String.ofList cs)) =
      reply (umsg "OK data=" ++ umsg (String.ofList cs)) := by
  have hroom : 64 - (umsg "OK data=").length = 56 := rfl
  unfold storageSendBlock
  simp only [hroom]
  rw [List.take_of_length_le (length_umsg_le h)]

theorem blockReply_eq (w : UInt64) : blockReply w = reply (readReply w.toNat) := by
  obtain ⟨n, hn, rfl⟩ : ∃ n < 2 ^ 64, w = UInt64.ofNat n :=
    ⟨w.toNat, w.toNat_lt, UInt64.ofNat_toNat.symm⟩
  have hval : (UInt64.ofNat n).toNat = n := UInt64.toNat_ofNat_of_lt' hn
  rw [hval]
  by_cases hle : n ≤ 7
  · interval_cases n <;> exact storageSendBlock_eq (by decide)
  · have hgt : ¬ UInt64.ofNat n ≤ 7 := by
      rw [UInt64.le_iff_toNat_le, hval]
      exact hle
    have hne : ∀ v : UInt64, v ≤ 7 → UInt64.ofNat n ≠ v := by
      intro v hv h
      rw [h] at hgt
      exact hgt hv
    rw [blockReply, if_neg (hne 0 (by decide)), if_neg (hne 1 (by decide)),
      if_neg (hne 2 (by decide)), if_neg (hne 3 (by decide)), if_neg hgt,
      readReply_big (Nat.not_le.mp hle)]

theorem storageHandle_info :
    storageHandle (umsg "INFO") = reply (umsg "OK block_size=48 blocks=8 readonly=true") := rfl

theorem noDigit_count (tail : List UInt8) : NoDigit (umsg " count=" ++ tail) :=
  noDigit_cons (by decide)

/-- `READ block=` with a numeral that is not taken for the error mark, or with anything else. -/
theorem storageHandle_read (tail : List UInt8) :
    storageHandle (umsg "READ block=" ++ tail) =
      if IsNumeral tail ∧ wordValue tail ≠ u64Max.toNat then reply (readReply (wordValue tail))
      else reply (umsg "ERR malformed") := by
  have hinfo : eqs (umsg "READ block=" ++ tail) (umsg "INFO") = false := eqs_append_ne (by decide)
  have hread := parseDecStop_whole (umsg "READ block=") tail
  rw [storageHandle, hinfo, startsWith_append]
  by_cases hnum : IsNumeral tail
  · simp only [hread.1 hnum, Bool.false_eq_true, if_false, if_true, ne_eq, not_true, or_false,
      ofNat_eq_iff, hnum, true_and, ite_not, blockReply_eq, toNat_wordValue]
  · simp only [Bool.false_eq_true, if_false, if_true, if_pos (hread.2 hnum), hnum, false_and]

/-- After the start of a range: the count, or anything else. -/
theorem storageRange_start {d rest : List UInt8} (hd : IsNumeral d) (hrest : NoDigit rest) :
    storageRange (umsg "READ_RANGE start=" ++ (d ++ rest)) =
      if wordValue d ≠ u64Max.toNat ∧ startsWith rest (umsg " count=") = true then
        let (count, stop) := parseDecStop (umsg "READ_RANGE start=" ++ (d ++ rest))
          ((umsg "READ_RANGE start=").length + d.length + (umsg " count=").length)
        if count = u64Max ∨ stop ≠ (umsg "READ_RANGE start=" ++ (d ++ rest)).length then
          reply (umsg "ERR malformed")
        else if count ≠ 1 then reply (umsg "ERR too_many_blocks")
        else reply (readReply (wordValue d))
      else reply (umsg "ERR malformed") := by
  have hdrop : (umsg "READ_RANGE start=" ++ (d ++ rest)).drop
      ((umsg "READ_RANGE start=").length + d.length) = rest := by
    rw [← List.append_assoc, ← List.length_append, List.drop_left]
  have hlen : (umsg "READ_RANGE start=" ++ (d ++ rest)).length <
      (umsg "READ_RANGE start=").length + d.length + (umsg " count=").length ↔
      rest.length < (umsg " count=").length := by
    rw [List.length_append, List.length_append]
    omega
  rw [storageRange, parseDecStop_append hd hrest]
  simp only [hdrop, hlen, ofNat_eq_iff, startsWith, blockReply_eq, toNat_wordValue]
  by_cases hmax : wordValue d = u64Max.toNat
  · simp only [hmax, true_or, if_true, ne_eq, not_true, false_and, if_false]
  · by_cases hshort : rest.length < (umsg " count=").length
    · simp [hshort]
    · by_cases heq : eqs (rest.take (umsg " count=").length) (umsg " count=") = true
      · simp [hmax, hshort, heq]
      · simp [hshort, heq]

theorem storageHandle_rangeOf (tail : List UInt8) :
    storageHandle (umsg "READ_RANGE start=" ++ tail) =
      storageRange (umsg "READ_RANGE start=" ++ tail) := by
  rw [storageHandle, eqs_append_ne (by decide), startsWith_append_ne (by decide),
    startsWith_append]
  rfl

/-- `READ_RANGE start=` with a numeral and a count. -/
theorem storageHandle_count {d : List UInt8} (hd : IsNumeral d) (c : List UInt8) :
    storageHandle (umsg "READ_RANGE start=" ++ (d ++ (umsg " count=" ++ c))) =
      if wordValue d ≠ u64Max.toNat ∧ IsNumeral c ∧ wordValue c ≠ u64Max.toNat then
        if wordValue c = 1 then reply (readReply (wordValue d))
        else reply (umsg "ERR too_many_blocks")
      else reply (umsg "ERR malformed") := by
  have hsplit : umsg "READ_RANGE start=" ++ (d ++ (umsg " count=" ++ c)) =
      (umsg "READ_RANGE start=" ++ d ++ umsg " count=") ++ c := by
    simp only [List.append_assoc]
  have hlen : (umsg "READ_RANGE start=").length + d.length + (umsg " count=").length =
      (umsg "READ_RANGE start=" ++ d ++ umsg " count=").length := by
    rw [List.length_append, List.length_append]
  have hwhole := parseDecStop_whole (umsg "READ_RANGE start=" ++ d ++ umsg " count=") c
  have hone : UInt64.ofNat (numeralValue c) = 1 ↔ wordValue c = 1 := ofNat_eq_iff
  rw [storageHandle_rangeOf, storageRange_start hd (noDigit_count c), startsWith_append, hlen,
    hsplit]
  by_cases hmax : wordValue d = u64Max.toNat
  · simp only [hmax, ne_eq, not_true, false_and, if_false]
  by_cases hnum : IsNumeral c
  · simp only [hwhole.1 hnum, hmax, hnum, hone, ofNat_eq_iff, ne_eq, not_true, not_false_eq_true,
      true_and, and_true, or_false, if_true, ite_not]
  · simp only [if_pos (hwhole.2 hnum), hnum, false_and, and_false, if_false, ite_self]

/-- A reply other than `ERR malformed` needs one of the three shapes. -/
theorem storageHandle_shape {req : List UInt8} (h : ¬ StorageShape req) :
    storageHandle req = reply (umsg "ERR malformed") := by
  by_cases hread : startsWith req (umsg "READ block=") = true
  · obtain ⟨tail, rfl⟩ := startsWith_iff.mp hread
    have hnum : ¬ IsNumeral tail := fun hnum => h (.read hnum)
    rw [storageHandle_read, if_neg fun hok => hnum hok.1]
  by_cases hrange : startsWith req (umsg "READ_RANGE start=") = true
  · obtain ⟨tail, rfl⟩ := startsWith_iff.mp hrange
    rcases parseDecStop_cases (umsg "READ_RANGE start=") tail with
      ⟨-, hparse⟩ | ⟨d, rest, rfl, hd, hrest, -⟩
    · rw [storageHandle_rangeOf, storageRange, hparse]
      simp
    · by_cases hcount : startsWith rest (umsg " count=") = true
      · obtain ⟨c, rfl⟩ := startsWith_iff.mp hcount
        have hnum : ¬ IsNumeral c := fun hnum => h (.range hd hnum)
        rw [storageHandle_count hd, if_neg fun hok => hnum hok.2.1]
      · rw [storageHandle_rangeOf, storageRange_start hd hrest, if_neg fun hok => hcount hok.2]
  · have hinfo : eqs req (umsg "INFO") ≠ true := by
      rw [Ne, eqs_iff]
      rintro rfl
      exact h .info
    rw [storageHandle, if_neg hinfo, if_neg hread, if_neg hrange]

/-! ## The service against the protocol -/

/-- The request for which it does not show that the service reads numerals modulo the word size, and
the largest word as no number. -/
structure StorageExact (req : List UInt8) : Prop where
  read : ∀ d, IsNumeral d → req = umsg "READ block=" ++ d →
    wordValue d ≠ u64Max.toNat ∧ BlockExact d
  range : ∀ d c, IsNumeral d → IsNumeral c →
    req = umsg "READ_RANGE start=" ++ (d ++ (umsg " count=" ++ c)) →
    wordValue d ≠ u64Max.toNat ∧ wordValue c ≠ u64Max.toNat ∧
      (wordValue c = 1 → numeralValue c = 1 ∧ BlockExact d)

theorem wordValue_one {c : List UInt8} (h : numeralValue c = 1) : wordValue c = 1 := by
  rw [wordValue, h]
  rfl

theorem StorageReply.handle {req r : List UInt8} (h : StorageReply req r)
    (hexact : StorageExact req) : storageHandle req = reply r := by
  cases h with
  | info => exact storageHandle_info
  | @read d hd =>
    obtain ⟨hmax, hblock⟩ := hexact.read d hd rfl
    rw [storageHandle_read, if_pos ⟨hd, hmax⟩, readReply_word_iff.mpr hblock]
  | @range d c hd hc hone =>
    obtain ⟨hdmax, hcmax, hblock⟩ := hexact.range d c hd hc rfl
    have hword := wordValue_one hone
    rw [storageHandle_count hd, if_pos ⟨hdmax, hc, hcmax⟩, if_pos hword,
      readReply_word_iff.mpr (hblock hword).2]
  | @many d c hd hc hone =>
    obtain ⟨hdmax, hcmax, hblock⟩ := hexact.range d c hd hc rfl
    rw [storageHandle_count hd, if_pos ⟨hdmax, hc, hcmax⟩,
      if_neg fun hword => hone (hblock hword).1]
  | malformed hshape => exact storageHandle_shape hshape

/-- A read that is answered as the protocol says. -/
theorem exact_of_read {d : List UInt8}
    (h : storageHandle (umsg "READ block=" ++ d) = reply (readReply (numeralValue d))) :
    wordValue d ≠ u64Max.toNat ∧ BlockExact d := by
  rw [storageHandle_read] at h
  split_ifs at h with hok
  · exact ⟨hok.2, readReply_word_iff.mp (reply_inj h)⟩
  · exact absurd (reply_inj h).symm (readReply_ne _).1

/-- A range that is answered as the protocol says. -/
theorem exact_of_range {d c r : List UInt8} (hd : IsNumeral d)
    (h : storageHandle (umsg "READ_RANGE start=" ++ (d ++ (umsg " count=" ++ c))) = reply r)
    (hone : numeralValue c = 1 → r = readReply (numeralValue d))
    (hmany : numeralValue c ≠ 1 → r = umsg "ERR too_many_blocks") :
    wordValue d ≠ u64Max.toNat ∧ wordValue c ≠ u64Max.toNat ∧
      (wordValue c = 1 → numeralValue c = 1 ∧ BlockExact d) := by
  have hr : r ≠ umsg "ERR malformed" := by
    by_cases hval : numeralValue c = 1
    · rw [hone hval]
      exact (readReply_ne _).1
    · rw [hmany hval]
      decide
  rw [storageHandle_count hd] at h
  split_ifs at h with hok hword
  · refine ⟨hok.1, hok.2.2, fun _ => ?_⟩
    have hval : numeralValue c = 1 := by
      by_contra hval
      exact (readReply_ne _).2 ((reply_inj h).trans (hmany hval))
    exact ⟨hval, readReply_word_iff.mp ((reply_inj h).trans (hone hval))⟩
  · exact ⟨hok.1, hok.2.2, fun hw => absurd hw hword⟩
  · exact absurd (reply_inj h).symm hr

/-- The service answers a request with the one reply the protocol gives, exactly where its reading
of numerals does not show. -/
theorem storageHandle_documented_iff (req : List UInt8) :
    (∃ r, storageHandle req = reply r ∧ ∀ r', StorageReply req r' ↔ r' = r) ↔
      StorageExact req := by
  constructor
  · rintro ⟨r, hr, hdoc⟩
    constructor
    · rintro d hd rfl
      have hread := (hdoc _).mp (.read hd)
      exact exact_of_read (by rw [hr, hread])
    · rintro d c hd hc rfl
      exact exact_of_range hd hr (fun hone => ((hdoc _).mp (.range hd hc hone)).symm)
        fun hmany => ((hdoc _).mp (.many hd hc hmany)).symm
  · intro hexact
    obtain ⟨r, hr⟩ := exists_storageReply req
    refine ⟨r, hr.handle hexact, fun r' => ⟨fun h => ?_, ?_⟩⟩
    · exact reply_inj ((h.handle hexact).symm.trans (hr.handle hexact))
    · rintro rfl
      exact hr

/-- The word wraps around: a numeral that denotes no block reads block 0, and the one that denotes
the error mark is not taken for a numeral. -/
theorem storageHandle_wraps :
    (StorageReply (umsg "READ block=18446744073709551616") (umsg "ERR bad_block") ∧
      storageHandle (umsg "READ block=18446744073709551616") =
        reply (umsg "OK data=AXSTOR v1 blocks=8 bs=48 ro=1")) ∧
    (StorageReply (umsg "READ block=18446744073709551615") (umsg "ERR bad_block") ∧
      storageHandle (umsg "READ block=18446744073709551615") = reply (umsg "ERR malformed")) := by
  have hread : ∀ d, IsNumeral d → readReply (numeralValue d) = umsg "ERR bad_block" →
      StorageReply (umsg "READ block=" ++ d) (umsg "ERR bad_block") := by
    intro d hd h
    rw [← h]
    exact .read hd
  have hzero : umsg "READ block=18446744073709551616" =
      umsg "READ block=" ++ umsg "18446744073709551616" := umsg_append_of rfl
  have hmark : umsg "READ block=18446744073709551615" =
      umsg "READ block=" ++ umsg "18446744073709551615" := umsg_append_of rfl
  have hblock : umsg "OK data=AXSTOR v1 blocks=8 bs=48 ro=1" = readReply 0 := umsg_append_of rfl
  have hword : wordValue (umsg "18446744073709551616") = 0 := by decide
  rw [hzero, hmark, hblock, storageHandle_read, storageHandle_read, hword]
  exact ⟨⟨hread _ (by decide) (readReply_big (by decide)), if_pos (by decide)⟩,
    ⟨hread _ (by decide) (readReply_big (by decide)), if_neg (by decide)⟩⟩

end AxiomRT.User
