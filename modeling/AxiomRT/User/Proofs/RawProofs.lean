import AxiomRT.User.Raw
import AxiomRT.User.Proofs.TextProofs

/-!
# The parsers stay inside their buffers

Each checked parser ends with `ok` and the result of its model over lists. A loop reads at its
counter, which is below the length it was given; a returned position is at most that length or the
position it started from.
-/

namespace AxiomRT.User.Raw

open Lib
open Lib.Checked

/-! ## What a loop still has to read -/

theorem drop_take_of_lt {l : List UInt8} {n i : ℕ} (hn : n ≤ l.length) (hi : i < n) :
    (l.take n).drop i = l[i] :: (l.take n).drop (i + 1) := by
  have hlt : i < (l.take n).length := by
    rw [List.length_take]
    omega
  rw [List.drop_eq_getElem_cons hlt, List.getElem_take]

theorem drop_take_of_le {l : List UInt8} {n i : ℕ} (hi : n ≤ i) : (l.take n).drop i = [] := by
  have hle : (l.take n).length ≤ i := by
    rw [List.length_take]
    omega
  exact List.drop_eq_nil_of_le hle

/-! ## Comparison -/

theorem eqsLoop_eq {p q : List UInt8} {n : ℕ} (hp : n ≤ p.length) (hq : n ≤ q.length)
    (hn : n < 2 ^ 64) (i : ℕ) :
    eqsLoop p q n i = .ok ((p.take n).drop i == (q.take n).drop i) := by
  fun_induction eqsLoop p q n i with
  | case1 i hi ih =>
    rw [readAt_of_lt (by omega), readAt_of_lt (by omega), ok_bind, ok_bind, drop_take_of_lt hp hi,
      drop_take_of_lt hq hi, usizeAdd_of_lt (by omega), ok_bind, ih]
    by_cases h : p[i] = q[i]
    · simp [h]
    · simp [h]
  | case2 i hi =>
    have hle : n ≤ i := Nat.not_lt.1 hi
    rw [drop_take_of_le hle, drop_take_of_le hle]
    rfl

theorem eqs_eq {p q : List UInt8} {n m : ℕ} (hp : n ≤ p.length) (hq : m ≤ q.length)
    (hbound : n < 2 ^ 64 ∨ m < 2 ^ 64) : eqs p n q m = .ok (User.eqs (p.take n) (q.take m)) := by
  unfold eqs User.eqs
  by_cases h : n = m
  · subst h
    rw [if_neg (not_not_intro rfl), eqsLoop_eq hp hq (by omega)]
    rfl
  · have hlen : p.take n ≠ q.take m := by
      intro heq
      have hlen := congrArg List.length heq
      rw [List.length_take, List.length_take] at hlen
      omega
    rw [if_pos h, beq_eq_false_iff_ne.2 hlen]
    rfl

/-- The comparison of the whole of both objects. -/
theorem eqs_whole {p q : List UInt8} (hq : q.length < 2 ^ 64) :
    eqs p p.length q q.length = .ok (User.eqs p q) := by
  rw [eqs_eq le_rfl le_rfl (.inr hq), List.take_length, List.take_length]

theorem startsWith_eq {p q : List UInt8} (hq : q.length < 2 ^ 64) :
    startsWith p p.length q q.length = .ok (User.startsWith p q) := by
  unfold startsWith User.startsWith
  by_cases h : p.length < q.length
  · rw [if_pos h, if_pos h]
    rfl
  · rw [if_neg h, if_neg h, eqs_eq (by omega) le_rfl (.inr hq), List.take_length]

/-! ## Numbers -/

/-- The source's test of a digit. -/
theorem not_isDigit_iff {b : UInt8} : (!isDigit b) = true ↔ b < 48 ∨ 57 < b := by
  rw [Bool.not_eq_true', ← Bool.not_eq_true, isDigit_iff, UInt8.lt_iff_toNat_lt,
    UInt8.lt_iff_toNat_lt, show (48 : UInt8).toNat = 48 from rfl,
    show (57 : UInt8).toNat = 57 from rfl]
  omega

theorem parseDecStopLoop_eq {p : List UInt8} {n : ℕ} (hp : n = p.length) (hn : n < 2 ^ 64)
    (v : UInt64) (i : ℕ) (any : Bool) :
    parseDecStopLoop p n v i any = .ok (User.parseDecStopLoop (p.drop i) v i any) := by
  fun_induction parseDecStopLoop p n v i any with
  | case1 v i any hi ih =>
    have hlt : i < p.length := hp ▸ hi
    rw [List.drop_eq_getElem_cons hlt, readAt_of_lt hlt, ok_bind, User.parseDecStopLoop]
    by_cases hdigit : p[i] < 48 ∨ 57 < p[i]
    · rw [if_pos hdigit, if_pos (not_isDigit_iff.2 hdigit)]
      cases any <;> rfl
    · have hle : (48 : UInt8).toNat ≤ p[i].toNat :=
        UInt8.le_iff_toNat_le.1 (UInt8.not_lt.1 (not_or.1 hdigit).1)
      rw [if_neg hdigit, if_neg (mt not_isDigit_iff.1 hdigit), sub_of_le hle, ok_bind,
        usizeAdd_of_lt (by omega), ok_bind, ih]
      rfl
  | case2 v i any hi =>
    rw [List.drop_eq_nil_of_le (by omega)]
    cases any <;> rfl

theorem parseDecStop_eq {p : List UInt8} (hp : p.length < 2 ^ 64) (start : ℕ) :
    parseDecStop p start p.length = .ok (User.parseDecStop p start) :=
  parseDecStopLoop_eq rfl hp 0 start false

theorem parseDecStopLoop_le (l : List UInt8) (v : UInt64) (i : ℕ) (any : Bool) :
    (User.parseDecStopLoop l v i any).2 ≤ i + l.length := by
  fun_induction User.parseDecStopLoop l v i any with
  | case1 => exact le_rfl
  | case2 => exact le_rfl
  | case3 => exact Nat.le_add_right _ _
  | case4 => exact Nat.le_add_right _ _
  | case5 b rest v i any hdigit ih =>
    rw [List.length_cons]
    omega

/-- The position behind the digits. -/
theorem parseDecStop_le (p : List UInt8) (start : ℕ) :
    (User.parseDecStop p start).2 ≤ max start p.length := by
  have hle := parseDecStopLoop_le (p.drop start) 0 start false
  rw [List.length_drop] at hle
  unfold User.parseDecStop
  omega

theorem hexDigit_eq (b : UInt8) : hexDigit b = .ok (User.hexDigit b) := by
  unfold hexDigit User.hexDigit
  by_cases hdec : 48 ≤ b ∧ b ≤ 57
  · rw [if_pos hdec, if_pos hdec, sub_of_le (UInt8.le_iff_toNat_le.1 hdec.1)]
    rfl
  · by_cases hlow : 97 ≤ b ∧ b ≤ 102
    · have hsub : (b - 97).toNat = b.toNat - 97 := UInt8.toNat_sub_of_le b 97 hlow.1
      have hadd : (b - 97).toNat + (10 : UInt8).toNat < 2 ^ 8 := by
        have hle : b.toNat ≤ 102 := UInt8.le_iff_toNat_le.1 hlow.2
        rw [hsub, show (10 : UInt8).toNat = 10 from rfl]
        omega
      rw [if_neg hdec, if_neg hdec, if_pos hlow, if_pos hlow,
        sub_of_le (UInt8.le_iff_toNat_le.1 hlow.1), ok_bind, add_of_lt hadd]
      rfl
    · rw [if_neg hdec, if_neg hdec, if_neg hlow, if_neg hlow]
      rfl

theorem parseHexLoop_eq {p : List UInt8} {i : ℕ} (hp : i + 4 ≤ p.length) (hlen : p.length < 2 ^ 64)
    (k : ℕ) (v : UInt32) :
    parseHexLoop p i k v = .ok (User.parseHexLoop (((p.drop i).take 4).drop k) v) := by
  fun_induction parseHexLoop p i k v with
  | case1 k v hk ih =>
    have hroom : 4 ≤ (p.drop i).length := by
      rw [List.length_drop]
      omega
    rw [drop_take_of_lt hroom hk, List.getElem_drop, usizeAdd_of_lt (by omega), ok_bind,
      readAt_of_lt (by omega), ok_bind, hexDigit_eq, ok_bind, User.parseHexLoop]
    cases User.hexDigit p[i + k] with
    | none => rfl
    | some d =>
      simp only [usizeAdd_of_lt (show k + 1 < 2 ^ 64 by omega), ok_bind]
      exact ih d
  | case2 k v hk =>
    rw [drop_take_of_le (Nat.not_lt.1 hk)]
    rfl

theorem parseHex4_eq {p : List UInt8} {i : ℕ} (hp : i + 4 ≤ p.length) (hlen : p.length < 2 ^ 64) :
    parseHex4 p i = .ok (User.parseHex4 p i) :=
  parseHexLoop_eq hp hlen 0 0

/-! ## Records -/

theorem tokEnd_eq {p : List UInt8} {n : ℕ} (hp : n = p.length) (hn : n < 2 ^ 64) (j : ℕ) :
    tokEnd p j n = .ok (User.tokEnd p j) := by
  unfold User.tokEnd
  fun_induction tokEnd p j n with
  | case1 j hj ih =>
    have hlt : j < p.length := hp ▸ hj
    rw [List.drop_eq_getElem_cons hlt, readAt_of_lt hlt, ok_bind]
    by_cases hspace : p[j] = 32
    · rw [if_pos hspace, List.takeWhile_cons_of_neg (by simp [hspace])]
      rfl
    · rw [if_neg hspace, List.takeWhile_cons_of_pos (by simp [hspace]), usizeAdd_of_lt (by omega),
        ok_bind, ih, List.length_cons, Nat.add_right_comm, Nat.add_assoc j]
  | case2 j hj =>
    rw [List.drop_eq_nil_of_le (by omega)]
    rfl

theorem tokEnd_le (p : List UInt8) (j : ℕ) : User.tokEnd p j ≤ max j p.length := by
  have hlen : ((p.drop j).takeWhile fun b => b ≠ 32).length ≤ (p.drop j).length :=
    (List.takeWhile_sublist _).length_le
  rw [List.length_drop] at hlen
  unfold User.tokEnd
  omega

/-- The sum is kept to 16 bits, so that the next byte can be added. -/
theorem ckSumLoop_eq {p : List UInt8} {stop : ℕ} (hp : stop ≤ p.length) (hstop : stop < 2 ^ 64)
    (i : ℕ) (s : UInt32) (hs : s.toNat ≤ 0xffff) :
    ckSumLoop p stop i s =
      .ok (((p.take stop).drop i).foldl (fun s b => (s + b.toUInt32) &&& 0xffff) s) := by
  fun_induction ckSumLoop p stop i s with
  | case1 i s hi ih =>
    have hbyte : s.toNat + p[i].toUInt32.toNat < 2 ^ 32 := by
      have hlt := p[i].toNat_lt
      rw [UInt8.toNat_toUInt32]
      omega
    have hsum : ((s + p[i].toUInt32) &&& 0xffff).toNat ≤ 0xffff := by
      rw [UInt32.toNat_and]
      exact Nat.and_le_right
    rw [drop_take_of_lt hp hi, readAt_of_lt (by omega), ok_bind, add_of_lt hbyte, ok_bind,
      usizeAdd_of_lt (by omega), ok_bind, ih _ hsum, List.foldl_cons]
  | case2 i s hi =>
    rw [drop_take_of_le (Nat.not_lt.1 hi)]
    rfl

theorem ckSum_eq {p : List UInt8} {stop : ℕ} (hp : stop ≤ p.length) (hstop : stop < 2 ^ 64) :
    ckSum p stop = .ok (User.ckSum p stop) :=
  ckSumLoop_eq hp hstop 0 0 (Nat.zero_le _)

theorem ldNumAfter_eq {p : List UInt8} (hp : p.length < 2 ^ 64) (j : ℕ) :
    ldNumAfter p j p.length = .ok (User.ldNumAfter p j) := by
  unfold ldNumAfter User.ldNumAfter
  by_cases hj : p.length ≤ j
  · rw [if_pos hj, List.getElem?_eq_none hj]
    rfl
  · have hlt : j < p.length := by omega
    rw [if_neg hj, readAt_of_lt hlt, ok_bind, List.getElem?_eq_getElem hlt]
    by_cases hspace : p[j] = 32
    · rw [if_neg (not_not_intro hspace), usizeAdd_of_lt (by omega), ok_bind, parseDecStop_eq hp,
        if_neg (not_not_intro (congrArg some hspace))]
    · rw [if_pos hspace, if_pos (mt Option.some.inj hspace)]
      rfl

theorem ldNums_eq {rp : List UInt8} (hrp : rp.length < 2 ^ 64) (i1 : ℕ) :
    ldNums rp i1 rp.length = .ok (User.ldNums rp i1) := by
  unfold ldNums User.ldNums
  simp only [ldNumAfter_eq hrp, ok_bind, pure_eq]

theorem ldBadLayout_eq (n : LdNums) (z : UInt64) :
    ldBadLayout n z = .ok (User.ldBadLayout n z) := by
  unfold ldBadLayout User.ldBadLayout
  by_cases h : n.t = 0 ∨ 65536 < n.t ∨ 65536 < n.rd
  · rw [if_pos h]
    rcases h with h | h | h <;> simp [h]
  · obtain ⟨hzero, ht, hrd⟩ : n.t ≠ 0 ∧ ¬ 65536 < n.t ∧ ¬ 65536 < n.rd := by
      simpa only [not_or] using h
    have hsize : n.t.toNat + n.rd.toNat < 2 ^ 64 := by
      have ht' : n.t.toNat ≤ 65536 := UInt64.le_iff_toNat_le.1 (UInt64.not_lt.1 ht)
      have hrd' : n.rd.toNat ≤ 65536 := UInt64.le_iff_toNat_le.1 (UInt64.not_lt.1 hrd)
      omega
    rw [if_neg h, add_of_lt hsize, ok_bind]
    simp [hzero, ht, hrd]

/-- The header and the checksum tail fit into a record that is long enough. -/
theorem ldSeal_eq {rp : List UInt8} (hrp : rp.length < 2 ^ 64) :
    ldSeal rp rp.length = .ok (User.ldSeal rp) := by
  unfold ldSeal User.ldSeal
  have hmagic : ldMagic.length = 7 := rfl
  by_cases hlen : rp.length < ldMagic.length + 6
  · rw [if_pos hlen, if_pos hlen]
    rfl
  · have htail : rp.length - 5 < rp.length := by omega
    rw [if_neg hlen, if_neg hlen, startsWith_eq (by omega), ok_bind]
    by_cases hstart : User.startsWith rp ldMagic = true
    · rw [hstart, usizeSub_of_le (by omega), ok_bind, readAt_of_lt htail, ok_bind,
        usizeSub_of_le (by omega), ok_bind, parseHex4_eq (by omega) hrp, ok_bind,
        ok_bind, ckSum_eq (by omega) (by omega), ok_bind, List.getElem?_eq_getElem htail]
      simp only [ne_eq, Option.some.injEq, pure_eq]
      split_ifs <;> rfl
    · rw [Bool.not_eq_true] at hstart
      rw [hstart]
      rfl

theorem ldPolicy_eq {caps name : List UInt8} {len : ℕ} (hlen : len ≤ caps.length) :
    ldPolicy caps len name name.length = .ok (User.ldPolicy (caps.take len) name) := by
  have hword : ∀ w : List UInt8, w.length < 2 ^ 64 →
      eqs caps len w w.length = .ok (User.eqs (caps.take len) w) := by
    intro w hw
    rw [eqs_eq hlen le_rfl (.inr hw), List.take_length]
  unfold ldPolicy User.ldPolicy
  rw [hword (umsg "console") (by decide), hword (umsg "none") (by decide),
    eqs_whole (q := umsg "hello") (by decide), eqs_whole (q := umsg "counter") (by decide),
    eqs_whole (q := umsg "fault_demo") (by decide)]
  cases User.eqs (caps.take len) (umsg "console") <;>
    cases User.eqs (caps.take len) (umsg "none") <;>
    cases User.eqs name (umsg "hello") <;> cases User.eqs name (umsg "counter") <;>
    cases User.eqs name (umsg "fault_demo") <;> rfl

theorem length_of_ldSeal {rp : List UInt8} (h : User.ldSeal rp = 0) :
    ldMagic.length + 6 ≤ rp.length := by
  by_contra hlen
  rw [User.ldSeal, if_pos (by omega)] at h
  exact absurd h (by decide)

theorem ldValidate_eq {rp : List UInt8} (hrp : rp.length < 2 ^ 64) (name : List UInt8) :
    ldValidate rp rp.length name name.length = .ok (User.ldValidate rp name) := by
  unfold ldValidate User.ldValidate
  rw [ldSeal_eq hrp, ok_bind]
  refine ite_eq_ok (fun _ => rfl) fun hcode => ?_
  have hlen := length_of_ldSeal (not_not.1 hcode)
  dsimp only
  -- The name token.
  have hi1 := tokEnd_le rp ldMagic.length
  rw [tokEnd_eq rfl hrp, ok_bind]
  generalize User.tokEnd rp ldMagic.length = i1 at hi1
  refine ite_eq_ok (fun _ => rfl) fun hempty => ?_
  have hname : i1 - ldMagic.length ≤ (rp.drop ldMagic.length).length := by
    rw [List.length_drop]
    omega
  rw [advance_of_le (by omega), ok_bind, usizeSub_of_le (by omega), ok_bind,
    eqs_eq hname le_rfl (.inl (by omega)), List.take_length, ok_bind]
  refine ite_eq_ok (fun _ => rfl) fun _ => ?_
  -- The numbers, and the space behind them.
  rw [ldNums_eq hrp, ok_bind]
  generalize User.ldNums rp i1 = n
  refine ite_eq_ok (fun _ => rfl) fun _ => ?_
  by_cases hnext : rp.length ≤ n.next
  · rw [if_pos hnext, List.getElem?_eq_none hnext]
    rfl
  have hlt : n.next < rp.length := by omega
  rw [if_neg hnext, readAt_of_lt hlt, ok_bind, List.getElem?_eq_getElem hlt]
  simp only [ne_eq, Option.some.injEq]
  refine ite_eq_ok (fun _ => rfl) fun _ => ?_
  -- The capability word.
  have hc1 := tokEnd_le rp (n.next + 1)
  rw [usizeAdd_of_lt (by omega), ok_bind, tokEnd_eq rfl hrp, ok_bind]
  generalize User.tokEnd rp (n.next + 1) = c1 at hc1
  refine ite_eq_ok (fun _ => rfl) fun hempty => ?_
  -- The image size, up to the checksum tail.
  rw [ldNumAfter_eq hrp, ok_bind]
  generalize User.ldNumAfter rp c1 = zj
  obtain ⟨z, j5⟩ := zj
  by_cases hz : z = u64Max
  · simp [hz]
  rw [usizeSub_of_le (by omega), ok_bind, ldBadLayout_eq, ok_bind]
  simp only [hz, false_or, if_false]
  refine ite_eq_ok (fun _ => rfl) fun _ => ite_eq_ok (fun _ => rfl) fun _ => ?_
  rw [advance_of_le (by omega), ok_bind, usizeSub_of_le (by omega), ok_bind]
  apply ldPolicy_eq
  rw [List.length_drop]
  omega

/-! ## Storage requests -/

theorem storageRange_eq {req : List UInt8} (hreq : req.length ≤ 64) :
    storageRange req req.length = .ok (User.storageRange req) := by
  unfold storageRange User.storageRange
  have hi := parseDecStop_le req (umsg "READ_RANGE start=").length
  have hword : (umsg "READ_RANGE start=").length = 17 := rfl
  have hcount : (umsg " count=").length = 7 := rfl
  rw [parseDecStop_eq (by omega), ok_bind]
  generalize User.parseDecStop req (umsg "READ_RANGE start=").length = parsed at hi
  obtain ⟨start, i⟩ := parsed
  dsimp only at hi ⊢
  rw [usizeAdd_of_lt (by omega), ok_bind]
  by_cases hmal : start = u64Max ∨ req.length < i + (umsg " count=").length
  · rw [if_pos hmal, if_pos (by tauto)]
    rfl
  have hfits : (umsg " count=").length ≤ (req.drop i).length := by
    rw [List.length_drop]
    omega
  rw [if_neg hmal, advance_of_le (by omega), ok_bind, eqs_eq hfits le_rfl (.inl (by omega)),
    List.take_length, ok_bind]
  by_cases hsame : (!User.eqs ((req.drop i).take (umsg " count=").length) (umsg " count=")) = true
  · rw [if_pos hsame, if_pos (by tauto)]
    rfl
  rw [if_neg hsame, if_neg (by tauto), parseDecStop_eq (by omega), ok_bind]
  exact ite_eq_ok (fun _ => rfl) fun _ => ite_eq_ok (fun _ => rfl) fun _ => rfl

theorem storageHandle_eq {req : List UInt8} (hreq : req.length ≤ 64) :
    storageHandle req req.length = .ok (User.storageHandle req) := by
  unfold storageHandle User.storageHandle
  rw [eqs_whole (by decide), ok_bind]
  refine ite_eq_ok (fun _ => rfl) fun _ => ?_
  rw [startsWith_eq (by decide), ok_bind]
  refine ite_eq_ok (fun _ => ?_) fun _ => ?_
  · rw [parseDecStop_eq (by omega), ok_bind]
    exact ite_eq_ok (fun _ => rfl) fun _ => rfl
  · rw [startsWith_eq (by decide), ok_bind]
    exact ite_eq_ok (fun _ => storageRange_eq hreq) fun _ => rfl

/-- The validation of every record that the transport can deliver, against a name of any length,
and the parsing of every storage request make no access outside of the bytes they were given and no
index computation that wraps, and they compute what their models over lists do. -/
theorem parsers_inBounds (rp name req : List UInt8) (hrp : rp.length ≤ 64)
    (hreq : 1 ≤ req.length ∧ req.length ≤ 64) :
    ldValidate rp rp.length name name.length = .ok (User.ldValidate rp name) ∧
      storageHandle req req.length = .ok (User.storageHandle req) :=
  ⟨ldValidate_eq (by omega) name, storageHandle_eq hreq.2⟩

/-- A record that is accepted up to its last byte, and a request that ends inside of its word. -/
theorem parsers_inBounds_hello :
    ldValidate (umsg "AXAPP1 hello 0 4096 4096 1 console 8192 0a6d") 44 (umsg "hello") 5 = .ok 0 ∧
      storageHandle (umsg "READ_RANGE start=4 coun") 23 = .ok (reply (umsg "ERR malformed")) := by
  have h := parsers_inBounds (umsg "AXAPP1 hello 0 4096 4096 1 console 8192 0a6d") (umsg "hello")
    (umsg "READ_RANGE start=4 coun") (by decide) (by decide)
  have hcode : User.ldValidate (umsg "AXAPP1 hello 0 4096 4096 1 console 8192 0a6d")
      (umsg "hello") = 0 := by
    decide +kernel
  rw [hcode] at h
  exact h

end AxiomRT.User.Raw
