import Mathlib.Algebra.Order.Ring.Nat
import Mathlib.Data.List.DropRight
import Mathlib.Tactic.Common

/-!
# Text

Trimming and splitting of Unicode text, and what they do to words joined by single blanks.
-/

namespace AxiomRT.Lib

/-! ## White space -/

/-- The Unicode property `White_Space`. -/
def isWhitespace (c : Char) : Bool :=
  (0x09 ≤ c.toNat && c.toNat ≤ 0x0D) || (0x2000 ≤ c.toNat && c.toNat ≤ 0x200A) ||
    c.toNat ∈ [0x20, 0x85, 0xA0, 0x1680, 0x2028, 0x2029, 0x202F, 0x205F, 0x3000]

/-- The text without the white space at its end. -/
def trimEnd (s : String) : String := String.ofList (s.toList.rdropWhile isWhitespace)

/-- The text without the white space at either end. -/
def trim (s : String) : String :=
  String.ofList ((s.toList.dropWhile isWhitespace).rdropWhile isWhitespace)

/-- The pieces between white space, without the empty ones. -/
def splitWhitespace (s : String) : List String :=
  ((s.toList.splitOnP isWhitespace).filter fun w => !w.isEmpty).map String.ofList

/-- What stands before and after the first `c`. -/
def splitOnce (s : String) (c : Char) : Option (String × String) :=
  match s.toList.dropWhile (· != c) with
  | [] => none
  | _ :: after => some (String.ofList (s.toList.takeWhile (· != c)), String.ofList after)

/-- A line that ended in a line feed, without the carriage return before it. -/
def stripReturn (cs : List Char) : List Char :=
  if cs.getLast? = some '\r' then cs.dropLast else cs

/-- The lines of a text. Each line feed ends a line; what stands behind the last one is a line too
unless it is empty. -/
def lines (s : String) : List String :=
  let pieces := s.toList.splitOn '\n'
  (pieces.dropLast.map stripReturn ++ pieces.getLast?.toList.filter fun l => !l.isEmpty).map
    String.ofList

/-! ## Words -/

/-- Text that is not empty and has no white space. -/
structure Word (s : String) : Prop where
  ne_nil : s.toList ≠ []
  solid : ∀ c ∈ s.toList, isWhitespace c = false

theorem solid_iff {s : String} :
    (s.toList.all fun c => !isWhitespace c) = true ↔ ∀ c ∈ s.toList, isWhitespace c = false := by
  simp

instance (s : String) : Decidable (Word s) :=
  decidable_of_iff (s.toList.isEmpty = false ∧ (s.toList.all fun c => !isWhitespace c) = true)
    ⟨fun h => ⟨List.isEmpty_eq_false_iff.1 h.1, solid_iff.1 h.2⟩,
      fun h => ⟨List.isEmpty_eq_false_iff.2 h.ne_nil, solid_iff.2 h.solid⟩⟩

theorem Word.append {s t : String} (hs : Word s) (ht : ∀ c ∈ t.toList, isWhitespace c = false) :
    Word (s ++ t) where
  ne_nil := by
    rw [String.toList_append]
    exact List.append_ne_nil_of_left_ne_nil hs.ne_nil _
  solid := by
    intro c hc
    rw [String.toList_append, List.mem_append] at hc
    exact hc.elim (hs.solid c) (ht c)

theorem solid_of_isDigit {c : Char} (h : c.isDigit = true) : isWhitespace c = false := by
  obtain ⟨hlo, hhi⟩ := Char.isDigit_iff_toNat.1 h
  have hzero : 48 ≤ c.toNat := hlo
  have hnine : c.toNat ≤ 57 := hhi
  simp [isWhitespace]
  omega

theorem word_repr (n : ℕ) : Word n.repr where
  ne_nil := by
    rw [Nat.toList_repr]
    exact Nat.toDigits_ne_nil
  solid := by
    intro c hc
    rw [Nat.toList_repr] at hc
    exact solid_of_isDigit (Nat.isDigit_of_mem_toDigits (by decide) (by decide) hc)

/-- Words joined by single blanks: each one of `ws` with a blank before it. -/
def blankBefore (ws : List String) : String := String.join (ws.map fun w => " " ++ w)

@[simp] theorem blankBefore_nil : blankBefore [] = "" := rfl

@[simp] theorem blankBefore_cons (w : String) (ws : List String) :
    blankBefore (w :: ws) = " " ++ w ++ blankBefore ws := String.join_cons

theorem blankBefore_append (ws vs : List String) :
    blankBefore (ws ++ vs) = blankBefore ws ++ blankBefore vs := by
  rw [blankBefore, List.map_append, String.join_append]
  rfl

theorem splitOnP_words (ws : List String) (hws : ∀ v ∈ ws, Word v) {w : String} (hw : Word w) :
    (w ++ blankBefore ws).toList.splitOnP isWhitespace = w.toList :: ws.map String.toList := by
  induction ws generalizing w with
  | nil =>
    rw [blankBefore_nil, String.append_empty, List.splitOnP_eq_singleton hw.solid, List.map_nil]
  | cons v ws ih =>
    have hsplit : (w ++ blankBefore (v :: ws)).toList =
        w.toList ++ ' ' :: (v ++ blankBefore ws).toList := by
      simp
    have hv : Word v := hws v List.mem_cons_self
    have hrest : ∀ u ∈ ws, Word u := fun u hu => hws u (List.mem_cons_of_mem v hu)
    rw [hsplit, List.splitOnP_append_cons_of_forall_mem hw.solid ' ' (by decide), ih hrest hv,
      List.map_cons]

theorem splitWhitespace_words {w : String} {ws : List String} (hw : Word w)
    (hws : ∀ v ∈ ws, Word v) : splitWhitespace (w ++ blankBefore ws) = w :: ws := by
  have hall : ∀ v ∈ w :: ws, Word v := List.forall_mem_cons.2 ⟨hw, hws⟩
  have hfull : ((w :: ws).map String.toList).filter (fun v => !v.isEmpty) =
      (w :: ws).map String.toList := by
    rw [List.filter_eq_self]
    intro v hv
    obtain ⟨u, hu, rfl⟩ := List.mem_map.1 hv
    simpa using (hall u hu).ne_nil
  rw [splitWhitespace, splitOnP_words ws hws hw, ← List.map_cons, hfull, List.map_map]
  simp [Function.comp_def]

/-- A word at the end is kept. -/
theorem trimEnd_append (s : String) {w : String} (hw : Word w) : trimEnd (s ++ w) = s ++ w := by
  have hlast : (s ++ w).toList.rdropWhile isWhitespace = (s ++ w).toList := by
    rw [List.rdropWhile_eq_self_iff, String.toList_append]
    intro hne
    rw [List.getLast_append_of_ne_nil _ hw.ne_nil]
    simp [hw.solid _ (List.getLast_mem hw.ne_nil)]
  rw [trimEnd, hlast, String.ofList_toList]

theorem trimEnd_words {w : String} {ws : List String} (hw : Word w) (hws : ∀ v ∈ ws, Word v) :
    trimEnd (w ++ blankBefore ws) = w ++ blankBefore ws := by
  rcases List.eq_nil_or_concat ws with rfl | ⟨vs, v, rfl⟩
  · have hnone : w ++ blankBefore [] = "" ++ w := by
      rw [blankBefore_nil, String.append_empty, String.empty_append]
    rw [hnone, trimEnd_append "" hw]
  · have hv : Word v := hws v (by simp)
    have hlast : w ++ blankBefore (vs ++ [v]) = w ++ blankBefore vs ++ " " ++ v := by
      simp only [blankBefore_append, blankBefore_cons, blankBefore_nil, String.append_empty,
        String.append_assoc]
    rw [List.concat_eq_append, hlast, trimEnd_append _ hv]

/-- Text with a word in front is not blank. -/
theorem trim_append_ne {w : String} (hw : Word w) (s : String) : trim (w ++ s) ≠ "" := by
  obtain ⟨c, cs, hcs⟩ := List.exists_cons_of_ne_nil hw.ne_nil
  have hc : isWhitespace c = false := hw.solid c (by rw [hcs]; exact List.mem_cons_self)
  intro h
  have hnil : (c :: (cs ++ s.toList)).rdropWhile isWhitespace = [] := by
    have := congrArg String.toList h
    rw [trim, String.toList_append, hcs, List.cons_append, List.dropWhile_cons, hc] at this
    simpa using this
  rw [List.rdropWhile_eq_nil_iff] at hnil
  have := hnil c List.mem_cons_self
  rw [hc] at this
  cases this

/-- Text that trims to nothing is blank. -/
theorem trim_eq_empty {s : String} : trim s = "" ↔ ∀ c ∈ s.toList, isWhitespace c = true := by
  have hempty : trim s = "" ↔ (s.toList.dropWhile isWhitespace).rdropWhile isWhitespace = [] := by
    rw [trim, ← String.toList_eq_nil_iff, String.toList_ofList]
  rw [hempty, List.rdropWhile_eq_nil_iff]
  constructor
  · intro h c hc
    rw [← List.takeWhile_append_dropWhile (p := isWhitespace) (l := s.toList),
      List.mem_append] at hc
    exact hc.elim List.mem_takeWhile_imp (h c)
  · intro h c hc
    exact h c (List.dropWhile_subset _ hc)

theorem trimEnd_eq_empty {s : String} (h : ∀ c ∈ s.toList, isWhitespace c = true) :
    trimEnd s = "" := by
  rw [trimEnd, List.rdropWhile_eq_nil_iff.2 h]

theorem splitOnce_append {k : String} {c : Char} (hk : c ∉ k.toList) (v : String) :
    splitOnce (k ++ String.singleton c ++ v) c = some (k, v) := by
  have hbefore : ∀ a ∈ k.toList, (a != c) = true := by
    intro a ha
    rw [bne_iff_ne]
    rintro rfl
    exact hk ha
  have htext : (k ++ String.singleton c ++ v).toList = k.toList ++ c :: v.toList := by
    simp
  rw [splitOnce, htext, List.dropWhile_append_of_pos hbefore,
    List.takeWhile_append_of_pos hbefore]
  simp

/-- What was split is the two parts with the separator between them. -/
theorem splitOnce_eq_some {s k v : String} {c : Char} (h : splitOnce s c = some (k, v)) :
    s = k ++ String.singleton c ++ v ∧ c ∉ k.toList := by
  rw [splitOnce] at h
  cases hdrop : s.toList.dropWhile (· != c) with
  | nil =>
    rw [hdrop] at h
    cases h
  | cons a after =>
    rw [hdrop] at h
    simp only [Option.some.injEq, Prod.mk.injEq] at h
    obtain ⟨rfl, rfl⟩ := h
    have hsep : a = c := by
      have hhead := List.head?_dropWhile_not (· != c) s.toList
      rw [hdrop] at hhead
      simpa using hhead
    have hwhole := List.takeWhile_append_dropWhile (p := (· != c)) (l := s.toList)
    rw [hdrop, hsep] at hwhole
    refine ⟨?_, ?_⟩
    · apply String.toList_inj.mp
      simp [hwhole]
    · intro hmem
      rw [String.toList_ofList] at hmem
      have hne := List.mem_takeWhile_imp hmem
      simp at hne

theorem splitOnce_eq_none {s : String} {c : Char} : splitOnce s c = none ↔ c ∉ s.toList := by
  rw [splitOnce]
  cases hdrop : s.toList.dropWhile (· != c) with
  | nil =>
    rw [List.dropWhile_eq_nil_iff] at hdrop
    refine iff_of_true rfl fun hmem => ?_
    have hne := hdrop c hmem
    simp at hne
  | cons a after =>
    refine iff_of_false (by simp) fun hmem => ?_
    have hnil : s.toList.dropWhile (· != c) = [] := by
      rw [List.dropWhile_eq_nil_iff]
      intro b hb
      rw [bne_iff_ne]
      rintro rfl
      exact hmem hb
    rw [hnil] at hdrop
    cases hdrop

/-! ## Decimal numbers -/

theorem utf8Size_digitChar {d : ℕ} (hd : d < 10) : d.digitChar.utf8Size = 1 := by
  revert d
  decide

/-- A number below `10 ^ e` is written with at most `e` bytes. -/
theorem utf8ByteSize_repr_le {n e : ℕ} (he : 0 < e) (hn : n < 10 ^ e) :
    n.repr.utf8ByteSize ≤ e := by
  induction e generalizing n with
  | zero => exact absurd he (Nat.lt_irrefl 0)
  | succ e ih =>
    by_cases hlt : n < 10
    · rw [Nat.repr_of_lt hlt, String.utf8ByteSize_singleton, utf8Size_digitChar hlt]
      omega
    · have hpos : 0 < e := by
        rcases Nat.eq_zero_or_pos e with rfl | hpos
        · exact absurd hn (by simpa using hlt)
        · exact hpos
      have hquot : (n / 10).repr.utf8ByteSize ≤ e :=
        ih hpos (Nat.div_lt_of_lt_mul (by rw [← Nat.pow_succ']; exact hn))
      rw [Nat.repr_of_ge (by omega), String.utf8ByteSize_append, String.utf8ByteSize_singleton,
        utf8Size_digitChar (Nat.mod_lt n (by decide))]
      omega

end AxiomRT.Lib
