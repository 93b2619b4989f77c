import AxiomRT.Lib.Text

/-!
# Lines of words

Text whose lines end in a carriage return and a line feed, and the first word of a line.
-/

namespace AxiomRT.Lib

/-! ## Words -/

theorem splitOnP_append_blank {α : Type*} {p : α → Bool} (l ws : List α)
    (hws : ∀ c ∈ ws, p c = true) :
    (l ++ ws).splitOnP p = l.splitOnP p ++ List.replicate ws.length [] := by
  induction l with
  | nil =>
    rw [List.nil_append]
    induction ws with
    | nil => rfl
    | cons c ws ih =>
      have hc : p c = true := hws c List.mem_cons_self
      rw [List.splitOnP_cons_eq_if_modifyHead, if_pos hc,
        ih fun c hc => hws c (List.mem_cons_of_mem _ hc)]
      rfl
  | cons c l ih =>
    rw [List.cons_append, List.splitOnP_cons_eq_if_modifyHead,
      List.splitOnP_cons_eq_if_modifyHead, ih]
    split_ifs
    · rfl
    · cases h : l.splitOnP p with
      | nil => exact absurd h (List.splitOnP_ne_nil p l)
      | cons w ws => rfl

/-- White space at the end makes no words. -/
theorem splitWhitespace_trimEnd (s : String) :
    splitWhitespace (trimEnd s) = splitWhitespace s := by
  have hsplit := splitOnP_append_blank (s.toList.rdropWhile isWhitespace)
    (s.toList.rtakeWhile isWhitespace) fun c hc => List.mem_rtakeWhile_imp hc
  rw [List.rdropWhile_append_rtakeWhile] at hsplit
  rw [splitWhitespace, splitWhitespace, hsplit, trimEnd, String.toList_ofList, List.filter_append]
  simp

theorem splitWhitespace_append {w : String} (hw : Word w) (s : String) :
    splitWhitespace (w ++ " " ++ s) = w :: splitWhitespace s := by
  have htext : (w ++ " " ++ s).toList = w.toList ++ ' ' :: s.toList := by simp
  have hne : w.toList.isEmpty = false := List.isEmpty_eq_false_iff.2 hw.ne_nil
  rw [splitWhitespace, htext, List.splitOnP_append_cons_of_forall_mem hw.solid ' ' (by decide)]
  simp [hne, splitWhitespace]

/-- Words with blanks between them are one line. -/
theorem newline_notMem_blankBefore {ws : List String} (h : ∀ w ∈ ws, Word w) :
    '\n' ∉ (blankBefore ws).toList := by
  induction ws with
  | nil => exact List.not_mem_nil
  | cons w ws ih =>
    have hw : '\n' ∉ w.toList := by
      intro hmem
      have hsolid := (h w List.mem_cons_self).solid '\n' hmem
      exact absurd hsolid (by decide)
    have hrest := ih fun v hv => h v (List.mem_cons_of_mem _ hv)
    simp [hw, hrest]

/-! ## Lines -/

theorem splitOn_lines (ls : List (List Char)) (h : ∀ l ∈ ls, '\n' ∉ l) :
    (ls.flatMap fun l => l ++ ['\r', '\n']).splitOn '\n' = ls.map (· ++ ['\r']) ++ [[]] := by
  induction ls with
  | nil => rfl
  | cons l ls ih =>
    have hl : '\n' ∉ l := h l List.mem_cons_self
    have hno : ∀ c ∈ l ++ ['\r'], (c == '\n') = false := by
      intro c hc
      rw [beq_eq_false_iff_ne]
      rintro rfl
      rcases List.mem_append.1 hc with hc | hc
      · exact hl hc
      · simp at hc
    have htext : (l :: ls).flatMap (fun l => l ++ ['\r', '\n']) =
        (l ++ ['\r']) ++ '\n' :: ls.flatMap fun l => l ++ ['\r', '\n'] := by
      simp
    rw [htext, List.splitOn, List.splitOnP_append_cons_of_forall_mem hno '\n' (by decide)]
    have hrest := ih fun l hl => h l (List.mem_cons_of_mem _ hl)
    rw [List.splitOn] at hrest
    rw [hrest]
    rfl

/-- Lines that end in a carriage return and a line feed. -/
theorem lines_crlf {ls : List String} (h : ∀ l ∈ ls, '\n' ∉ l.toList) :
    lines (String.ofList (ls.flatMap fun l => l.toList ++ ['\r', '\n'])) = ls := by
  have hchars := splitOn_lines (ls.map String.toList) (by simpa using h)
  rw [List.flatMap_map] at hchars
  have hstrip : ∀ l : String, String.ofList (stripReturn (l.toList ++ ['\r'])) = l := by
    intro l
    simp [stripReturn]
  rw [lines, String.toList_ofList, hchars]
  simp [hstrip, Function.comp_def]

end AxiomRT.Lib
