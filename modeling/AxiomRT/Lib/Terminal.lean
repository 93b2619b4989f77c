import Mathlib.Data.List.Basic

/-!
# A character terminal

Rows of cells and a cursor. A printed byte overwrites the cell at the cursor, a backspace moves the
cursor back and erases nothing, and a line feed begins a new row. A blank cell cannot be told from a
space.
-/

namespace AxiomRT.Lib

/-- The finished rows, the cells of the current row, and the column of the cursor. -/
structure Terminal where
  above : List (List UInt8)
  row : List UInt8
  col : ℕ
  deriving DecidableEq, Repr

/-- The cell of a space. -/
abbrev blankCell : UInt8 := 32

namespace Terminal

variable {t : Terminal} {text : List UInt8} {b : UInt8}

/-- Overwrite the cell at the cursor; cells up to it that were never written are blank. -/
def print (t : Terminal) (b : UInt8) : Terminal :=
  { t with
    row := t.row.take t.col ++ List.replicate (t.col - t.row.length) blankCell ++
      b :: t.row.drop (t.col + 1)
    col := t.col + 1 }

/-- Backspace, line feed and carriage return move the cursor; every other byte is printed. -/
def feed (t : Terminal) (b : UInt8) : Terminal :=
  if b = 8 then { t with col := t.col - 1 }
  else if b = 10 then { t with above := t.above ++ [t.row], row := [] }
  else if b = 13 then { t with col := 0 }
  else t.print b

/-- The terminal after a sequence of bytes. -/
def feeds (t : Terminal) (bytes : List UInt8) : Terminal := bytes.foldl feed t

/-- The row reads as the text: what follows it is blank. -/
def Reads (row text : List UInt8) : Prop := ∃ n, row = text ++ List.replicate n blankCell

/-- The current row reads as the text, and the cursor stands behind it. -/
structure Shows (t : Terminal) (text : List UInt8) : Prop where
  reads : Reads t.row text
  cursor : t.col = text.length

/-- Printing behind the text overwrites the first cell of the rest. -/
theorem print_eq {rest : List UInt8} (hrow : t.row = text ++ rest) (hcol : t.col = text.length)
    (b : UInt8) : t.print b = ⟨t.above, text ++ b :: rest.drop 1, text.length + 1⟩ := by
  have hpad : t.col - t.row.length = 0 := by
    rw [hrow, hcol, List.length_append]
    omega
  rw [print, hpad, hcol, hrow, List.take_left, ← List.drop_drop, List.drop_left,
    List.replicate_zero, List.append_nil]

/-- Printing at the end of the text appends to it. -/
theorem Shows.print (h : t.Shows text) (b : UInt8) : (t.print b).Shows (text ++ [b]) := by
  obtain ⟨⟨n, hrow⟩, hcol⟩ := h
  rw [print_eq hrow hcol]
  refine ⟨⟨n - 1, ?_⟩, ?_⟩
  · rw [List.drop_replicate, List.append_assoc]
    rfl
  · rw [List.length_append]
    rfl

/-- Back, a space, and back again erase the last character. -/
theorem Shows.erase (h : t.Shows (text ++ [b])) : (t.feeds [8, blankCell, 8]).Shows text := by
  obtain ⟨⟨n, hrow⟩, hcol⟩ := h
  have hback : (t.feed 8).row = text ++ b :: List.replicate n blankCell := by
    rw [List.append_cons]
    exact hrow
  have hcol' : (t.feed 8).col = text.length := by
    show t.col - 1 = text.length
    rw [hcol, List.length_append]
    rfl
  have hspace : (t.feed 8).print blankCell =
      ⟨t.above, text ++ blankCell :: List.replicate n blankCell, text.length + 1⟩ :=
    print_eq hback hcol' blankCell
  show (((t.feed 8).print blankCell).feed 8).Shows text
  rw [hspace]
  exact ⟨⟨n + 1, rfl⟩, rfl⟩

/-- Carriage return and line feed finish the row. -/
theorem shows_enter (t : Terminal) :
    (t.feeds [13, 10]).Shows [] ∧ (t.feeds [13, 10]).above = t.above ++ [t.row] :=
  ⟨⟨⟨0, rfl⟩, rfl⟩, rfl⟩

end Terminal

end AxiomRT.Lib
