import AxiomRT.User.Console
import AxiomRT.User.Proofs.EnvironmentProofs

/-!
# Proofs: the console service follows the typing

The calls of the service first, then one byte, one turn and all turns. The terminal and the buffer
are compared with the editor after each byte.
-/

namespace AxiomRT.User

open Lib Dispatch
open Lib.Prog

/-- The kernel's console output, byte by byte. -/
theorem conByte_serialByte (b : UInt8) : Kernel.conByte b = (serialByte b).map Tx.byte := by
  unfold Kernel.conByte serialByte
  split_ifs <;> rfl

/-! ## The line buffer -/

namespace LineBuffer

variable {line : LineBuffer}

theorem length_text (line : LineBuffer) : line.text.length = line.len := by
  rw [text, List.length_take, List.length_ofFn]
  exact Nat.min_eq_left (Nat.le_of_lt line.room)

theorem text_back (line : LineBuffer) : line.back.text = line.text.dropLast := by
  rw [List.dropLast_eq_take, length_text, text, text, List.take_take]
  congr 1
  exact (Nat.min_eq_left (Nat.sub_le _ _)).symm

theorem text_push (h : line.len < 63) (b : UInt8) : (line.push b h).text = line.text ++ [b] := by
  have hlast : (List.ofFn (line.push b h).bytes)[line.len]? = some b := by
    rw [List.getElem?_ofFn, dif_pos line.room]
    exact congrArg some (Function.update_self ..)
  have hfirst : (List.ofFn (line.push b h).bytes).take line.len = line.text := by
    apply List.ext_getElem?
    intro i
    rw [text, List.getElem?_take, List.getElem?_take]
    split_ifs with hi
    · rw [List.getElem?_ofFn, List.getElem?_ofFn]
      split_ifs with hlt
      · have hne : (⟨i, hlt⟩ : Fin 64) ≠ ⟨line.len, line.room⟩ := by
          intro heq
          exact Nat.ne_of_lt hi (congrArg Fin.val heq)
        exact congrArg some (Function.update_of_ne hne ..)
      · rfl
    · rfl
  show (List.ofFn (line.push b h).bytes).take (line.len + 1) = line.text ++ [b]
  rw [List.take_add_one, hfirst, hlast]
  rfl

end LineBuffer

/-! ## Calls -/

section Calls

variable {w w' : ConsoleWorld}

theorem exec_consoleUser {α : Type} {p : UserProg α} {a : α} :
    Exec consoleStep (consoleUser p) w a w' ↔
      Exec (fun w c r w' => consoleStep w (.sys c) r w') p w a w' := by
  induction p generalizing w with
  | ret b => rw [consoleUser, exec_ret, exec_ret]
  | call c next ih =>
    rw [consoleUser, exec_call, exec_call]
    constructor
    · rintro ⟨r, w₁, hstep, h⟩
      exact ⟨r, w₁, hstep, (ih r).mp h⟩
    · rintro ⟨r, w₁, hstep, h⟩
      exact ⟨r, w₁, hstep, (ih r).mpr h⟩

/-- Output reaches the terminal whole. -/
theorem exec_echo {bytes : List UInt8} {a : Unit} :
    Exec consoleStep (consoleUser (uwritePtr bytes)) w a w' ↔
      w' = { w with terminal := w.terminal.feeds (bytes.flatMap serialByte) } := by
  rw [exec_consoleUser]
  refine exec_prints (p := fun (w : ConsoleWorld) bytes =>
    { w with terminal := w.terminal.feeds (bytes.flatMap serialByte) }) (fun _ _ _ _ => Iff.rfl)
    (fun _ => rfl) fun w a b => ?_
  rw [List.flatMap_append, Terminal.feeds, Terminal.feeds, Terminal.feeds, List.foldl_append]

/-- Output, then a result. -/
theorem exec_echo_then {bytes : List UInt8} {line line' : LineBuffer} :
    Exec consoleStep (consoleUser (uwritePtr bytes) >>= fun _ => pure line) w line' w' ↔
      line' = line ∧ w' = { w with terminal := w.terminal.feeds (bytes.flatMap serialByte) } := by
  rw [exec_bind]
  constructor
  · rintro ⟨_, w₁, hecho, hret⟩
    obtain ⟨rfl, rfl⟩ := exec_ret.mp hret
    exact ⟨rfl, exec_echo.mp hecho⟩
  · rintro ⟨rfl, hw⟩
    exact ⟨(), w', exec_echo.mpr hw, .ret _ _⟩

end Calls

/-! ## One byte -/

section Bytes

variable {typed : List UInt8} {line line' : LineBuffer} {w w' : ConsoleWorld} {b : UInt8}

theorem edited_snoc (typed : List UInt8) (b : UInt8) :
    edited (typed ++ [b]) = (edited typed).type b := by
  rw [edited, edited, List.foldl_append]
  rfl

theorem exec_consoleEnter : Exec consoleStep (do
      consoleUser (uput "\n")
      let _ ← consoleUser (sysSend 0 line.text)
      return line.clear) w line' w' ↔
    line' = line.clear ∧ w' = ⟨w.input, w.terminal.feeds [13, 10], w.sent ++ [line.text]⟩ := by
  rw [exec_bind]
  constructor
  · rintro ⟨_, w₁, hecho, h⟩
    obtain ⟨r, w₂, hsend, hret⟩ := exec_bind.mp h
    obtain ⟨rfl, rfl⟩ := exec_ret.mp hret
    obtain ⟨r, w₃, hstep, hend⟩ := exec_call.mp hsend
    obtain ⟨-, rfl⟩ := exec_ret.mp hend
    obtain rfl := exec_echo.mp hecho
    exact ⟨rfl, hstep⟩
  · rintro ⟨rfl, rfl⟩
    exact ⟨(), _, exec_echo.mpr rfl, exec_bind.mpr ⟨(0 : Int), _, .call (0 : Int) rfl (.ret _ _),
      .ret _ _⟩⟩

theorem InStep.enter (h : InStep typed line w) (hb : b = 13 ∨ b = 10) : InStep (typed ++ [b])
    line.clear ⟨w.input, w.terminal.feeds [13, 10], w.sent ++ [line.text]⟩ := by
  have htype : edited (typed ++ [b]) = ⟨[], (edited typed).entered ++ [(edited typed).line]⟩ := by
    rw [edited_snoc, Editor.type, if_pos hb]
  constructor
  · rw [htype]
    rfl
  · rw [htype, h.sent, h.buffer]
  · exact (Terminal.shows_enter _).1
  · show List.Forall₂ _ (w.terminal.feeds [13, 10]).above _
    rw [(Terminal.shows_enter _).2]
    exact List.rel_append h.above (.cons h.row.reads .nil)

theorem InStep.erase (h : InStep typed line w) (hne : ¬ (b = 13 ∨ b = 10)) (hb : b = 127 ∨ b = 8)
    (hlen : 0 < line.len) :
    InStep (typed ++ [b]) line.back { w with terminal := w.terminal.feeds [8, 32, 8] } := by
  have htype : edited (typed ++ [b]) =
      ⟨(edited typed).line.dropLast, (edited typed).entered⟩ := by
    rw [edited_snoc, Editor.type, if_neg hne, if_pos hb]
  have htext : line.text ≠ [] := by
    rw [← List.length_pos_iff, line.length_text]
    exact hlen
  have hrow : w.terminal.Shows (line.text.dropLast ++ [line.text.getLast htext]) := by
    rw [List.dropLast_append_getLast]
    exact h.row
  constructor
  · rw [htype, line.text_back, h.buffer]
  · rw [htype]
    exact h.sent
  · rw [line.text_back]
    exact hrow.erase
  · exact h.above

/-- A byte that neither enters nor erases, and is not taken into the line. -/
theorem InStep.ignore (h : InStep typed line w) (hne : ¬ (b = 13 ∨ b = 10))
    (hb : (b = 127 ∨ b = 8) ∧ line.len = 0 ∨
      ¬ (b = 127 ∨ b = 8) ∧ ¬ (line.len < 63 ∧ 32 ≤ b ∧ b < 127)) :
    InStep (typed ++ [b]) line w := by
  have htype : edited (typed ++ [b]) = edited typed := by
    rw [edited_snoc, Editor.type, if_neg hne]
    rcases hb with ⟨hb, hlen⟩ | ⟨hb, hout⟩
    · rw [if_pos hb]
      have hnil : (edited typed).line = [] := by
        rw [← h.buffer, ← List.length_eq_zero_iff, line.length_text]
        exact hlen
      rw [hnil, List.dropLast_nil, ← hnil]
    · rw [← line.length_text, h.buffer] at hout
      rw [if_neg hb, if_neg hout]
  exact ⟨htype ▸ h.buffer, htype ▸ h.sent, h.row, h.above⟩

theorem InStep.insert (h : InStep typed line w) (hne : ¬ (b = 13 ∨ b = 10))
    (hb : ¬ (b = 127 ∨ b = 8)) (hin : line.len < 63 ∧ 32 ≤ b ∧ b < 127) :
    InStep (typed ++ [b]) (line.push b hin.1) { w with terminal := w.terminal.feeds [b] } := by
  have htype : edited (typed ++ [b]) = ⟨(edited typed).line ++ [b], (edited typed).entered⟩ := by
    have hin' := hin
    rw [← line.length_text, h.buffer] at hin'
    rw [edited_snoc, Editor.type, if_neg hne, if_neg hb, if_pos hin']
  have hprint : w.terminal.feeds [b] = w.terminal.print b := by
    show w.terminal.feed b = w.terminal.print b
    rw [Terminal.feed, if_neg (fun h8 => hb (Or.inr h8)), if_neg (fun h10 => hne (Or.inr h10)),
      if_neg (fun h13 => hne (Or.inl h13))]
  rw [hprint]
  constructor
  · rw [htype, LineBuffer.text_push, h.buffer]
  · rw [htype]
    exact h.sent
  · rw [LineBuffer.text_push]
    exact h.row.print b
  · exact h.above

/-- One byte keeps buffer, terminal and lines in step, whatever it is. -/
theorem consoleByte_inStep (h : InStep typed line w)
    (hx : Exec consoleStep (consoleByte line b) w line' w') :
    InStep (typed ++ [b]) line' w' ∧ w'.input = w.input := by
  rw [consoleByte] at hx
  by_cases hne : b = 13 ∨ b = 10
  · rw [if_pos hne, exec_consoleEnter] at hx
    obtain ⟨rfl, rfl⟩ := hx
    exact ⟨h.enter hne, rfl⟩
  rw [if_neg hne] at hx
  by_cases hb : b = 127 ∨ b = 8
  · rw [if_pos hb] at hx
    by_cases hlen : 0 < line.len
    · rw [if_pos hlen] at hx
      obtain ⟨rfl, rfl⟩ := exec_echo_then.mp hx
      exact ⟨h.erase hne hb hlen, rfl⟩
    · rw [if_neg hlen] at hx
      obtain ⟨rfl, rfl⟩ := exec_ret.mp hx
      exact ⟨h.ignore hne (Or.inl ⟨hb, Nat.eq_zero_of_not_pos hlen⟩), rfl⟩
  rw [if_neg hb] at hx
  by_cases hin : line.len < 63 ∧ 32 ≤ b ∧ b < 127
  · rw [dif_pos hin] at hx
    obtain ⟨rfl, rfl⟩ := exec_echo_then.mp hx
    have hbyte : [b].flatMap serialByte = [b] := by
      rw [List.flatMap_singleton, serialByte, if_neg (fun h10 => hne (Or.inr h10))]
    rw [hbyte]
    exact ⟨h.insert hne hb hin, rfl⟩
  · rw [dif_neg hin] at hx
    obtain ⟨rfl, rfl⟩ := exec_ret.mp hx
    exact ⟨h.ignore hne (Or.inr ⟨hb, hin⟩), rfl⟩

/-- Every byte comes to an end. -/
theorem exists_consoleByte (line : LineBuffer) (b : UInt8) (w : ConsoleWorld) :
    ∃ line' w', Exec consoleStep (consoleByte line b) w line' w' ∧ w'.input = w.input := by
  rw [consoleByte]
  split_ifs
  · exact ⟨_, _, exec_consoleEnter.mpr ⟨rfl, rfl⟩, rfl⟩
  · exact ⟨_, _, exec_echo_then.mpr ⟨rfl, rfl⟩, rfl⟩
  · exact ⟨_, _, .ret _ _, rfl⟩
  · exact ⟨_, _, exec_echo_then.mpr ⟨rfl, rfl⟩, rfl⟩
  · exact ⟨_, _, .ret _ _, rfl⟩

end Bytes

/-! ## Turns -/

section Turns

variable {typed : List UInt8} {line line' : LineBuffer} {w w' : ConsoleWorld}

/-- A turn reads at most one byte. -/
theorem consoleTurn_inStep (h : InStep typed line w)
    (hx : Exec consoleStep (consoleTurn line) w line' w') :
    ∃ got, w.input = got ++ w'.input ∧ InStep (typed ++ got) line' w' := by
  obtain ⟨r, w₁, hread, hgo⟩ := exec_call.mp hx
  rcases hread with ⟨hnone, rfl⟩ | ⟨b, rest, fits, hinput, rfl, rfl⟩
  · rw [hnone] at hgo
    obtain ⟨_, w₂, hyield, hret⟩ := exec_call.mp hgo
    obtain ⟨rfl, rfl⟩ := exec_ret.mp hret
    obtain rfl : w' = w₁ := hyield
    refine ⟨[], rfl, ?_⟩
    rw [List.append_nil]
    exact h
  · have h₁ : InStep typed line { w with input := rest } := ⟨h.buffer, h.sent, h.row, h.above⟩
    obtain ⟨hin, hrest⟩ := consoleByte_inStep (b := b) h₁ hgo
    refine ⟨[b], ?_, hin⟩
    rw [hinput, hrest]
    rfl

theorem consoleTurns_inStep {n : ℕ} (h : InStep typed line w)
    (hx : Exec consoleStep (consoleTurns n line) w line' w') :
    ∃ got, w.input = got ++ w'.input ∧ InStep (typed ++ got) line' w' := by
  induction n generalizing typed line w with
  | zero =>
    obtain ⟨rfl, rfl⟩ := exec_ret.mp hx
    refine ⟨[], rfl, ?_⟩
    rw [List.append_nil]
    exact h
  | succ n ih =>
    obtain ⟨line₁, w₁, hturn, hx⟩ := exec_bind.mp hx
    obtain ⟨got, hgot, h₁⟩ := consoleTurn_inStep h hturn
    obtain ⟨more, hmore, h₂⟩ := ih h₁ hx
    refine ⟨got ++ more, ?_, ?_⟩
    · rw [hgot, hmore, List.append_assoc]
    · rw [← List.append_assoc]
      exact h₂

/-- A byte that is there can be read in the next turn. -/
theorem exists_consoleTurns (input : List UInt8) (line : LineBuffer) (terminal : Terminal)
    (sent : List (List UInt8)) : ∃ line' w',
      Exec consoleStep (consoleTurns input.length line) ⟨input, terminal, sent⟩ line' w' ∧
        w'.input = [] := by
  induction input generalizing line terminal sent with
  | nil => exact ⟨line, _, .ret _ _, rfl⟩
  | cons b rest ih =>
    obtain ⟨line₁, w₁, hbyte, hinput⟩ := exists_consoleByte line b ⟨rest, terminal, sent⟩
    have hturn : Exec consoleStep (consoleTurn line) ⟨b :: rest, terminal, sent⟩ line₁ w₁ :=
      .call (.ok [b] (Nat.le_refl 1)) (Or.inr ⟨b, rest, Nat.le_refl 1, rfl, rfl, rfl⟩) hbyte
    obtain ⟨line', w', hx, hend⟩ := ih line₁ w₁.terminal w₁.sent
    refine ⟨line', w', exec_bind.mpr ⟨line₁, w₁, hturn, ?_⟩, hend⟩
    obtain rfl : w₁.input = rest := hinput
    exact hx

/-- The line and the lines entered are short and printable. -/
theorem edited_lines (typed : List UInt8) :
    ∀ l ∈ (edited typed).line :: (edited typed).entered,
      l.length ≤ 63 ∧ ∀ b ∈ l, 32 ≤ b ∧ b < 127 := by
  induction typed using List.reverseRecOn with
  | nil => simp [edited]
  | append_singleton typed b ih =>
    rw [List.forall_mem_cons] at ih ⊢
    obtain ⟨⟨hlen, hprint⟩, hentered⟩ := ih
    rw [edited_snoc, Editor.type]
    split_ifs with hne hb hin
    · refine ⟨⟨Nat.zero_le _, fun _ h => absurd h List.not_mem_nil⟩, ?_⟩
      intro l hl
      rcases List.mem_append.mp hl with hl | hl
      · exact hentered l hl
      · rw [List.mem_singleton.mp hl]
        exact ⟨hlen, hprint⟩
    · refine ⟨⟨?_, fun c hc => hprint c (List.mem_of_mem_dropLast hc)⟩, hentered⟩
      rw [List.length_dropLast]
      exact Nat.le_trans (Nat.sub_le _ _) hlen
    · refine ⟨⟨?_, ?_⟩, hentered⟩
      · rw [List.length_append]
        exact hin.1
      · intro c hc
        rcases List.mem_append.mp hc with hc | hc
        · exact hprint c hc
        · rw [List.mem_singleton.mp hc]
          exact hin.2
    · exact ⟨⟨hlen, hprint⟩, hentered⟩

theorem consoleRuns_inStep {scratch : Fin 64 → UInt8} {input : List UInt8} {n : ℕ}
    (h : ConsoleRuns scratch input n line w) :
    ∃ typed, input = typed ++ w.input ∧ InStep typed line w := by
  have hstart : InStep [] ⟨scratch, 0, by decide⟩ ⟨input, ⟨[], [], 0⟩, []⟩ :=
    ⟨rfl, rfl, ⟨⟨0, rfl⟩, rfl⟩, .nil⟩
  exact consoleTurns_inStep hstart h

/-- What stands on the screen is what was typed and what the shell gets. -/
theorem console_followsTyping (scratch : Fin 64 → UInt8) (input : List UInt8) :
    FollowsTyping scratch input where
  inStep _ _ _ h := consoleRuns_inStep h
  lines n line w h := by
    intro l hl
    obtain ⟨typed, -, hin⟩ := consoleRuns_inStep h
    rw [hin.sent] at hl
    exact edited_lines typed l (List.mem_cons_of_mem _ hl)
  reads := exists_consoleTurns input _ _ _

end Turns

end AxiomRT.User
