import AxiomRT.Dispatch.Device
import AxiomRT.Lib.Terminal
import AxiomRT.User.Text

/-!
# The console service

`console_service` owns the input: it reads single bytes, echoes them, assembles a line in a buffer
of 64 bytes and sends each finished line to the shell. What its output does to a terminal is part of
the model: the kernel puts a carriage return before each line feed.
-/

namespace AxiomRT.User

open Lib Dispatch

/-- The system calls of the console service: those of the other services, and two that only it
makes. -/
inductive ConsoleCall
  | sys (c : Call)
  | conRead (room : ℕ)
  | yield
  deriving DecidableEq, Repr

/-- What a call of the console is answered with. -/
@[reducible] def ConsoleCall.Answer : ConsoleCall → Type
  | .sys c => c.Answer
  | .conRead room => Filled room
  | .yield => Int

/-- A program of the console. -/
abbrev ConsoleProg (α : Type) : Type := Prog ConsoleCall ConsoleCall.Answer α

/-- A program that makes calls of the other services only. -/
def consoleUser {α : Type} : UserProg α → ConsoleProg α
  | .ret a => .ret a
  | .call c next => .call (.sys c) fun r => consoleUser (next r)

/-- The line buffer; what stands behind its first `len` bytes is scratch. -/
structure LineBuffer where
  bytes : Fin 64 → UInt8
  len : ℕ
  room : len < 64

namespace LineBuffer

/-- The line so far. -/
def text (line : LineBuffer) : List UInt8 := (List.ofFn line.bytes).take line.len

/-- Start a new line. -/
def clear (line : LineBuffer) : LineBuffer := { line with len := 0, room := by decide }

/-- `len -= 1`. -/
def back (line : LineBuffer) : LineBuffer :=
  { line with len := line.len - 1, room := Nat.lt_of_le_of_lt (Nat.sub_le _ _) line.room }

/-- `write_volatile(lp.add(len), b)` and `len += 1`. -/
def push (line : LineBuffer) (b : UInt8) (h : line.len < 63) : LineBuffer :=
  { bytes := Function.update line.bytes ⟨line.len, line.room⟩ b
    len := line.len + 1
    room := Nat.succ_lt_succ h }

end LineBuffer

/-- What the service does with one byte. -/
def consoleByte (line : LineBuffer) (b : UInt8) : ConsoleProg LineBuffer :=
  if b = 13 ∨ b = 10 then do
    consoleUser (uput "\n")
    let _ ← consoleUser (sysSend 0 line.text)
    return line.clear
  else if b = 0x7f ∨ b = 0x08 then
    if 0 < line.len then do
      consoleUser (uput "\x08 \x08")
      return line.back
    else return line
  else if h : line.len < 63 ∧ 0x20 ≤ b ∧ b < 0x7f then do
    -- the echo is written from the input byte itself
    consoleUser (uwritePtr [b])
    return line.push b h.1
  else return line

/-- One turn of the loop in `console_body`. -/
def consoleTurn (line : LineBuffer) : ConsoleProg LineBuffer :=
  .call (.conRead 1) fun answer =>
    match Filled.received answer with
    | none => .call .yield fun _ => .ret line
    | some got => consoleByte line (got.headD 0)

/-- So many turns of the loop, one after the other. -/
def consoleTurns : ℕ → LineBuffer → ConsoleProg LineBuffer
  | 0, line => .ret line
  | n + 1, line => consoleTurn line >>= consoleTurns n

/-! ## The terminal -/

/-- What reaches the serial line for one byte written. -/
def serialByte (b : UInt8) : List UInt8 := if b = 10 then [13, b] else [b]

/-- What the calls of the service act on: the bytes typed and not read yet, the terminal, and the
lines handed to the shell. -/
structure ConsoleWorld where
  input : List UInt8
  terminal : Terminal
  sent : List (List UInt8)

/-- A read gets the next byte, or nothing if it is not there yet. The kernel prints what it is
given; it may refuse a line. -/
def consoleStep (w : ConsoleWorld) : (c : ConsoleCall) → c.Answer → ConsoleWorld → Prop
  | .conRead room, r, w' =>
    (r.received = none ∧ w' = w) ∨
      ∃ b rest fits, w.input = b :: rest ∧ r = @Filled.ok room [b] fits ∧
        w' = { w with input := rest }
  | .sys (.conWrite bytes), r, w' =>
    r = bytes.length ∧ w' = { w with terminal := w.terminal.feeds (bytes.flatMap serialByte) }
  | .sys (.send _ msg), _, w' => w' = { w with sent := w.sent ++ [msg] }
  | _, _, w' => w' = w

/-! ## Editing -/

/-- An editor: the line so far, and the lines entered. -/
structure Editor where
  line : List UInt8
  entered : List (List UInt8)

/-- Enter, erase, and every printable character as long as the line has less than 63; every other
byte does nothing. -/
def Editor.type (ed : Editor) (b : UInt8) : Editor :=
  if b = 13 ∨ b = 10 then ⟨[], ed.entered ++ [ed.line]⟩
  else if b = 127 ∨ b = 8 then { ed with line := ed.line.dropLast }
  else if ed.line.length < 63 ∧ 32 ≤ b ∧ b < 127 then { ed with line := ed.line ++ [b] }
  else ed

/-- What was typed, as the editor has it. -/
def edited (typed : List UInt8) : Editor := typed.foldl Editor.type ⟨[], []⟩

/-- The buffer and the terminal agree with what was typed: the buffer holds the line, the current
row shows it, and the rows above read as the lines that were entered, which are the ones sent. -/
structure InStep (typed : List UInt8) (line : LineBuffer) (w : ConsoleWorld) : Prop where
  buffer : line.text = (edited typed).line
  sent : w.sent = (edited typed).entered
  row : w.terminal.Shows line.text
  above : List.Forall₂ Terminal.Reads w.terminal.above w.sent

/-- The service started on a blank terminal, with these bytes to be typed. -/
def ConsoleRuns (scratch : Fin 64 → UInt8) (input : List UInt8) (n : ℕ) (line : LineBuffer)
    (w : ConsoleWorld) : Prop :=
  Prog.Exec consoleStep (consoleTurns n ⟨scratch, 0, by decide⟩) ⟨input, ⟨[], [], 0⟩, []⟩ line w

/-- The service follows the typing. -/
structure FollowsTyping (scratch : Fin 64 → UInt8) (input : List UInt8) : Prop where
  /-- Whenever a turn ends, buffer, terminal and lines sent agree with what was read so far. -/
  inStep : ∀ n line w, ConsoleRuns scratch input n line w →
    ∃ typed, input = typed ++ w.input ∧ InStep typed line w
  /-- A line fits the buffer of the shell and holds printable characters only. -/
  lines : ∀ n line w, ConsoleRuns scratch input n line w →
    ∀ l ∈ w.sent, l.length ≤ 63 ∧ ∀ b ∈ l, 32 ≤ b ∧ b < 127
  /-- No byte holds it up. -/
  reads : ∃ line w, ConsoleRuns scratch input input.length line w ∧ w.input = []

end AxiomRT.User
