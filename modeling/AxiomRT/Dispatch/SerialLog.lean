import AxiomRT.Axiomctl.Events
import AxiomRT.Dispatch.Evidence

/-!
# The serial log

What the dispatcher and the trap layer put on the serial line, as the characters that the host
reads, and the evidence that a line of the log gives for an entry of the kernel event ring.
-/

namespace AxiomRT.Dispatch

open Lib

/-! ## Characters on the line -/

/-- The character of a byte. -/
def byteChar (b : UInt8) : Char := Char.ofNat b.toNat

/-- `put_str` expands a line feed for terminals. -/
def crlf (c : Char) : List Char := if c = '\n' then ['\r', c] else [c]

/-- A hexadecimal digit. -/
def hexDigit (d : ℕ) : UInt8 := if d < 10 then UInt8.ofNat (48 + d) else UInt8.ofNat (97 + (d - 10))

/-- The digit loop of `put_hex`: at most `room` digits, least significant first. -/
def hexLoop : (room v : ℕ) → List UInt8 → List UInt8
  | 0, _, acc => acc
  | room + 1, v, acc => if v = 0 then acc else hexLoop room (v / 16) (hexDigit (v % 16) :: acc)

/-- The characters of one serial output call. -/
def Tx.chars : Tx → List Char
  | .str s => s.toList.flatMap crlf
  | .byte b => [byteChar b]
  | .dec v => (if v = 0 then [48] else InfoBuf.decLoop 20 v []).map byteChar
  | .hex v => '0' :: 'x' :: (if v = 0 then [48] else hexLoop 16 v []).map byteChar

/-- The characters of a sequence of output calls. -/
def serialChars (out : List Tx) : List Char := out.flatMap Tx.chars

/-- The output consists of these whole lines. -/
structure Lines (out : List Tx) (ls : List String) : Prop where
  chars : serialChars out = ls.flatMap fun l => l.toList ++ ['\r', '\n']
  single : ∀ l ∈ ls, '\n' ∉ l.toList

/-! ## The trap layer -/

/-- The registers the trap layer looks at. -/
structure TrapRegs where
  scause : UInt64
  stval : UInt64

/-- The value of `scause` for an illegal instruction. -/
abbrev causeIllegalInstruction : UInt64 := 2

/-- The value of `scause` for a page fault on a fetch. -/
abbrev causeInstructionPageFault : UInt64 := 12

/-- The value of `scause` for a page fault on a load. -/
abbrev causeLoadPageFault : UInt64 := 13

/-- The value of `scause` for a page fault on a store. -/
abbrev causeStorePageFault : UInt64 := 15

/-- Where the kernel image starts. -/
abbrev kernelBase : UInt64 := 0x80200000

/-- Classify a user page fault for the containment report. -/
def pageFaultReason (scause faultAddr : UInt64) : String :=
  if kernelBase ≤ faultAddr then "user_access_kernel_memory"
  else if scause = causeInstructionPageFault then "user_execute_nonexecutable"
  else "user_access_unmapped"

/-- How `trap_handler` reports an exception from user mode, and the reason it contains it with. -/
def faultReport (r : TrapRegs) : String × String :=
  if r.scause = causeIllegalInstruction then ("illegal-instruction", "illegal_instruction")
  else if r.scause = causeInstructionPageFault ∨ r.scause = causeLoadPageFault ∨
      r.scause = causeStorePageFault then
    ("page-fault", pageFaultReason r.scause r.stval)
  else ("unknown", "exception")

/-- `put_hex` of the trap layer: all sixteen digits. -/
def putHex (value : UInt64) : List Tx :=
  .str "0x" :: (List.range 16).reverse.map fun shift =>
    .byte (hexDigit (value.toNat / 16 ^ shift % 16))

/-- `report`: the line of a trap. -/
def report (kind : String) (r : TrapRegs) (sepc : UInt64) : List Tx :=
  [.str "TRAP kind=", .str kind, .str " cause="] ++ putHex r.scause ++ [.str " sepc="] ++
    putHex sepc ++ [.str " stval="] ++ putHex r.stval ++ [.str "\n"]

/-- What the trap layer prints before the dispatcher handles the trap. -/
def trapText (ev : Event) (r : TrapRegs) : List Tx :=
  match ev.trap with
  | .fault _ => report (faultReport r).1 r ev.frame.sepc
  | _ => []

/-! ## The log of a run -/

section Runs

variable {img : Image} {init : Kernel → Prop}

/-- Everything on the serial line before step `i`. -/
def serialBefore (x : Execution (step img) init) (regs : ℕ → TrapRegs) : ℕ → List Tx
  | 0 => (x.st 0).uart
  | i + 1 => serialBefore x regs i ++ trapText (x.ev i) (regs i) ++
      (x.st (i + 1)).uart.drop (x.st i).uart.length

/-- The log as the host has it. -/
def serialLog (x : Execution (step img) init) (regs : ℕ → TrapRegs) (i : ℕ) : String :=
  String.ofList (serialChars (serialBefore x regs i))

/-- The reason of every contained fault is the one the trap layer derives from its registers. -/
def Classified (x : Execution (step img) init) (regs : ℕ → TrapRegs) : Prop :=
  ∀ i, i < x.len → ∀ reason, (x.ev i).trap = .fault reason → reason = (faultReport (regs i)).2

end Runs

/-! ## Evidence -/

/-- The ring entries that a kind of line stands for. Starts, kills and restarts have lines of kinds
that the host parser does not know. -/
def evidenceKind (kind : String) : Option EvKind :=
  match kind with
  | "TASK_EXITED" => some .exited
  | "FAULT" => some .fault
  | "CAP_DENIED" | "DEVICE_DENIED" | "MMIO_DENIED" | "DMA_DENIED" | "IRQ_DENIED" => some .capDenied
  | "RECOVERY_APPLIED" => some .recovery
  | _ => none

/-- What a parsed line says about the ring: the kind of the entry and the task it names. -/
def evidenceOf (ev : Axiomctl.Event) : Option (EvKind × Option String) :=
  (evidenceKind ev.kind).map fun kind =>
    (kind, (ev.fields.find? fun f => f.1 == "task").map Prod.snd)

/-- The evidence of one line. -/
def lineEvidence (line : String) : Option (EvKind × Option String) :=
  (Axiomctl.parseLine line).bind evidenceOf

/-- What the log is to say about an entry of the ring; the record of a recovery names no task. -/
def ringEvidence (names : Slot → String) (e : EvKind × Slot) : Option (EvKind × Option String) :=
  match e.1 with
  | .exited | .fault | .capDenied => some (e.1, some (names e.2))
  | .recovery => some (.recovery, none)
  | .started | .killed | .restarted => none

/-! ## User output -/

/-- The running task issues a `sys_con_write` of these bytes that the kernel accepts. -/
structure ConWriteReq (img : Image) (c : Core) (bytes : List UInt8) : Prop where
  sys : c.frame.sys = some .conWrite
  holds : c.capFind c.current .console rightSend = true
  short : c.frame.arg 1 ≤ Kernel.conWriteMax
  readable : inReadableWindow img (c.frame.arg 0) (c.frame.arg 1) = true
  bytes_eq : c.seen (c.frame.arg 0) (c.frame.arg 1) = bytes

/-- The bytes are whole lines of ASCII text, none of which reads as evidence. -/
structure Harmless (bytes : List UInt8) : Prop where
  ascii : ∀ b ∈ bytes, b < 128
  lines : ∃ ls, Lines (bytes.flatMap Kernel.conByte) ls ∧ ls.filterMap lineEvidence = []

/-- Whatever the trap writes to the console for a task is harmless. -/
def WritesHarmless (img : Image) (k : Kernel) (ev : Event) : Prop :=
  ev.trap = .ecall → ∀ bytes, ConWriteReq img (k.toCore.enter ev) bytes → Harmless bytes

end AxiomRT.Dispatch
