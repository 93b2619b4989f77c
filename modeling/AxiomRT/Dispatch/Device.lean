import AxiomRT.Dispatch.Sched

/-!
# Device, console and introspection syscalls

Mediated MMIO and DMA accesses, the console byte mechanism, and the read-only snapshots of
`sys_info`. None of these touches a task control block, an endpoint or a route.
-/

namespace AxiomRT.Dispatch

/-! ## Info buffer -/

/-- Capacity of the snapshot buffer. -/
abbrev infoMax : Nat := 768

/-- The filled part of the snapshot buffer; bytes beyond the capacity are dropped. -/
abbrev InfoBuf : Type := List UInt8

namespace InfoBuf

/-- Append one byte; a byte that finds the buffer full is dropped. -/
def pushByte (out : InfoBuf) (b : UInt8) : InfoBuf :=
  if out.length < infoMax then out ++ [b] else out

/-- Append bytes one by one. -/
def pushBytes (out : InfoBuf) (bs : List UInt8) : InfoBuf := bs.foldl pushByte out

/-- Append a text. -/
def pushStr (out : InfoBuf) (s : String) : InfoBuf := pushBytes out s.toUTF8.toList

/-- The digit loop of `push_dec`: at most `room` digits, least significant first. -/
def decLoop : (room : Nat) → Nat → List UInt8 → List UInt8
  | 0, _, tmp => tmp
  | room + 1, v, tmp =>
    if v = 0 then tmp else decLoop room (v / 10) (UInt8.ofNat (48 + v % 10) :: tmp)

/-- Append a number in decimal. -/
def pushDec (out : InfoBuf) (v : Nat) : InfoBuf :=
  if v = 0 then pushByte out 48 else pushBytes out (decLoop 20 v [])

end InfoBuf

/-- One piece of snapshot text. -/
inductive InfoItem
  | str (s : String)
  | dec (v : Nat)

/-- Append a sequence of pieces. -/
def InfoBuf.pushAll (out : InfoBuf) (items : List InfoItem) : InfoBuf :=
  items.foldl (fun o i => match i with | .str s => o.pushStr s | .dec v => o.pushDec v) out

/-- The name of an event kind in a snapshot. -/
def evName : EvKind → String
  | .started => "task_started"
  | .exited => "task_exited"
  | .fault => "fault"
  | .capDenied => "cap_denied"
  | .recovery => "recovery_applied"
  | .killed => "task_killed"
  | .restarted => "task_restarted"

/-- The name of a task state in a snapshot. -/
def stateName : RtState → String
  | .empty => "empty"
  | .ready => "ready"
  | .running => "running"
  | .blocked => "blocked"
  | .faulted => "faulted"
  | .killed => "killed"

/-- The name of an object type in a snapshot, with the space before it. -/
def otypeName : OType → String
  | .endpoint => " endpoint"
  | .console => " console"
  | .control => " control"
  | .info => " info"
  | .device => " device"

namespace Kernel

/-- Kind 0: one line for every slot in use. -/
def infoTasks (k : Kernel) (out : InfoBuf) : InfoBuf :=
  (List.finRange maxTasks).foldl (fun out i =>
    let t := k.tasks i
    if t.state = .empty then out
    else out.pushAll [.str "task idx=", .dec i.val, .str " name=", .str t.name, .str " prio=",
      .dec t.prio.toNat, .str " state=", .str (stateName t.state), .str "\n"]) out

/-- Kinds 1 and 6: the entries of the event ring, the oldest first, or only the faults and denials
among them. -/
def infoRing (k : Kernel) (out : InfoBuf) (onlyFaults : Bool) : InfoBuf :=
  let head := k.ringHead
  let count := min head ringLen
  (List.range count).foldl (fun out j =>
    let (kind, slot) := k.ring (Fin.ofNat ringLen (head - count + j))
    if onlyFaults && kind != .fault && kind != .capDenied then out
    else
      let name := (k.tasks slot).name
      out.pushAll [.str "evt kind=", .str (evName kind), .str " task=",
        .str (if name.isEmpty then "?" else name), .str "\n"]) out

/-- Kind 2: one line for every endpoint, and the number of deferred deliveries. -/
def infoIpc (k : Kernel) (out : InfoBuf) : InfoBuf :=
  let out := (List.finRange numEndpoints).foldl (fun out id =>
    out.pushAll [.str "ep id=", .dec id.val, .str " state=",
      .str (match k.endpoints id with
        | .idle => "idle"
        | .senderWaiting _ _ => "sender_waiting"
        | .receiverWaiting _ _ _ => "receiver_waiting"), .str "\n"]) out
  out.pushAll [.str "deferred_deliveries=", .dec k.delivered, .str "\n"]

/-- Kind 3: the object types of the capabilities of every slot in use. -/
def infoCaps (k : Kernel) (out : InfoBuf) : InfoBuf :=
  (List.finRange maxTasks).foldl (fun out i =>
    let t := k.tasks i
    if t.state = .empty then out
    else
      let out := out.pushAll [.str "caps task=", .str t.name]
      let out := (List.finRange capsPerTask).foldl (fun out j =>
        match t.caps j with
        | some c => out.pushStr (otypeName c.otype)
        | none => out) out
      out.pushStr "\n") out

/-- Kind 4: the memory layout. -/
def infoMemory (out : InfoBuf) : InfoBuf :=
  out.pushAll [.str "mmu=sv39 kernel_pages=U0 wxorx=true\n", .str "kernel_base=0x80200000\n",
    .str "user_region_va=0x10000\n", .str "user_stack_va=0x200000 stack_pages=1\n"]

/-- The snapshot of the given kind; `none` where the syscall rejects its arguments. -/
def infoSnapshot (k : Kernel) (kind slot : Nat) : Option InfoBuf :=
  match kind with
  | 0 => some (k.infoTasks [])
  | 1 => some (k.infoRing [] true)
  | 2 => some (k.infoIpc [])
  | 3 => some (k.infoCaps [])
  | 4 => some (infoMemory [])
  | 5 => some (InfoBuf.pushAll [] [.str "uptime ticks=", .dec k.ticks,
      .str " tick_interval=100000 timebase_hz=10000000\n"])
  | 6 => some (k.infoRing [] false)
  | 7 => if h : slot < maxTasks then
      some (InfoBuf.pushStr [] (stateName (k.tasks ⟨slot, h⟩).state)) else none
  | _ => none

/-- `sys_info`: `a0` = kind, `a1` = buffer, `a2` = capacity, `a3` = slot (kind 7). -/
def sysInfo (k : Kernel) : Kernel :=
  let cur := k.current
  if !k.capFind cur .info rightRecv then k.denyAuthority cur "no_info_capability"
  else
    let va := k.frame.arg 1
    let max := k.frame.arg 2
    if !inStackWindow va (min max infoMax) then k.core (·.setA0 errInvalidArg)
    else match k.infoSnapshot (k.frame.arg 0) (k.frame.arg 3) with
      | none => k.core (·.setA0 errInvalidArg)
      | some out =>
        let n := min out.length max
        k.core fun c => (c.copyBytesToUser va (out.take n)).setA0 n

/-! ## Console -/

/-- Longest console write. -/
abbrev conWriteMax : Nat := 256

/-- Serial output of one user byte: a line feed is preceded by a carriage return. -/
def conByte (b : UInt8) : List Tx := if b = 10 then [.byte 13, .byte b] else [.byte b]

/-- `sys_con_write`: `a0` = buffer, `a1` = length. -/
def sysConWrite (img : Image) (k : Kernel) : Kernel :=
  let cur := k.current
  if !k.capFind cur .console rightSend then k.denyAuthority cur "no_console_write_capability"
  else
    let va := k.frame.arg 0
    let len := k.frame.arg 1
    if conWriteMax < len || !inReadableWindow img va len then k.core (·.setA0 errInvalidArg)
    else
      let out := (List.range len).flatMap fun i => conByte (k.readUser (va + i))
      ((k.core (·.touch false va len)).puts out).core (·.setA0 len)

/-- `sys_con_read`: `a0` = buffer, `a1` = capacity. Copies the bytes the serial port has ready. -/
def sysConRead (env : Env) (k : Kernel) : Kernel :=
  let cur := k.current
  if !k.capFind cur .console rightRecv then k.denyAuthority cur "no_console_read_capability"
  else
    let va := k.frame.arg 0
    let max := min (k.frame.arg 1) ipcMsgMax
    if !inStackWindow va max then k.core (·.setA0 errInvalidArg)
    else
      let bytes := env.rx.take max
      k.core fun c => (c.copyBytesToUser va bytes).setA0 bytes.length

/-! ## Device objects -/

/-- One mediated access of `width` bytes at `offset` inside a region of `size` bytes. -/
def accessInBounds (size offset width : Nat) : Bool :=
  (width == 1 || width == 2 || width == 4) && offset % width == 0 &&
    match checkedAdd offset width with
    | some e => decide (e ≤ size)
    | none => false

/-- `sys_device_info`: `a0` = device capability index, `a1` = buffer, `a2` = capacity. -/
def sysDeviceInfo (k : Kernel) : Except Stop Kernel :=
  let cur := k.current
  let va := k.frame.arg 1
  let max := k.frame.arg 2
  match k.deviceCapCheck cur (k.frame.arg 0) devRightInfo with
  | .ok id =>
    if !inStackWindow va (min max infoMax) then .ok (k.core (·.setA0 errInvalidArg))
    else do
      let dev ← devIndex id
      let d := devices dev
      let out := InfoBuf.pushAll [] [.str "device id=", .dec id, .str " name=", .str d.name,
        .str " kind=", .str d.kind, .str " mmio=", .str d.mmioName, .str " mmio_size=",
        .dec d.mmioSize, .str " irq=", .str d.irqName, .str " dma=", .str d.dmaName,
        .str " dma_size=", .dec d.dmaSize, .str "\n"]
      let n := min out.length max
      .ok (k.core fun c => (c.copyBytesToUser va (out.take n)).setA0 n)
  | other => .ok (k.denyDevice cur "DEVICE_DENIED" other)

/-- Record a volatile access on the bus. -/
def busAccess (k : Kernel) (a : BusAccess) : Kernel := { k with bus := k.bus ++ [a] }

/-- `sys_mmio_read`: `a0` = device capability index, `a1` = offset, `a2` = width. -/
def sysMmioRead (env : Env) (k : Kernel) : Except Stop Kernel :=
  let cur := k.current
  let offset := k.frame.arg 1
  let width := k.frame.arg 2
  match k.deviceCapCheck cur (k.frame.arg 0) devRightMmioRead with
  | .ok id => do
    let dev ← devIndex id
    let d := devices dev
    if !accessInBounds d.mmioSize offset width then
      .ok ((k.denyDeviceOp cur "MMIO_DENIED" "out_of_range").core (·.setA0 errInvalidArg))
    else
      let addr := d.mmioBase + offset
      let value := env.mmio addr width % 2 ^ (8 * width)
      let k := k.busAccess ⟨false, addr, width, value⟩
      .ok ((k.puts [.str "MMIO read task=", .str (k.tasks cur).name, .str " device=", .str d.name,
        .str " offset=", .dec offset, .str " value=", .hex value, .str "\n"]).core (·.setA0 value))
  | other => .ok (k.denyDevice cur "MMIO_DENIED" other)

/-- `sys_mmio_write`: `a0` = device capability index, `a1` = offset, `a2` = width, `a3` = value. -/
def sysMmioWrite (k : Kernel) : Except Stop Kernel :=
  let cur := k.current
  let offset := k.frame.arg 1
  let width := k.frame.arg 2
  let value := k.frame.arg 3
  match k.deviceCapCheck cur (k.frame.arg 0) devRightMmioWrite with
  | .ok id => do
    let dev ← devIndex id
    let d := devices dev
    if !accessInBounds d.mmioSize offset width then
      .ok ((k.denyDeviceOp cur "MMIO_DENIED" "out_of_range").core (·.setA0 errInvalidArg))
    else
      let addr := d.mmioBase + offset
      let k := k.busAccess ⟨true, addr, width, value % 2 ^ (8 * width)⟩
      .ok ((k.puts [.str "MMIO write task=", .str (k.tasks cur).name, .str " device=", .str d.name,
        .str " offset=", .dec offset, .str " value=", .hex value, .str "\n"]).core (·.setA0 0))
  | other => .ok (k.denyDevice cur "MMIO_DENIED" other)

/-- The little-endian value of `width` bytes of the bounce page. -/
def dmaLoad (dma : Nat → UInt8) (offset : Nat) : (width : Nat) → Nat
  | 0 => 0
  | w + 1 => (dma offset).toNat + 256 * dmaLoad dma (offset + 1) w

/-- Store the low `width` bytes of a value, little-endian. -/
def dmaStore (dma : Nat → UInt8) (offset width value : Nat) : Nat → UInt8 := fun a =>
  if offset ≤ a ∧ a < offset + width then UInt8.ofNat (value / 256 ^ (a - offset)) else dma a

/-- Shared body of the DMA syscalls. -/
def dmaAccess (img : Image) (k : Kernel) (required : UInt16) (write : Bool) : Except Stop Kernel :=
  let cur := k.current
  let offset := k.frame.arg 1
  let width := k.frame.arg 2
  let value := k.frame.arg 3
  match k.deviceCapCheck cur (k.frame.arg 0) required with
  | .ok id => do
    let dev ← devIndex id
    let d := devices dev
    if !accessInBounds d.dmaSize offset width then
      .ok ((k.denyDeviceOp cur "DMA_DENIED" "out_of_range").core (·.setA0 errInvalidArg))
    else
      let addr := img.dmaBase + offset
      if write then
        let k := k.busAccess ⟨true, addr, width, value % 2 ^ (8 * width)⟩
        .ok ({ k with dma := dmaStore k.dma offset width value }.core (·.setA0 0))
      else
        let v := dmaLoad k.dma offset width
        .ok ((k.busAccess ⟨false, addr, width, v⟩).core (·.setA0 v))
  | other => .ok (k.denyDevice cur "DMA_DENIED" other)

/-- `sys_dma_read`: `a0` = device capability index, `a1` = offset, `a2` = width. -/
def sysDmaRead (img : Image) (k : Kernel) : Except Stop Kernel :=
  k.dmaAccess img devRightDmaRead false

/-- `sys_dma_write`: `a0` = device capability index, `a1` = offset, `a2` = width, `a3` = value. -/
def sysDmaWrite (img : Image) (k : Kernel) : Except Stop Kernel :=
  k.dmaAccess img devRightDmaWrite true

end Kernel

end AxiomRT.Dispatch
