import AxiomRT.Dispatch.History

/-!
# Evidence along a run

What the event ring was told, and what a complete snapshot of the tasks or of the ring would say:
the lines of text, one for each task or event, before they go into the snapshot buffer.
-/

namespace AxiomRT.Dispatch

variable {img : Image}

/-! ## The event ring -/

/-- The entry that a step appends to the event ring. -/
def pushedAt (k k' : Kernel) : List (EvKind × Slot) :=
  if k'.ringHead = k.ringHead then [] else [k'.ring (Fin.ofNat ringLen k.ringHead)]

/-- The entries appended to the event ring before step `i`, oldest first. -/
def pushedBefore (x : Run img) : ℕ → List (EvKind × Slot)
  | 0 => []
  | i + 1 => pushedBefore x i ++ pushedAt (x.st i) (x.st (i + 1))

/-- The last entries, as many as the ring has room for. -/
def lastPushed (x : Run img) (i : ℕ) : List (EvKind × Slot) :=
  (pushedBefore x i).drop ((pushedBefore x i).length - ringLen)

/-! ## Lines -/

/-- The text of one piece. -/
def InfoItem.bytes : InfoItem → List UInt8
  | .str s => s.toUTF8.toList
  | .dec v => if v = 0 then [48] else InfoBuf.decLoop 20 v []

/-- The text of a sequence of pieces. -/
def lineOf (items : List InfoItem) : List UInt8 := items.flatMap InfoItem.bytes

/-- The line of the task in slot `i`. -/
def taskLine (k : Kernel) (i : Slot) : List UInt8 :=
  lineOf [.str "task idx=", .dec i.val, .str " name=", .str (k.tasks i).name, .str " prio=",
    .dec (k.tasks i).prio.toNat, .str " state=", .str (stateName (k.tasks i).state), .str "\n"]

/-- The line of an event; the task is named as it is named now. -/
def eventLine (k : Kernel) (e : EvKind × Slot) : List UInt8 :=
  lineOf [.str "evt kind=", .str (evName e.1), .str " task=",
    .str (if (k.tasks e.2).name.isEmpty then "?" else (k.tasks e.2).name), .str "\n"]

/-- The event reports a fault or a denial. -/
def isFaultEvent (e : EvKind × Slot) : Bool := e.1 == .fault || e.1 == .capDenied

/-- The lines of a complete snapshot before step `i`: of every task (kind 0), of the last faults and
denials (kind 1), of the last events (kind 6). -/
def infoLines (x : Run img) (i kind : ℕ) : List (List UInt8) :=
  match kind with
  | 0 => ((List.finRange maxTasks).filter fun s => ((x.st i).tasks s).state ≠ .empty).map
      (taskLine (x.st i))
  | 1 => ((lastPushed x i).filter isFaultEvent).map (eventLine (x.st i))
  | 6 => (lastPushed x i).map (eventLine (x.st i))
  | _ => []

/-! ## Snapshots -/

/-- At step `i` task `t`, which may look at the kernel state, asks for a snapshot into a valid
buffer of at least the snapshot size. -/
structure InfoAt (x : Run img) (i : ℕ) (t : Slot) (kind va : ℕ) : Prop where
  call : CallAt x i t .info
  authorized : (x.st i).capFind t .info rightRecv = true
  kind_eq : (entry x i).frame.arg 0 = kind
  va_eq : (entry x i).frame.arg 1 = va
  room : infoMax ≤ (entry x i).frame.arg 2
  valid : inStackWindow va infoMax = true

/-- The call of step `i` returns these lines, whole and nothing else. -/
def InfoShows (x : Run img) (i : ℕ) (t : Slot) (va : ℕ) (lines : List (List UInt8)) : Prop :=
  (x.st (i + 1)).current = t ∧ (x.st (i + 1)).frame.a0 = lines.flatten.length ∧
    (x.st (i + 1)).seen va lines.flatten.length = lines.flatten

end AxiomRT.Dispatch
