import Mathlib.Logic.Function.Basic
import AxiomRT.Paging.Sv39

/-!
# Page tables in an arena

The page-table construction of `kernel/src/arch/riscv64/paging.rs`: tables are addressed by their
index in an arena, pointer entries hold physical addresses, and `translate` mirrors the hardware
walk.

An operation that indexes the arena out of range panics; its outcome is `none`. An operation that
fails leaves in the arena what it has changed so far, so its outcome is an arena in any case.
-/

namespace AxiomRT.Paging

/-- Entries of a table. -/
abbrev entries : ℕ := 512

/-- Tables of a static arena. -/
abbrev arenaTables : ℕ := 16

/-- One table: its entries as raw bits. -/
abbrev Table : Type := Fin entries → ℕ

/-- Why a page cannot be mapped. -/
inductive MapError
  | misaligned
  | outOfTables
  | pte (e : PteError)
  | alreadyMapped
  | unexpectedLeaf
  deriving DecidableEq, Repr

/-- The tables `0, ..., len - 1` of the arena, of which the first `used` are in use; `basePa` is the
physical address of table 0. -/
structure Arena where
  tables : ℕ → Table
  len : ℕ
  used : ℕ
  basePa : ℕ

/-- The 9-bit index of `va` at a level. -/
def vpn (va level : ℕ) : Fin entries :=
  ⟨(va >>> (12 + level * 9)) &&& 0x1ff, Nat.lt_of_le_of_lt Nat.and_le_right (by decide)⟩

namespace Arena

/-- An arena over the given tables; the root is table 0. -/
def new (tables : ℕ → Table) (len basePa : ℕ) : Arena :=
  { tables := tables, len := len, used := 1, basePa := basePa }

/-- Physical address of a table. -/
def paOf (a : Arena) (idx : ℕ) : ℕ := a.basePa + idx * pageSize

/-- Physical address of the root. -/
def rootPa (a : Arena) : ℕ := a.paOf 0

/-- Overwrite one entry. -/
def set (a : Arena) (table : ℕ) (idx : Fin entries) (e : Pte) : Arena :=
  { a with tables := Function.update a.tables table (Function.update (a.tables table) idx e.bits) }

/-- Take the next table and zero it. -/
def alloc (a : Arena) : Option (Arena × ℕ) :=
  if a.len ≤ a.used then none
  else some ({ a with
    tables := Function.update a.tables a.used fun _ => 0
    used := a.used + 1 }, a.used)

/-- The index of the table a pointer entry refers to; the subtraction panics below `basePa`. -/
def tableIndexOf (a : Arena) (e : Pte) : Option ℕ :=
  if e.ppn * pageSize < a.basePa then none else some ((e.ppn * pageSize - a.basePa) / pageSize)

/-- `self.tables[table].entries[idx]`. -/
def entry (a : Arena) (table : ℕ) (idx : Fin entries) : Option Pte :=
  if table < a.len then some ⟨a.tables table idx⟩ else none

/-- The descent of `map_page` from table `cur`: follow the pointers of the given levels, and
allocate the tables that are missing. -/
def descend (va : ℕ) : List ℕ → Arena → ℕ → Option (Arena × Except MapError ℕ)
  | [], a, cur => some (a, .ok cur)
  | level :: levels, a, cur => do
    let idx := vpn va level
    let e ← a.entry cur idx
    if e.isLeaf then some (a, .error .unexpectedLeaf)
    else if e.isValid then do
      let next ← a.tableIndexOf e
      descend va levels a next
    else
      match a.alloc with
      | none => some (a, .error .outOfTables)
      | some (a, next) =>
        match Pte.pointer (a.paOf next) with
        | .error err => some (a, .error (.pte err))
        | .ok ptr => descend va levels (a.set cur idx ptr) next

/-- Map one page. -/
def mapPage (a : Arena) (va pa : ℕ) (perms : Permissions) :
    Option (Arena × Except MapError Unit) :=
  if !isPageAligned va || !isPageAligned pa then some (a, .error .misaligned)
  else
    match Pte.leaf pa perms with
    | .error err => some (a, .error (.pte err))
    | .ok leaf => do
      let (a, r) ← descend va [2, 1] a 0
      match r with
      | .error err => some (a, .error err)
      | .ok cur =>
        let idx := vpn va 0
        let e ← a.entry cur idx
        if e.isValid then some (a, .error .alreadyMapped)
        else some (a.set cur idx leaf, .ok ())

/-- The walk of `translate` down to the last level; `none` in the result if it ends before. -/
def walk (a : Arena) (va : ℕ) : List ℕ → ℕ → Option (Option ℕ)
  | [], cur => some (some cur)
  | level :: levels, cur => do
    let e ← a.entry cur (vpn va level)
    if !e.isValid || e.isLeaf then some none
    else do
      let next ← a.tableIndexOf e
      walk a va levels next

/-- Resolve `va` to a physical address and permissions. -/
def translate (a : Arena) (va : ℕ) : Option (Option (ℕ × Permissions)) := do
  let r ← a.walk va [2, 1] 0
  match r with
  | none => some none
  | some cur =>
    let leaf ← a.entry cur (vpn va 0)
    if !leaf.isLeaf then some none
    else some (some (leaf.ppn * pageSize + (va &&& (pageSize - 1)),
      { read := leaf.readable
        write := leaf.writable
        execute := leaf.executable
        user := leaf.isUser
        device := false }))

/-- The entry at the end of the walk of `va`. -/
def leafAt (a : Arena) (va : ℕ) : Option Pte := do
  let r ← a.walk va [2, 1] 0
  let cur ← r
  a.entry cur (vpn va 0)

end Arena

/-! ## Sequences of calls -/

/-- The arguments of a `map_page` call. -/
structure MapCall where
  va : ℕ
  pa : ℕ
  perms : Permissions
  deriving DecidableEq, Repr

namespace Arena

/-- Calls of `map_page` in sequence, whatever their results. -/
def mapPages (a : Arena) : List MapCall → Option (Arena × List (Except MapError Unit))
  | [] => some (a, [])
  | c :: cs => do
    let (a, r) ← a.mapPage c.va c.pa c.perms
    let (a, rs) ← mapPages a cs
    some (a, r :: rs)

/-- Calls of `map_page` in sequence up to the first one that fails. -/
def mapAll (a : Arena) : List MapCall → Option (Arena × Except MapError Unit)
  | [] => some (a, .ok ())
  | c :: cs => do
    let (a, r) ← a.mapPage c.va c.pa c.perms
    match r with
    | .error err => some (a, .error err)
    | .ok () => mapAll a cs

end Arena

/-- The addresses `start, start + 4096, ...` below `stop`, in the order of the mapping loops. -/
def pagesFrom (start stop : ℕ) : List ℕ :=
  (List.range ((stop - start + (pageSize - 1)) / pageSize)).map fun i => start + i * pageSize

/-- Identity-map the pages from `start` on below `stop`. -/
def Arena.identityMapRange (a : Arena) (start stop : ℕ) (perms : Permissions) :
    Option (Arena × Except MapError Unit) :=
  a.mapAll ((pagesFrom start stop).map fun addr => ⟨addr, addr, perms⟩)

end AxiomRT.Paging
