import AxiomRT.Axiomctl.Events

/-!
# JSON export of events

The writer of `tools/axiomctl/src/events.rs`: one object on one line for each event, put together by
hand from escaped strings.
-/

namespace AxiomRT.Axiomctl

/-- The category as the export writes it. -/
def Category.name : Category → String
  | .task => "task"
  | .scheduler => "scheduler"
  | .syscall => "syscall"
  | .ipc => "ipc"
  | .capability => "capability"
  | .fault => "fault"
  | .watchdog => "watchdog"
  | .recovery => "recovery"
  | .timer => "timer"
  | .service => "service"
  | .boot => "boot"
  | .driver => "driver"
  | .network => "network"
  | .loader => "loader"

/-- The format `:04x`: lower-case hexadecimal digits, padded with zeros to four. -/
def hex04 (n : ℕ) : String := String.ofList ((Nat.toDigits 16 n).leftpad 4 '0')

/-- What the escaping makes of one character. -/
def jsonEscapeChar (c : Char) : String :=
  if c = '"' then "\\\""
  else if c = '\\' then "\\\\"
  else if c = '\n' then "\\n"
  else if c = '\r' then "\\r"
  else if c = '\t' then "\\t"
  else if c.toNat < 0x20 then "\\u" ++ hex04 c.toNat
  else String.singleton c

/-- A text as the contents of a JSON string. -/
def jsonEscape (s : String) : String :=
  s.toList.foldl (fun out c => out ++ jsonEscapeChar c) ""

/-- One event as a single-line object. -/
def toJson (ev : Event) : String :=
  let flags := String.intercalate "," (ev.flags.map fun f => "\"" ++ jsonEscape f ++ "\"")
  let fields := String.intercalate ","
    (ev.fields.map fun f => "\"" ++ jsonEscape f.1 ++ "\":\"" ++ jsonEscape f.2 ++ "\"")
  "\x7b\"seq\":" ++ ev.seq.repr ++ ",\"category\":\"" ++ ev.category.name ++
    "\",\"kind\":\"" ++ jsonEscape ev.kind ++ "\",\"flags\":[" ++ flags ++
    "],\"fields\":\x7b" ++ fields ++ "\x7d,\"raw\":\"" ++ jsonEscape ev.raw ++ "\"\x7d"

end AxiomRT.Axiomctl
