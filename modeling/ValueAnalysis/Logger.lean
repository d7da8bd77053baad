import ValueAnalysis.Config
import ValueAnalysis.Text.Lines

namespace ValueAnalysis

structure Logger where
  level : Int := 0
  handlers : Nat := 0

namespace Logger

def levelOf : Value → Except Failure Int
  | .text s =>
    match Level.ofWord? s with
    | some l => .ok l.severity
    | none => .error (.unknownLevel (.text s))
  | .int n => .ok n
  | .bool b => .ok (if b then 1 else 0)
  | v => .error (.notLevel v)

def configure (log : Logger) (v : Value) : Except Failure Logger := do
  return ⟨← levelOf v, log.handlers + 1⟩

/-- A level of zero stands for that of the host, which is a warning. -/
def threshold (log : Logger) : Int :=
  if log.level = 0 then Level.warning.severity else log.level

def fit (width : Nat) (s : String) : String :=
  let cs := s.toList.take width
  String.ofList (cs ++ List.replicate (width - cs.length) ' ')

def line (r : Record) : String :=
  "[" ++ fit 5 r.level.name ++ "] " ++ r.source.name ++ ": " ++ r.message

/-- The lines of the records that reach the level, each from every handler. A message with line feeds
takes several lines. -/
def lines (log : Logger) (records : List Record) : List String :=
  (records.filter (log.threshold ≤ ·.level.severity)).flatMap fun r =>
    (List.replicate log.handlers (Text.lines (line r ++ "\n"))).flatten

def digest (records : List Record) : List String :=
  (NameSet.ofList (records.map Record.text)).names

end Logger

end ValueAnalysis
