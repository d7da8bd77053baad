import ValueAnalysis.Registry
import ValueAnalysis.Text.Capital

namespace ValueAnalysis

structure Config where
  domain : String := "pentagons"
  widenDelay : Int := 3
  logLevel : String := "WARNING"
  deriving DecidableEq, Inhabited

def Level.ofWord? (s : String) : Option Level :=
  all.find? (·.name == Text.capitalized s)

namespace Config

inductive Warning where
  | negativeDelay
  | unknownLevel (word : String)
  | unknownDomain (tag : String)
  deriving DecidableEq

def Warning.text : Warning → String
  | negativeDelay => "widen_delay must be non-negative"
  | unknownLevel word => "unknown log_level " ++ Text.quoted word
  | unknownDomain tag => "unknown domain " ++ Text.quoted tag

def warnings (c : Config) : List Warning :=
  (if c.widenDelay < 0 then [.negativeDelay] else []) ++
    (if (Level.ofWord? c.logLevel).isNone then [.unknownLevel c.logLevel] else []) ++
    (if Registry.standard.contains c.domain then [] else [.unknownDomain c.domain])

/-- The integer that a setting stands for. A float is truncated, a truth value is zero or one, and a text
is read as a numeral. -/
def readDelay (v : Value) : Except Failure Int :=
  match v with
  | .int n => .ok n
  | .bool b => .ok (if b then 1 else 0)
  | .float (.infinite _) => .error .delayInfinite
  | .float x =>
    match x.quantity.truncate? with
    | some n => .ok n
    | none => .error (.delayNotInteger v)
  | .text s =>
    match Text.readInteger s with
    | some n => .ok n
    | none => .error (.delayNotInteger v)
  | v => .error (.delayNotInteger v)

def settingNames : NameSet := .ofList ["domain", "widen_delay", "log_level"]

/-- The configuration with the given settings. Settings that are not known are refused before any is
read. -/
def ofSettings (settings : Table Value) : Except Failure Config :=
  let unknown := (NameSet.ofList settings.keys).filter (decide <| · ∉ settingNames)
  if unknown.isEmpty then do
    let standard : Config := {}
    let delay ← ((settings.get? "widen_delay").map readDelay).getD (.ok standard.widenDelay)
    return {
      domain := ((settings.get? "domain").map Value.display).getD standard.domain
      widenDelay := delay
      logLevel := ((settings.get? "log_level").map Value.display).getD standard.logLevel }
  else .error (.unknownSettings unknown.names)

def createState (c : Config) (r : Registry) : Except Failure AnyState := r.create c.domain

/-- What creating the state writes to the log: every warning but that of an unknown domain, which is a
failure if the registry at hand lacks it too. -/
def createRecords (c : Config) : List Record :=
  c.warnings.filterMap fun w =>
    match w with
    | .unknownDomain _ => none
    | w => some ⟨.warning, .config, "config: " ++ w.text⟩

variable {α : Type} [AbstractDomain α]

def extrapolate (c : Config) (previous current : α) (iteration : Int) : α :=
  if iteration < c.widenDelay then AbstractDomain.join previous current
  else AbstractDomain.widen previous current

def extrapolateRecords (c : Config) (previous current : α) (iteration : Int) : List Record :=
  if iteration < c.widenDelay then [] else AbstractDomain.widenRecords previous current

end Config

end ValueAnalysis
