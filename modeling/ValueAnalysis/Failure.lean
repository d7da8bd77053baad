import ValueAnalysis.Expr.Operator
import ValueAnalysis.Value.Basic

/-!
Failures. An error of the analysis has a kind, a stable code, a message and an optional hint; a failure is
the cause of an error together with what it is about, and its wording is written here only.
-/

namespace ValueAnalysis

/-- Stable error codes: from 1000 on for transfer functions, from 2000 on for the configuration, from
9000 on for the analysis itself. -/
inductive ErrorCode where
  | incompatibleStates
  | invalidInterval
  | invalidNumber
  | invalidConfig
  | unknownDomain
  | internalError
  deriving DecidableEq

namespace ErrorCode

def all : List ErrorCode :=
  [incompatibleStates, invalidInterval, invalidNumber, invalidConfig, unknownDomain, internalError]

def name : ErrorCode → String
  | incompatibleStates => "INCOMPATIBLE_STATES"
  | invalidInterval => "INVALID_INTERVAL"
  | invalidNumber => "INVALID_NUMBER"
  | invalidConfig => "INVALID_CONFIG"
  | unknownDomain => "UNKNOWN_DOMAIN"
  | internalError => "INTERNAL_ERROR"

def ofName? (s : String) : Option ErrorCode :=
  all.find? (·.name == s)

def value : ErrorCode → Nat
  | incompatibleStates => 1000
  | invalidInterval => 1001
  | invalidNumber => 1002
  | invalidConfig => 2000
  | unknownDomain => 2001
  | internalError => 9000

def label (c : ErrorCode) : String := "PD-" ++ toString c.value

end ErrorCode

inductive ErrorKind where
  | domain
  | semantic
  | invalidInterval
  | configuration
  | unknownDomain
  deriving DecidableEq

namespace ErrorKind

def all : List ErrorKind := [domain, semantic, invalidInterval, configuration, unknownDomain]

def name : ErrorKind → String
  | domain => "DomainError"
  | semantic => "SemanticError"
  | invalidInterval => "InvalidIntervalError"
  | configuration => "ConfigurationError"
  | unknownDomain => "UnknownDomainError"

def ofName? (s : String) : Option ErrorKind :=
  all.find? (·.name == s)

def lineage : ErrorKind → List ErrorKind
  | domain => [domain]
  | semantic => [semantic, domain]
  | invalidInterval => [invalidInterval, semantic, domain]
  | configuration => [configuration, domain]
  | unknownDomain => [unknownDomain, configuration, domain]

def defaultCode : ErrorKind → ErrorCode
  | domain => .internalError
  | semantic => .incompatibleStates
  | invalidInterval => .invalidInterval
  | configuration => .invalidConfig
  | unknownDomain => .unknownDomain

end ErrorKind

structure DomainError where
  kind : ErrorKind
  code : ErrorCode
  message : String
  hint : String := ""

namespace DomainError

def make (kind : ErrorKind) (message : String) (hint : String := "") : DomainError :=
  ⟨kind, kind.defaultCode, message, hint⟩

def withHint (e : DomainError) (hint : String) : DomainError :=
  ⟨e.kind, e.code, e.message, hint⟩

def text (e : DomainError) : String :=
  "[" ++ e.code.label ++ "] " ++ e.message ++
    if e.hint = "" then "" else " (hint: " ++ e.hint ++ ")"

end DomainError

inductive BoundsFault where
  | halfEmpty
  | unreachable
  | crossed
  deriving DecidableEq

inductive Failure where
  | booleanNumber (v : Value)
  | notNumber (v : Value)
  | noInteger (n : ExtInt)
  | badBounds (fault : BoundsFault) (low high : ExtInt)
  | bottomWithElements
  | noEvaluation (typeName : String)
  | unsupportedNode (typeName : String)
  | unknownSettings (names : List String)
  | delayNotInteger (v : Value)
  | delayInfinite
  | unknownDomain (tag : String) (available : List String)
  | unknownLevel (v : Value)
  | notLevel (v : Value)
  | notComparison (op : BinaryOp)
  | unknownName (v : Value)
  | notSatisfiability (v : Value)
  | noOperation (typeName operation : String)
  | listAsKey
  | missingModule (name reason : String)
  | missingExport (module name : String)

namespace Failure

def boundsText (low high : ExtInt) : String :=
  "[" ++ low.text ++ ", " ++ high.text ++ "]"

def badBoundsError (low high : ExtInt) : BoundsFault → DomainError
  | .halfEmpty => .make .invalidInterval ("half-empty interval " ++ boundsText low high)
      "use IntInterval.EMPTY for the empty interval"
  | .unreachable => .make .invalidInterval
      ("interval " ++ boundsText low high ++ " has an unreachable bound")
  | .crossed => .make .invalidInterval ("interval " ++ boundsText low high ++ " has low > high")
      "IntInterval.of() maps crossed bounds to EMPTY"

/-- The error of the analysis that a failure is, unless it is a plain misuse by the host. -/
def domainError? : Failure → Option DomainError
  | booleanNumber v => some ⟨.semantic, .invalidNumber, "booleans are not numbers: " ++ v.literal, ""⟩
  | notNumber v => some ⟨.semantic, .invalidNumber,
      "cannot represent " ++ v.literal ++ " as an extended integer", ""⟩
  | noInteger n => some ⟨.semantic, .invalidNumber, n.text ++ " has no integer value", ""⟩
  | badBounds fault low high => some (badBoundsError low high fault)
  | bottomWithElements => some ⟨.semantic, .internalError, "a bottom bound set cannot carry elements", ""⟩
  | noEvaluation t => some (.make .semantic
      (t ++ " does not provide the evaluation hooks of a value domain"))
  | unsupportedNode t => some (.make .semantic ("unsupported expression node " ++ t))
  | unknownSettings names => some (.make .configuration
      ("unknown settings: " ++ ", ".intercalate names)
      "expected a subset of ['domain', 'log_level', 'widen_delay']")
  | delayNotInteger v => some (.make .configuration ("widen_delay must be an integer, got " ++ v.literal))
  | unknownDomain tag available => some (.make .unknownDomain
      ("no domain registered under " ++ Text.quoted tag) ("available: " ++ ", ".intercalate available))
  | unknownLevel v => some (.make .configuration ("unknown log level " ++ v.literal))
  | _ => none

def message : Failure → String
  | delayInfinite => "cannot convert float infinity to integer"
  | notLevel v => "Level not an integer or a valid string: " ++ v.literal
  | notComparison op => op.name ++ " is not a comparison"
  | unknownName v => v.literal
  | notSatisfiability v => v.literal ++ " is not a valid Satisfiability"
  | noOperation typeName operation =>
    Text.quoted typeName ++ " object has no attribute " ++ Text.quoted operation
  | listAsKey => "unhashable type: 'list'"
  | missingModule name reason =>
    "pentagon_domains: required submodule '" ++ name ++ "' failed to import: " ++ reason
  | missingExport module name => "pentagon_domains." ++ module ++ " does not export '" ++ name ++ "'"
  | f => (f.domainError?.map DomainError.text).getD ""

end Failure

end ValueAnalysis
