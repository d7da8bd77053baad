import ValueAnalysis.Taint.Basic
import ValueAnalysis.Text.Ordinal

namespace ValueAnalysis

structure Parameter where
  name : String
  annotations : NameSet := ∅

def Parameter.isSink (p : Parameter) : Bool := decide (Taint.sinkMark ∈ p.annotations)

/-- A call whose target is known. Parameters and arguments are matched by position. -/
structure CallSite where
  target : String
  parameters : List Parameter
  arguments : List Expr
  location : Value := .null

structure SinkWarning where
  call : CallSite
  index : Nat
  parameter : Parameter

namespace SinkWarning

def message (w : SinkWarning) : String :=
  "The value passed for the " ++ Text.ordinal (w.index + 1) ++ " parameter of this call may be tainted, " ++
    "and it reaches the sink at parameter '" ++ w.parameter.name ++ "' of " ++ w.call.target

def text (w : SinkWarning) : String :=
  if w.call.location.isNull then w.message else w.call.location.display ++ ": " ++ w.message

end SinkWarning

namespace CallSite

def bindings (call : CallSite) : List ((Parameter × Expr) × Nat) :=
  (call.parameters.zip call.arguments).zipIdx

def warnings (call : CallSite) (env : Env Taint) : List SinkWarning :=
  call.bindings.filterMap fun b =>
    if b.1.1.isSink && (env.eval b.1.2).isTainted then some ⟨call, b.2, b.1.1⟩ else none

def warningReport (call : CallSite) (env : Env Taint) (point : Value) (b : (Parameter × Expr) × Nat) :
    Report :=
  if b.1.1.isSink then
    env.evalReport point b.1.2 ++
      if (env.eval b.1.2).isTainted then
        .note .taint
          ("sink reached at " ++ point.display ++ ": " ++ (SinkWarning.mk call b.2 b.1.1).message)
      else .silent
  else .silent

/-- What the check reports. Its point is the given one, or else the location of the call. -/
def warningsReport (call : CallSite) (env : Env Taint) (point : Value) : Report :=
  let point := if point.isNull then call.location else point
  call.bindings.foldl (fun r b => r ++ call.warningReport env point b) .silent

end CallSite

end ValueAnalysis
