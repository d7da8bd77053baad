import ValueAnalysis.Env.Assume

/-!
The domain of taint: a value that is out of the user's reach is clean, and any other may be tainted. Taint
flows from operands to results, and annotations on a variable override what is known about it.
-/

namespace ValueAnalysis

inductive Taint where
  | bottom
  | clean
  | tainted
  deriving DecidableEq, Inhabited

namespace Taint

def taintedMark : String := "taint.Tainted"

def cleanMark : String := "taint.Clean"

def sinkMark : String := "taint.Sink"

def values : List Taint := [bottom, clean, tainted]

def name : Taint → String
  | bottom => "BOTTOM"
  | clean => "CLEAN"
  | tainted => "TAINTED"

def ofName? (s : String) : Option Taint :=
  values.find? (·.name == s)

def isTainted (a : Taint) : Bool := a == tainted

def leq : Taint → Taint → Bool
  | bottom, _ => true
  | _, tainted => true
  | clean, clean => true
  | _, _ => false

def join : Taint → Taint → Taint
  | bottom, b => b
  | a, bottom => a
  | clean, clean => clean
  | _, _ => tainted

def meet : Taint → Taint → Taint
  | tainted, b => b
  | a, tainted => a
  | clean, clean => clean
  | _, _ => bottom

def snapshot : Taint → Snapshot
  | bottom => .bottom
  | clean => .text "_"
  | tainted => .text "#"

instance : AbstractDomain Taint where
  top := tainted
  bottom := bottom
  isTop a := a == tainted
  isBottom a := a == bottom
  leq := leq
  join := join
  meet := meet
  widen := join
  narrow := meet
  snapshot := snapshot

def evalIdentifier (x : Identifier) (stored : Taint) : Taint :=
  if x.isMarked taintedMark then tainted
  else if x.isMarked cleanMark then clean
  else stored

/-- The right operand of a cast names a type and carries no value. -/
def evalBinary : BinaryOp → Taint → Taint → Taint
  | .typeCast, a, _ => a
  | .typeConv, a, _ => a
  | _, a, b => a.join b

def evalTernary (_ : TernaryOp) (a b c : Taint) : Taint := (a.join b).join c

instance : EvalDomain Taint where
  evalConstant _ := clean
  evalIdentifier := evalIdentifier
  evalUnknown := tainted
  evalUnary _ a := a
  evalBinary := evalBinary
  evalTernary := evalTernary

instance : ValueDomain Taint where

end Taint

end ValueAnalysis
