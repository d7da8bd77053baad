import ValueAnalysis.Env.Assume
import ValueAnalysis.Interval.Arithmetic

namespace ValueAnalysis

namespace Interval

def leq (a b : Interval) : Bool := b.includes a

def join (a b : Interval) : Interval := a.hull b

def meet (a b : Interval) : Interval := a.intersect b

def widen (a b : Interval) : Interval :=
  if a.isEmpty then b
  else if b.isEmpty then a
  else ofBounds (if b.low < a.low then .negInf else a.low) (if a.high < b.high then .posInf else a.high)

def narrow (a b : Interval) : Interval :=
  if a.isEmpty then a
  else if b.isEmpty then b
  else ofBounds (if a.low = .negInf then b.low else a.low) (if a.high = .posInf then b.high else a.high)

def snapshot (a : Interval) : Snapshot := if a.isEmpty then .bottom else .text a.text

instance : AbstractDomain Interval where
  top := all
  bottom := empty
  isTop := isAll
  isBottom := isEmpty
  leq := leq
  join := join
  meet := meet
  widen := widen
  narrow := narrow
  snapshot := snapshot

def evalConstant (v : Value) : Interval :=
  match v.integerLiteral? with
  | some n => singleton n
  | none => all

def evalUnary : UnaryOp → Interval → Interval
  | .negation, a => a.negate
  | .stringLength, _ => atLeast (.fin 0)
  | _, _ => all

/-- A factor or dividend that is zero decides the result before an unbounded operand does, and there is no
result of a division by zero. -/
def evalBinary (op : BinaryOp) (a b : Interval) : Interval :=
  match op with
  | .mul =>
    if a.isZero || b.isZero then zero
    else if a.isAll || b.isAll then all
    else a.times b
  | .div =>
    if b.isZero then empty
    else if a.isZero then zero
    else if a.isAll || b.isAll then all
    else a.quotient b
  | .add => if a.isAll || b.isAll then all else a.plus b
  | .sub => if a.isAll || b.isAll then all else a.minus b
  | _ => all

def binaryRecords (op : BinaryOp) (_ b : Interval) (point : Value) : List Record :=
  if op = .div && b.isZero then
    [.debug .interval ("division by [0, 0] at " ++ point.display ++ ": no result")]
  else []

instance : EvalDomain Interval where
  evalConstant := evalConstant
  evalUnary := evalUnary
  evalBinary := evalBinary
  binaryRecords := binaryRecords

def satisfiesLt (a b : Interval) : Satisfiability :=
  if a.high < b.low then .satisfied else if b.high ≤ a.low then .notSatisfied else .unknown

def satisfiesLe (a b : Interval) : Satisfiability :=
  if a.high ≤ b.low then .satisfied else if b.high < a.low then .notSatisfied else .unknown

def satisfiesEq (a b : Interval) : Satisfiability :=
  if (a.meet b).isEmpty then .notSatisfied
  else if a.isSingleton && a == b then .satisfied
  else .unknown

def satisfiesBinary : BinaryOp → Interval → Interval → Satisfiability
  | .lt, a, b => satisfiesLt a b
  | .le, a, b => satisfiesLe a b
  | .gt, a, b => satisfiesLt b a
  | .ge, a, b => satisfiesLe b a
  | .eq, a, b => satisfiesEq a b
  | .ne, a, b => (satisfiesEq a b).negate
  | _, _, _ => .unknown

/-- The members of `a` that can be in the given relation to a member of `bound`, or nothing when the
comparison says nothing about `a`. -/
def refined? (op : BinaryOp) (a bound : Interval) : Option Interval :=
  match op with
  | .lt => some (a.meet (atMost (bound.high - .fin 1)))
  | .le => some (a.meet (atMost bound.high))
  | .gt => some (a.meet (atLeast (bound.low + .fin 1)))
  | .ge => some (a.meet (atLeast bound.low))
  | .eq => some (a.meet bound)
  | .ne => if a.isSingleton && a == bound then some empty else none
  | _ => none

def refineVariable (env : Env Interval) (x : String) (op : BinaryOp) (bound : Interval) : Env Interval :=
  if bound.isEmpty then .bottom
  else
    match refined? op (env.get x) bound with
    | some a => env.put x a
    | none => env

def refineRecords (env : Env Interval) (x : String) (op : BinaryOp) (bound : Interval) : List Record :=
  if bound.isEmpty then []
  else
    match refined? op (env.get x) bound with
    | some a =>
      if a.isEmpty then
        [.debug .interval (x ++ " " ++ op.name ++ " " ++ bound.snapshot.render ++ " is unsatisfiable")]
      else []
    | none => []

def refineLeft (env : Env Interval) (op : BinaryOp) (l r : Expr) : Env Interval :=
  match l with
  | .identifier x => refineVariable env x.name op (env.eval r)
  | _ => env

/-- Refines the variables on both sides of a comparison. Both are held against the values of the
unrefined environment. -/
def assumeBinary (env : Env Interval) (op : BinaryOp) (l r : Expr) : Env Interval :=
  if op.isComparison then
    match r with
    | .identifier y => refineVariable (refineLeft env op l r) y.name op.swapped (env.eval l)
    | _ => refineLeft env op l r
  else env

def assumeBinaryReport (env : Env Interval) (op : BinaryOp) (l r : Expr) (src : Value) : Report :=
  if op.isComparison then
    (match l with
      | .identifier x => env.evalReport src r ++ .of (refineRecords env x.name op (env.eval r))
      | _ => .silent) ++
    match r with
      | .identifier y =>
        env.evalReport src l ++ .of (refineRecords (refineLeft env op l r) y.name op.swapped (env.eval l))
      | _ => .silent
  else .silent

instance : ValueDomain Interval where
  satisfiesBinary := satisfiesBinary
  assumeBinary := assumeBinary
  assumeBinaryReport := assumeBinaryReport

end Interval

end ValueAnalysis
