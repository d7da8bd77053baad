import ValueAnalysis.Env.Condition
import ValueAnalysis.Env.Eval

namespace ValueAnalysis

class ValueDomain (L : Type) extends EvalDomain L where
  satisfiesBinary : BinaryOp → L → L → Satisfiability := fun _ _ _ => .unknown
  assumeBinary : Env L → BinaryOp → Expr → Expr → Env L := fun env _ _ _ => env
  assumeBinaryReport : Env L → BinaryOp → Expr → Expr → Value → Report := fun _ _ _ _ _ => .silent

namespace Env

open AbstractDomain (isBottom)

variable {L : Type} [ValueDomain L]

def decideBinary (env : Env L) (op : BinaryOp) (l r : Expr) : Satisfiability :=
  if isBottom (env.eval l) || isBottom (env.eval r) then .bottom
  else ValueDomain.satisfiesBinary op (env.eval l) (env.eval r)

def decideReport (env : Env L) (point : Value) (_ : BinaryOp) (l r : Expr) : Report :=
  env.evalReport point l ++ env.evalReport point r

def satisfies (env : Env L) (e : Expr) : Satisfiability :=
  if env.isBottom then .bottom else Condition.answer env.decideBinary e

def satisfiesReport (env : Env L) (point : Value) (e : Expr) : Report :=
  if env.isBottom then .silent else Condition.answerReport (env.decideReport point) e

def collapse (env : Env L) : Env L :=
  if env.isBottom && !env.unreachable then .bottom else env

def refine (env : Env L) (op : BinaryOp) (l r : Expr) : Env L :=
  match env.decideBinary op l r with
  | .notSatisfied | .bottom => .bottom
  | .satisfied => env
  | .unknown => (ValueDomain.assumeBinary env op l r).collapse

def refineReport (src dest : Value) (env : Env L) (op : BinaryOp) (l r : Expr) : Report :=
  env.decideReport src op l r ++
    match env.decideBinary op l r with
    | .notSatisfied | .bottom => .note .environment
        ("assume(" ++ (Expr.binary op l r).text ++ ") at " ++ dest.display ++ " contradicts the state")
    | .satisfied => .silent
    | .unknown => ValueDomain.assumeBinaryReport env op l r src

def assume (env : Env L) (e : Expr) : Env L := Condition.restrict refine env e

def assumeReport (env : Env L) (src dest : Value) (e : Expr) : Report :=
  Condition.restrictReport refine (refineReport src dest) env e

end Env

end ValueAnalysis
