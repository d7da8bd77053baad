import ValueAnalysis.Env.Basic
import ValueAnalysis.Expr.Basic

/-!
Evaluation of expressions in an environment. The walk is the same for every domain of values; the domain
says what a leaf is worth and what an operator makes of values.
-/

namespace ValueAnalysis

/-- A domain of values that expressions can be evaluated in. What a domain leaves out is worth top. -/
class EvalDomain (L : Type) extends AbstractDomain L where
  evalConstant : Value → L
  evalIdentifier : Identifier → L → L := fun _ stored => stored
  evalUnknown : L := top
  evalUnary : UnaryOp → L → L := fun _ _ => top
  evalBinary : BinaryOp → L → L → L := fun _ _ _ => top
  evalTernary : TernaryOp → L → L → L → L := fun _ _ _ _ => top
  binaryRecords : BinaryOp → L → L → Value → List Record := fun _ _ _ _ => []

namespace Env

open AbstractDomain (isBottom)

variable {L : Type} [EvalDomain L]

/-- The value of an expression in a reachable environment. A bottom operand makes the whole bottom. A
foreign node has no value to speak of: it is worth top and its evaluation is reported as a failure. -/
def evalNode (env : Env L) : Expr → L
  | .constant v _ => EvalDomain.evalConstant v
  | .identifier x => EvalDomain.evalIdentifier x (env.get x.name)
  | .unknown _ => EvalDomain.evalUnknown
  | .unary op a _ =>
    let v := env.evalNode a
    if isBottom v then v else EvalDomain.evalUnary op v
  | .binary op l r _ =>
    let v := env.evalNode l
    if isBottom v then v
    else
      let w := env.evalNode r
      if isBottom w then w else EvalDomain.evalBinary op v w
  | .ternary op l m r _ =>
    let u := env.evalNode l
    let v := env.evalNode m
    let w := env.evalNode r
    if isBottom u then u
    else if isBottom v then v
    else if isBottom w then w
    else EvalDomain.evalTernary op u v w
  | .foreign _ => AbstractDomain.top

def eval (env : Env L) (e : Expr) : L :=
  if env.isBottom then AbstractDomain.bottom else env.evalNode e

def evalNodeReport (env : Env L) (point : Value) : Expr → Report
  | .constant _ _ | .identifier _ | .unknown _ => .silent
  | .unary _ a _ => env.evalNodeReport point a
  | .binary op l r _ =>
    env.evalNodeReport point l ++
      if isBottom (env.evalNode l) then .silent
      else
        env.evalNodeReport point r ++
          if isBottom (env.evalNode r) then .silent
          else .of (EvalDomain.binaryRecords op (env.evalNode l) (env.evalNode r) point)
  | .ternary _ l m r _ =>
    env.evalNodeReport point l ++ env.evalNodeReport point m ++ env.evalNodeReport point r
  | .foreign v => .fail (.unsupportedNode v.typeName)

def evalReport (env : Env L) (point : Value) (e : Expr) : Report :=
  if env.isBottom then .silent else env.evalNodeReport point e

def assign (env : Env L) (x : Identifier) (e : Expr) : Env L :=
  if env.isBottom then env else env.put x.name (env.eval e)

def assignReport (env : Env L) (point : Value) (e : Expr) : Report :=
  if env.isBottom then .silent else env.evalReport point e

end Env

end ValueAnalysis
