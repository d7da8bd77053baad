import ValueAnalysis.Domain
import ValueAnalysis.Expr.Condition
import ValueAnalysis.Satisfiability

/-!
The logical layer of conditions, shared by all abstract states: truth literals, negation, conjunction and
disjunction are resolved here and every other binary expression is left to the state.
-/

namespace ValueAnalysis

namespace Condition

def answer (decide : BinaryOp → Expr → Expr → Satisfiability) : Expr → Satisfiability
  | .constant (.bool b) _ => .ofBool b
  | .unary .logicalNot a _ => (answer decide a).negate
  | .binary .logicalAnd l r _ => (answer decide l).and (answer decide r)
  | .binary .logicalOr l r _ => (answer decide l).or (answer decide r)
  | .binary op l r _ => decide op l r
  | _ => .unknown

def answerReport (decideReport : BinaryOp → Expr → Expr → Report) : Expr → Report
  | .unary .logicalNot a _ => answerReport decideReport a
  | .binary .logicalAnd l r _ => answerReport decideReport l ++ answerReport decideReport r
  | .binary .logicalOr l r _ => answerReport decideReport l ++ answerReport decideReport r
  | .binary op l r _ => decideReport op l r
  | _ => .silent

open AbstractDomain (isBottom)

variable {S : Type} [AbstractDomain S]

/-- Restricts a state to where a condition may hold. A conjunction refines one side after the other, a
disjunction joins the refinements of both, and a negation is moved inward first; if it cannot be moved,
the state stays as it is. -/
def restrict (refine : S → BinaryOp → Expr → Expr → S) (s : S) (e : Expr) : S :=
  if isBottom s then s
  else
    match e with
    | .constant (.bool true) _ => s
    | .constant (.bool false) _ => AbstractDomain.bottom
    | .unary .logicalNot a _ =>
      if h : a.negate.isNegation = true then s
      else
        have := a.weight_negate_lt (Bool.eq_false_iff.mpr h)
        restrict refine s a.negate
    | .binary .logicalAnd l r _ => restrict refine (restrict refine s l) r
    | .binary .logicalOr l r _ => AbstractDomain.join (restrict refine s l) (restrict refine s r)
    | .binary op l r _ => refine s op l r
    | _ => s
termination_by e.weight
decreasing_by all_goals simp only [Expr.weight]; omega

def restrictReport (refine : S → BinaryOp → Expr → Expr → S)
    (refineReport : S → BinaryOp → Expr → Expr → Report) (s : S) (e : Expr) : Report :=
  if isBottom s then .silent
  else
    match e with
    | .constant (.bool false) _ => .note .environment "assume(false): state is unreachable"
    | .unary .logicalNot a _ =>
      if h : a.negate.isNegation = true then .silent
      else
        have := a.weight_negate_lt (Bool.eq_false_iff.mpr h)
        restrictReport refine refineReport s a.negate
    | .binary .logicalAnd l r _ =>
      restrictReport refine refineReport s l ++
        restrictReport refine refineReport (restrict refine s l) r
    | .binary .logicalOr l r _ =>
      restrictReport refine refineReport s l ++ restrictReport refine refineReport s r
    | .binary op l r _ => refineReport s op l r
    | _ => .silent
termination_by e.weight
decreasing_by all_goals simp only [Expr.weight]; omega

end Condition

end ValueAnalysis
