import ValueAnalysis.Expr.Basic

/-!
Conditions: expressions read as truth values. A negation moves inward through connectives and
comparisons, and the weight of a condition falls whenever it does.
-/

namespace ValueAnalysis

namespace Expr

def negate : Expr → Expr
  | binary .logicalAnd l r loc => binary .logicalOr l.negate r.negate loc
  | binary .logicalOr l r loc => binary .logicalAnd l.negate r.negate loc
  | binary op l r loc =>
    match op.negated? with
    | some op' => binary op' l r loc
    | none => unary .logicalNot (binary op l r loc)
  | unary .logicalNot e _ => e
  | constant (.bool b) loc => constant (.bool !b) loc
  | e => unary .logicalNot e

def isNegation : Expr → Bool
  | unary .logicalNot _ _ => true
  | _ => false

/-- A measure of conditions under which negating moves downward: a negation doubles it. -/
def weight : Expr → Nat
  | binary .logicalAnd l r _ => l.weight + r.weight + 1
  | binary .logicalOr l r _ => l.weight + r.weight + 1
  | unary .logicalNot e _ => 2 * e.weight
  | _ => 1

theorem weight_pos (e : Expr) : 0 < e.weight := by
  fun_induction weight e <;> omega

theorem weight_negate_le (e : Expr) : e.negate.weight ≤ 2 * e.weight := by
  fun_induction negate e with
  | case1 l r loc ihl ihr => simp only [weight]; omega
  | case2 l r loc ihl ihr => simp only [weight]; omega
  | case3 op l r loc _ _ op' h =>
    have := weight_pos (binary op l r loc)
    cases op <;> simp_all [BinaryOp.negated?] <;> subst h <;> simp [weight]
  | case4 op l r loc _ _ h => simp only [weight]; exact Nat.le_refl _
  | case5 e loc =>
    have := weight_pos e
    simp only [weight]
    omega
  | case6 b loc => simp [weight]
  | case7 e => simp only [weight]; exact Nat.le_refl _

/-- A negation that has been moved inward weighs less than before, unless there was nothing to move it
through. -/
theorem weight_negate_lt (e : Expr) (h : e.negate.isNegation = false) : e.negate.weight < 2 * e.weight := by
  fun_cases negate e with
  | case1 l r loc =>
    have hl := weight_negate_le l
    have hr := weight_negate_le r
    simp only [weight]
    omega
  | case2 l r loc =>
    have hl := weight_negate_le l
    have hr := weight_negate_le r
    simp only [weight]
    omega
  | case3 op l r loc _ _ op' ho =>
    cases op <;> simp_all [BinaryOp.negated?] <;> subst ho <;> simp [weight]
  | case4 op l r loc _ _ ho => simp_all [negate, isNegation]
  | case5 e loc =>
    have := weight_pos e
    simp only [weight]
    omega
  | case6 b loc => simp [weight]
  | case7 e => simp_all [negate, isNegation]

end Expr

end ValueAnalysis
