import ValueAnalysis.Env.Condition

/-!
How restricting a state works its way through a condition: what one level of it does, the calls that this level makes,
and runs in which only so many calls may be open at once.
-/

namespace ValueAnalysis

def Expr.nodes : Expr → Nat
  | unary _ a _ => a.nodes + 1
  | binary _ l r _ => l.nodes + r.nodes + 1
  | ternary _ l m r _ => l.nodes + m.nodes + r.nodes + 1
  | _ => 1

namespace Condition

open AbstractDomain (isBottom bottom join)

variable {S : Type} [AbstractDomain S]

/-- One level of restricting a state. Whatever is left to restricting by another condition goes through `call`. -/
def level {m : Type → Type} [Monad m] (refine : S → BinaryOp → Expr → Expr → S) (call : S → Expr → m S) (s : S)
    (e : Expr) : m S :=
  if isBottom s then pure s
  else
    match e with
    | .constant (.bool true) _ => pure s
    | .constant (.bool false) _ => pure bottom
    | .unary .logicalNot a _ => if a.negate.isNegation then pure s else call s a.negate
    | .binary .logicalAnd l r _ => do
      let first ← call s l
      call first r
    | .binary .logicalOr l r _ => do
      let left ← call s l
      let right ← call s r
      return join left right
    | .binary op l r _ => pure (refine s op l r)
    | _ => pure s

def record (refine : S → BinaryOp → Expr → Expr → S) (s : S) (e : Expr) : StateM (List (S × Expr)) S := do
  modify (· ++ [(s, e)])
  return restrict refine s e

/-- The calls that restricting a state by a condition makes of itself, in their order. -/
def calls (refine : S → BinaryOp → Expr → Expr → S) (s : S) (e : Expr) : List (S × Expr) :=
  ((level refine (record refine) s e).run []).run.2

/-- Restricts a state with at most `depth` calls open at once, and counts the calls. There is no result where more
would have to be open. -/
def restrictWithin (refine : S → BinaryOp → Expr → Expr → S) : (depth : Nat) → S → Expr → StateT Nat Option S
  | 0, _, _ => failure
  | depth + 1, s, e => do
    modify (· + 1)
    level refine (restrictWithin refine depth) s e

/-- Restricting a state by a condition gives its result with at most `depth` calls open at once and at most `bound`
calls in all. -/
def Returns (refine : S → BinaryOp → Expr → Expr → S) (depth bound : Nat) (s : S) (e : Expr) : Prop :=
  ∃ k ≤ bound, ∀ i, (restrictWithin refine depth s e).run i = some (restrict refine s e, i + k)

end Condition

end ValueAnalysis
