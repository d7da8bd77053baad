import ValueAnalysis.Collection.NameSet
import ValueAnalysis.Expr.Operator
import ValueAnalysis.Value.Basic

/-!
Expressions handed over by the host. A node carries the location it came from; locations and annotations
are metadata and take no part in equality.
-/

namespace ValueAnalysis

/-- A program variable. It is known by its name alone. -/
structure Identifier where
  name : String
  annotations : NameSet := ∅
  location : Value := .null
  deriving Inhabited

def Identifier.isMarked (x : Identifier) (mark : String) : Bool :=
  decide (mark ∈ x.annotations)

/-- An expression. `unknown` is a value the host does not model, and `foreign` is a host value that stands
where a node should be. -/
inductive Expr where
  | constant (value : Value) (location : Value := .null)
  | identifier (x : Identifier)
  | unknown (location : Value := .null)
  | unary (op : UnaryOp) (arg : Expr) (location : Value := .null)
  | binary (op : BinaryOp) (left right : Expr) (location : Value := .null)
  | ternary (op : TernaryOp) (left middle right : Expr) (location : Value := .null)
  | foreign (value : Value)
  deriving Inhabited

namespace Expr

def integerLiteral? : Expr → Option Int
  | constant v _ => v.integerLiteral?
  | _ => none

def same (reflexive : Bool) : Expr → Expr → Bool
  | constant v _, constant w _ => v.same reflexive w
  | identifier x, identifier y => x.name == y.name
  | unknown _, unknown _ => true
  | unary op a _, unary op' a' _ => op == op' && same reflexive a a'
  | binary op l r _, binary op' l' r' _ => op == op' && same reflexive l l' && same reflexive r r'
  | ternary op l m r _, ternary op' l' m' r' _ =>
    op == op' && same reflexive l l' && same reflexive m m' && same reflexive r r'
  | foreign v, foreign w => v.same reflexive w
  | _, _ => false

/-- Equality of expressions that are made of the same host values. An undefined float on its own does not
equal itself, but inside a node or a list it does. -/
def sameParts : Expr → Expr → Bool
  | foreign (.float x), foreign (.float y) => x.quantity.same false y.quantity
  | e, f => same true e f

def isKey : Expr → Bool
  | constant v _ => v.isKey
  | identifier _ => true
  | unknown _ => true
  | unary _ a _ => a.isKey
  | binary _ l r _ => l.isKey && r.isKey
  | ternary _ l m r _ => l.isKey && m.isKey && r.isKey
  | foreign v => v.isKey

def isProper : Expr → Bool
  | constant _ _ => true
  | identifier _ => true
  | unknown _ => true
  | unary _ a _ => a.isProper
  | binary _ l r _ => l.isProper && r.isProper
  | ternary _ l m r _ => l.isProper && m.isProper && r.isProper
  | foreign _ => false

def text : Expr → String
  | constant .null _ => "null"
  | constant v _ => v.literal
  | identifier x => x.name
  | unknown _ => "?"
  | unary op a _ => op.name ++ "(" ++ a.text ++ ")"
  | binary op l r _ => "(" ++ l.text ++ " " ++ op.symbol ++ " " ++ r.text ++ ")"
  | ternary op l m r _ => op.name ++ "(" ++ l.text ++ ", " ++ m.text ++ ", " ++ r.text ++ ")"
  | foreign v => v.display

end Expr

end ValueAnalysis
