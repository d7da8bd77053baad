import ValueAnalysis.Expr.Condition
import ValueAnalysis.Satisfiability

/-!
The concrete meaning of expressions and conditions over stores of integers. An expression may have several
values, since not every operator is modelled, and none, since a division by zero has no result.
-/

namespace ValueAnalysis

abbrev Store := String → Int

def Store.set (s : Store) (x : String) (n : Int) : Store := fun y => if y = x then n else s y

@[simp] theorem Store.set_self (s : Store) (x : String) (n : Int) : s.set x n x = n := by simp [Store.set]

@[simp] theorem Store.set_ne (s : Store) {x y : String} (n : Int) (h : y ≠ x) : s.set x n y = s y := by
  simp [Store.set, h]

def BinaryOp.holds : BinaryOp → Int → Int → Bool
  | lt, m, n => decide (m < n)
  | le, m, n => decide (m ≤ n)
  | gt, m, n => decide (n < m)
  | ge, m, n => decide (n ≤ m)
  | eq, m, n => decide (m = n)
  | ne, m, n => decide (m ≠ n)
  | _, _, _ => false

def BinaryOp.isArithmetic : BinaryOp → Bool
  | add | sub | mul | div => true
  | _ => false

inductive Evaluates (s : Store) : Expr → Int → Prop where
  | literal (n : Int) (loc : Value) : Evaluates s (.constant (.int n) loc) n
  | constant (v : Value) (loc : Value) (n : Int) (h : v.integerLiteral? = none) :
    Evaluates s (.constant v loc) n
  | identifier (x : Identifier) : Evaluates s (.identifier x) (s x.name)
  | unknown (loc : Value) (n : Int) : Evaluates s (.unknown loc) n
  | negation {a : Expr} {m : Int} (loc : Value) (h : Evaluates s a m) :
    Evaluates s (.unary .negation a loc) (-m)
  | stringLength {a : Expr} {m : Int} (loc : Value) (n : Int) (h : Evaluates s a m) (hn : 0 ≤ n) :
    Evaluates s (.unary .stringLength a loc) n
  | unary {a : Expr} {m : Int} (op : UnaryOp) (loc : Value) (n : Int) (h : Evaluates s a m)
    (hn : op ≠ .negation) (hs : op ≠ .stringLength) : Evaluates s (.unary op a loc) n
  | add {l r : Expr} {m n : Int} (loc : Value) (hl : Evaluates s l m) (hr : Evaluates s r n) :
    Evaluates s (.binary .add l r loc) (m + n)
  | sub {l r : Expr} {m n : Int} (loc : Value) (hl : Evaluates s l m) (hr : Evaluates s r n) :
    Evaluates s (.binary .sub l r loc) (m - n)
  | mul {l r : Expr} {m n : Int} (loc : Value) (hl : Evaluates s l m) (hr : Evaluates s r n) :
    Evaluates s (.binary .mul l r loc) (m * n)
  | div {l r : Expr} {m n : Int} (loc : Value) (hl : Evaluates s l m) (hr : Evaluates s r n) (hn : n ≠ 0) :
    Evaluates s (.binary .div l r loc) (m.tdiv n)
  | binary {l r : Expr} {m n : Int} (op : BinaryOp) (loc : Value) (k : Int) (hl : Evaluates s l m)
    (hr : Evaluates s r n) (ho : op.isArithmetic = false) : Evaluates s (.binary op l r loc) k
  | ternary {l e r : Expr} {m k n : Int} (op : TernaryOp) (loc : Value) (i : Int) (hl : Evaluates s l m)
    (he : Evaluates s e k) (hr : Evaluates s r n) : Evaluates s (.ternary op l e r loc) i

/-- Conditions that are no literal, connective or comparison. -/
def Expr.isAtom : Expr → Bool
  | constant (.bool _) _ => false
  | unary .logicalNot _ _ => false
  | binary op _ _ _ => !op.isComparison && op ≠ .logicalAnd && op ≠ .logicalOr
  | _ => true

def Expr.operands : Expr → List Expr
  | unary _ a _ => [a]
  | binary _ l r _ => [l, r]
  | ternary _ l m r _ => [l, m, r]
  | _ => []

def Expr.variables : Expr → List String
  | identifier x => [x.name]
  | unary _ a _ => a.variables
  | binary _ l r _ => l.variables ++ r.variables
  | ternary _ l m r _ => l.variables ++ m.variables ++ r.variables
  | _ => []

/-- The truth values that a condition can evaluate to. An atom whose operands have values can be either. A
connective evaluates both sides, or with `lazy` only as many as it needs. -/
inductive Truth (lazy : Bool) (s : Store) : Expr → Bool → Prop where
  | literal (b : Bool) (loc : Value) : Truth lazy s (.constant (.bool b) loc) b
  | atom {e : Expr} (b : Bool) (ha : e.isAtom = true) (h : ∀ a ∈ e.operands, ∃ n, Evaluates s a n) :
    Truth lazy s e b
  | comparison {op : BinaryOp} {l r : Expr} {m n : Int} (loc : Value) (ho : op.isComparison = true)
    (hl : Evaluates s l m) (hr : Evaluates s r n) : Truth lazy s (.binary op l r loc) (op.holds m n)
  | negation {a : Expr} {b : Bool} (loc : Value) (h : Truth lazy s a b) :
    Truth lazy s (.unary .logicalNot a loc) !b
  | conjunction {l r : Expr} {a b : Bool} (loc : Value) (hl : Truth lazy s l a) (hr : Truth lazy s r b) :
    Truth lazy s (.binary .logicalAnd l r loc) (a && b)
  | disjunction {l r : Expr} {a b : Bool} (loc : Value) (hl : Truth lazy s l a) (hr : Truth lazy s r b) :
    Truth lazy s (.binary .logicalOr l r loc) (a || b)
  | refuted {l : Expr} (r : Expr) (loc : Value) (hz : lazy = true) (hl : Truth lazy s l false) :
    Truth lazy s (.binary .logicalAnd l r loc) false
  | settled {l : Expr} (r : Expr) (loc : Value) (hz : lazy = true) (hl : Truth lazy s l true) :
    Truth lazy s (.binary .logicalOr l r loc) true

/-- An answer admits a truth value that it does not exclude. -/
def Satisfiability.Admits (a : Satisfiability) (b : Bool) : Prop :=
  a ≠ bottom ∧ (a = satisfied → b = true) ∧ (a = notSatisfied → b = false)

end ValueAnalysis
