import ValueAnalysis.Bounds.BoundSet
import ValueAnalysis.Env.Basic
import ValueAnalysis.Env.Condition

/-!
Strict upper bounds as facts about whole states: `y` among the bounds of `x` says that `x < y`. An
assignment first drops every fact that mentions the assigned variable, then records what it establishes.
-/

namespace ValueAnalysis

abbrev Bounds := Env BoundSet

namespace Bounds

/-- The variable `y` when the expression is `y` less a positive constant and `y` is not the target: then
the target ends up below `y`. -/
def offsetSource? (target : String) : Expr → Option String
  | .binary .sub (.identifier y) r _ =>
    match r.integerLiteral? with
    | some c => if y.name ≠ target ∧ 0 < c then some y.name else none
    | none => none
  | .binary .add l (.identifier y) _ =>
    match l.integerLiteral? with
    | some c => if y.name ≠ target ∧ c < 0 then some y.name else none
    | none => none
  | .binary .add (.identifier y) r _ =>
    match r.integerLiteral? with
    | some c => if y.name ≠ target ∧ c < 0 then some y.name else none
    | none => none
  | _ => none

def dropMentions (facts : Table BoundSet) (x : String) : Table BoundSet :=
  facts.filterMap fun k b => if k = x then none else Env.unlessTop (b.erase x)

def assign (s : Bounds) (x : Identifier) (e : Expr) : Bounds :=
  if s.isBottom then s
  else
    let kept := dropMentions s.facts x.name
    match offsetSource? x.name e with
    | some y => ⟨kept.insert x.name (((kept.get? y).getD .top).insert y), false⟩
    | none => ⟨kept, false⟩

def answerLt (s : Bounds) (x y : String) : Satisfiability :=
  if x = y ∨ x ∈ s.get y then .notSatisfied
  else if y ∈ s.get x then .satisfied
  else .unknown

def answerLe (s : Bounds) (x y : String) : Satisfiability :=
  if x = y ∨ y ∈ s.get x then .satisfied
  else if x ∈ s.get y then .notSatisfied
  else .unknown

def decideBinary (s : Bounds) (op : BinaryOp) (l r : Expr) : Satisfiability :=
  match l, r with
  | .identifier x, .identifier y =>
    match op with
    | .lt => answerLt s x.name y.name
    | .gt => answerLt s y.name x.name
    | .le => answerLe s x.name y.name
    | .ge => answerLe s y.name x.name
    | _ => .unknown
  | _, _ => .unknown

def satisfies (s : Bounds) (e : Expr) : Satisfiability :=
  if s.isBottom then .bottom else Condition.answer (decideBinary s) e

/-- What is below `y` inherits the bounds of `y`. Nothing is below itself, so a set that would hold its own
variable is a contradiction; then the result is `none`. -/
def refineLt? (s : Bounds) (x y : String) : Option Bounds :=
  let updated := ((s.get x).meet (s.get y)).meet (.singleton y)
  if x = y ∨ x ∈ updated then none else some (s.put x updated)

def refineLe? (s : Bounds) (x y : String) : Option Bounds :=
  let updated := (s.get x).meet (s.get y)
  if x = y then some s else if x ∈ updated then none else some (s.put x updated)

def refineEq? (s : Bounds) (x y : String) : Option Bounds :=
  let updated := (s.get x).meet (s.get y)
  if x = y then some s
  else if x ∈ updated ∨ y ∈ updated then none
  else some ((s.put x updated).put y updated)

def refine? (s : Bounds) (op : BinaryOp) (l r : Expr) : Option Bounds :=
  match l, r with
  | .identifier x, .identifier y =>
    match op with
    | .lt => refineLt? s x.name y.name
    | .gt => refineLt? s y.name x.name
    | .le => refineLe? s x.name y.name
    | .ge => refineLe? s y.name x.name
    | .eq => refineEq? s x.name y.name
    | _ => some s
  | _, _ => some s

def refine (s : Bounds) (op : BinaryOp) (l r : Expr) : Bounds :=
  (refine? s op l r).getD .bottom

def refineReport (s : Bounds) (op : BinaryOp) (l r : Expr) : Report :=
  match refine? s op l r with
  | some _ => .silent
  | none => .note .upperBounds
      ("assume(" ++ (Expr.binary op l r).text ++ ") contradicts the recorded bounds")

def assume (s : Bounds) (e : Expr) : Bounds := Condition.restrict refine s e

def assumeReport (s : Bounds) (e : Expr) : Report := Condition.restrictReport refine refineReport s e

/-- Drops the variables that pass the test, both as keys and as bounds. The test reads their names only and sees no
annotations. -/
def forgetIf (s : Bounds) (test : String → Bool) : Bounds :=
  if s.isBottom then s
  else ⟨s.facts.filterMap fun k b =>
    if test k then none else Env.unlessTop (.above (b.names.filter (!test ·))), false⟩

def forget (s : Bounds) (x : String) : Bounds := forgetIf s (· = x)

end Bounds

end ValueAnalysis
