import ValueAnalysis.Checked.Value

/-!
Evaluation and conditions over environments with every construction checked. A value that stands where a node
should be has no evaluation, and only a comparison has a complement: asking for either is a failure too.
-/

namespace ValueAnalysis

class CheckedEval (L : Type) [EvalDomain L] extends CheckedLattice L where
  constant : Value → Except Failure L := fun v => .ok (EvalDomain.evalConstant v)
  unary : UnaryOp → L → Except Failure L := fun op a => .ok (EvalDomain.evalUnary op a)
  binary : BinaryOp → L → L → Except Failure L := fun op a b => .ok (EvalDomain.evalBinary op a b)
  ternary : TernaryOp → L → L → L → Except Failure L := fun op a b c => .ok (EvalDomain.evalTernary op a b c)

class CheckedDomain (L : Type) [ValueDomain L] extends CheckedEval L where
  satisfies : BinaryOp → L → L → Except Failure Satisfiability :=
    fun op a b => .ok (ValueDomain.satisfiesBinary op a b)
  assume : Env L → BinaryOp → Expr → Expr → Except Failure (Env L) :=
    fun env op l r => .ok (ValueDomain.assumeBinary env op l r)

namespace Env.Checked

open AbstractDomain (isBottom top)

variable {L : Type}

section Lattice

variable [AbstractDomain L]

def combineShared (op : L → L → Except Failure L) (a b : Env L) : Except Failure (Env L) := do
  return ⟨← a.facts.collect (fun k v => (b.facts.get? k).map (op v)) unlessTop, false⟩

def combineAll (op : L → L → Except Failure L) (a b : Env L) : Except Failure (Env L) := do
  let combined ← (Table.merge (fun v w => op (v.getD top) (w.getD top)) a.facts b.facts).sequence
  return if combined.entries.any (isBottom ·.2) then .bottom
    else ⟨combined.filterMap fun _ v => unlessTop v, false⟩

variable [CheckedLattice L]

def join (a b : Env L) : Except Failure (Env L) :=
  if a.isBottom then .ok b else if b.isBottom then .ok a else combineShared CheckedLattice.join a b

def meet (a b : Env L) : Except Failure (Env L) :=
  if a.isBottom then .ok a else if b.isBottom then .ok b else combineAll CheckedLattice.meet a b

def widen (a b : Env L) : Except Failure (Env L) :=
  if a.isBottom then .ok b else if b.isBottom then .ok a else combineShared CheckedLattice.widen a b

def narrow (a b : Env L) : Except Failure (Env L) :=
  if a.isBottom then .ok a else if b.isBottom then .ok b else combineAll CheckedLattice.narrow a b

instance : CheckedLattice (Env L) where
  join := join
  meet := meet
  widen := widen
  narrow := narrow

end Lattice

section Eval

variable [EvalDomain L] [CheckedEval L]

def evalNode (env : Env L) : Expr → Except Failure L
  | .constant v _ => CheckedEval.constant v
  | .identifier x => .ok (EvalDomain.evalIdentifier x (env.get x.name))
  | .unknown _ => .ok EvalDomain.evalUnknown
  | .unary op a _ => do
    let v ← evalNode env a
    if isBottom v then .ok v else CheckedEval.unary op v
  | .binary op l r _ => do
    let v ← evalNode env l
    if isBottom v then .ok v
    else do
      let w ← evalNode env r
      if isBottom w then .ok w else CheckedEval.binary op v w
  | .ternary op l m r _ => do
    let u ← evalNode env l
    let v ← evalNode env m
    let w ← evalNode env r
    if isBottom u then .ok u
    else if isBottom v then .ok v
    else if isBottom w then .ok w
    else CheckedEval.ternary op u v w
  | .foreign v => .error (.unsupportedNode v.typeName)

def eval (env : Env L) (e : Expr) : Except Failure L :=
  if env.isBottom then .ok AbstractDomain.bottom else evalNode env e

def assign (env : Env L) (x : Identifier) (e : Expr) : Except Failure (Env L) :=
  if env.isBottom then .ok env else do return env.put x.name (← eval env e)

end Eval

end Env.Checked

/-- Only a comparison is asked for its complement. -/
def Expr.Checked.negate : Expr → Except Failure Expr
  | .binary .logicalAnd l r loc => do return .binary .logicalOr (← negate l) (← negate r) loc
  | .binary .logicalOr l r loc => do return .binary .logicalAnd (← negate l) (← negate r) loc
  | .binary op l r loc =>
    if op.isComparison then
      match op.negated? with
      | some op' => .ok (.binary op' l r loc)
      | none => .error (.notComparison op)
    else .ok (.unary .logicalNot (.binary op l r loc))
  | .unary .logicalNot e _ => .ok e
  | .constant (.bool b) loc => .ok (.constant (.bool !b) loc)
  | e => .ok (.unary .logicalNot e)

theorem Expr.Checked.negate_eq (e : Expr) : negate e = .ok e.negate := by
  fun_induction Expr.negate e with
  | case1 l r loc ihl ihr => rw [negate, ihl, ihr]; rfl
  | case2 l r loc ihl ihr => rw [negate, ihl, ihr]; rfl
  | case3 op l r loc hand hor op' h => cases op <;> simp_all [negate, BinaryOp.isComparison, BinaryOp.negated?]
  | case4 op l r loc hand hor h => cases op <;> simp_all [negate, BinaryOp.isComparison, BinaryOp.negated?]
  | case5 e loc => rw [negate]
  | case6 b loc => rw [negate]
  | case7 e h1 h2 h3 => rw [negate] <;> assumption

theorem Expr.Checked.weight_negate_lt {e pushed : Expr} (he : negate e = .ok pushed)
    (h : pushed.isNegation = false) : pushed.weight < 2 * e.weight := by
  rw [negate_eq] at he
  cases he
  exact e.weight_negate_lt h

namespace Condition.Checked

def answer (decide : BinaryOp → Expr → Expr → Except Failure Satisfiability) :
    Expr → Except Failure Satisfiability
  | .constant (.bool b) _ => .ok (.ofBool b)
  | .unary .logicalNot a _ => do return (← answer decide a).negate
  | .binary .logicalAnd l r _ => do return (← answer decide l).and (← answer decide r)
  | .binary .logicalOr l r _ => do return (← answer decide l).or (← answer decide r)
  | .binary op l r _ => decide op l r
  | _ => .ok .unknown

open AbstractDomain (isBottom)

variable {S : Type} [AbstractDomain S] [CheckedLattice S]

def restrict (refine : S → BinaryOp → Expr → Expr → Except Failure S) (s : S) (e : Expr) : Except Failure S :=
  if isBottom s then .ok s
  else
    match e with
    | .constant (.bool true) _ => .ok s
    | .constant (.bool false) _ => .ok AbstractDomain.bottom
    | .unary .logicalNot a _ =>
      match ha : Expr.Checked.negate a with
      | .error f => .error f
      | .ok pushed =>
        if h : pushed.isNegation = true then .ok s
        else
          have := Expr.Checked.weight_negate_lt ha (Bool.eq_false_iff.mpr h)
          restrict refine s pushed
    | .binary .logicalAnd l r _ => do restrict refine (← restrict refine s l) r
    | .binary .logicalOr l r _ => do CheckedLattice.join (← restrict refine s l) (← restrict refine s r)
    | .binary op l r _ => refine s op l r
    | _ => .ok s
termination_by e.weight
decreasing_by all_goals simp only [Expr.weight]; omega

end Condition.Checked

namespace Env.Checked

open AbstractDomain (isBottom)

variable {L : Type} [ValueDomain L] [CheckedDomain L]

def decideBinary (env : Env L) (op : BinaryOp) (l r : Expr) : Except Failure Satisfiability := do
  let v ← eval env l
  let w ← eval env r
  if isBottom v || isBottom w then .ok .bottom else CheckedDomain.satisfies op v w

def satisfies (env : Env L) (e : Expr) : Except Failure Satisfiability :=
  if env.isBottom then .ok .bottom else Condition.Checked.answer (decideBinary env) e

def refine (env : Env L) (op : BinaryOp) (l r : Expr) : Except Failure (Env L) := do
  match ← decideBinary env op l r with
  | .notSatisfied | .bottom => .ok .bottom
  | .satisfied => .ok env
  | .unknown => return (← CheckedDomain.assume env op l r).collapse

def assume (env : Env L) (e : Expr) : Except Failure (Env L) := Condition.Checked.restrict refine env e

end Env.Checked

namespace Interval.Checked

instance : CheckedEval Interval where
  constant := evalConstant
  unary := evalUnary
  binary := evalBinary

def refineLeft (env : Env Interval) (op : BinaryOp) (l r : Expr) : Except Failure (Env Interval) :=
  match l with
  | .identifier x => do refineVariable env x.name op (← Env.Checked.eval env r)
  | _ => .ok env

def assumeBinary (env : Env Interval) (op : BinaryOp) (l r : Expr) : Except Failure (Env Interval) :=
  if op.isComparison then do
    let refined ← refineLeft env op l r
    match r with
    | .identifier y => do refineVariable refined y.name op.swapped (← Env.Checked.eval env l)
    | _ => .ok refined
  else .ok env

instance : CheckedDomain Interval where
  satisfies := satisfiesBinary
  assume := assumeBinary

end Interval.Checked

end ValueAnalysis
