import ValueAnalysis.Pentagon.Basic

/-!
Transfer functions of pentagons. Each runs on both components and closes the result.
-/

namespace ValueAnalysis.Pentagon

def isPositiveDifference (s : Bounds) : Expr → Bool
  | .binary .sub (.identifier y) (.identifier z) _ => decide (y.name ∈ s.get z.name)
  | _ => false

def assignIntervals (p : Pentagon) (x : Identifier) (e : Expr) : Env Interval :=
  let assigned := p.intervals.assign x e
  if isPositiveDifference p.bounds e then
    assigned.put x.name ((assigned.get x.name).meet (.atLeast (.fin 1)))
  else assigned

def assignOpen (p : Pentagon) (x : Identifier) (e : Expr) : Pentagon :=
  make (Bounds.assign p.bounds x e) (p.assignIntervals x e)

def assign (p : Pentagon) (x : Identifier) (e : Expr) : Pentagon :=
  if p.isBottom then p else (p.assignOpen x e).closure

def assignReport (p : Pentagon) (point : Value) (x : Identifier) (e : Expr) : Report :=
  if p.isBottom then .silent
  else p.intervals.assignReport point e ++ .of (p.assignOpen x e).closureRecords

/-- Evaluating an expression for its effect changes no component. -/
def smallStep (p : Pentagon) : Pentagon := make p.bounds p.intervals

def assumeOpen (p : Pentagon) (e : Expr) : Pentagon :=
  make (Bounds.assume p.bounds e) (p.intervals.assume e)

def assume (p : Pentagon) (e : Expr) : Pentagon :=
  if p.isBottom then p else (p.assumeOpen e).closure

def assumeReport (p : Pentagon) (src dest : Value) (e : Expr) : Report :=
  if p.isBottom then .silent
  else
    Bounds.assumeReport p.bounds e ++ p.intervals.assumeReport src dest e ++
      .of (p.assumeOpen e).closureRecords

def satisfies (p : Pentagon) (e : Expr) : Satisfiability :=
  (p.intervals.satisfies e).meet (Bounds.satisfies p.bounds e)

def eval (p : Pentagon) (e : Expr) : Interval := p.intervals.eval e

def forget (p : Pentagon) (x : String) : Pentagon :=
  make (Bounds.forget p.bounds x) (p.intervals.forget x)

/-- Both components drop the variables that pass the test. It reads names only, so it says the same of a variable in
either of them. -/
def forgetIf (p : Pentagon) (test : String → Bool) : Pentagon :=
  make (Bounds.forgetIf p.bounds test) (p.intervals.forgetIf test)

end ValueAnalysis.Pentagon
