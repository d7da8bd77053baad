import ValueAnalysis.Env.Assume

/-!
The smallest domain of values that tells anything: a value is known or not. It takes every answer from the
defaults of a value domain, except that an equation refutes the variable on its left.
-/

namespace ValueAnalysis

inductive Knowledge where
  | bottom
  | known
  | top
  deriving DecidableEq, Inhabited

namespace Knowledge

def values : List Knowledge := [bottom, known, top]

def name : Knowledge → String
  | bottom => "BOTTOM"
  | known => "KNOWN"
  | top => "TOP"

def ofName? (s : String) : Option Knowledge :=
  values.find? (·.name == s)

def leq : Knowledge → Knowledge → Bool
  | bottom, _ => true
  | _, top => true
  | known, known => true
  | _, _ => false

def join (a b : Knowledge) : Knowledge := if a.leq b then b else a

def meet (a b : Knowledge) : Knowledge := if a.leq b then a else b

instance : AbstractDomain Knowledge where
  top := top
  bottom := bottom
  isTop a := a == top
  isBottom a := a == bottom
  leq := leq
  join := join
  meet := meet
  widen := join
  narrow := meet
  snapshot a := .text a.name
  text a := "Chain." ++ a.name

instance : EvalDomain Knowledge where
  evalConstant _ := known

/-- The refuted variable is stored as it is, and the environment is reachable afterwards. -/
def assumeBinary (env : Env Knowledge) (op : BinaryOp) (l _ : Expr) : Env Knowledge :=
  match op, l with
  | .eq, .identifier x => ⟨env.facts.insert x.name bottom, false⟩
  | _, _ => env

instance : ValueDomain Knowledge where
  assumeBinary := assumeBinary

end Knowledge

end ValueAnalysis
