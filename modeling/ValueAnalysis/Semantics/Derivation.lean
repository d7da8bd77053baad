import ValueAnalysis.State

namespace ValueAnalysis

/-- A tree of operations. An operation on two states takes any two that operations lead to. -/
inductive Derivation where
  | top
  | bottom
  | assign (d : Derivation) (x : Identifier) (e : Expr)
  | assume (d : Derivation) (e : Expr)
  | smallStep (d : Derivation)
  | closure (d : Derivation)
  | forget (d : Derivation) (x : String)
  | forgetIf (d : Derivation) (test : String → Bool)
  | join (l r : Derivation)
  | meet (l r : Derivation)
  | widen (l r : Derivation)
  | narrow (l r : Derivation)

inductive Operation where
  | top
  | bottom
  | assign
  | assume
  | smallStep
  | closure
  | forget
  | forgetIf
  | join
  | meet
  | widen
  | narrow
  deriving DecidableEq

def Derivation.operations : Derivation → List Operation
  | .top => [.top]
  | .bottom => [.bottom]
  | .assign d _ _ => .assign :: d.operations
  | .assume d _ => .assume :: d.operations
  | .smallStep d => .smallStep :: d.operations
  | .closure d => .closure :: d.operations
  | .forget d _ => .forget :: d.operations
  | .forgetIf d _ => .forgetIf :: d.operations
  | .join l r => .join :: (l.operations ++ r.operations)
  | .meet l r => .meet :: (l.operations ++ r.operations)
  | .widen l r => .widen :: (l.operations ++ r.operations)
  | .narrow l r => .narrow :: (l.operations ++ r.operations)

/-- The state that the operations lead to. A state without components has nothing to close, so `close` is
the identity there. -/
def Derivation.state {S : Type} [AbstractState S] (close : S → S) : Derivation → S
  | .top => AbstractDomain.top
  | .bottom => AbstractDomain.bottom
  | .assign d x e => AbstractState.assign (d.state close) x e
  | .assume d e => AbstractState.assume (d.state close) e
  | .smallStep d => AbstractState.smallStep (d.state close)
  | .closure d => close (d.state close)
  | .forget d x => AbstractState.forget (d.state close) x
  | .forgetIf d test => AbstractState.forgetIf (d.state close) test
  | .join l r => AbstractDomain.join (l.state close) (r.state close)
  | .meet l r => AbstractDomain.meet (l.state close) (r.state close)
  | .widen l r => AbstractDomain.widen (l.state close) (r.state close)
  | .narrow l r => AbstractDomain.narrow (l.state close) (r.state close)

end ValueAnalysis
