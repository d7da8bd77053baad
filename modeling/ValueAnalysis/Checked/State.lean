import ValueAnalysis.Checked.Env
import ValueAnalysis.State

namespace ValueAnalysis

class CheckedState (S : Type) [AbstractState S] extends CheckedLattice S where
  assign : S → Identifier → Expr → Except Failure S
  assume : S → Expr → Except Failure S
  satisfies : S → Expr → Except Failure Satisfiability
  forget : S → String → Except Failure S

instance {L : Type} [ValueDomain L] [DecidableEq L] [CheckedDomain L] : CheckedState (Env L) where
  assign := Env.Checked.assign
  assume := Env.Checked.assume
  satisfies := Env.Checked.satisfies
  forget env x := .ok (env.forget x)

/-- A taint is one of three constants, and nothing is constructed from parts. -/
instance : CheckedDomain Taint where

namespace Bounds.Checked

def dropMentions (facts : Table BoundSet) (x : String) : Except Failure (Table BoundSet) :=
  facts.collect (fun k b => if k = x then none else some (BoundSet.Checked.erase x b)) Env.unlessTop

def assign (s : Bounds) (x : Identifier) (e : Expr) : Except Failure Bounds :=
  if s.isBottom then .ok s
  else do
    let kept ← dropMentions s.facts x.name
    match offsetSource? x.name e with
    | some y => return ⟨kept.insert x.name (← BoundSet.Checked.insert y ((kept.get? y).getD .top)), false⟩
    | none => return ⟨kept, false⟩

def refineLt? (s : Bounds) (x y : String) : Except Failure (Option Bounds) := do
  let shared ← BoundSet.Checked.meet (s.get x) (s.get y)
  let updated ← BoundSet.Checked.meet shared (← BoundSet.Checked.ofNames (.singleton y))
  return if x = y ∨ x ∈ updated then none else some (s.put x updated)

def refineLe? (s : Bounds) (x y : String) : Except Failure (Option Bounds) := do
  let updated ← BoundSet.Checked.meet (s.get x) (s.get y)
  return if x = y then some s else if x ∈ updated then none else some (s.put x updated)

def refineEq? (s : Bounds) (x y : String) : Except Failure (Option Bounds) := do
  let updated ← BoundSet.Checked.meet (s.get x) (s.get y)
  return if x = y then some s
    else if x ∈ updated ∨ y ∈ updated then none
    else some ((s.put x updated).put y updated)

def refine? (s : Bounds) (op : BinaryOp) (l r : Expr) : Except Failure (Option Bounds) :=
  match l, r with
  | .identifier x, .identifier y =>
    match op with
    | .lt => refineLt? s x.name y.name
    | .gt => refineLt? s y.name x.name
    | .le => refineLe? s x.name y.name
    | .ge => refineLe? s y.name x.name
    | .eq => refineEq? s x.name y.name
    | _ => .ok (some s)
  | _, _ => .ok (some s)

def refine (s : Bounds) (op : BinaryOp) (l r : Expr) : Except Failure Bounds := do
  return (← refine? s op l r).getD .bottom

def assume (s : Bounds) (e : Expr) : Except Failure Bounds := Condition.Checked.restrict refine s e

def forgetIf (s : Bounds) (test : String → Bool) : Except Failure Bounds :=
  if s.isBottom then .ok s
  else do
    let kept ← s.facts.collect (fun k b =>
      if test k then none else some (BoundSet.Checked.ofNames (b.names.filter (!test ·)))) Env.unlessTop
    return ⟨kept, false⟩

def forget (s : Bounds) (x : String) : Except Failure Bounds := forgetIf s (· = x)

instance : CheckedState Bounds where
  assign := assign
  assume := assume
  satisfies s e := .ok (satisfies s e)
  forget := forget

end Bounds.Checked

namespace Pentagon.Checked

def addBounds (s : Bounds) (extra : Table NameSet) : Except Failure Bounds := do
  let facts ← (Table.merge (fun b n => n.elim (.ok (b.getD .top)) fun names => do
    BoundSet.Checked.meet (b.getD .top) (← BoundSet.Checked.ofNames names)) s.facts extra).sequence
  return ⟨facts, s.unreachable⟩

def closure (p : Pentagon) : Except Failure Pentagon :=
  if p.isBottom then .ok p else do return make (← addBounds p.bounds p.missingBounds) p.intervals

def joinBounds (p q : Pentagon) : Except Failure Bounds := do
  let shared ← Env.Checked.join p.bounds q.bounds
  let extended ← addBounds shared (witnessedBounds p.bounds q.intervals)
  addBounds extended (witnessedBounds q.bounds p.intervals)

def join (p q : Pentagon) : Except Failure Pentagon :=
  if p.isBottom then .ok q
  else if q.isBottom then .ok p
  else do return make (← joinBounds p q) (← Env.Checked.join p.intervals q.intervals)

def meet (p q : Pentagon) : Except Failure Pentagon :=
  if p.isBottom then .ok p
  else if q.isBottom then .ok q
  else do
    closure (make (← Env.Checked.meet p.bounds q.bounds) (← Env.Checked.meet p.intervals q.intervals))

def widen (p q : Pentagon) : Except Failure Pentagon :=
  if p.isBottom then .ok q
  else if q.isBottom then .ok p
  else do return make (← Env.Checked.widen p.bounds q.bounds) (← Env.Checked.widen p.intervals q.intervals)

def narrow (p q : Pentagon) : Except Failure Pentagon :=
  if p.isBottom then .ok p
  else if q.isBottom then .ok q
  else do
    closure (make (← Env.Checked.narrow p.bounds q.bounds) (← Env.Checked.narrow p.intervals q.intervals))

def assignIntervals (p : Pentagon) (x : Identifier) (e : Expr) : Except Failure (Env Interval) := do
  let assigned ← Env.Checked.assign p.intervals x e
  if isPositiveDifference p.bounds e then do
    let positive ← Interval.Checked.atLeast (.fin 1)
    return assigned.put x.name (← Interval.Checked.intersect (assigned.get x.name) positive)
  else .ok assigned

def assign (p : Pentagon) (x : Identifier) (e : Expr) : Except Failure Pentagon :=
  if p.isBottom then .ok p
  else do closure (make (← Bounds.Checked.assign p.bounds x e) (← assignIntervals p x e))

def assume (p : Pentagon) (e : Expr) : Except Failure Pentagon :=
  if p.isBottom then .ok p
  else do closure (make (← Bounds.Checked.assume p.bounds e) (← Env.Checked.assume p.intervals e))

def satisfies (p : Pentagon) (e : Expr) : Except Failure Satisfiability := do
  return (← Env.Checked.satisfies p.intervals e).meet (Bounds.satisfies p.bounds e)

def eval (p : Pentagon) (e : Expr) : Except Failure Interval := Env.Checked.eval p.intervals e

def forget (p : Pentagon) (x : String) : Except Failure Pentagon := do
  return make (← Bounds.Checked.forget p.bounds x) (p.intervals.forget x)

instance : CheckedLattice Pentagon where
  join := join
  meet := meet
  widen := widen
  narrow := narrow

instance : CheckedState Pentagon where
  assign := assign
  assume := assume
  satisfies := satisfies
  forget := forget

end Pentagon.Checked

end ValueAnalysis
