import ValueAnalysis.Bounds.BoundSet
import ValueAnalysis.Interval.Domain

/-!
The operations on values with every construction checked. Where an interval or a set of bounds is made from parts,
the parts go through the constructor that refuses bad ones, and an operation fails as soon as one of its
constructions does.
-/

namespace ValueAnalysis

def Table.sequence {α : Type} (t : Table (Except Failure α)) : Except Failure (Table α) := do
  t.entries.forM fun e => e.2.map fun _ => ()
  return t.filterMap fun _ r => r.toOption

/-- The results at some of the keys, less those that are not kept. -/
def Table.collect {α β γ : Type} (f : String → α → Option (Except Failure β)) (keep : β → Option γ)
    (t : Table α) : Except Failure (Table γ) := do
  return (← (t.filterMap f).sequence).filterMap fun _ b => keep b

class CheckedLattice (L : Type) [AbstractDomain L] where
  join : L → L → Except Failure L := fun a b => .ok (AbstractDomain.join a b)
  meet : L → L → Except Failure L := fun a b => .ok (AbstractDomain.meet a b)
  widen : L → L → Except Failure L := fun a b => .ok (AbstractDomain.widen a b)
  narrow : L → L → Except Failure L := fun a b => .ok (AbstractDomain.narrow a b)

namespace Interval.Checked

def hull (a b : Interval) : Except Failure Interval :=
  if a.isEmpty then .ok b
  else if b.isEmpty then .ok a
  else new (a.low.min b.low) (a.high.max b.high)

def intersect (a b : Interval) : Except Failure Interval :=
  if a.isEmpty || b.isEmpty then .ok empty
  else of (a.low.max b.low) (a.high.min b.high)

def negate (a : Interval) : Except Failure Interval :=
  if a.isEmpty then .ok a else new (-a.high) (-a.low)

def plus (a b : Interval) : Except Failure Interval := new (a.low + b.low) (a.high + b.high)

def minus (a b : Interval) : Except Failure Interval := new (a.low - b.high) (a.high - b.low)

def spanning : List ExtInt → Except Failure Interval
  | [] => .error (.badBounds .halfEmpty .nan .nan)
  | c :: cs => new (cs.foldl .min c) (cs.foldl .max c)

def times (a b : Interval) : Except Failure Interval :=
  spanning [a.low * b.low, a.low * b.high, a.high * b.low, a.high * b.high]

def quotientNonzero (a b : Interval) : Except Failure Interval :=
  spanning (quotientCorner a.low b.low ++ quotientCorner a.low b.high ++
    quotientCorner a.high b.low ++ quotientCorner a.high b.high)

def quotientBelow (a b : Interval) : Except Failure Interval :=
  if b.low < .fin 0 then do quotientNonzero a (← new b.low (.fin (-1))) else .ok empty

def quotientAbove (a b : Interval) : Except Failure Interval :=
  if .fin 0 < b.high then do quotientNonzero a (← new (.fin 1) b.high) else .ok empty

def quotient (a b : Interval) : Except Failure Interval :=
  if b.contains (.fin 0) then do hull (← quotientBelow a b) (← quotientAbove a b)
  else quotientNonzero a b

def widen (a b : Interval) : Except Failure Interval :=
  if a.isEmpty then .ok b
  else if b.isEmpty then .ok a
  else new (if b.low < a.low then .negInf else a.low) (if a.high < b.high then .posInf else a.high)

def narrow (a b : Interval) : Except Failure Interval :=
  if a.isEmpty then .ok a
  else if b.isEmpty then .ok b
  else of (if a.low = .negInf then b.low else a.low) (if a.high = .posInf then b.high else a.high)

instance : CheckedLattice Interval where
  join := hull
  meet := intersect
  widen := widen
  narrow := narrow

def atLeast (low : ExtInt) : Except Failure Interval := of low .posInf

def atMost (high : ExtInt) : Except Failure Interval := of .negInf high

def evalConstant (v : Value) : Except Failure Interval :=
  if v.integerLiteral?.isSome then ofValues v v else .ok all

def evalUnary : UnaryOp → Interval → Except Failure Interval
  | .negation, a => negate a
  | .stringLength, _ => atLeast (.fin 0)
  | _, _ => .ok all

def evalBinary (op : BinaryOp) (a b : Interval) : Except Failure Interval :=
  match op with
  | .mul =>
    if a.isZero || b.isZero then .ok zero
    else if a.isAll || b.isAll then .ok all
    else times a b
  | .div =>
    if b.isZero then .ok empty
    else if a.isZero then .ok zero
    else if a.isAll || b.isAll then .ok all
    else quotient a b
  | .add => if a.isAll || b.isAll then .ok all else plus a b
  | .sub => if a.isAll || b.isAll then .ok all else minus a b
  | _ => .ok all

def satisfiesEq (a b : Interval) : Except Failure Satisfiability := do
  let common ← intersect a b
  return if common.isEmpty then .notSatisfied else if a.isSingleton && a == b then .satisfied else .unknown

def satisfiesBinary : BinaryOp → Interval → Interval → Except Failure Satisfiability
  | .lt, a, b => .ok (satisfiesLt a b)
  | .le, a, b => .ok (satisfiesLe a b)
  | .gt, a, b => .ok (satisfiesLt b a)
  | .ge, a, b => .ok (satisfiesLe b a)
  | .eq, a, b => satisfiesEq a b
  | .ne, a, b => do return (← satisfiesEq a b).negate
  | _, _, _ => .ok .unknown

def refined? (op : BinaryOp) (a bound : Interval) : Except Failure (Option Interval) :=
  match op with
  | .lt => do return some (← intersect a (← atMost (bound.high - .fin 1)))
  | .le => do return some (← intersect a (← atMost bound.high))
  | .gt => do return some (← intersect a (← atLeast (bound.low + .fin 1)))
  | .ge => do return some (← intersect a (← atLeast bound.low))
  | .eq => do return some (← intersect a bound)
  | .ne => .ok (if a.isSingleton && a == bound then some empty else none)
  | _ => .ok none

def refineVariable (env : Env Interval) (x : String) (op : BinaryOp) (bound : Interval) :
    Except Failure (Env Interval) :=
  if bound.isEmpty then .ok .bottom
  else do
    match ← refined? op (env.get x) bound with
    | some a => return env.put x a
    | none => return env

end Interval.Checked

namespace BoundSet.Checked

def ofNames (s : NameSet) : Except Failure BoundSet := make s.names false

def insert (x : String) (b : BoundSet) : Except Failure BoundSet :=
  if b.isBottom then .ok b else ofNames (b.names.insert x)

def erase (x : String) (b : BoundSet) : Except Failure BoundSet :=
  if b.isBottom then .ok b else ofNames (b.names.erase x)

def join (a b : BoundSet) : Except Failure BoundSet :=
  if a.isBottom then .ok b
  else if b.isBottom then .ok a
  else ofNames (a.names.inter b.names)

def meet (a b : BoundSet) : Except Failure BoundSet :=
  if a.isBottom || b.isBottom then .ok .unreachable else ofNames (a.names.union b.names)

instance : CheckedLattice BoundSet where
  join := join
  meet := meet
  narrow := meet

end BoundSet.Checked

end ValueAnalysis
