import ValueAnalysis.Collection.NameSet
import ValueAnalysis.Domain

/-!
Sets of strict upper bounds of a variable. The more bounds are recorded, the more is known, so the order is
inclusion turned round: the empty set is top, the join is the intersection and the meet is the union. A
point below all sets stands for unreachable.
-/

namespace ValueAnalysis

inductive BoundSet where
  | unreachable
  | above (names : NameSet)
  deriving DecidableEq, Inhabited

namespace BoundSet

def top : BoundSet := above ∅

def make (names : List String) (isUnreachable : Bool) : Except Failure BoundSet :=
  if isUnreachable then
    if names.isEmpty then .ok unreachable else .error .bottomWithElements
  else .ok (above (.ofList names))

def names : BoundSet → NameSet
  | unreachable => ∅
  | above s => s

instance : Membership String BoundSet := ⟨fun b x => x ∈ b.names⟩

theorem mem_def {x : String} {b : BoundSet} : x ∈ b ↔ x ∈ b.names := Iff.rfl

instance (x : String) (b : BoundSet) : Decidable (x ∈ b) :=
  inferInstanceAs (Decidable (x ∈ b.names))

def isTop : BoundSet → Bool
  | unreachable => false
  | above s => s.isEmpty

def isBottom : BoundSet → Bool
  | unreachable => true
  | above _ => false

def insert (x : String) : BoundSet → BoundSet
  | unreachable => unreachable
  | above s => above (s.insert x)

def erase (x : String) : BoundSet → BoundSet
  | unreachable => unreachable
  | above s => above (s.erase x)

def singleton (x : String) : BoundSet := above (.singleton x)

def leq : BoundSet → BoundSet → Bool
  | unreachable, _ => true
  | above _, unreachable => false
  | above s, above t => decide (t ⊆ s)

def join : BoundSet → BoundSet → BoundSet
  | unreachable, b => b
  | a, unreachable => a
  | above s, above t => above (s.inter t)

def meet : BoundSet → BoundSet → BoundSet
  | above s, above t => above (s.union t)
  | _, _ => unreachable

/-- Keeps the later set as long as it only adds bounds, and gives up all of them otherwise. -/
def widen : BoundSet → BoundSet → BoundSet
  | unreachable, b => b
  | a, unreachable => a
  | above s, above t => if s.isEmpty then above s else if s ⊆ t then above t else top

def snapshot : BoundSet → Snapshot
  | unreachable => .bottom
  | above s => if s.isEmpty then .top else .setOf (s.names.map .text)

def widenRecords : BoundSet → BoundSet → List Record
  | above s, above t =>
    if s.isEmpty || s ⊆ t then []
    else [.debug .upperBounds ("bound set " ++ (above s).snapshot.render ++ " widened to top")]
  | _, _ => []

instance : AbstractDomain BoundSet where
  top := top
  bottom := unreachable
  isTop := isTop
  isBottom := isBottom
  leq := leq
  join := join
  meet := meet
  widen := widen
  narrow := meet
  snapshot := snapshot
  widenRecords := widenRecords

end BoundSet

end ValueAnalysis
