import ValueAnalysis.Bounds.State
import ValueAnalysis.Interval.Domain

/-!
Pentagons: the product of strict upper bounds and intervals. Closing a pentagon records the bounds that
follow from its intervals: when the interval of `x` lies below that of `y`, then `x < y`.
-/

namespace ValueAnalysis

structure Pentagon where
  bounds : Bounds
  intervals : Env Interval
  deriving DecidableEq, Inhabited

namespace Pentagon

def top : Pentagon := ⟨.top, .top⟩

def bottom : Pentagon := ⟨.bottom, .bottom⟩

def make (bounds : Bounds) (intervals : Env Interval) : Pentagon :=
  if bounds.isBottom || intervals.isBottom then bottom else ⟨bounds, intervals⟩

def isTop (p : Pentagon) : Bool := p.bounds.isTop && p.intervals.isTop

def isBottom (p : Pentagon) : Bool := p.bounds.isBottom && p.intervals.isBottom

def knows (p : Pentagon) (x : String) : Bool := p.intervals.knows x || p.bounds.knows x

def addBounds (s : Bounds) (extra : Table NameSet) : Bounds :=
  ⟨Table.merge (fun b n => n.elim (b.getD .top) fun names => (b.getD .top).meet (.above names))
    s.facts extra, s.unreachable⟩

def impliedBounds (known : Table Interval) (x : String) (a : Interval) : NameSet :=
  .ofList ((known.entries.filter fun e => e.1 ≠ x && decide (a.high < e.2.low)).map Prod.fst)

/-- The bounds that the intervals imply, for each variable with one that is not recorded. -/
def missingBounds (p : Pentagon) : Table NameSet :=
  p.intervals.facts.filterMap fun x a =>
    let implied := impliedBounds p.intervals.facts x a
    if implied.isEmpty || implied ⊆ (p.bounds.get x).names then none else some implied

def closure (p : Pentagon) : Pentagon :=
  if p.isBottom then p else make (addBounds p.bounds p.missingBounds) p.intervals

def closureRecords (p : Pentagon) : List Record :=
  if p.isBottom then []
  else p.missingBounds.entries.map fun e => .debug .pentagons
    ("closure: " ++ e.1 ++ " < " ++ (Value.list (e.2.names.map .text)).literal)

/-- The recorded bounds that the given intervals prove on their own. -/
def witnessedBounds (s : Bounds) (intervals : Env Interval) : Table NameSet :=
  s.facts.filterMap fun x b =>
    let witnessed := b.names.filter fun y =>
      !(intervals.get y).isEmpty && decide ((intervals.get x).high < (intervals.get y).low)
    if (intervals.get x).isEmpty || witnessed.isEmpty then none else some witnessed

/-- A pentagon is below another when its intervals are and each bound of the other is recorded, or follows
from the intervals. -/
def leq (p q : Pentagon) : Bool :=
  if p.bounds.isBottom || p.intervals.isBottom then true
  else if q.isBottom then false
  else
    p.intervals.leq q.intervals &&
      q.bounds.facts.entries.all fun e =>
        e.2.names.names.all fun y =>
          decide (y ∈ p.bounds.get e.1) ||
            (!(p.intervals.get y).isAll && decide ((p.intervals.get e.1).high < (p.intervals.get y).low))

/-- The bounds common to both, with those that one side records and the intervals of the other prove. -/
def joinBounds (p q : Pentagon) : Bounds :=
  addBounds (addBounds (p.bounds.join q.bounds) (witnessedBounds p.bounds q.intervals))
    (witnessedBounds q.bounds p.intervals)

def join (p q : Pentagon) : Pentagon :=
  if p.isBottom then q
  else if q.isBottom then p
  else make (joinBounds p q) (p.intervals.join q.intervals)

def meetOpen (p q : Pentagon) : Pentagon := make (p.bounds.meet q.bounds) (p.intervals.meet q.intervals)

def meet (p q : Pentagon) : Pentagon :=
  if p.isBottom then p else if q.isBottom then q else (meetOpen p q).closure

def meetRecords (p q : Pentagon) : List Record :=
  if p.isBottom || q.isBottom then [] else (meetOpen p q).closureRecords

/-- Componentwise widening. The result is not closed, or the bounds could keep growing. -/
def widen (p q : Pentagon) : Pentagon :=
  if p.isBottom then q
  else if q.isBottom then p
  else make (p.bounds.widen q.bounds) (p.intervals.widen q.intervals)

def widenRecords (p q : Pentagon) : List Record :=
  if p.isBottom || q.isBottom then []
  else p.bounds.widenRecords q.bounds ++ p.intervals.widenRecords q.intervals

def narrowOpen (p q : Pentagon) : Pentagon :=
  make (p.bounds.narrow q.bounds) (p.intervals.narrow q.intervals)

def narrow (p q : Pentagon) : Pentagon :=
  if p.isBottom then p else if q.isBottom then q else (narrowOpen p q).closure

def narrowRecords (p q : Pentagon) : List Record :=
  if p.isBottom || q.isBottom then [] else (narrowOpen p q).closureRecords

def names (p : Pentagon) : NameSet := p.intervals.names.union p.bounds.names

def snapshot (p : Pentagon) : Snapshot :=
  if p.isTop then .top
  else if p.isBottom then .bottom
  else .mapOf (p.names.names.map fun x =>
    (.text x, .list [(p.intervals.get x).snapshot, (p.bounds.get x).snapshot]))

instance : AbstractDomain Pentagon where
  top := top
  bottom := bottom
  isTop := isTop
  isBottom := isBottom
  leq := leq
  join := join
  meet := meet
  widen := widen
  narrow := narrow
  snapshot := snapshot
  meetRecords := meetRecords
  widenRecords := widenRecords
  narrowRecords := narrowRecords

def same (p q : Pentagon) : Bool := p.bounds.same q.bounds && p.intervals.same q.intervals

theorem same_symm {p q : Pentagon} (h : p.same q = true) : q.same p = true := by
  obtain ⟨hbounds, hintervals⟩ := (Bool.and_eq_true _ _).mp h
  simp [same, Env.same_symm hbounds, Env.same_symm hintervals]

end Pentagon

end ValueAnalysis
