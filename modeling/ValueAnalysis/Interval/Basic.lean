import ValueAnalysis.Value.Number

/-!
Intervals of integers. An interval has a lower bound below its upper one, with an infinite bound only on
its own side, or is empty, and then both bounds are undefined. The type holds nothing else.
-/

namespace ValueAnalysis

def boundsFault? (low high : ExtInt) : Option BoundsFault :=
  if low.isNan || high.isNan then
    if low.isNan && high.isNan then none else some .halfEmpty
  else if low = .posInf || high = .negInf then some .unreachable
  else if high < low then some .crossed
  else none

structure Interval where
  low : ExtInt
  high : ExtInt
  valid : boundsFault? low high = none
  deriving DecidableEq

namespace Interval

instance : Membership Int Interval := ⟨fun a n => a.low ≤ .fin n ∧ .fin n ≤ a.high⟩

theorem mem_def {n : Int} {a : Interval} : n ∈ a ↔ a.low ≤ .fin n ∧ .fin n ≤ a.high := Iff.rfl

instance (n : Int) (a : Interval) : Decidable (n ∈ a) :=
  inferInstanceAs (Decidable (a.low ≤ .fin n ∧ .fin n ≤ a.high))

def empty : Interval := ⟨.nan, .nan, rfl⟩

def all : Interval := ⟨.negInf, .posInf, rfl⟩

instance : Inhabited Interval := ⟨empty⟩

/-- The interval with the given bounds, which have to be those of one. -/
def new (low high : ExtInt) : Except Failure Interval :=
  match h : boundsFault? low high with
  | none => .ok ⟨low, high, h⟩
  | some fault => .error (.badBounds fault low high)

/-- The interval with the given bounds; crossed bounds give the empty one. -/
def of (low high : ExtInt) : Except Failure Interval :=
  if low.isNan && high.isNan then .ok empty
  else if high < low then .ok empty
  else new low high

def ofValues (low high : Value) : Except Failure Interval := do
  of (← low.toExtInt) (← high.toExtInt)

/-- The interval with the given bounds, and the empty one if there is none. -/
def ofBounds (low high : ExtInt) : Interval :=
  if h : boundsFault? low high = none then ⟨low, high, h⟩ else empty

def singleton (n : Int) : Interval := ofBounds (.fin n) (.fin n)

def atLeast (low : ExtInt) : Interval := ofBounds low .posInf

def atMost (high : ExtInt) : Interval := ofBounds .negInf high

def zero : Interval := singleton 0

def isEmpty (a : Interval) : Bool := a.low.isNan

def isSingleton (a : Interval) : Bool := a.low.isFinite && a.low == a.high

def isFinite (a : Interval) : Bool := a.low.isFinite && a.high.isFinite

def isAll (a : Interval) : Bool := a.low == .negInf && a.high == .posInf

def isZero (a : Interval) : Bool := a.low == .fin 0 && a.high == .fin 0

def constant? (a : Interval) : Option Int :=
  if a.isSingleton then a.low.toInt? else none

def contains (a : Interval) (n : ExtInt) : Bool :=
  !a.isEmpty && a.low ≤ n && n ≤ a.high

def includes (a b : Interval) : Bool :=
  if b.isEmpty then true
  else if a.isEmpty then false
  else a.low ≤ b.low && b.high ≤ a.high

def text (a : Interval) : String :=
  if a.isEmpty then "[]" else "[" ++ a.low.text ++ ", " ++ a.high.text ++ "]"

end Interval

end ValueAnalysis
