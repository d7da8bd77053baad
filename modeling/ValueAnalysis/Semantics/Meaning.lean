import ValueAnalysis.Pentagon.Transfer
import ValueAnalysis.Semantics.Concrete

namespace ValueAnalysis

def Env.Models (env : Env Interval) (s : Store) : Prop := ∀ x, s x ∈ env.get x

def Bounds.Models (b : Bounds) (s : Store) : Prop :=
  b.isBottom = false ∧ ∀ x y, y ∈ b.get x → s x < s y

def Pentagon.Models (p : Pentagon) (s : Store) : Prop :=
  p.isBottom = false ∧ (∀ x, s x ∈ p.intervals.get x) ∧ ∀ x y, y ∈ p.bounds.get x → s x < s y

/-- No value that says nothing or everything is stored, and none at all in an unreachable environment. -/
def Env.WellFormed {L : Type} [AbstractDomain L] (env : Env L) : Prop :=
  (∀ x v, env.facts.get? x = some v → AbstractDomain.isTop v = false ∧ AbstractDomain.isBottom v = false) ∧
    (env.unreachable = true → env.facts = ∅)

def Pentagon.WellFormed (p : Pentagon) : Prop :=
  p.bounds.WellFormed ∧ p.intervals.WellFormed ∧ p.bounds.unreachable = p.intervals.unreachable

/-- A pentagon that records every bound its intervals imply. -/
def Pentagon.Closed (p : Pentagon) : Prop :=
  ∀ x y, x ≠ y → (p.intervals.get x).high < (p.intervals.get y).low → y ∈ p.bounds.get x

/-- A variable that a pentagon has a fact about: a key of one of its components, or a bound of some variable. -/
def Pentagon.Mentions (p : Pentagon) (x : String) : Prop :=
  x ∈ p.intervals.facts.keys ∨ x ∈ p.bounds.facts.keys ∨ ∃ y, x ∈ p.bounds.get y

inductive Command where
  | assign (x : Identifier) (e : Expr)
  | assume (e : Expr)
  | forget (x : String)

inductive Command.Step : Command → Store → Store → Prop where
  | assign {s : Store} {e : Expr} {n : Int} (x : Identifier) (h : Evaluates s e n) :
    Command.Step (.assign x e) s (s.set x.name n)
  | assume {s : Store} {e : Expr} (h : Truth true s e true) : Command.Step (.assume e) s s
  | forget (s : Store) (x : String) (n : Int) : Command.Step (.forget x) s (s.set x n)

def Command.run (p : Pentagon) : Command → Pentagon
  | .assign x e => p.assign x e
  | .assume e => p.assume e
  | .forget x => p.forget x

inductive Run : List Command → Store → Store → Prop where
  | nil (s : Store) : Run [] s s
  | cons {c : Command} {cs : List Command} {s t u : Store} (h : c.Step s t) (hs : Run cs t u) :
    Run (c :: cs) s u

def Pentagon.runAll (p : Pentagon) (cs : List Command) : Pentagon := cs.foldl Command.run p

end ValueAnalysis
