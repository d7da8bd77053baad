import ValueAnalysis.Knowledge
import ValueAnalysis.State

namespace ValueAnalysis

inductive AnyState where
  | intervals (env : Env Interval)
  | taints (env : Env Taint)
  | knowledge (env : Env Knowledge)
  | bounds (s : Bounds)
  | pentagon (p : Pentagon)

inductive Recipe where
  | intervals
  | taints
  | knowledge
  | bounds
  | pentagons
  | unreachablePentagons
  | valuesOf (typeName : String)

/-- The state that a recipe makes. An environment of values needs a domain that expressions can be
evaluated in. -/
def Recipe.run : Recipe → Except Failure AnyState
  | intervals => .ok (.intervals .top)
  | taints => .ok (.taints .top)
  | knowledge => .ok (.knowledge .top)
  | bounds => .ok (.bounds .top)
  | pentagons => .ok (.pentagon .top)
  | unreachablePentagons => .ok (.pentagon .bottom)
  | valuesOf typeName => .error (.noEvaluation typeName)

abbrev Registry := Table Recipe

namespace Registry

def standard : Registry :=
  .ofList [("interval", .intervals), ("upper_bounds", .bounds), ("pentagons", .pentagons),
    ("taint", .taints)]

def tags (r : Registry) : NameSet := .ofList r.keys

def recipe (r : Registry) (tag : String) : Except Failure Recipe :=
  match r.get? tag with
  | some f => .ok f
  | none => .error (.unknownDomain tag r.tags.names)

def create (r : Registry) (tag : String) : Except Failure AnyState := do
  (← r.recipe tag).run

end Registry

end ValueAnalysis
