/-!
Answers to the question whether a condition holds in an abstract state. They form a lattice with
`unknown` at the top and `bottom`, the answer of an unreachable state, below the two definite answers.
-/

namespace ValueAnalysis

inductive Satisfiability where
  | satisfied
  | notSatisfied
  | unknown
  | bottom
  deriving DecidableEq, Inhabited

namespace Satisfiability

def all : List Satisfiability := [satisfied, notSatisfied, unknown, bottom]

def name : Satisfiability → String
  | satisfied => "SATISFIED"
  | notSatisfied => "NOT_SATISFIED"
  | unknown => "UNKNOWN"
  | bottom => "BOTTOM"

def text : Satisfiability → String
  | satisfied => "satisfied"
  | notSatisfied => "not_satisfied"
  | unknown => "unknown"
  | bottom => "bottom"

def ofText? (s : String) : Option Satisfiability :=
  all.find? (·.text == s)

def ofBool : Bool → Satisfiability
  | true => satisfied
  | false => notSatisfied

def negate : Satisfiability → Satisfiability
  | satisfied => notSatisfied
  | notSatisfied => satisfied
  | a => a

/-- Conjunction. An unreachable side makes the whole unreachable, even beside a definite answer. -/
def and : Satisfiability → Satisfiability → Satisfiability
  | bottom, _ => bottom
  | _, bottom => bottom
  | notSatisfied, _ => notSatisfied
  | _, notSatisfied => notSatisfied
  | satisfied, satisfied => satisfied
  | _, _ => unknown

def or : Satisfiability → Satisfiability → Satisfiability
  | bottom, _ => bottom
  | _, bottom => bottom
  | satisfied, _ => satisfied
  | _, satisfied => satisfied
  | notSatisfied, notSatisfied => notSatisfied
  | _, _ => unknown

def join : Satisfiability → Satisfiability → Satisfiability
  | bottom, b => b
  | a, bottom => a
  | a, b => if a = b then a else unknown

/-- Combines two answers about one condition that were found independently. -/
def meet : Satisfiability → Satisfiability → Satisfiability
  | unknown, b => b
  | a, unknown => a
  | a, b => if a = b then a else bottom

end Satisfiability

end ValueAnalysis
