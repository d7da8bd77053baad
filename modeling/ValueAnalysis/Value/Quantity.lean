namespace ValueAnalysis

inductive Quantity where
  | nan
  | infinite (negative : Bool)
  | ratio (num : Int) (den : Nat)
  deriving DecidableEq

namespace Quantity

def ofInt (n : Int) : Quantity := ratio n 1

/-- Whether two quantities are the same number. The undefined one is the same as itself only when
`reflexive` says so. -/
def same (reflexive : Bool) : Quantity → Quantity → Bool
  | nan, nan => reflexive
  | infinite a, infinite b => a == b
  | ratio a b, ratio c d => a * d == c * b
  | _, _ => false

def truncate? : Quantity → Option Int
  | ratio num den => some (num.tdiv den)
  | _ => none

def integer? : Quantity → Option Int
  | ratio num den => if num % den = 0 then some (num / den) else none
  | _ => none

end Quantity

end ValueAnalysis
