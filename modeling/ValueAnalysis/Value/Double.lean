import ValueAnalysis.Value.Quantity

/-!
Floating-point numbers `m * 2 ^ q`, with a significand `m` of at most 53 bits and an exponent `q` between
-1074 and 971. A fraction is rounded to the closest of them, and of two closest ones to that with an even
significand.
-/

namespace ValueAnalysis

inductive Double where
  | nan
  | infinite (negative : Bool)
  | finite (negative : Bool) (significand : Nat) (exponent : Int)
  deriving DecidableEq

namespace Double

def leastExponent : Int := -1074

def greatestExponent : Int := 971

def zero (negative : Bool) : Double := finite negative 0 leastExponent

/-- The integer closest to `n / d`, the even one of two. -/
def roundDiv (n d : Nat) : Nat :=
  let low := n / d
  let rest := n % d
  if 2 * rest < d || (2 * rest == d && low % 2 == 0) then low else low + 1

/-- Numerator and denominator of `n / d / base ^ k`. -/
def scaleDown (base n d : Nat) (k : Int) : Nat × Nat :=
  (n * Nat.pow base (-k).toNat, d * Nat.pow base k.toNat)

/-- The exponent of the greatest power of two that is at most `n / d`. -/
def leadingBit (n d : Nat) : Int :=
  let k : Int := (n.log2 : Int) - d.log2
  let (a, b) := scaleDown 2 n d k
  if b ≤ a then k else k - 1

/-- The number with the given significand and exponent, where rounding may have carried into one more bit
and the exponent may be too large. -/
def normalized (negative : Bool) (m : Nat) (q : Int) : Double :=
  let (m, q) := if m = Nat.pow 2 53 then (Nat.pow 2 52, q + 1) else (m, q)
  if greatestExponent < q then infinite negative else finite negative m q

def ofRatio (negative : Bool) (n d : Nat) : Double :=
  if n = 0 then zero negative
  else
    let q := max (leadingBit n d - 52) leastExponent
    let (a, b) := scaleDown 2 n d q
    normalized negative (roundDiv a b) q

def fraction (m : Nat) (q : Int) : Nat × Nat := scaleDown 2 m 1 (-q)

def quantity : Double → Quantity
  | nan => .nan
  | infinite negative => .infinite negative
  | finite negative m q =>
    let (n, d) := fraction m q
    .ratio (if negative then -(n : Int) else n) d

end Double

end ValueAnalysis
