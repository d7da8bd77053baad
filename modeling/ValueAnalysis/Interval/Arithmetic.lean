import ValueAnalysis.Interval.Basic

/-!
Interval arithmetic. A product or quotient is spanned by the results at the corners, the four pairs of
bounds. A divisor is split around zero, since no division by zero has a result.
-/

namespace ValueAnalysis.Interval

def hull (a b : Interval) : Interval :=
  if a.isEmpty then b
  else if b.isEmpty then a
  else ofBounds (a.low.min b.low) (a.high.max b.high)

def intersect (a b : Interval) : Interval :=
  if a.isEmpty || b.isEmpty then empty
  else ofBounds (a.low.max b.low) (a.high.min b.high)

def negate (a : Interval) : Interval :=
  if a.isEmpty then a else ofBounds (-a.high) (-a.low)

def plus (a b : Interval) : Interval := ofBounds (a.low + b.low) (a.high + b.high)

def minus (a b : Interval) : Interval := ofBounds (a.low - b.high) (a.high - b.low)

def spanning : List ExtInt → Interval
  | [] => empty
  | c :: cs => ofBounds (cs.foldl .min c) (cs.foldl .max c)

def times (a b : Interval) : Interval :=
  spanning [a.low * b.low, a.low * b.high, a.high * b.low, a.high * b.high]

/-- The quotients that a corner contributes. Where both bounds are infinite, arbitrarily large values are
divided by arbitrarily large ones, and anything from zero to the signed infinity can come out. -/
def quotientCorner (a b : ExtInt) : List ExtInt :=
  if a.isInfinite && b.isInfinite then
    [.fin 0, if a.isPositive == b.isPositive then .posInf else .negInf]
  else [a.div b]

def quotientNonzero (a b : Interval) : Interval :=
  spanning (quotientCorner a.low b.low ++ quotientCorner a.low b.high ++
    quotientCorner a.high b.low ++ quotientCorner a.high b.high)

def negativePart (b : Interval) : Interval := ofBounds b.low (.fin (-1))

def positivePart (b : Interval) : Interval := ofBounds (.fin 1) b.high

/-- Division that truncates toward zero, by the nonzero members of the divisor. -/
def quotient (a b : Interval) : Interval :=
  if b.contains (.fin 0) then
    hull (if b.low < .fin 0 then quotientNonzero a b.negativePart else empty)
      (if .fin 0 < b.high then quotientNonzero a b.positivePart else empty)
  else quotientNonzero a b

end ValueAnalysis.Interval
