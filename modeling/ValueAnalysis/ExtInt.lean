/-!
Extended integers: the integers with two infinities and an undefined number. The undefined number
absorbs every operation and the order relates it to nothing, so the bounds of an empty interval compare
false with everything.
-/

namespace ValueAnalysis

inductive ExtInt where
  | negInf
  | fin (n : Int)
  | posInf
  | nan
  deriving DecidableEq, Inhabited

namespace ExtInt

def isNan : ExtInt → Bool
  | nan => true
  | _ => false

def isFinite : ExtInt → Bool
  | fin _ => true
  | _ => false

def isInfinite : ExtInt → Bool
  | negInf | posInf => true
  | _ => false

def isZero : ExtInt → Bool
  | fin n => n == 0
  | _ => false

def isPositive : ExtInt → Bool
  | posInf => true
  | fin n => decide (0 < n)
  | _ => false

def isNegative : ExtInt → Bool
  | negInf => true
  | fin n => decide (n < 0)
  | _ => false

def toInt? : ExtInt → Option Int
  | fin n => some n
  | _ => none

protected def le : ExtInt → ExtInt → Prop
  | nan, _ => False
  | _, nan => False
  | negInf, _ => True
  | _, posInf => True
  | fin m, fin n => m ≤ n
  | _, _ => False

protected def lt : ExtInt → ExtInt → Prop
  | nan, _ => False
  | _, nan => False
  | fin m, fin n => m < n
  | negInf, negInf => False
  | negInf, _ => True
  | fin _, posInf => True
  | _, _ => False

instance : LE ExtInt := ⟨ExtInt.le⟩
instance : LT ExtInt := ⟨ExtInt.lt⟩

instance decidableLe : (a b : ExtInt) → Decidable (a ≤ b)
  | nan, _ => isFalse id
  | negInf, nan => isFalse id
  | fin _, nan => isFalse id
  | posInf, nan => isFalse id
  | negInf, negInf => isTrue trivial
  | negInf, fin _ => isTrue trivial
  | negInf, posInf => isTrue trivial
  | fin _, posInf => isTrue trivial
  | posInf, posInf => isTrue trivial
  | fin m, fin n => inferInstanceAs (Decidable (m ≤ n))
  | fin _, negInf => isFalse id
  | posInf, negInf => isFalse id
  | posInf, fin _ => isFalse id

instance decidableLt : (a b : ExtInt) → Decidable (a < b)
  | nan, _ => isFalse id
  | negInf, nan => isFalse id
  | fin _, nan => isFalse id
  | posInf, nan => isFalse id
  | negInf, negInf => isFalse id
  | negInf, fin _ => isTrue trivial
  | negInf, posInf => isTrue trivial
  | fin _, posInf => isTrue trivial
  | posInf, posInf => isFalse id
  | fin m, fin n => inferInstanceAs (Decidable (m < n))
  | fin _, negInf => isFalse id
  | posInf, negInf => isFalse id
  | posInf, fin _ => isFalse id

def min (a b : ExtInt) : ExtInt :=
  if a.isNan || b.isNan then nan else if a ≤ b then a else b

def max (a b : ExtInt) : ExtInt :=
  if a.isNan || b.isNan then nan else if b ≤ a then a else b

protected def neg : ExtInt → ExtInt
  | negInf => posInf
  | fin n => fin (-n)
  | posInf => negInf
  | nan => nan

/-- Opposite infinities have no sum. -/
protected def add : ExtInt → ExtInt → ExtInt
  | nan, _ => nan
  | _, nan => nan
  | fin m, fin n => fin (m + n)
  | posInf, negInf => nan
  | negInf, posInf => nan
  | posInf, _ => posInf
  | negInf, _ => negInf
  | fin _, b => b

/-- The product of `m` and the positive infinity. It is zero at zero, since an infinity only stands for
finite values without a limit. -/
def timesPosInf (m : Int) : ExtInt :=
  if m = 0 then fin 0 else if 0 < m then posInf else negInf

protected def mul : ExtInt → ExtInt → ExtInt
  | nan, _ => nan
  | _, nan => nan
  | fin m, fin n => fin (m * n)
  | fin m, posInf => timesPosInf m
  | fin m, negInf => timesPosInf (-m)
  | posInf, fin n => timesPosInf n
  | negInf, fin n => timesPosInf (-n)
  | posInf, posInf => posInf
  | negInf, negInf => posInf
  | posInf, negInf => negInf
  | negInf, posInf => negInf

instance : Neg ExtInt := ⟨ExtInt.neg⟩
instance : Add ExtInt := ⟨ExtInt.add⟩
instance : Sub ExtInt := ⟨fun a b => a + -b⟩
instance : Mul ExtInt := ⟨ExtInt.mul⟩

/-- Division that truncates toward zero. There is no quotient by zero and none of two infinities. -/
def div : ExtInt → ExtInt → ExtInt
  | nan, _ => nan
  | _, nan => nan
  | fin m, fin n => if n = 0 then nan else fin (m.tdiv n)
  | fin _, _ => fin 0
  | posInf, fin n => if n = 0 then nan else timesPosInf n
  | negInf, fin n => if n = 0 then nan else timesPosInf (-n)
  | _, _ => nan

def text : ExtInt → String
  | negInf => "-Inf"
  | fin n => toString n
  | posInf => "+Inf"
  | nan => "NaN"

end ExtInt

end ValueAnalysis
