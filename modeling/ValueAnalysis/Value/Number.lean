import ValueAnalysis.Failure

namespace ValueAnalysis

/-- The extended integer of a number. Truth values are refused, and so is a float that is neither integral
nor infinite nor undefined. -/
def Value.toExtInt : Value → Except Failure ExtInt
  | number n => .ok n
  | bool b => .error (.booleanNumber (bool b))
  | int n => .ok (.fin n)
  | float .nan => .ok .nan
  | float (.infinite negative) => .ok (if negative then .negInf else .posInf)
  | float x =>
    match x.quantity.integer? with
    | some n => .ok (.fin n)
    | none => .error (.notNumber (float x))
  | v => .error (.notNumber v)

def ExtInt.toInt (n : ExtInt) : Except Failure Int :=
  match n.toInt? with
  | some m => .ok m
  | none => .error (.noInteger n)

end ValueAnalysis
